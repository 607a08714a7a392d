import CmeBackend.Blockchain.DerivedWallets
import CmeBackend.Lib.Fields
import CmeBackend.Lib.Json

/-!
# Derivation paths

The path that `deriveWallet` (`blockchain-ms-mkc-relay.service.ts`) makes of a derivation id: the
bytes of the id as one number in base 16, cut into four accounts of 31 bits. Ids are 15 characters
of one byte each, so 120 bits, and the accounts have room for 124.

* `hexText`, `ofDigits_hexText`: the text in base 16, and the number that is read from it.
* `components_eq`: the accounts are the fields of the number (`Fields.split`).
* `recover`: the id of four accounts.
-/

namespace Cme.Blockchain.DerivedWallets

open Fields

variable {derivationId : String}

/-! ## The number of an id -/

/-- `Buffer.from(derivationId)` -/
def bytes (derivationId : String) : List Nat :=
  derivationId.toUTF8.data.toList.map UInt8.toNat

/-- `Buffer.from(derivationId).toString('hex')` -/
def hexText (derivationId : String) : List Char := (bytes derivationId).flatMap Js.Json.hexDigits

theorem lt_of_mem_bytes {byte : Nat} (h : byte ∈ bytes derivationId) : byte < 256 := by
  obtain ⟨b, -, rfl⟩ := List.mem_map.1 h
  exact b.toNat_lt

theorem accountIndex_eq_join (derivationId : String) :
    accountIndex derivationId = join 256 (bytes derivationId) := by
  unfold accountIndex join bytes
  rw [List.foldl_map]

/-- The number with the text of an id as its digits is the one of its bytes. -/
theorem ofDigits_hexText (derivationId : String) :
    Js.Number.ofDigits 16 (hexText derivationId) = accountIndex derivationId := by
  have hdigits : ∀ byte < 256, ∀ n, (Js.Json.hexDigits byte).foldl
      (fun n c => n * 16 + Js.Number.digitValue c) n = 256 * n + byte := by
    have hdigit : ∀ d < 16, Js.Number.digitValue (Nat.digitChar d) = d := by decide
    intro byte hbyte n
    simp only [Js.Json.hexDigits, List.foldl_cons, List.foldl_nil, hdigit (byte / 16) (by omega),
      hdigit (byte % 16) (by omega)]
    omega
  rw [accountIndex_eq_join]
  unfold Js.Number.ofDigits hexText join
  rw [List.foldl_flatMap]
  exact List.foldl_ext _ _ _ fun n byte hbyte => hdigits byte (lt_of_mem_bytes hbyte) n

/-! ## The accounts -/

/-- The accounts of an id, with the highest first. -/
def components (derivationId : String) : List Nat :=
  [account derivationId 3, account derivationId 2, account derivationId 1, account derivationId 0]

theorem components_eq (derivationId : String) :
    components derivationId = split (2 ^ 31) 4 (accountIndex derivationId) := by
  simp only [components, account, split, Nat.div_div_eq_div_mul, List.nil_append, List.cons_append,
    Nat.mul_zero, Nat.mul_one, Nat.pow_zero, Nat.div_one]
  rfl

theorem account_lt (derivationId : String) (i : Nat) : account derivationId i < 2 ^ 31 :=
  Nat.mod_lt _ (Nat.two_pow_pos 31)

/-! ## Ids -/

/-- An id of 15 characters of one byte each. -/
structure OneByteId (derivationId : String) : Prop where
  length_eq : derivationId.length = DERIVATION_INDEX_SIZE
  oneByte : ∀ c ∈ derivationId.toList, c.utf8Size = 1

instance (derivationId : String) : Decidable (OneByteId derivationId) :=
  decidable_of_iff (derivationId.length = DERIVATION_INDEX_SIZE ∧
      derivationId.toList.all (fun c => c.utf8Size = 1) = true)
    ⟨fun h => ⟨h.1, by simpa using h.2⟩, fun h => ⟨h.1, by simpa using h.2⟩⟩

theorem OneByteId.bytes_eq (h : OneByteId derivationId) :
    bytes derivationId = derivationId.toList.map Char.toNat := by
  have hencode : derivationId.toUTF8.data.toList =
      derivationId.toList.flatMap String.utf8EncodeChar := by
    rw [String.toUTF8, ← String.utf8Encode_toList, List.utf8Encode, List.data_toByteArray]
  have hbytes : ∀ cs : List Char, (∀ c ∈ cs, c.utf8Size = 1) →
      (cs.flatMap String.utf8EncodeChar).map UInt8.toNat = cs.map Char.toNat := by
    intro cs hcs
    induction cs with
    | nil => rfl
    | cons c cs ih =>
      have hc := hcs c List.mem_cons_self
      have hle := Char.utf8Size_eq_one_iff.1 hc
      rw [List.flatMap_cons, String.utf8EncodeChar_eq_singleton hc, List.map_append,
        ih fun c hc => hcs c (List.mem_cons_of_mem _ hc)]
      have hbyte : c.val.toUInt8.toNat = c.toNat := by
        rw [UInt32.le_iff_toNat_le] at hle
        rw [UInt32.toNat_toUInt8]
        exact Nat.mod_eq_of_lt (lt_of_le_of_lt hle (by decide))
      rw [List.map_singleton, hbyte]
      rfl
  unfold bytes
  rw [hencode, hbytes _ h.oneByte]

/-- The id with the accounts `components`. -/
def recover (components : List Nat) : String :=
  String.ofList ((split 256 DERIVATION_INDEX_SIZE (join (2 ^ 31) components)).map Char.ofNat)

theorem recover_components (h : OneByteId derivationId) :
    recover (components derivationId) = derivationId := by
  have hlength : (bytes derivationId).length = DERIVATION_INDEX_SIZE := by
    rw [h.bytes_eq, List.length_map, String.length_toList, h.length_eq]
  have hlt : accountIndex derivationId < (2 ^ 31) ^ 4 := by
    have hjoin := join_lt fun byte hbyte => @lt_of_mem_bytes derivationId byte hbyte
    rw [← accountIndex_eq_join, hlength] at hjoin
    exact hjoin.trans (by decide)
  unfold recover
  rw [components_eq, join_split hlt, accountIndex_eq_join, ← hlength,
    split_join fun byte hbyte => lt_of_mem_bytes hbyte, h.bytes_eq, List.map_map]
  have hid : (Char.ofNat ∘ Char.toNat) = id := funext Char.ofNat_toNat
  rw [hid, List.map_id, String.ofList_toList]

/-! ## Paths -/

/-- A decimal number ends at the first character that is no digit. -/
theorem toDigits_append_inj {m n : Nat} {rest rest' : List Char}
    (h : Nat.toDigits 10 m ++ '\'' :: rest = Nat.toDigits 10 n ++ '\'' :: rest') :
    m = n ∧ rest = rest' := by
  have hdigits : ∀ n, ∀ c ∈ Nat.toDigits 10 n, (c != '\'') = true := by
    intro n c hc
    rw [bne_iff_ne]
    rintro rfl
    exact Js.Number.apostrophe_not_mem_toDigits n hc
  have htake := congrArg (List.takeWhile (· != '\'')) h
  have hdrop := congrArg (List.dropWhile (· != '\'')) h
  rw [List.takeWhile_append_of_pos (hdigits m), List.takeWhile_append_of_pos (hdigits n)] at htake
  rw [List.dropWhile_append_of_pos (hdigits m), List.dropWhile_append_of_pos (hdigits n)] at hdrop
  simp only [List.takeWhile_cons, List.dropWhile_cons, bne_self_eq_false, Bool.false_eq_true,
    if_false, List.append_nil, List.cons.injEq, true_and] at htake hdrop
  have hvalue := congrArg (fun ds => Nat.ofDigitChars 10 ds 0) htake
  simp only [Nat.ofDigitChars_ten_toDigits] at hvalue
  exact ⟨hvalue, hdrop⟩

theorem toList_derivationPath (derivationId : String) :
    (derivationPath derivationId).toList = WALLET_DERIVATION_BASE_PATH.toList ++ '/' ::
      (Nat.toDigits 10 (account derivationId 0) ++ '\'' :: '/' ::
        (Nat.toDigits 10 (account derivationId 1) ++ '\'' :: '/' ::
          (Nat.toDigits 10 (account derivationId 2) ++ '\'' :: '/' ::
            (Nat.toDigits 10 (account derivationId 3) ++ '\'' :: ['/', '0'])))) := by
  have htext : ∀ n : Nat, (toString n).toList = Nat.toDigits 10 n := by
    intro n
    simp
  unfold derivationPath
  have hslash : (toString "/").toList = ['/'] := by decide
  have hsep : (toString "'/").toList = ['\'', '/'] := by decide
  have hend : (toString "'/0").toList = ['\'', '/', '0'] := by decide
  simp only [String.toList_append, htext, hslash, hsep, hend, List.append_assoc, List.cons_append,
    List.nil_append]
  rfl

/-- Equal paths have equal accounts. -/
theorem components_of_path {derivationId' : String}
    (h : derivationPath derivationId = derivationPath derivationId') :
    components derivationId = components derivationId' := by
  have htext := congrArg String.toList h
  rw [toList_derivationPath, toList_derivationPath] at htext
  have htext := List.cons.inj (List.append_cancel_left htext)
  obtain ⟨h₀, htext⟩ := toDigits_append_inj htext.2
  obtain ⟨h₁, htext⟩ := toDigits_append_inj (List.cons.inj htext).2
  obtain ⟨h₂, htext⟩ := toDigits_append_inj (List.cons.inj htext).2
  obtain ⟨h₃, -⟩ := toDigits_append_inj (List.cons.inj htext).2
  unfold components
  rw [h₀, h₁, h₂, h₃]

/-- Different ids have different paths, their accounts are valid hardened indices, and an id can be
recovered from its accounts. -/
theorem derivation_paths_unique (derivationId : String) (h : OneByteId derivationId) :
    (∀ derivationId', OneByteId derivationId' → derivationId ≠ derivationId' →
      derivationPath derivationId ≠ derivationPath derivationId') ∧
    (∀ i, account derivationId i < 2 ^ 31) ∧
    recover (components derivationId) = derivationId := by
  refine ⟨fun derivationId' h' hne heq => hne ?_, account_lt derivationId, recover_components h⟩
  rw [← recover_components h, components_of_path heq, recover_components h']

theorem derivation_paths_unique_sample :
    derivationPath "V1StGXR8_Z5jdHi" ≠ derivationPath "V1StGXR8_Z5jdHj" ∧
      recover (components "V1StGXR8_Z5jdHi") = "V1StGXR8_Z5jdHi" := by
  have hi : OneByteId "V1StGXR8_Z5jdHi" := by decide
  have hj : OneByteId "V1StGXR8_Z5jdHj" := by decide
  obtain ⟨hpath, -, hrecover⟩ := derivation_paths_unique _ hi
  exact ⟨hpath _ hj (by decide), hrecover⟩

end Cme.Blockchain.DerivedWallets
