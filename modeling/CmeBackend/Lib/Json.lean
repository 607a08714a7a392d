import CmeBackend.Lib.Js

/-!
# JSON values

What a program sees of a JSON value that a client has sent, and what becomes of the value when it
is written out again.

* Objects list their properties in enumeration order. `undefined` is not a JSON value: it is the
  `none` of a property that is missing. Properties that every object inherits are not modelled.
* `toText?` and `toNumber?` are the conversions that the operators make. The conversion of an object
  calls its `toString`. A property of that name that came with the JSON is not callable, and the
  conversion throws.
* `render` is `JSON.stringify`, and `roundTrip` the value that `JSON.parse` makes of its text.

The strings of a value are in its text letter by letter, so a character that the syntax of JSON does
not use is in the text exactly when it is in one of the strings (`apostrophe_mem_render`).
-/

namespace Js

inductive Json where
  | null
  | bool (b : Bool)
  | num (x : Number)
  | str (s : String)
  | arr (xs : List Json)
  | obj (fs : List (String × Json))

/-- The properties of an object. -/
abbrev Fields := List (String × Json)

/-- `{ ...fs, [name]: v }` -/
def Fields.set (name : String) (v : Json) : Fields → Fields
  | [] => [(name, v)]
  | (n, w) :: fs => if n = name then (n, v) :: fs else (n, w) :: set name v fs

/-- `_.mapValues` with a function that may throw. -/
def Fields.mapValues? (f : Json → Option Json) : Fields → Option Fields
  | [] => some []
  | (name, v) :: fs =>
    match f v, mapValues? f fs with
    | some w, some ws => some ((name, w) :: ws)
    | _, _ => none

namespace Json

/-- `v?.name`, where arrays and primitive values have no property of that name. -/
def get (v : Json) (name : String) : Option Json :=
  match v with
  | obj fs => fs.lookup name
  | _ => none

/-- `v.name`, which throws for `null`. -/
def property? (v : Json) (name : String) : Option (Option Json) :=
  match v with
  | null => none
  | v => some (v.get name)

/-! ## Conversions -/

mutual

/-- `String(v)` -/
def toText? : Json → Option (List Char)
  | null => some "null".toList
  | bool b => some (if b then "true".toList else "false".toList)
  | num x => some x.text
  | str s => some s.toList
  | arr xs => joined? [] xs
  | obj fs => if (fs.lookup "toString").isSome then none else some "[object Object]".toList

/-- The elements after the separator `sep`, with commas between them. -/
def joined? (sep : List Char) : List Json → Option (List Char)
  | [] => some []
  | null :: xs => (joined? [','] xs).map (sep ++ ·)
  | x :: xs =>
    match toText? x, joined? [','] xs with
    | some t, some ts => some (sep ++ t ++ ts)
    | _, _ => none

end

/-- The number that an arithmetic operator or a comparison with a number makes of its operand. -/
def toNumber? : Option Json → Option Number
  | none => some .nan
  | some null => some (.fin 0)
  | some (bool b) => some (.fin (if b then 1 else 0))
  | some (num x) => some x
  | some v => v.toText?.map Number.parse

def isNull : Json → Bool
  | null => true
  | _ => false

/-- `v === x` -/
def isNumber (v : Option Json) (x : Number) : Bool :=
  match v with
  | some (num y) => y.strictEq x
  | _ => false

/-- `!!v` -/
def truthy : Json → Bool
  | null => false
  | bool b => b
  | num x => x ≠ .fin 0 ∧ x ≠ .nan
  | str s => s ≠ ""
  | arr _ | obj _ => true

/-- `{ ...v, [name]: w }` of an object. -/
def set (v : Json) (name : String) (w : Json) : Json :=
  match v with
  | obj fs => obj (Fields.set name w fs)
  | v => v

@[simp] theorem isNumber_fin {v : Option Json} {x : ℚ} :
    isNumber v (.fin x) = true ↔ v = some (num (.fin x)) := by
  match v with
  | some (num (.fin y)) => simp [isNumber, Number.strictEq]
  | some (num .nan) | some (num (.inf _)) => simp [isNumber, Number.strictEq]
  | none | some null | some (bool _) | some (str _) | some (arr _) | some (obj _) =>
    simp [isNumber]

/-- Only objects have the properties that are read. -/
theorem eq_obj_of_get {v w : Json} {name : String} (h : v.get name = some w) :
    ∃ fs : Fields, v = obj fs := by
  cases v with
  | obj fs => exact ⟨fs, rfl⟩
  | _ => simp [get] at h

@[simp] theorem toNumber?_num (x : Number) : toNumber? (some (num x)) = some x := rfl

/-! ## Texts -/

def hexDigits (n : ℕ) : List Char := [Nat.digitChar (n / 16), Nat.digitChar (n % 16)]

/-- A character of a string literal. -/
def escape (c : Char) : List Char :=
  match c with
  | '"' => ['\\', '"']
  | '\\' => ['\\', '\\']
  | '\x08' => ['\\', 'b']
  | '\t' => ['\\', 't']
  | '\n' => ['\\', 'n']
  | '\x0c' => ['\\', 'f']
  | '\r' => ['\\', 'r']
  | c => if c.toNat < 32 then '\\' :: 'u' :: '0' :: '0' :: hexDigits c.toNat else [c]

def quote (s : String) : List Char := '"' :: (s.toList.flatMap escape ++ ['"'])

mutual

/-- `JSON.stringify(v)` -/
def render : Json → List Char
  | null => "null".toList
  | bool b => if b then "true".toList else "false".toList
  | num (.fin x) => Number.text (.fin x)
  | num _ => "null".toList
  | str s => quote s
  | arr xs => '[' :: (elements [] xs ++ [']'])
  | obj fs => '{' :: (members [] fs ++ ['}'])

def elements (sep : List Char) : List Json → List Char
  | [] => []
  | x :: xs => sep ++ render x ++ elements [','] xs

def members (sep : List Char) : List (String × Json) → List Char
  | [] => []
  | (name, v) :: fs => sep ++ quote name ++ ':' :: render v ++ members [','] fs

end

mutual

/-- The strings of a value and the names of its properties, at every depth. -/
def strings : Json → List String
  | str s => [s]
  | arr xs => stringsOfElements xs
  | obj fs => stringsOfMembers fs
  | _ => []

def stringsOfElements : List Json → List String
  | [] => []
  | x :: xs => strings x ++ stringsOfElements xs

def stringsOfMembers : List (String × Json) → List String
  | [] => []
  | (name, v) :: fs => name :: (strings v ++ stringsOfMembers fs)

end

mutual

/-- `JSON.parse(JSON.stringify(v))` -/
def roundTrip : Json → Json
  | num (.fin x) => num (.fin x)
  | num _ => null
  | arr xs => arr (roundTripElements xs)
  | obj fs => obj (roundTripMembers fs)
  | v => v

def roundTripElements : List Json → List Json
  | [] => []
  | x :: xs => roundTrip x :: roundTripElements xs

def roundTripMembers : List (String × Json) → List (String × Json)
  | [] => []
  | (name, v) :: fs => (name, roundTrip v) :: roundTripMembers fs

end

/-! ## Strings in the text -/

theorem apostrophe_mem_escape (c : Char) : '\'' ∈ escape c ↔ c = '\'' := by
  unfold escape
  split
  case h_8 =>
    split
    · have hc : c ≠ '\'' := by rintro rfl; contradiction
      have hhex : ∀ n, '\'' ≠ Nat.digitChar n := by simp
      simp [hexDigits, hc, hhex]
    · simp [eq_comm]
  all_goals simp

theorem apostrophe_mem_quote (s : String) : '\'' ∈ quote s ↔ '\'' ∈ s.toList := by
  simp [quote, apostrophe_mem_escape]

mutual

/-- The text of a value has an apostrophe exactly if one of its strings does. -/
theorem apostrophe_mem_render :
    (v : Json) → ('\'' ∈ v.render ↔ ∃ s ∈ v.strings, '\'' ∈ s.toList)
  | null => by simp [render, strings]
  | bool b => by cases b <;> simp [render, strings]
  | num (.fin x) => by simp [render, strings, Number.apostrophe_not_mem_text]
  | num .nan | num (.inf _) => by simp [render, strings]
  | str s => by simp [render, strings, apostrophe_mem_quote]
  | arr xs => by simp [render, strings, apostrophe_mem_elements List.not_mem_nil xs]
  | obj fs => by simp [render, strings, apostrophe_mem_members List.not_mem_nil fs]

theorem apostrophe_mem_elements {sep : List Char} (hsep : '\'' ∉ sep) :
    (xs : List Json) → ('\'' ∈ elements sep xs ↔ ∃ s ∈ stringsOfElements xs, '\'' ∈ s.toList)
  | [] => by simp [elements, stringsOfElements]
  | x :: xs => by
    have hx := apostrophe_mem_render x
    have hxs := @apostrophe_mem_elements [','] (by simp) xs
    simp [elements, stringsOfElements, hsep, hx, hxs, or_and_right, exists_or]

theorem apostrophe_mem_members {sep : List Char} (hsep : '\'' ∉ sep) :
    (fs : Fields) → ('\'' ∈ members sep fs ↔ ∃ s ∈ stringsOfMembers fs, '\'' ∈ s.toList)
  | [] => by simp [members, stringsOfMembers]
  | (name, v) :: fs => by
    have hv := apostrophe_mem_render v
    have hfs := @apostrophe_mem_members [','] (by simp) fs
    simp [members, stringsOfMembers, hsep, apostrophe_mem_quote, hv, hfs, or_and_right, exists_or]

end

theorem mem_stringsOfMembers {s : String} {fs : Fields} :
    s ∈ stringsOfMembers fs ↔ ∃ f ∈ fs, s = f.1 ∨ s ∈ f.2.strings := by
  induction fs with
  | nil => simp [stringsOfMembers]
  | cons f fs ih => simp [stringsOfMembers, ih, or_assoc]

/-! ## Round trips -/

mutual

@[simp] theorem strings_roundTrip : (v : Json) → v.roundTrip.strings = v.strings
  | null | bool _ | str _ => rfl
  | num (.fin _) | num .nan | num (.inf _) => rfl
  | arr xs => stringsOfElements_roundTrip xs
  | obj fs => stringsOfMembers_roundTrip fs

theorem stringsOfElements_roundTrip :
    (xs : List Json) → stringsOfElements (roundTripElements xs) = stringsOfElements xs
  | [] => rfl
  | x :: xs => by
    simp only [roundTripElements, stringsOfElements, strings_roundTrip x,
      stringsOfElements_roundTrip xs]

theorem stringsOfMembers_roundTrip :
    (fs : Fields) → stringsOfMembers (roundTripMembers fs) = stringsOfMembers fs
  | [] => rfl
  | (name, v) :: fs => by
    simp only [roundTripMembers, stringsOfMembers, strings_roundTrip v,
      stringsOfMembers_roundTrip fs]

end

theorem roundTripMembers_eq_map (fs : Fields) :
    roundTripMembers fs = fs.map fun f => (f.1, f.2.roundTrip) := by
  induction fs with
  | nil => rfl
  | cons f fs ih => rw [roundTripMembers, ih]; rfl

theorem lookup_roundTripMembers (fs : Fields) (name : String) :
    (roundTripMembers fs).lookup name = (fs.lookup name).map roundTrip := by
  induction fs with
  | nil => rfl
  | cons f fs ih =>
    obtain ⟨n, v⟩ := f
    simp only [roundTripMembers, List.lookup_cons, ih]
    cases name == n <;> rfl

/-- A list of elements converts if each of them does. -/
theorem isSome_joined?_cons (sep : List Char) (x : Json) (xs : List Json) :
    (joined? sep (x :: xs)).isSome = (x.toText?.isSome && (joined? [','] xs).isSome) := by
  cases x with
  | null => simp [joined?, toText?]
  | bool | num | str => simp only [joined?, toText?]; cases joined? [','] xs <;> rfl
  | arr ys => simp only [joined?]; cases toText? (arr ys) <;> cases joined? [','] xs <;> rfl
  | obj fs => simp only [joined?]; cases toText? (obj fs) <;> cases joined? [','] xs <;> rfl

mutual

/-- A conversion that does not throw does not throw after a round trip. -/
theorem isSome_toText?_roundTrip : (v : Json) → v.roundTrip.toText?.isSome = v.toText?.isSome
  | null | bool _ | str _ => rfl
  | num (.fin _) | num .nan | num (.inf _) => rfl
  | arr xs => isSome_joined?_roundTrip [] xs
  | obj fs => by
    simp only [roundTrip, toText?, lookup_roundTripMembers, Option.isSome_map]

theorem isSome_joined?_roundTrip (sep : List Char) :
    (xs : List Json) → (joined? sep (roundTripElements xs)).isSome = (joined? sep xs).isSome
  | [] => rfl
  | x :: xs => by
    rw [roundTripElements, isSome_joined?_cons, isSome_joined?_cons, isSome_toText?_roundTrip x,
      isSome_joined?_roundTrip [','] xs]

end

/-- A number that a conversion makes is made after a round trip too. -/
theorem isSome_toNumber?_roundTrip (v : Option Json) :
    (toNumber? (v.map roundTrip)).isSome = (toNumber? v).isSome := by
  match v with
  | none | some null | some (bool _) => rfl
  | some (num (.fin _)) | some (num .nan) | some (num (.inf _)) => rfl
  | some (str s) => rfl
  | some (arr xs) =>
    show (Option.map _ _).isSome = (Option.map _ _).isSome
    rw [Option.isSome_map, Option.isSome_map]
    exact isSome_toText?_roundTrip (arr xs)
  | some (obj fs) =>
    show (Option.map _ _).isSome = (Option.map _ _).isSome
    rw [Option.isSome_map, Option.isSome_map]
    exact isSome_toText?_roundTrip (obj fs)

end Json

namespace Fields

variable {name : String} {v : Json} {fs : Fields}

@[simp] theorem lookup_set : (fs.set name v).lookup name = some v := by
  induction fs with
  | nil => simp [set]
  | cons f fs ih =>
    obtain ⟨n, w⟩ := f
    unfold set
    split
    case isTrue h => subst h; exact List.lookup_cons_self
    case isFalse h =>
      have hne : (name == n) = false := by simpa using Ne.symm h
      simp only [List.lookup_cons, hne, ih]

theorem lookup_set_of_ne {other : String} (h : other ≠ name) :
    (fs.set name v).lookup other = fs.lookup other := by
  have hne : (other == name) = false := by simpa using h
  induction fs with
  | nil => simp [set, List.lookup_cons, hne]
  | cons f fs ih =>
    obtain ⟨n, w⟩ := f
    unfold set
    split
    case isTrue hn => subst hn; simp only [List.lookup_cons, hne]
    case isFalse => simp only [List.lookup_cons, ih]

/-- A property of the extended object is the new one or was there before. -/
theorem mem_set {f : String × Json} (h : f ∈ fs.set name v) : f = (name, v) ∨ f ∈ fs := by
  induction fs with
  | nil => exact .inl (by simpa [set] using h)
  | cons g fs ih =>
    obtain ⟨n, w⟩ := g
    unfold set at h
    split at h
    case isTrue hn =>
      subst hn
      rcases List.mem_cons.1 h with rfl | h
      · exact .inl rfl
      · exact .inr (List.mem_cons_of_mem _ h)
    case isFalse =>
      rcases List.mem_cons.1 h with rfl | h
      · exact .inr List.mem_cons_self
      · exact (ih h).imp_right (List.mem_cons_of_mem _)

theorem isSome_mapValues? {f : Json → Option Json} {fs : Fields}
    (h : ∀ x ∈ fs, (f x.2).isSome) : (fs.mapValues? f).isSome := by
  induction fs with
  | nil => rfl
  | cons x fs ih =>
    obtain ⟨n, v⟩ := x
    obtain ⟨w, hw⟩ := Option.isSome_iff_exists.1 (h _ List.mem_cons_self)
    obtain ⟨ws, hws⟩ :=
      Option.isSome_iff_exists.1 (ih fun x hx => h x (List.mem_cons_of_mem _ hx))
    simp only [mapValues?] at *
    simp [hw, hws]

/-- The entries of the result come from the entries of the map, one by one. -/
theorem forall₂_mapValues? {f : Json → Option Json} {fs ws : Fields}
    (h : fs.mapValues? f = some ws) :
    List.Forall₂ (fun x y => y.1 = x.1 ∧ f x.2 = some y.2) fs ws := by
  induction fs generalizing ws with
  | nil => cases h; exact .nil
  | cons x fs ih =>
    obtain ⟨n, v⟩ := x
    simp only [mapValues?] at h
    split at h
    · next w ws' hw hws =>
      cases h
      exact .cons ⟨rfl, hw⟩ (ih hws)
    · cases h

theorem mem_mapValues? {f : Json → Option Json} {fs ws : Fields} (h : fs.mapValues? f = some ws)
    {y : String × Json} (hy : y ∈ ws) : ∃ x ∈ fs, y.1 = x.1 ∧ f x.2 = some y.2 := by
  have hall := forall₂_mapValues? h
  clear h
  induction hall with
  | nil => cases hy
  | cons hxy _ ih =>
    rcases List.mem_cons.1 hy with rfl | hy
    · exact ⟨_, List.mem_cons_self, hxy⟩
    · obtain ⟨x, hx, hxy⟩ := ih hy
      exact ⟨x, List.mem_cons_of_mem _ hx, hxy⟩

end Fields

end Js
