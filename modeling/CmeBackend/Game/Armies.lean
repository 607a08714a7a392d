import CmeBackend.Game.Marches

/-!
# Every unit is accounted for

The units of one type, over all villages and all steps of the game in any order. A unit is in a
village, in a vault, under way with an attack, under way with a military exchange, or fallen
(`Account`), and there are as many as the orders count as delivered.

* `Sound`: what the tokens and the queued items know of the tables. `balanced_step` says that every
  step keeps it, and moves units along the routes (`Route`) only.
* `Regular`: what no step checks of its request.
* `armies_accounted`: in every run of regular requests, the accounts together change by what the orders
  deliver.
-/

namespace Cme.Game

open Js GameRules Attacks Battles Books Exchanges Production Production.Lifecycle Runs

variable {C : Catalog} {e : Env C} {w w' : World C} {d : GameDb C} {t : C.Ref} {k : ℕ}

/-! ## Accounts -/

inductive Account where
  | villages
  | vaults
  | war
  | fallen
  | road
  /-- What the orders count as delivered. Every unit comes from here. -/
  | barracks
  deriving DecidableEq

instance : Fintype Account where
  elems := {.villages, .vaults, .war, .fallen, .road, .barracks}
  complete account := by cases account <;> decide

theorem total_eq (b : Account → ℤ) : total b =
    b .villages + b .vaults + b .war + b .road + b .fallen + b .barracks := by
  have hall : total b = b .villages + (b .vaults + (b .war + (b .fallen + (b .road +
      (b .barracks + 0))))) := rfl
  rw [hall]
  ring

/-- Where units go from one account to another. -/
inductive Route : Account → Account → Prop
  | attack : Route .villages .war
  | attackerFalls : Route .war .fallen
  | defenderFalls : Route .villages .fallen
  | comeHome : Route .war .villages
  | send : Route .villages .road
  | deliver : Route .road .villages
  /-- Into a vault, or out of it. -/
  | store : Route .villages .vaults
  | produce : Route .barracks .villages

/-- The units of military exchanges that are not delivered. -/
def onRoad (w : World C) (t : C.Ref) : ℤ :=
  (w.transfers.map fun item => queued item.resources t).sum

def book (t : C.Ref) (w : World C) : Account → ℤ
  | .villages => held w.db.toDb t
  | .vaults => stored w.db.toDb t
  | .war => war w.db.toDb t
  | .fallen => fallen w.db.toDb t
  | .road => onRoad w t
  | .barracks => -ordered w.db t

/-- What the requests leave to the client: the counts of an attack are numbers under the names of
units, an exchange names no type twice, and a transfer to a vault or from it meets the condition under
which it conserves the resource. -/
def Regular (w : World C) : Action → Prop
  | .attack _ dto => ∀ u ∈ dto.keptUnits, WellFormatted C u.1 u.2
  | .send req _ => (req.sentResources.map Sent.type).Nodup
  | .transfer villageId facilityId req => Storage.Conserving villageId facilityId w.db.toDb req
  | _ => True

/-! ## The invariant -/

structure Sound (w : World C) : Prop where
  oneRow : w.db.OneRowPerType
  housed : Housed w.db.toDb
  /-- No two tokens stand for one attack. -/
  nodup : (w.attacks.map AttackToken.attackId ++ w.returns.map ReturnToken.attackId).Nodup
  marching : ∀ token ∈ w.attacks, ∃ a A, Marching w.db.toDb token a A
  returning : ∀ token ∈ w.returns, ∃ a A f, Returning w.db.toDb token a A f
  shipped : ∀ item ∈ w.transfers, Shipped w.db.toDb item
  booked : ∀ token ∈ w.orders, Booked w.db token

theorem Sound.start (hone : d.OneRowPerType) (hhoused : Housed d.toDb) : Sound (start d) where
  oneRow := hone
  housed := hhoused
  nodup := List.nodup_nil
  marching token h := by cases h
  returning token h := by cases h
  shipped item h := by cases h
  booked token h := by cases h

namespace Sound

/-- A step that does not write the attacks. -/
theorem of_frame (h : Sound w) (hkeeps : Keeps w.db.toDb w'.db.toDb)
    (hattacks : w'.db.attacks = w.db.attacks) (htokens : w'.attacks = w.attacks)
    (hreturns : w'.returns = w.returns) (hshipped : ∀ item ∈ w'.transfers, Shipped w'.db.toDb item)
    (hbooked : ∀ token ∈ w'.orders, Booked w'.db token) : Sound w' where
  oneRow := (hkeeps.oneRow h.oneRow h.housed).1
  housed := (hkeeps.oneRow h.oneRow h.housed).2
  nodup := htokens ▸ hreturns ▸ h.nodup
  marching token htoken :=
    have ⟨a, A, hm⟩ := h.marching token (htokens ▸ htoken)
    ⟨a, A, hm.keeps hkeeps (hattacks ▸ hm.row)⟩
  returning token htoken :=
    have ⟨a, A, f, hr⟩ := h.returning token (hreturns ▸ htoken)
    ⟨a, A, f, hr.keeps hkeeps (hattacks ▸ hr.row)⟩
  shipped := hshipped
  booked := hbooked

theorem shipped_keeps (h : Sound w) {d' : Db C} (hkeeps : Keeps w.db.toDb d') :
    ∀ item ∈ w.transfers, Shipped d' item :=
  fun item hitem => (h.shipped item hitem).keeps hkeeps

end Sound

/-- Nothing goes from one account to another. -/
theorem book_congr (hheld : held w'.db.toDb t = held w.db.toDb t)
    (hvaults : w'.db.villagesStorageResourceTypes = w.db.villagesStorageResourceTypes)
    (hattacks : w'.db.attacks = w.db.attacks) (htransfers : w'.transfers = w.transfers)
    (hordered : ordered w'.db t = ordered w.db t) : book t w' = book t w := by
  funext account
  cases account with
  | villages => exact hheld
  | vaults => exact stored_congr hvaults
  | war => exact war_congr hattacks
  | fallen => exact fallen_congr hattacks
  | road => simp only [book, onRoad, htransfers]
  | barracks => simp only [book, hordered]

/-! ## Steps -/

/-- A step keeps the invariant, and moves units along the routes only. -/
def Balanced (w w' : World C) : Prop :=
  Sound w' ∧ ∀ t, IsUnit t → Moves Route (book t w) (book t w')

theorem Balanced.refl (h : Sound w) : Balanced w w := ⟨h, fun _ _ => .refl⟩

/-- A step that writes no tokens, no vaults and no orders, and that keeps the units. -/
theorem Balanced.of_frame (d' : GameDb C) (h : Sound w) (hkeeps : Keeps w.db.toDb d'.toDb)
    (hheld : ∀ t, IsUnit t → held d'.toDb t = held w.db.toDb t)
    (hattacks : d'.attacks = w.db.attacks)
    (hvaults : d'.villagesStorageResourceTypes = w.db.villagesStorageResourceTypes)
    (horders : d'.orders = w.db.orders) : Balanced w { w with db := d' } := by
  have hordered : ∀ t, ordered d' t = ordered w.db t := by simp only [ordered, horders, implies_true]
  refine ⟨h.of_frame hkeeps hattacks rfl rfl (h.shipped_keeps hkeeps) fun token htoken => ?_,
    fun t ht => .of_eq (book_congr (hheld t ht) hvaults hattacks rfl (hordered t))⟩
  obtain ⟨o, ho, hid⟩ := h.booked token htoken
  exact ⟨o, by rwa [← horders] at ho, hid⟩

/-- The ids of the others differ from the id of the one that is taken out. -/
theorem ne_of_mem_eraseIdx {α : Type} {id : α → ℕ} {l : List α} {x : α} (hn : (l.map id).Nodup)
    (hk : l[k]? = some x) : ∀ y ∈ l.eraseIdx k, id y ≠ id x := by
  obtain ⟨hlt, rfl⟩ := List.getElem?_eq_some_iff.1 hk
  have hperm := (List.getElem_cons_eraseIdx_perm hlt).map id
  obtain ⟨hnot, -⟩ := List.nodup_cons.1 (hperm.nodup_iff.2 hn)
  exact fun y hy heq => hnot (heq ▸ List.mem_map_of_mem hy)

section Attack

variable {c : Clock} {dto : CreateAttackDto}

theorem balanced_attack (h : Sound w) (hformat : ∀ u ∈ dto.keptUnits, WellFormatted C u.1 u.2) :
    Balanced w (step e w (.attack c dto)) := by
  simp only [step]
  split
  next dep hcreate =>
    have hkeeps := keeps_create hcreate
    obtain ⟨a, A, hmarching, hA⟩ := marching_create hcreate hformat
    obtain ⟨new, -, -, htoken, -⟩ := attacks_create hcreate
    -- The id of the new attack is larger than those of the attacks that have tokens.
    have hnew : ∀ id a, w.db.attacks.get? id = some a → id ≠ dep.token.attackId := by
      rintro id a ha rfl
      rw [htoken, Table.get?_next] at ha
      cases ha
    constructor
    · refine {
        oneRow := (hkeeps.oneRow h.oneRow h.housed).1
        housed := (hkeeps.oneRow h.oneRow h.housed).2
        nodup := ?_
        marching := ?_
        returning := ?_
        shipped := h.shipped_keeps hkeeps
        booked := h.booked }
      · have hids : dep.token.attackId ∉
            w.attacks.map AttackToken.attackId ++ w.returns.map ReturnToken.attackId := by
          intro hmem
          rcases List.mem_append.1 hmem with hmem | hmem
          · obtain ⟨token, htoken, hid⟩ := List.mem_map.1 hmem
            obtain ⟨a, A, hm⟩ := h.marching token htoken
            exact hnew _ a hm.row hid
          · obtain ⟨token, htoken, hid⟩ := List.mem_map.1 hmem
            obtain ⟨a, A, f, hr⟩ := h.returning token htoken
            exact hnew _ a hr.row hid
        show (List.map _ (w.attacks ++ [dep.token]) ++ _).Nodup
        rw [List.map_append, List.map_singleton, List.append_assoc]
        exact (List.perm_middle.nodup_iff).2 (List.nodup_cons.2 ⟨hids, h.nodup⟩)
      · intro token hmem
        rcases List.mem_append.1 hmem with hmem | hmem
        · obtain ⟨a, A, hm⟩ := h.marching token hmem
          exact ⟨a, A, hm.keeps hkeeps (get?_create hcreate hm.row)⟩
        · rw [List.mem_singleton.1 hmem]
          exact ⟨a, A, hmarching⟩
      · intro token hmem
        obtain ⟨a, A, f, hr⟩ := h.returning token hmem
        exact ⟨a, A, f, hr.keeps hkeeps (get?_create hcreate hr.row)⟩
    · intro t ht
      obtain ⟨hwar, hfallen⟩ := war_create (t := t) hcreate hA
      refine .of_accounts .attack (by decide)
        (held_create hcreate h.oneRow h.housed hformat hA) hwar ?_
      rintro (_ | _ | _ | _ | _ | _) hne hne'
      · exact absurd rfl hne
      · exact stored_congr (vaults_create hcreate)
      · exact absurd rfl hne'
      · exact hfallen
      · rfl
      · rfl
  · exact .refl h

/-- What a battle takes from the attacker's army and from the defender's village. -/
theorem moves_fight {b b' : Account → ℤ} {m n : ℤ} (hvillages : b' .villages = b .villages + -n)
    (hwar : b' .war = b .war + -m) (hfallen : b' .fallen = b .fallen + (m + n))
    (hothers : b' .vaults = b .vaults ∧ b' .road = b .road ∧ b' .barracks = b .barracks) :
    Moves Route b b' := by
  obtain ⟨hvaults, hroad, hbarracks⟩ := hothers
  have hattacker : Moves Route b (transfer b .war .fallen m) :=
    .of_transfer .attackerFalls rfl
  have hdefender : b' = transfer (transfer b .war .fallen m) .villages .fallen n := by
    funext account
    cases account
    · simp [transfer, hvillages]
    · simp [transfer, hvaults]
    · simp [transfer, hwar]
    · simp [transfer, hfallen, add_assoc]
    · simp [transfer, hroad]
    · simp [transfer, hbarracks]
  exact hattacker.trans (.of_transfer .defenderFalls hdefender)

theorem balanced_fight (h : Sound w) : Balanced w (step e w (.fight k)) := by
  simp only [step]
  split
  next token hk =>
    obtain ⟨a, A, hmarching⟩ := h.marching token (List.mem_of_getElem? hk)
    have hr := resolved e.math hmarching h.oneRow
    generalize resolve e.math w.db.toDb token = resolved at hr ⊢
    obtain ⟨d', back⟩ := resolved
    dsimp only at hr ⊢
    have hperm : (w.attacks.map AttackToken.attackId).Perm
        (token.attackId :: (w.attacks.eraseIdx k).map AttackToken.attackId) := by
      obtain ⟨hlt, rfl⟩ := List.getElem?_eq_some_iff.1 hk
      exact ((List.getElem_cons_eraseIdx_perm hlt).map _).symm
    -- Neither the attacks nor the returns have another token of this attack.
    have hnodup := (hperm.append_right (w.returns.map ReturnToken.attackId)).nodup_iff.1 h.nodup
    rw [List.cons_append] at hnodup
    obtain ⟨hnot, hrest⟩ := List.nodup_cons.1 hnodup
    rw [List.mem_append, not_or] at hnot
    constructor
    · refine {
        oneRow := (hr.keeps.oneRow h.oneRow h.housed).1
        housed := (hr.keeps.oneRow h.oneRow h.housed).2
        nodup := ?_
        marching := fun token' hmem => ?_
        returning := fun token' hmem => ?_
        shipped := h.shipped_keeps hr.keeps
        booked := h.booked }
      · show (_ ++ List.map _ (w.returns ++ back.toList)).Nodup
        rw [List.map_append, ← List.append_assoc]
        cases back with
        | none => simpa using hrest
        | some token' =>
          have hid := (hr.returning token' rfl).1
          refine (List.perm_append_singleton _ _).nodup_iff.2 (List.nodup_cons.2 ⟨?_, hrest⟩)
          rw [hid, List.mem_append, not_or]
          exact hnot
      · obtain ⟨a', A', hm⟩ := h.marching token' (List.mem_of_mem_eraseIdx hmem)
        refine ⟨a', A', hm.keeps hr.keeps ((hr.others _ ?_).trans hm.row)⟩
        exact fun heq => hnot.1 (heq ▸ List.mem_map_of_mem hmem)
      · rcases List.mem_append.1 hmem with hmem | hmem
        · obtain ⟨a', A', f, hret⟩ := h.returning token' hmem
          refine ⟨a', A', f, hret.keeps hr.keeps ((hr.others _ ?_).trans hret.row)⟩
          exact fun heq => hnot.2 (heq ▸ List.mem_map_of_mem hmem)
        · obtain ⟨-, a', f, hret⟩ := hr.returning token' (Option.mem_toList.1 hmem)
          exact ⟨a', A, f, hret⟩
    · intro t ht
      obtain ⟨m, n, hheld, hwar, hfallen⟩ := hr.losses t ht
      refine moves_fight hheld hwar hfallen ⟨?_, rfl, rfl⟩
      exact stored_congr hr.vaults
  · exact .refl h

theorem balanced_comeHome (h : Sound w) :
    Balanced w (step e w (.comeHome k)) := by
  simp only [step]
  split
  next token hk =>
    obtain ⟨a, A, f, hreturning⟩ := h.returning token (List.mem_of_getElem? hk)
    have hr := returned hreturning h.oneRow h.housed
    obtain ⟨-, hreturns, hdisjoint⟩ := List.nodup_append'.1 h.nodup
    constructor
    · refine {
        oneRow := (hr.keeps.oneRow h.oneRow h.housed).1
        housed := (hr.keeps.oneRow h.oneRow h.housed).2
        nodup := ?_
        marching := fun token' hmem => ?_
        returning := fun token' hmem => ?_
        shipped := h.shipped_keeps hr.keeps
        booked := h.booked }
      · exact h.nodup.sublist ((List.Sublist.refl _).append ((List.eraseIdx_sublist _ k).map _))
      · obtain ⟨a', A', hm⟩ := h.marching token' hmem
        refine ⟨a', A', hm.keeps hr.keeps ((hr.others _ fun heq => ?_).trans hm.row)⟩
        exact hdisjoint (List.mem_map_of_mem hmem)
          (heq ▸ List.mem_map_of_mem (List.mem_of_getElem? hk))
      · obtain ⟨a', A', f', hret⟩ := h.returning token' (List.mem_of_mem_eraseIdx hmem)
        refine ⟨a', A', f', hret.keeps hr.keeps ((hr.others _ ?_).trans hret.row)⟩
        exact ne_of_mem_eraseIdx hreturns hk token' hmem
    · intro t ht
      obtain ⟨n, hheld, hwar, hfallen⟩ := hr.units t ht
      refine .of_accounts .comeHome (by decide) hwar hheld ?_
      rintro (_ | _ | _ | _ | _ | _) hne hne'
      · exact absurd rfl hne'
      · exact stored_congr hr.vaults
      · exact absurd rfl hne
      · exact hfallen
      · rfl
      · rfl
  · exact .refl h

end Attack

section Request

/-- A military exchange is on the road. -/
theorem balanced_send {req : Exchanges.Request} {unique : ℚ} (h : Sound w)
    (hn : (req.sentResources.map Sent.type).Nodup) :
    Balanced w (step e w (.send req unique)) := by
  simp only [step]
  split
  next c hcheck =>
    have hsends := sends_of_checkSend hcheck
    have hkeeps : Keeps w.db.toDb (w.db.saveEntities c.senderLeft) := keeps_saveEntities _
    constructor
    · refine h.of_frame hkeeps rfl rfl rfl (fun item hitem => ?_) h.booked
      rcases List.mem_append.1 hitem with hitem | hitem
      · exact h.shipped_keeps hkeeps item hitem
      · rw [List.mem_singleton.1 hitem]
        exact (shipped_item hsends hn).keeps hkeeps
    · intro t _
      refine .of_accounts .send (by decide) (held_send hsends hn h.oneRow) ?_ ?_
      · show ((w.transfers ++ [c.item unique]).map _).sum = _
        rw [List.map_append, List.sum_append, List.map_singleton, List.sum_singleton]
        rfl
      · rintro (_ | _ | _ | _ | _ | _) hne hne'
        · exact absurd rfl hne
        · rfl
        · rfl
        · rfl
        · exact absurd rfl hne'
        · rfl
  · exact .refl h

theorem balanced_deliver (h : Sound w) : Balanced w (step e w (.deliver k)) := by
  simp only [step]
  split
  next item hk =>
    have hshipped := h.shipped item (List.mem_of_getElem? hk)
    have hkeeps := keeps_deliver hshipped
    obtain ⟨-, hattacks, hvaults⟩ := @frame_deliver _ w.db.toDb item
    constructor
    · refine h.of_frame hkeeps hattacks rfl rfl (fun item' hitem => ?_) h.booked
      exact h.shipped_keeps hkeeps item' (List.mem_of_mem_eraseIdx hitem)
    · intro t _
      refine .of_accounts .deliver (by decide) ?_ (held_deliver hshipped) ?_
      · obtain ⟨hlt, rfl⟩ := List.getElem?_eq_some_iff.1 hk
        have hperm := (List.getElem_cons_eraseIdx_perm hlt).map fun item =>
          queued item.resources t
        have hsum := hperm.sum_eq
        rw [List.map_cons, List.sum_cons] at hsum
        show ((w.transfers.eraseIdx k).map fun item => queued item.resources t).sum =
          (w.transfers.map fun item => queued item.resources t).sum + _
        rw [← hsum]
        ring
      · rintro (_ | _ | _ | _ | _ | _) hne hne'
        · exact absurd rfl hne'
        · exact stored_congr hvaults
        · exact war_congr hattacks
        · exact fallen_congr hattacks
        · exact absurd rfl hne
        · rfl
  · exact .refl h

theorem balanced_exchange {req : Exchanges.Request} (h : Sound w) :
    Balanced w (step e w (.exchange req)) := by
  have hframe : ∀ f, (w.db.setCounts f).attacks = w.db.attacks ∧
      (w.db.setCounts f).villagesStorageResourceTypes = w.db.villagesStorageResourceTypes :=
    fun _ => ⟨rfl, rfl⟩
  obtain ⟨f, hf⟩ := @exchange_eq _ w.db.toDb req
  refine .of_frame { w.db with
    toDb := (exchangeResourcesBetweenSameUserVillages w.db.toDb req).1 } h keeps_exchange
    (fun _ ht => held_exchange ht) ?_ ?_ rfl
  · exact hf ▸ (hframe f).1
  · exact hf ▸ (hframe f).2

theorem sound_transfer {v f : ℕ} {req : Storage.Request} (h : Sound w) :
    Sound (step e w (.transfer v f req)) := by
  have hkeeps : Keeps w.db.toDb (Storage.step v f w.db.toDb req) := keeps_transfer
  obtain ⟨-, hattacks⟩ := @frame_transfer _ w.db.toDb v f req
  exact h.of_frame hkeeps hattacks rfl rfl (h.shipped_keeps hkeeps) h.booked

theorem balanced_transfer {v f : ℕ} {req : Storage.Request} (h : Sound w)
    (hok : Storage.Conserving v f w.db.toDb req) :
    Balanced w (step e w (.transfer v f req)) := by
  obtain ⟨-, hattacks⟩ := @frame_transfer _ w.db.toDb v f req
  constructor
  · exact sound_transfer h
  · intro t _
    obtain ⟨n, hheld, hstored⟩ := held_transfer hok t
    refine .of_accounts .store (by decide) hheld hstored ?_
    rintro (_ | _ | _ | _ | _ | _) hne hne'
    · exact absurd rfl hne
    · exact absurd rfl hne'
    · exact war_congr hattacks
    · exact fallen_congr hattacks
    · rfl
    · rfl

end Request

section Growth

/-- An order is placed, and its token is one of it. -/
theorem balanced_order {order : CreateOrder} (h : Sound w) :
    Balanced w (step e w (.order order)) := by
  simp only [step]
  split
  next c hcheck =>
    split
    next d' hplace =>
      have hkeeps := keeps_placeOrder hplace
      obtain ⟨-, hattacks, hvaults⟩ := frame_placeOrder hplace
      obtain ⟨hnew, hothers⟩ := booked_placeOrder hplace
      have hplaceable := placeable_of_payable (checkOrder_eq_ok hcheck)
      refine ⟨?_, fun t ht => .of_eq (book_congr (held_placeOrder hplace hplaceable ht) hvaults
        hattacks rfl (ordered_placeOrder hplace))⟩
      refine h.of_frame hkeeps hattacks rfl rfl (h.shipped_keeps hkeeps) fun token htoken => ?_
      rcases List.mem_append.1 htoken with htoken | htoken
      · exact hothers token (h.booked token htoken)
      · rw [List.mem_singleton.1 htoken]
        exact hnew
    next => exact .refl h
  · exact .refl h

/-- A unit that is produced comes from its order. -/
theorem balanced_produce {now : ℤ} (h : Sound w) : Balanced w (step e w (.produce k now)) := by
  simp only [step]
  split
  next token hk =>
    have hmem := List.mem_of_getElem? hk
    obtain ⟨o, ho, hid⟩ := h.booked token hmem
    -- Another token of the order is queued, or none.
    have hqueue : ∀ d' : GameDb C, (∀ token', Booked w.db token' → Booked d' token') →
        ∀ token' ∈ w.orders.eraseIdx k ++
          if (produce now w.db token).2 then [again token] else [], Booked d' token' := by
      intro d' hbooked token' htoken
      rcases List.mem_append.1 htoken with htoken | htoken
      · exact hbooked token' (h.booked token' (List.mem_of_mem_eraseIdx htoken))
      · split at htoken
        · rw [List.mem_singleton.1 htoken]
          exact hbooked token (h.booked token hmem)
        · cases htoken
    rcases produce_cases now w.db token with heq | ⟨sel, hsel, hdeliver⟩
    · rw [heq]
      exact ⟨h.of_frame (Game.Keeps.refl _) rfl rfl rfl h.shipped (hqueue w.db fun _ => id),
        fun t _ => .of_eq (book_congr rfl rfl rfl rfl rfl)⟩
    · obtain ⟨hmissing, -⟩ := found_selectRows ho hid hsel
      have hkeeps := keeps_deliverUnit hdeliver hmissing
      obtain ⟨-, hattacks, hvaults, hbooked⟩ := frame_deliverUnit hdeliver
      constructor
      · exact h.of_frame hkeeps hattacks rfl rfl (h.shipped_keeps hkeeps) (hqueue _ hbooked)
      · intro t _
        obtain ⟨hheld, hordered⟩ :=
          held_deliverUnit (t := t) hdeliver ho hid hsel h.oneRow h.housed
        refine .of_accounts .produce (by decide) ?_ hheld ?_
        · show -ordered _ t = -ordered w.db t + -_
          rw [hordered]
          ring
        · rintro (_ | _ | _ | _ | _ | _) hne hne'
          · exact absurd rfl hne'
          · exact stored_congr hvaults
          · exact war_congr hattacks
          · exact fallen_congr hattacks
          · rfl
          · exact absurd rfl hne
  · exact .refl h

theorem balanced_upgrade {facilityId userId : ℕ} (h : Sound w) :
    Balanced w (step e w (.upgrade facilityId userId)) := by
  simp only [step]
  split
  next c hcheck =>
    obtain ⟨-, hattacks, hvaults⟩ := @frame_pay _ w.db.toDb c.village c.resTypesCosts
    refine .of_frame _ h ?_ ?_ hattacks hvaults rfl
    · exact keeps_pay.trans (Game.Keeps.of_eq rfl fun _ hv => hv)
    · exact fun _ ht => held_pay (costs_checkUpgrade hcheck) ht
  · exact .refl h

theorem balanced_build {facility : Facilities.CreateFacility} {userId : ℕ} (h : Sound w)
    : Balanced w (step e w (.build facility userId)) := by
  simp only [step]
  split
  next c hcheck =>
    obtain ⟨-, hattacks, hvaults⟩ := @frame_pay _ w.db.toDb c.village c.resTypesCosts
    refine .of_frame _ h ?_ ?_ hattacks hvaults rfl
    · exact keeps_pay.trans (Game.Keeps.of_eq rfl fun _ hv => hv)
    · exact fun _ ht => held_pay (costs_checkCreate hcheck) ht
  · exact .refl h

theorem balanced_settle {village : NewVillage} {isNew : Bool} (h : Sound w) :
    Balanced w (step e w (.settle village isNew)) := by
  obtain ⟨hattacks, hvaults⟩ := @frame_createVillage _ w.db.toDb village isNew
  exact .of_frame { w.db with toDb := w.db.createVillage village isNew } h
    (keeps_createVillage h.housed isNew) (fun _ ht => held_createVillage h.housed ht isNew) hattacks
    hvaults rfl

theorem balanced_generate {village : NewVillage} (h : Sound w) :
    Balanced w (step e w (.generate village)) := by
  obtain ⟨hattacks, hvaults⟩ := @frame_generateVillage _ w.db.toDb village
  exact .of_frame { w.db with toDb := w.db.generateVillage village } h
    (keeps_generateVillage h.housed) (fun _ ht => held_generateVillage h.housed ht) hattacks hvaults rfl

end Growth

/-- Every step. -/
theorem balanced_step (h : Sound w) {a : Action} (hok : Regular w a) :
    Balanced w (step e w a) := by
  cases a with
  | attack c dto => exact balanced_attack h hok
  | fight k => exact balanced_fight h
  | comeHome k => exact balanced_comeHome h
  | send req unique => exact balanced_send h hok
  | deliver k => exact balanced_deliver h
  | exchange req => exact balanced_exchange h
  | transfer v f req => exact balanced_transfer h hok
  | order order => exact balanced_order h
  | produce k now => exact balanced_produce h
  | upgrade facilityId userId => exact balanced_upgrade h
  | build facility userId => exact balanced_build h
  | settle village isNew => exact balanced_settle h
  | generate village => exact balanced_generate h

/-! ## Runs -/

/-- **Every unit is accounted for.** In every run of regular requests, from a state with one row for
each type of a village that is there and with items in the queues as they are queued, units only go
along the routes. What the villages, the vaults, the attacks and the exchanges have and what has fallen
is what there was at the start, and what the orders have delivered since then. -/
theorem armies_accounted {w₀ : World C} (h : Reach (graph (step e)) Regular w₀ w)
    (hsound : Sound w₀) (ht : IsUnit t) :
    Moves Route (book t w₀) (book t w) ∧
      held w.db.toDb t + stored w.db.toDb t + war w.db.toDb t + onRoad w t + fallen w.db.toDb t =
        held w₀.db.toDb t + stored w₀.db.toDb t + war w₀.db.toDb t + onRoad w₀ t +
          fallen w₀.db.toDb t + (ordered w.db t - ordered w₀.db t) := by
  obtain ⟨-, hmoves⟩ := moves_of_reach (I := Sound) h hsound
    fun w a w' hw hok hstep => by
      rw [show w' = step e w a from hstep]
      obtain ⟨hw', hmoves⟩ := balanced_step hw hok
      exact ⟨hw', hmoves t ht⟩
  refine ⟨hmoves, ?_⟩
  have htotal := hmoves.total_eq
  rw [total_eq, total_eq] at htotal
  simp only [book] at htotal
  linarith

/-! ## A battle that is won -/

def sampleGame : GameDb sampleCatalog where
  toDb := Attacks.sampleDb
  orders := Table.empty
  production := fun _ => .none

def sampleEnv : Env sampleCatalog := ⟨sampleMath, false, fun _ => some 10, true, []⟩

/-- 28 of the 30 stone hunters of village 1 attack village 2. -/
def sampleAttack : Action := .attack sampleClock (Attacks.sampleRequest sampleHunters)

def sampleWorld : World sampleCatalog :=
  [sampleAttack, .fight 0, .comeHome 0].foldl (step sampleEnv) (start sampleGame)

theorem regular_sampleAttack : Regular (start sampleGame) sampleAttack := by
  intro u hu
  rw [List.mem_singleton.1 (List.mem_filter.1 hu).1]
  exact ⟨stoneHunter, 28, rfl, rfl, rfl, rfl⟩

/-- Of the 28, 4 have fallen. -/
theorem armies_accounted_sample :
    fallen sampleWorld.db.toDb stoneHunter = 4 ∧
      Moves Route (book stoneHunter (start sampleGame)) (book stoneHunter sampleWorld) ∧
      held sampleWorld.db.toDb stoneHunter + stored sampleWorld.db.toDb stoneHunter +
          war sampleWorld.db.toDb stoneHunter + onRoad sampleWorld stoneHunter +
          fallen sampleWorld.db.toDb stoneHunter =
        held sampleGame.toDb stoneHunter + stored sampleGame.toDb stoneHunter +
          war sampleGame.toDb stoneHunter + onRoad (start sampleGame) stoneHunter +
          fallen sampleGame.toDb stoneHunter +
          (ordered sampleWorld.db stoneHunter - ordered sampleGame stoneHunter) :=
  ⟨by decide +kernel, armies_accounted (((Reach.refl.next sampleAttack
    regular_sampleAttack).next (.fight 0) trivial).next (.comeHome 0) trivial)
    (.start (by decide) (by decide)) ⟨.stoneHunter, rfl⟩⟩

end Cme.Game
