import CmeBackend.Battles.Steps
import CmeBackend.Facilities.Building
import CmeBackend.Lib.Runs
import CmeBackend.Production.Orders

/-!
# Counts under concurrent spending

Upgrades, new facilities, orders and battles read the rows of a village, compute what they take, and
take it later. The statements that take it subtract from whatever the rows hold by then.

* `Withdrawal`: what an operation takes next, with the rows that it has read.
* `step`: a check or a write of one operation. The steps of different operations come in any order.
* `Backed`: every amount has been checked against a row that was read.
* `nonNegative_subtract_iff`: when a statement leaves no count below zero.
-/

namespace Cme.Solvency

open Runs Battles

variable {C : Catalog}

/-- Where an operation is. -/
inductive Phase (C : Catalog) where
  | idle
  | upgrading (c : Facilities.CheckedUpgrade C)
  | building (c : Facilities.CheckedCreate C)
  | ordering (c : Production.CheckedOrder C)
  /-- A battle that has read the units of the defender. -/
  | fighting (report : AttackReport) (read : List (VillageResourceType C))
  /-- A battle that the attacker has won. -/
  | won (report : AttackReport)
  /-- A battle that has read what may be looted. -/
  | looting (report : AttackReport) (stolen : List StolenResource)
      (read : List (VillageResourceType C))

structure State (C : Catalog) where
  db : GameDb C
  phase : ℕ → Phase C

/-- What the operations need besides the tables. -/
structure Env where
  math : Js.Math
  withVillage : Bool
  facilityTypes : List (ℕ × String)

inductive Action where
  | upgrade (i facilityId userId : ℕ)
  | create (i : ℕ) (facility : Facilities.CreateFacility) (userId : ℕ)
  | order (i : ℕ) (order : Production.CreateOrder)
  /-- The battle of a token reads the units of the defender. -/
  | battle (i : ℕ) (token : Attacks.AttackToken)
  /-- A battle reads what may be looted. -/
  | loot (i : ℕ)
  /-- The operation `i` takes what it has computed. -/
  | write (i : ℕ)
  /-- The operation `i` fails, and its transaction is rolled back. -/
  | abort (i : ℕ)

/-! ## The steps -/

namespace State

variable (s : State C)

def goto (i : ℕ) (p : Phase C) : State C := { s with phase := Function.update s.phase i p }

/-- The tables of the villages after a statement, or a failure. -/
def execute (i : ℕ) (d : Option (Db C)) (p : Phase C) : State C :=
  match d with
  | some d => { s with db := { s.db with toDb := d } }.goto i p
  | none => s.goto i .idle

/-- The write of the operation `i`. -/
def write (i : ℕ) : State C :=
  match s.phase i with
  | .upgrading c => { s with db := Facilities.upgradeFacility s.db c }.goto i .idle
  | .building c => { s with db := Facilities.create s.db c }.goto i .idle
  | .ordering c => { s with db := (Production.placeOrder s.db c).getD s.db }.goto i .idle
  | .fighting report _ =>
    s.execute i (execReportQuery s.db.toDb report)
      (if report.WonByAttacker then .won report else .idle)
  | .looting report stolen _ =>
    s.execute i
      ((takeLoot s.db.toDb report.defenderVillageId stolen).map fun d =>
        recordLoot d report.attackId stolen)
      .idle
  | _ => s

end State

/-- One step. An action that is not the next one of its operation does nothing. -/
def step (e : Env) (s : State C) : Action → State C
  | .upgrade i facilityId userId =>
    match s.phase i, Facilities.checkUpgrade s.db facilityId userId with
    | .idle, .ok c => s.goto i (.upgrading c)
    | _, _ => s
  | .create i facility userId =>
    match s.phase i, Facilities.checkCreate e.facilityTypes s.db facility userId with
    | .idle, .ok c => s.goto i (.building c)
    | _, _ => s
  | .order i order =>
    match s.phase i, Production.checkOrder e.withVillage s.db order with
    | .idle, .ok c => s.goto i (.ordering c)
    | _, _ => s
  | .battle i token =>
    match s.phase i, battleReport e.math s.db.toDb (parsedAttack token) with
    | .idle, some report => s.goto i (.fighting report (s.db.rowsOf report.defenderVillageId))
    | _, _ => s
  | .loot i =>
    match s.phase i with
    | .won report =>
      match stolenResources s.db.toDb report.defenderVillageId report.attackerUnits with
      | some stolen => s.goto i (.looting report stolen (s.db.rowsOf report.defenderVillageId))
      | none => s.goto i .idle
    | _ => s
  | .write i => s.write i
  | .abort i => s.goto i .idle

/-- No operation is under way. -/
def start (d : GameDb C) : State C := ⟨d, fun _ => .idle⟩

/-! ## The property and its condition -/

/-- No count is below zero. -/
def NonNegative (d : Db C) : Prop := ∀ r ∈ d.villagesResourceTypes.rows, 0 ≤ r.count

/-- The statement that an operation executes next, with the rows that it has read. -/
structure Withdrawal (C : Catalog) where
  villageId : ℕ
  values : List (ℕ × ℚ)
  read : List (VillageResourceType C)

def Phase.withdrawal : Phase C → Option (Withdrawal C)
  | .upgrading c =>
    some ⟨c.village.village.id, Facilities.payments c.village c.resTypesCosts,
      c.village.villagesResourceTypes⟩
  | .building c =>
    some ⟨c.village.village.id, Facilities.payments c.village c.resTypesCosts,
      c.village.villagesResourceTypes⟩
  | .ordering c =>
    (Production.resourceTypeIdAmounts c).map fun amounts =>
      ⟨c.village.village.id, amounts, c.village.villagesResourceTypes⟩
  | .fighting report read =>
    (sqlValues? report.defenderCasualties).map fun casualties =>
      ⟨report.defenderVillageId, casualties, read⟩
  | .looting report stolen read =>
    (stolenValues? stolen).map fun values => ⟨report.defenderVillageId, values, read⟩
  | _ => none

/-- No row that the statement takes from holds less than was read of its type. -/
def Withdrawal.Unspent (w : Withdrawal C) (d : Db C) : Prop :=
  ∀ r ∈ d.rowsOf w.villageId, (w.values.lookup r.resourceType.id).isSome →
    ∀ r' ∈ w.read, r'.resourceType = r.resourceType → r'.count ≤ r.count

/-- A write finds the rows that it takes from no lower than they were read. -/
def Undisturbed (s : State C) : Action → Prop
  | .write i => ∀ w ∈ (s.phase i).withdrawal, w.Unspent s.db.toDb
  | _ => True

instance (d : Db C) : Decidable (NonNegative d) := inferInstanceAs (Decidable (∀ r ∈ _, _))

instance (w : Withdrawal C) (d : Db C) : Decidable (w.Unspent d) :=
  inferInstanceAs (Decidable (∀ r ∈ _, _ → ∀ r' ∈ _, _ → _))

/-! ## What has been checked -/

/-- Every amount is one that a row held when it was read. -/
def Withdrawal.Backed (w : Withdrawal C) : Prop :=
  ∀ p ∈ w.values, ∃ r ∈ w.read, r.resourceType.id = p.1 ∧ p.2 ≤ r.count

/-- An operation has passed its checks on the tables as they were. -/
def Phase.Checked : Phase C → Prop
  | .upgrading c => ∃ d, Facilities.CanPay d c.village c.resTypesCosts
  | .building c => ∃ d, Facilities.CanPay d c.village c.resTypesCosts
  | .ordering c => ∃ withVillage d order, Production.Payable withVillage d order c
  | .fighting report read =>
    ∃ math d token, battleReport math d token = some report ∧
      read = d.rowsOf report.defenderVillageId
  | .looting report stolen read =>
    ∃ d, stolenResources d report.defenderVillageId report.attackerUnits = some stolen ∧
      read = d.rowsOf report.defenderVillageId
  | _ => True

theorem Phase.Checked.backed {p : Phase C} (h : p.Checked) {w : Withdrawal C}
    (hw : p.withdrawal = some w) : w.Backed := by
  cases p with
  | idle => cases hw
  | upgrading c =>
    obtain ⟨d, hpay⟩ := h
    cases hw
    exact fun p hp => hpay.rows ▸ hpay.exists_row hp
  | building c =>
    obtain ⟨d, hpay⟩ := h
    cases hw
    exact fun p hp => hpay.rows ▸ hpay.exists_row hp
  | ordering c =>
    obtain ⟨withVillage, d, order, hpay⟩ := h
    obtain ⟨amounts, hamounts, rfl⟩ := Option.map_eq_some_iff.1 hw
    exact fun p hp => hpay.rows_village ▸ hpay.exists_row hamounts hp
  | fighting report read =>
    obtain ⟨math, d, token, hreport, rfl⟩ := h
    obtain ⟨casualties, hvalues, rfl⟩ := Option.map_eq_some_iff.1 hw
    intro p hp
    obtain ⟨r, hr, -, hle⟩ := casualty_le hreport hvalues hp
    exact ⟨r, hr, hle⟩
  | won report => cases hw
  | looting report stolen read =>
    obtain ⟨d, hstolen, rfl⟩ := h
    obtain ⟨values, hvalues, rfl⟩ := Option.map_eq_some_iff.1 hw
    exact fun p hp => stolen_le hstolen hvalues hp

variable {e : Env} {s : State C} {i : ℕ} {p : Phase C}

/-- Every operation has passed its checks. -/
def Checked (s : State C) : Prop := ∀ i, (s.phase i).Checked

theorem Checked.goto (h : Checked s) (hp : p.Checked) : Checked (s.goto i p) := by
  intro j
  show Phase.Checked (Function.update s.phase i p j)
  by_cases hj : j = i
  · subst hj
    rwa [Function.update_self]
  · rw [Function.update_of_ne hj]
    exact h j

theorem Checked.execute (h : Checked s) (hp : p.Checked) (d : Option (Db C)) :
    Checked (s.execute i d p) := by
  cases d with
  | none => exact h.goto trivial
  | some d =>
    have hs : Checked { s with db := { s.db with toDb := d } } := h
    exact hs.goto hp

theorem Checked.write (h : Checked s) : Checked (s.write i) := by
  have hdb : ∀ d, Checked { s with db := d } := fun d => h
  unfold State.write
  split
  · exact (hdb _).goto trivial
  · exact (hdb _).goto trivial
  · exact (hdb _).goto trivial
  · apply h.execute
    split <;> trivial
  · exact h.execute (p := .idle) trivial _
  · exact h

/-- A step that starts an operation passes its checks. -/
theorem Checked.step (h : Checked s) (a : Action) : Checked (Solvency.step e s a) := by
  cases a with
  | upgrade i facilityId userId =>
    simp only [Solvency.step]
    split
    next hc => exact h.goto ⟨_, (Facilities.checkUpgrade_eq_ok hc).canPay⟩
    · exact h
  | create i facility userId =>
    simp only [Solvency.step]
    split
    next hc => exact h.goto ⟨_, Facilities.checkCreateWith_eq_ok hc⟩
    · exact h
  | order i order =>
    simp only [Solvency.step]
    split
    next hc => exact h.goto ⟨_, _, _, Production.checkOrder_eq_ok hc⟩
    · exact h
  | battle i token =>
    simp only [Solvency.step]
    split
    next hreport => exact h.goto ⟨_, _, _, hreport, rfl⟩
    · exact h
  | loot i =>
    simp only [Solvency.step]
    split
    · split
      next hstolen => exact h.goto ⟨_, hstolen, rfl⟩
      · exact h.goto trivial
    · exact h
  | write i => exact h.write
  | abort i => exact h.goto trivial

/-! ## What a write does to the counts -/

/-- The counts do not change, or change by the statement of an operation that has been checked. -/
theorem rows_write (h : Checked s) :
    (s.write i).db.villagesResourceTypes = s.db.villagesResourceTypes ∨
      ∃ w, (s.phase i).withdrawal = some w ∧ (s.write i).db.villagesResourceTypes =
        (s.db.subtractFromCounts w.villageId w.values).villagesResourceTypes := by
  have hchecked := h i
  unfold State.write
  cases hp : s.phase i with
  | idle => exact .inl rfl
  | won report => exact .inl rfl
  | upgrading c =>
    rw [hp] at hchecked
    obtain ⟨d, hpay⟩ := hchecked
    refine .inr ⟨_, rfl, ?_⟩
    rw [← hpay.pay_eq]
    rfl
  | building c =>
    rw [hp] at hchecked
    obtain ⟨d, hpay⟩ := hchecked
    refine .inr ⟨_, rfl, ?_⟩
    rw [← hpay.pay_eq]
    rfl
  | ordering c =>
    cases hplace : Production.placeOrder s.db c with
    | none => exact .inl (by simp only [hplace]; rfl)
    | some d =>
      obtain ⟨amounts, hamounts, -, rfl⟩ := Production.placeOrder_eq_some.1 hplace
      exact .inr ⟨_, by rw [Phase.withdrawal, hamounts]; rfl, by simp only [hplace]; rfl⟩
  | fighting report read =>
    cases hexec : execReportQuery s.db.toDb report with
    | none => exact .inl (by simp only [hexec]; rfl)
    | some d =>
      obtain ⟨-, casualties, hvalues, rfl⟩ := execReportQuery_eq_some hexec
      exact .inr ⟨_, by rw [Phase.withdrawal, hvalues]; rfl, by simp only [hexec]; rfl⟩
  | looting report stolen read =>
    cases htake : takeLoot s.db.toDb report.defenderVillageId stolen with
    | none => exact .inl (by simp only [htake]; rfl)
    | some d =>
      obtain ⟨values, hvalues, rfl⟩ := Option.map_eq_some_iff.1 htake
      exact .inr ⟨_, by rw [Phase.withdrawal, hvalues]; rfl, by simp only [htake]; rfl⟩

/-- Only a write changes counts. -/
theorem rows_step {a : Action} (ha : ∀ i, a ≠ .write i) :
    (step e s a).db.villagesResourceTypes = s.db.villagesResourceTypes := by
  cases a with
  | write i => exact absurd rfl (ha i)
  | abort i => rfl
  | loot i =>
    simp only [step]
    split
    · split <;> rfl
    · rfl
  | _ =>
    simp only [step]
    split <;> rfl

/-! ## Amounts below zero -/

variable {d : Db C} {v : ℕ} {values : List (ℕ × ℚ)}

theorem rows_subtractFromCounts : (d.subtractFromCounts v values).villagesResourceTypes.rows =
    d.villagesResourceTypes.rows.map fun r =>
      { r with count := if r.villageId = some v then
        match (values.lookup r.resourceType.id).map Neg.neg with
        | some x => Sql.toInteger (r.count + x)
        | none => r.count
      else r.count } := by
  simp only [Db.subtractFromCounts, Db.addToCounts, lookup_map_snd]
  rfl

/-- A statement leaves no count below zero exactly if no row is short of its amount by more than
what the cast to an integer rounds away. -/
theorem nonNegative_subtract_iff (h : NonNegative d) :
    NonNegative (d.subtractFromCounts v values) ↔
      ∀ r ∈ d.rowsOf v, ∀ x, values.lookup r.resourceType.id = some x → x < r.count + 1 / 2 := by
  unfold NonNegative
  rw [rows_subtractFromCounts, List.forall_mem_map]
  constructor
  · intro hnn r hr x hx
    obtain ⟨hmem, hv⟩ := Db.mem_rowsOf.1 hr
    have hcount := hnn r hmem
    simp only [hv, hx, if_true, Option.map_some] at hcount
    have := Sql.toInteger_nonneg_iff.1 hcount
    linarith
  · intro hcovered r hr
    have hcount := h r hr
    by_cases hv : r.villageId = some v
    · cases hx : values.lookup r.resourceType.id with
      | none => simpa [hv, hx] using hcount
      | some x =>
        have hlt := hcovered r (Db.mem_rowsOf.2 ⟨hr, hv⟩) x hx
        simp only [hv, if_true, Option.map_some]
        exact Sql.toInteger_nonneg_iff.2 (by linarith)
    · simpa [hv] using hcount

/-- An amount that was checked is there if the row has not lost since. -/
theorem Withdrawal.Backed.covered {w : Withdrawal C} (h : w.Backed) (hw : w.Unspent d) :
    ∀ r ∈ d.rowsOf w.villageId, ∀ x, w.values.lookup r.resourceType.id = some x →
      x < r.count + 1 / 2 := by
  intro r hr x hx
  obtain ⟨r', hr', hid, hle⟩ := h _ (mem_of_lookup hx)
  have hcount := hw r hr (by rw [hx]; rfl) r' hr' (Catalog.Ref.eq_of_id hid)
  have hcast : (r'.count : ℚ) ≤ r.count := by exact_mod_cast hcount
  simp only at hle
  linarith

/-! ## Runs -/

/-- No count goes below zero in a run in which every write finds its rows no lower than they were
read. -/
theorem never_negative {e : Env} {d : GameDb C} {s : State C} (h0 : NonNegative d.toDb)
    (h : Reach (graph (step e)) Undisturbed (start d) s) : NonNegative s.db.toDb := by
  refine (h.inv (I := fun s => Checked s ∧ NonNegative s.db.toDb) ⟨fun i => trivial, h0⟩ ?_).2
  rintro s a s' ⟨hchecked, hnn⟩ hok rfl
  refine ⟨hchecked.step a, ?_⟩
  by_cases ha : ∃ i, a = .write i
  · obtain ⟨i, rfl⟩ := ha
    rcases rows_write (i := i) hchecked with hrows | ⟨w, hw, hrows⟩
    · show ∀ r ∈ (s.write i).db.villagesResourceTypes.rows, _
      rw [hrows]
      exact hnn
    · show ∀ r ∈ (s.write i).db.villagesResourceTypes.rows, _
      rw [hrows]
      exact (nonNegative_subtract_iff hnn).2 (((hchecked i).backed hw).covered (hok w hw))
  · unfold NonNegative
    rw [rows_step fun i hi => ha ⟨i, hi⟩]
    exact hnn

/-! ## Two upgrades -/

/-- Village 1 has 1000 food and two iron mines of level 3. The next level of each costs 550. -/
def sampleGame : GameDb sampleCatalog where
  toDb := { Attacks.sampleDb with
    facilities :=
      { rows := [⟨1, 3, "iron_mine", 1⟩, ⟨2, 3, "iron_mine", 1⟩]
        next := 3
        nodup := by decide
        lt_next := by decide } }
  orders := Table.empty
  production := fun _ => .none

def sampleEnv : Env := ⟨Attacks.sampleMath, true, []⟩

/-- The second upgrade is checked after the first is paid, and refused. -/
def sampleTurns : List Action := [.upgrade 0 1 1, .write 0, .upgrade 1 2 1]

theorem never_negative_sample :
    NonNegative (sampleTurns.foldl (step sampleEnv) (start sampleGame)).db.toDb :=
  never_negative (by decide) (((Reach.refl.next (Action.upgrade 0 1 1) trivial).next
    (Action.write 0) (by unfold Undisturbed; decide +kernel)).next (Action.upgrade 1 2 1) trivial)

/-- Both are checked before either of them is paid. -/
def sampleUpgrades : List Action := [.upgrade 0 1 1, .upgrade 1 2 1, .write 0, .write 1]

theorem upgrades_below_zero :
    (NonNegative sampleGame.toDb ∧ sampleGame.OneRowPerType) ∧
      Reach (graph (step sampleEnv)) always (start sampleGame)
        (sampleUpgrades.foldl (step sampleEnv) (start sampleGame)) ∧
      ¬NonNegative (sampleUpgrades.foldl (step sampleEnv) (start sampleGame)).db.toDb :=
  ⟨by decide, Reach.refl.foldl _, by decide +kernel⟩

end Cme.Solvency
