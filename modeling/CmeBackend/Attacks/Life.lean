import CmeBackend.Lib.Petri

/-!
# The life of an attack

An attack as a game with one token: a worker has it in hand (`Stage`), or it waits in one of the
queues, and what has happened to the attack is counted (`Event`). A step of a worker is one of a few
rules, `healthy` if no call of it fails, and `faulty` if one does.

* `Sound`: what no rule breaks. The token is one, the battle is resolved once, and what comes home
  comes home once, after a victory.
* `Kept`: what the healthy rules keep besides. No token is lost.
-/

namespace Cme.Attacks.Life

open Petri

/-- Where a worker is that has an attack in hand. -/
inductive Stage where
  /-- The attack is stored, and not queued yet. -/
  | inserted
  /-- The attack is queued, and its units have not been subtracted yet. -/
  | departing
  /-- The battle is not resolved yet. -/
  | fighting
  /-- The battle is won, and the return is not queued yet. -/
  | won
  /-- The units that return have not been added yet. -/
  | units
  /-- The loot has not been added yet. -/
  | loot
  deriving DecidableEq

/-- What has happened to an attack. -/
inductive Event where
  | departed
  | lost
  | victory
  | lootHome
  | home
  deriving DecidableEq

inductive Place where
  | stage (x : Stage)
  /-- `delayed:normal` or `pending:normal` -/
  | waiting
  /-- `delayed:return` or `pending:return` -/
  | returning
  | event (x : Event)
  deriving DecidableEq

/-! ## The rules -/

/-- The attack is stored. -/
def birth : Rule Place := ⟨[], [.stage .inserted]⟩

def healthy : List (Rule Place) :=
  [idle,
    -- The worker goes on with the attack in hand.
    ⟨[.stage .fighting], [.stage .fighting]⟩,
    ⟨[.stage .won], [.stage .won]⟩,
    ⟨[.stage .loot], [.stage .loot]⟩,
    ⟨[.stage .inserted], [.stage .departing, .waiting]⟩,
    ⟨[.stage .departing], [.event .departed]⟩,
    ⟨[.waiting], [.stage .fighting]⟩,
    ⟨[.stage .fighting], [.event .lost]⟩,
    ⟨[.stage .fighting], [.stage .won, .event .victory]⟩,
    ⟨[.stage .won], [.returning]⟩,
    ⟨[.returning], [.stage .loot, .stage .units]⟩,
    ⟨[.stage .units], [.event .home]⟩,
    ⟨[.stage .loot], [.event .lootHome]⟩,
    -- These failures leave no troops behind.
    drop (.stage .inserted),
    drop (.stage .loot)]

def faulty : List (Rule Place) :=
  [⟨[.stage .inserted], [.stage .departing]⟩,
    ⟨[.stage .fighting], [.event .victory]⟩,
    drop (.stage .departing),
    drop (.stage .fighting),
    drop (.stage .won),
    drop (.stage .units),
    drop .waiting,
    drop .returning]

def net : List (Rule Place) := healthy ++ faulty

/-! ## What the rules keep -/

/-- An attack is created once. -/
def created : List (Place × ℤ) :=
  [(.stage .inserted, 1), (.stage .departing, 1), (.event .departed, 1)]

/-- The battle is resolved once. -/
def resolved : List (Place × ℤ) :=
  [(.stage .inserted, 1), (.waiting, 1), (.stage .fighting, 1), (.event .lost, 1),
    (.event .victory, 1)]

/-- The units come home once, after a victory. -/
def survivors : List (Place × ℤ) :=
  [(.stage .won, 1), (.returning, 1), (.stage .units, 1), (.event .home, 1), (.event .victory, -1)]

/-- The loot comes home once, after a victory. -/
def plunder : List (Place × ℤ) :=
  [(.stage .won, 1), (.returning, 1), (.stage .loot, 1), (.event .lootHome, 1),
    (.event .victory, -1)]

/-- A token for every attack that has been queued. -/
def launched : List (Place × ℤ) :=
  [(.waiting, 1), (.stage .fighting, 1), (.event .lost, 1), (.event .victory, 1),
    (.stage .departing, -1), (.event .departed, -1)]

structure Sound (m : Place → ℕ) : Prop where
  created : value created m ≤ 1
  resolved : value resolved m ≤ 1
  survivors : value survivors m ≤ 0
  plunder : value plunder m ≤ 0

structure Kept (m : Place → ℕ) : Prop where
  launched : value launched m = 0
  survivors : value survivors m = 0

variable {m m' : Place → ℕ} {r : Rule Place}

theorem Sound.fires (h : Sound m) (hr : r ∈ net) (hf : Fires r m m') : Sound m' := by
  have hcreated : ∀ r ∈ net, r.gain Life.created ≤ 0 := by decide
  have hresolved : ∀ r ∈ net, r.gain Life.resolved ≤ 0 := by decide
  have hsurvivors : ∀ r ∈ net, r.gain Life.survivors ≤ 0 := by decide
  have hplunder : ∀ r ∈ net, r.gain Life.plunder ≤ 0 := by decide
  constructor <;> rw [hf.value]
  · exact add_le_of_le_of_nonpos h.created (hcreated r hr)
  · exact add_le_of_le_of_nonpos h.resolved (hresolved r hr)
  · exact add_le_of_le_of_nonpos h.survivors (hsurvivors r hr)
  · exact add_le_of_le_of_nonpos h.plunder (hplunder r hr)

theorem Kept.fires (h : Kept m) (hr : r ∈ healthy) (hf : Fires r m m') : Kept m' := by
  have hlaunched : ∀ r ∈ healthy, r.gain Life.launched = 0 := by decide
  have hsurvivors : ∀ r ∈ healthy, r.gain Life.survivors = 0 := by decide
  constructor <;> rw [hf.value]
  · rw [h.launched, hlaunched r hr, add_zero]
  · rw [h.survivors, hsurvivors r hr, add_zero]

/-- An attack that is not there yet. -/
theorem sound_of_zero (h : ∀ x, m x = 0) : Sound m := by
  constructor <;> rw [value_eq_zero h]
  all_goals decide

theorem kept_of_zero (h : ∀ x, m x = 0) : Kept m := ⟨value_eq_zero h _, value_eq_zero h _⟩

theorem sound_birth (h : ∀ x, m x = 0) (hf : Fires birth m m') : Sound m' := by
  constructor <;> rw [hf.value, value_eq_zero h] <;> decide

theorem kept_birth (h : ∀ x, m x = 0) (hf : Fires birth m m') : Kept m' := by
  constructor <;> rw [hf.value, value_eq_zero h] <;> decide

/-- No rule makes something of an attack that is not there. -/
theorem zero_of_fires (h : ∀ x, m x = 0) (hr : r ∈ net) (hf : Fires r m m') (x : Place) :
    m' x = 0 := by
  have hnet : ∀ r ∈ net, r.consumed = r.produced ∨ ∃ x ∈ r.consumed, x ∉ r.produced := by decide
  rcases hnet r hr with heq | ⟨y, hy, hy'⟩
  · have hx := hf x
    rw [heq, h x] at hx
    omega
  · have hpos := hf.pos hy hy'
    rw [h y] at hpos
    exact absurd hpos (lt_irrefl 0)

/-! ## What an invariant says about an attack -/

/-- The tokens of an attack. A worker that handles a return adds the units and the loot in two calls
of which none waits for the other, and has the token until both have ended. -/
def tokens (m : Place → ℕ) : ℕ :=
  m .waiting + m .returning + m (.stage .fighting) + m (.stage .won) +
    max (m (.stage .units)) (m (.stage .loot))

namespace Sound

theorem created_le (h : Sound m) :
    m (.stage .inserted) + m (.stage .departing) + m (.event .departed) ≤ 1 := by
  have hvalue := h.created
  simp only [value, Life.created, List.map_cons, List.map_nil, List.sum_cons, List.sum_nil]
    at hvalue
  omega

theorem resolved_le (h : Sound m) :
    m (.stage .inserted) + m .waiting + m (.stage .fighting) + m (.event .lost) +
      m (.event .victory) ≤ 1 := by
  have hvalue := h.resolved
  simp only [value, Life.resolved, List.map_cons, List.map_nil, List.sum_cons, List.sum_nil]
    at hvalue
  omega

theorem survivors_le (h : Sound m) :
    m (.stage .won) + m .returning + m (.stage .units) + m (.event .home) ≤
      m (.event .victory) := by
  have hvalue := h.survivors
  simp only [value, Life.survivors, List.map_cons, List.map_nil, List.sum_cons, List.sum_nil]
    at hvalue
  omega

theorem plunder_le (h : Sound m) :
    m (.stage .won) + m .returning + m (.stage .loot) + m (.event .lootHome) ≤
      m (.event .victory) := by
  have hvalue := h.plunder
  simp only [value, Life.plunder, List.map_cons, List.map_nil, List.sum_cons, List.sum_nil]
    at hvalue
  omega

/-- An attack has one token. -/
theorem tokens_le (h : Sound m) : tokens m ≤ 1 := by
  have hresolved := h.resolved_le
  have hsurvivors := h.survivors_le
  have hplunder := h.plunder_le
  unfold tokens
  omega

end Sound

namespace Kept

theorem launched_eq (h : Kept m) :
    m .waiting + m (.stage .fighting) + m (.event .lost) + m (.event .victory) =
      m (.stage .departing) + m (.event .departed) := by
  have hvalue := h.launched
  simp only [value, Life.launched, List.map_cons, List.map_nil, List.sum_cons, List.sum_nil]
    at hvalue
  omega

theorem survivors_eq (h : Kept m) :
    m (.stage .won) + m .returning + m (.stage .units) + m (.event .home) =
      m (.event .victory) := by
  have hvalue := h.survivors
  simp only [value, Life.survivors, List.map_cons, List.map_nil, List.sum_cons, List.sum_nil]
    at hvalue
  omega

/-- Troops that have left, and are neither dead nor home, have a token. -/
theorem tokens_eq (h : Kept m) (hs : Sound m) (hdeparted : 0 < m (.event .departed))
    (hlost : m (.event .lost) = 0) (hhome : m (.event .home) = 0) : tokens m = 1 := by
  have hcreated := hs.created_le
  have hplunder := hs.plunder_le
  have hresolved := hs.resolved_le
  have hlaunched := h.launched_eq
  have hsurvivors := h.survivors_eq
  unfold tokens
  omega

/-- The troops of an attack with a token have left, or are about to. -/
theorem departed (h : Kept m) (hs : Sound m) (htokens : 0 < tokens m)
    (hdeparting : m (.stage .departing) = 0) : 0 < m (.event .departed) := by
  have hplunder := hs.plunder_le
  have hlaunched := h.launched_eq
  have hsurvivors := h.survivors_eq
  unfold tokens at htokens
  omega

end Kept

end Cme.Attacks.Life
