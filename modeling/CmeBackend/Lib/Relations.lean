import Mathlib.Data.List.Basic

/-!
# The relations that a query loads

Entities as an object-relational mapper gives them. Below every entity, a query loads the relations
that are declared eager and those that it lists. All others are undefined.

* `Schema`: the relations of each kind of entity.
* `Loaded`: a row, with its kind and with what the query lists below it (`View`).
* `Loaded.follow`: the value of a relation. `follow_eager` and `follow_lazy` say which relations are
  loaded.
* `Loaded.mapM_elems`: reading something of each entity of a relation to many.
-/

namespace Relations

/-- A relation between entities of kinds `κ`. -/
structure Relation (κ : Type) where
  name : String
  target : κ
  eager : Bool

class Schema (κ : Type) where
  relations : κ → List (Relation κ)

/-- What a query lists: relations, by the path from the entity that it finds. -/
abbrev Paths := List (List String)

/-- What is listed below the relation `name`. -/
def below (name : String) (listed : Paths) : Paths :=
  listed.filterMap fun path => if path.head? = some name then some path.tail else none

/-- What is loaded below an entity. -/
structure View (κ : Type) where
  kind : κ
  listed : Paths

variable {κ ρ β : Type} [Schema κ]

/-- The relation of an entity with a name. -/
def relation? (kind : κ) (name : String) : Option (Relation κ) :=
  (Schema.relations kind).find? (·.name = name)

def View.follow (v : View κ) (name : String) : Option (View κ) :=
  match relation? v.kind name with
  | none => none
  | some r =>
    if r.eager ∨ [name] ∈ v.listed then some ⟨r.target, below name v.listed⟩ else none

/-- What a query has loaded: a row, or the rows of a relation to many. -/
structure Loaded (κ ρ : Type) where
  row : ρ
  view : View κ

namespace Loaded

/-- The relation `name`, of which `f` is the value. `none`: it is undefined. -/
def follow (x : Loaded κ ρ) (name : String) (f : ρ → β) : Option (Loaded κ β) :=
  (x.view.follow name).map fun v => ⟨f x.row, v⟩

/-- The entities of a relation to many. -/
def elems (x : Loaded κ (List ρ)) : List (Loaded κ ρ) := x.row.map (⟨·, x.view⟩)

variable {x : Loaded κ ρ} {name : String} {f : ρ → β} {r : Relation κ}

theorem follow_eager (h : relation? x.view.kind name = some r) (heager : r.eager = true) :
    x.follow name f = some ⟨f x.row, r.target, below name x.view.listed⟩ := by
  simp [follow, View.follow, h, heager]

/-- A relation that is not eager is loaded if it is listed. -/
theorem follow_lazy (h : relation? x.view.kind name = some r) (hlazy : r.eager = false) :
    x.follow name f =
      if [name] ∈ x.view.listed then some ⟨f x.row, r.target, below name x.view.listed⟩
      else none := by
  unfold follow View.follow
  rw [h]
  simp only [hlazy, Bool.false_eq_true, false_or]
  split <;> rfl

omit [Schema κ] in
/-- What can be read of every entity of a relation to many can be read of all of them. -/
theorem mapM_elems {ε γ : Type} {x : Loaded κ (List ρ)} {read : Loaded κ ρ → Except ε γ}
    {g : ρ → γ} (h : ∀ row, read ⟨row, x.view⟩ = .ok (g row)) :
    x.elems.mapM read = .ok (x.row.map g) := by
  obtain ⟨rows, view⟩ := x
  unfold elems
  dsimp only at h ⊢
  induction rows with
  | nil => rfl
  | cons row rest ih =>
    rw [List.map_cons, List.mapM_cons, h, List.map_cons, ih]
    rfl

end Loaded

end Relations
