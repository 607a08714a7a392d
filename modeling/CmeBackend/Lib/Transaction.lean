/-!
# Programs in a database transaction

A program in a transaction is an `EStateM` program: an exception keeps the state it was thrown
in, as `try`/`catch` of the source language does. The state (`Tx`) has the database as the
transaction sees it, and a log of what the program did outside the database, which a rollback
does not take back.

A statement (`query`) fails if the fault pattern says so. A failed statement aborts the
transaction: each later statement of it fails too, and its commit is a rollback. So a program
that catches the exception of a failed statement cannot go on as if nothing happened, while one
that catches an exception of its own code can.

`Ends x Q E s`: from `s` the program `x` ends in a value and a state that satisfy `Q`, or throws
an exception in a state that satisfies `E`. The `ends_*` lemmas execute a program step by step;
`Ends.mono` uses what is known of a subprogram. `transact_of_ends` is the rule for the
transaction as a whole: it commits a state that satisfies the postcondition, or leaves the
database as it was.
-/

namespace Transaction

/-- What a program throws: a failed statement, an error of its own with a message, or an exception
of a library it calls. -/
inductive Thrown where
  | sql
  | error (message : String)
  | library
  deriving DecidableEq, Repr

/-- A program's state inside a transaction, over databases `δ` and logs `ω`. -/
structure Tx (δ ω : Type) where
  db : δ
  log : ω
  /-- The statements that fail, by their number in the transaction. -/
  faults : Nat → Bool
  issued : Nat
  aborted : Bool

abbrev TxM (δ ω α : Type) := EStateM Thrown (Tx δ ω) α

variable {δ ω α β : Type}

/-- One SQL statement: its result and its effect on the database. -/
def query (run : δ → α × δ) : TxM δ ω α := fun s =>
  if s.aborted then .error .sql { s with issued := s.issued + 1 }
  else if s.faults s.issued then .error .sql { s with issued := s.issued + 1, aborted := true }
  else .ok (run s.db).1 { s with db := (run s.db).2, issued := s.issued + 1 }

/-- A statement that reads. -/
def select (run : δ → α) : TxM δ ω α := query fun d => (run d, d)

/-- A statement that writes. -/
def execute (run : δ → δ) : TxM δ ω Unit := query fun d => ((), run d)

/-- An effect outside the database. -/
def emit (f : ω → ω) : TxM δ ω Unit := fun s => .ok () { s with log := f s.log }

/-- Which statements of a transaction fail, and whether its commit does. -/
structure Faults where
  statement : Nat → Bool
  commit : Bool

/-- No statement fails. -/
def Faults.none : Faults := ⟨fun _ => false, false⟩

/-- No statement and no commit fails. -/
def Faults.Silent (faults : Faults) : Prop :=
  (∀ n, faults.statement n = false) ∧ faults.commit = false

theorem Faults.silent_none : Faults.none.Silent := ⟨fun _ => rfl, rfl⟩

/-- What a transaction leaves behind. -/
structure Outcome (δ ω α : Type) where
  db : δ
  log : ω
  result : Except Thrown α

/-- The state at the start of a transaction. -/
def start (db : δ) (log : ω) (faults : Faults) : Tx δ ω :=
  { db, log, faults := faults.statement, issued := 0, aborted := false }

/-- `x` between the start of a transaction and its commit, or its rollback after an exception. -/
def transact (db : δ) (log : ω) (faults : Faults) (x : TxM δ ω α) : Outcome δ ω α :=
  match x.run (start db log faults) with
  | .ok a s =>
    if s.aborted || faults.commit then { db, log := s.log, result := .error .sql }
    else { db := s.db, log := s.log, result := .ok a }
  | .error e s => { db, log := s.log, result := .error e }

/-- A function of what is returned, in both blocks. -/
theorem map_tryCatch {x : TxM δ ω α} {h : Thrown → TxM δ ω α} (f : α → β) :
    f <$> tryCatch x h = tryCatch (f <$> x) fun e => f <$> h e := by
  funext s
  simp only [← bind_pure_comp]
  show EStateM.bind (EStateM.tryCatch x h) _ s = EStateM.tryCatch (EStateM.bind x _) _ s
  delta EStateM.tryCatch EStateM.bind
  cases x s with
  | ok a s => rfl
  | error e s => rfl

/-! ## Postconditions -/

/-- No statement has failed in `s`, and none will. -/
def Reliable (s : Tx δ ω) : Prop := s.aborted = false ∧ ∀ n, s.faults n = false

/-- The outcome of `x` from `s`: a value and a state in `Q`, or an exception and a state in `E`. -/
def Ends (x : TxM δ ω α) (Q : α → Tx δ ω → Prop) (E : Thrown → Tx δ ω → Prop) (s : Tx δ ω) : Prop :=
  match x.run s with
  | .ok a s' => Q a s'
  | .error e s' => E e s'

section Ends

variable {x : TxM δ ω α} {f : α → TxM δ ω β} {Q Q' : α → Tx δ ω → Prop}
  {R : β → Tx δ ω → Prop} {E E' : Thrown → Tx δ ω → Prop} {s : Tx δ ω}

theorem Ends.mono (h : Ends x Q E s) (hQ : ∀ a s', Q a s' → Q' a s')
    (hE : ∀ e s', E e s' → E' e s') : Ends x Q' E' s := by
  unfold Ends at *
  split at h
  · exact hQ _ _ h
  · exact hE _ _ h

theorem Ends.and (h : Ends x Q E s) (h' : Ends x Q' E' s) :
    Ends x (fun a s' => Q a s' ∧ Q' a s') (fun e s' => E e s' ∧ E' e s') s := by
  unfold Ends at *
  split
  next heq =>
    rw [heq] at h h'
    exact ⟨h, h'⟩
  next heq =>
    rw [heq] at h h'
    exact ⟨h, h'⟩

/-- Of a program of which nothing is asked, nothing has to be known. -/
theorem ends_trivial : Ends x (fun _ _ => True) (fun _ _ => True) s := by
  unfold Ends
  split <;> trivial

@[simp] theorem ends_pure {a : α} : Ends (pure a) Q E s ↔ Q a s := Iff.rfl

@[simp] theorem ends_throw {e : Thrown} : Ends (throw e : TxM δ ω α) Q E s ↔ E e s := Iff.rfl

@[simp] theorem ends_emit {g : ω → ω} {Q : Unit → Tx δ ω → Prop} :
    Ends (emit g) Q E s ↔ Q () { s with log := g s.log } := Iff.rfl

@[simp] theorem ends_bind :
    Ends (x >>= f) R E s ↔ Ends x (fun a s' => Ends (f a) R E s') E s := by
  simp only [Ends, EStateM.run_bind]
  cases x.run s <;> rfl

@[simp] theorem ends_tryCatch {h : Thrown → TxM δ ω α} :
    Ends (tryCatch x h) Q E s ↔ Ends x Q (fun e s' => Ends (h e) Q E s') s := by
  unfold Ends EStateM.run
  have hrun : (tryCatch x h : TxM δ ω α) s = EStateM.tryCatch x h s := rfl
  rw [hrun]
  delta EStateM.tryCatch
  cases x s <;> rfl

/-- A statement succeeds in a live transaction, or leaves an aborted one. It fails only where some
statement of the transaction does. -/
theorem ends_query {run : δ → α × δ}
    (hok : s.aborted = false →
      Q (run s.db).1 { s with db := (run s.db).2, issued := s.issued + 1 })
    (hfault : ¬Reliable s → E .sql { s with issued := s.issued + 1, aborted := true }) :
    Ends (query run) Q E s := by
  unfold Ends query EStateM.run
  by_cases hs : s.aborted = true
  · have hE := hfault fun hr => by simp [hr.1] at hs
    rw [← hs] at hE
    simpa [hs] using hE
  · rw [Bool.not_eq_true] at hs
    by_cases hf : s.faults s.issued = true
    · have hE := hfault fun hr => by simp [hr.2 s.issued] at hf
      simpa [hs, hf] using hE
    · simpa [hs, hf] using hok hs

end Ends

/-! ## The transaction as a whole -/

section Transact

variable {db : δ} {log : ω} {faults : Faults} {x : TxM δ ω α}

/-- **Atomicity.** A transaction leaves a database that the program's postcondition allows, or the
one it started from. -/
theorem transact_of_ends {Q : α → Tx δ ω → Prop} {E : Thrown → Tx δ ω → Prop}
    (h : Ends x Q E (start db log faults)) {P : Outcome δ ω α → Prop}
    (hcommit : ∀ a s, Q a s → s.aborted = false → P ⟨s.db, s.log, .ok a⟩)
    (hfail : ∀ a s, Q a s → s.aborted = true ∨ faults.commit = true → P ⟨db, s.log, .error .sql⟩)
    (hthrow : ∀ e s, E e s → P ⟨db, s.log, .error e⟩) : P (transact db log faults x) := by
  unfold Ends at h
  unfold transact
  split at h
  · rename_i a s _
    by_cases hc : s.aborted || faults.commit
    · simpa [hc] using hfail a s h (by simpa using hc)
    · simp only [hc, Bool.false_eq_true, ↓reduceIte]
      exact hcommit a s h (by simp at hc; exact hc.1)
  · exact hthrow _ _ h

/-- What holds of the value that a program returns and of the state that it leaves, holds of the
result of its transaction if it goes through. -/
theorem transact_ok {Q : α → δ → Prop}
    (h : Ends x (fun a s => Q a s.db) (fun _ _ => True) (start db log faults)) {a : α}
    (hok : (transact db log faults x).result = .ok a) : Q a (transact db log faults x).db := by
  revert hok
  refine transact_of_ends h (P := fun out => out.result = .ok a → Q a out.db) ?_
    (fun _ _ _ _ hok => nomatch hok) (fun _ _ _ hok => nomatch hok)
  rintro a s hQ - ⟨⟩
  exact hQ

/-- A program that is stopped by a failing statement, or by a condition `E` of its own: its
transaction commits, or changes nothing, and without a failing statement the reason is `E`. -/
theorem transact_settled {Q : α → δ → Prop} {E : Prop}
    (h : Ends x (fun a s => Q a s.db ∧ (Reliable (start db log faults) → Reliable s))
      (fun _ _ => Reliable (start db log faults) → E) (start db log faults)) :
    (∃ a, (transact db log faults x).result = .ok a ∧ Q a (transact db log faults x).db) ∨
      (∃ e, (transact db log faults x).result = .error e) ∧ (transact db log faults x).db = db ∧
        (faults.Silent → E) := by
  refine transact_of_ends h (P := fun out => (∃ a, out.result = .ok a ∧ Q a out.db) ∨
    (∃ e, out.result = .error e) ∧ out.db = db ∧ (faults.Silent → E)) ?_ ?_ ?_
  · rintro a s ⟨hQ, -⟩ -
    exact .inl ⟨a, rfl, hQ⟩
  · rintro a s ⟨-, hreliable⟩ hfail
    refine .inr ⟨⟨.sql, rfl⟩, rfl, fun ⟨hstatement, hcommit⟩ => ?_⟩
    rcases hfail with haborted | hfail
    · rw [(hreliable ⟨rfl, hstatement⟩).1] at haborted
      cases haborted
    · rw [hcommit] at hfail
      cases hfail
  · intro e s hE
    exact .inr ⟨⟨e, rfl⟩, rfl, fun hsilent => hE ⟨rfl, hsilent.1⟩⟩

/-- What a transaction leaves behind when its program returns something else. -/
theorem transact_map (f : α → β) :
    transact db log faults (f <$> x) =
      ⟨(transact db log faults x).db, (transact db log faults x).log,
        (transact db log faults x).result.map f⟩ := by
  unfold transact
  rw [← bind_pure_comp, EStateM.run_bind]
  cases x.run (start db log faults) with
  | error e s => rfl
  | ok a s =>
    show (if _ then _ else _) = _
    dsimp only
    split <;> rfl

end Transact

end Transaction
