import Mathlib.Logic.Basic

/-! # Unit of work

A database session over tables of type `σ`: the committed tables, and the tables as the open
transaction sees them.  Statements change the current tables; a commit makes them the
committed ones, a rollback returns to the committed ones.  Code that may raise returns its
value or exception next to the session it leaves behind: an exception undoes nothing by
itself.  Code about one table works in any set of tables that has it (`Table`); a commit of
another transaction changes both sides of the session (`share`).

Laws about what happened to rows are stated over `Logged` tables: the tables together with the
changes of rows that led to them, so that a rollback takes back both. -/

namespace UnitOfWork

/-- A session with its open transaction. -/
structure Session (σ : Type*) where
  committed : σ
  current : σ

/-- A value or an exception, with the session that is left. -/
abbrev Result (ε σ α : Type*) := Except ε α × Session σ

/-- Go on with the value; an exception ends the computation. -/
def Result.andThen {ε σ α β : Type*} (r : Result ε σ α) (k : α → Session σ → Result ε σ β) :
    Result ε σ β :=
  match r with
  | (.ok a, s) => k a s
  | (.error e, s) => (.error e, s)

@[simp] theorem Result.ok_andThen {ε σ α β : Type*} (a : α) (s : Session σ)
    (k : α → Session σ → Result ε σ β) : Result.andThen (.ok a, s) k = k a s := rfl

@[simp] theorem Result.error_andThen {ε σ α β : Type*} (e : ε) (s : Session σ)
    (k : α → Session σ → Result ε σ β) : Result.andThen (.error e, s) k = (.error e, s) := rfl

/-- A computation returns when both of its parts do. -/
theorem Result.andThen_eq_ok {ε σ α β : Type*} {r : Result ε σ α}
    {k : α → Session σ → Result ε σ β} {b : β} {s' : Session σ} :
    r.andThen k = (.ok b, s') ↔ ∃ a s, r = (.ok a, s) ∧ k a s = (.ok b, s') := by
  rcases r with ⟨e | a, s⟩
  · simp
  · constructor
    · exact fun h => ⟨a, s, rfl, h⟩
    · rintro ⟨a', s', heq, h⟩
      cases heq
      exact h

/-- A computation raises when one of its parts does. -/
theorem Result.andThen_eq_error {ε σ α β : Type*} {r : Result ε σ α}
    {k : α → Session σ → Result ε σ β} {e : ε} {s' : Session σ} :
    r.andThen k = (.error e, s') ↔
      r = (.error e, s') ∨ ∃ a s, r = (.ok a, s) ∧ k a s = (.error e, s') := by
  rcases r with ⟨e' | a, s⟩
  · constructor
    · intro h
      obtain ⟨he, rfl⟩ := Prod.mk.inj h
      rw [Except.error.inj he]
      exact Or.inl rfl
    · rintro (h | ⟨a, s₁, h, -⟩)
      · obtain ⟨he, rfl⟩ := Prod.mk.inj h
        rw [Except.error.inj he]
        rfl
      · cases h
  · constructor
    · exact fun h => Or.inr ⟨a, s, rfl, h⟩
    · rintro (h | ⟨a', s₁, heq, h⟩)
      · cases h
      · cases heq
        exact h

/-- What holds of the session of a computation and what its continuation preserves. -/
theorem Result.session_andThen {ε σ α β : Type*} {Q : Session σ → Prop} {r : Result ε σ α}
    {k : α → Session σ → Result ε σ β} (hr : Q r.2) (hk : ∀ a s, Q s → Q (k a s).2) :
    Q (r.andThen k).2 := by
  rcases r with ⟨e | a, s⟩
  · exact hr
  · exact hk a s hr

namespace Session

variable {σ : Type*}

/-- A session that has just begun a transaction. -/
def start (tables : σ) : Session σ := ⟨tables, tables⟩

def commit (s : Session σ) : Session σ := ⟨s.current, s.current⟩

def rollback (s : Session σ) : Session σ := ⟨s.committed, s.committed⟩

/-- Flushed statements change the current tables. -/
def flush (s : Session σ) (tables : σ) : Session σ := ⟨s.committed, tables⟩

@[simp] theorem committed_flush (s : Session σ) (tables : σ) :
    (s.flush tables).committed = s.committed := rfl

@[simp] theorem current_flush (s : Session σ) (tables : σ) : (s.flush tables).current = tables :=
  rfl

@[simp] theorem committed_rollback (s : Session σ) : s.rollback.committed = s.committed := rfl

@[simp] theorem current_rollback (s : Session σ) : s.rollback.current = s.committed := rfl

@[simp] theorem committed_commit (s : Session σ) : s.commit.committed = s.current := rfl

@[simp] theorem current_commit (s : Session σ) : s.commit.current = s.current := rfl

@[simp] theorem flush_flush (s : Session σ) (t u : σ) : (s.flush t).flush u = s.flush u := rfl

@[simp] theorem rollback_rollback (s : Session σ) : s.rollback.rollback = s.rollback := rfl

/-- A property of tables that holds of both sides of a session. -/
structure Both (P : σ → Prop) (s : Session σ) : Prop where
  committed : P s.committed
  current : P s.current

variable {P : σ → Prop} {s : Session σ}

theorem Both.commit (h : s.Both P) : s.commit.Both P := ⟨h.current, h.current⟩

theorem Both.rollback (h : s.Both P) : s.rollback.Both P := ⟨h.committed, h.committed⟩

theorem Both.flush (h : s.Both P) {tables : σ} (ht : P tables) : (s.flush tables).Both P :=
  ⟨h.committed, ht⟩

theorem Both.start {tables : σ} (ht : P tables) : (Session.start tables).Both P := ⟨ht, ht⟩

end Session

/-- A table of type `τ` among tables of type `σ`. -/
structure Table (σ τ : Type*) where
  read : σ → τ
  write : σ → τ → σ
  read_write : ∀ tables t, read (write tables t) = t
  write_write : ∀ tables t u, write (write tables t) u = write tables u

/-- The only table. -/
def Table.self (τ : Type*) : Table τ τ where
  read := id
  write _ t := t
  read_write _ _ := rfl
  write_write _ _ _ := rfl

namespace Session

variable {σ τ : Type*} (tbl : Table σ τ)

/-- The table in the open transaction. -/
def seen (s : Session σ) : τ := tbl.read s.current

/-- The committed table. -/
def stored (s : Session σ) : τ := tbl.read s.committed

/-- The open transaction changes the table. -/
def save (s : Session σ) (t : τ) : Session σ := s.flush (tbl.write s.current t)

/-- Another transaction commits a change that both sides of the session admit. -/
def share (s : Session σ) (change : τ → Option τ) : Session σ :=
  match change (s.stored tbl), change (s.seen tbl) with
  | some t, some u => ⟨tbl.write s.committed t, tbl.write s.current u⟩
  | _, _ => s

@[simp] theorem seen_save (s : Session σ) (t : τ) : (s.save tbl t).seen tbl = t :=
  tbl.read_write _ _

@[simp] theorem save_save (s : Session σ) (t u : τ) : (s.save tbl t).save tbl u = s.save tbl u :=
  congrArg s.flush (tbl.write_write _ _ _)

@[simp] theorem stored_save (s : Session σ) (t : τ) :
    (s.save tbl t).stored tbl = s.stored tbl := rfl

@[simp] theorem seen_rollback (s : Session σ) : s.rollback.seen tbl = s.stored tbl := rfl

@[simp] theorem stored_rollback (s : Session σ) : s.rollback.stored tbl = s.stored tbl := rfl

@[simp] theorem rollback_save (s : Session σ) (t : τ) : (s.save tbl t).rollback = s.rollback := rfl

/-- A shared change happens to both sides or to neither. -/
theorem share_cases (s : Session σ) (change : τ → Option τ) :
    s.share tbl change = s ∨
      ∃ t u, change (s.stored tbl) = some t ∧ change (s.seen tbl) = some u ∧
        (s.share tbl change).stored tbl = t ∧ (s.share tbl change).seen tbl = u := by
  unfold share
  split
  · rename_i t u ht hu
    exact Or.inr ⟨t, u, ht, hu, tbl.read_write _ _, tbl.read_write _ _⟩
  · exact Or.inl rfl

end Session

/-! ### Tables with their changes -/

/-- A row as it was, if it was there, and as it became. -/
structure Change (ρ : Type*) where
  before : Option ρ
  after : ρ

/-- Tables with the changes that led to them, oldest first. -/
structure Logged (σ ρ : Type*) where
  tables : σ
  changes : List (Change ρ)

namespace Logged

variable {σ ρ : Type*}

/-- Tables that nothing has changed yet. -/
def start (tables : σ) : Logged σ ρ := ⟨tables, []⟩

/-- Go on to new tables by some changes. -/
def become (l : Logged σ ρ) (tables : σ) (changes : List (Change ρ)) : Logged σ ρ :=
  ⟨tables, l.changes ++ changes⟩

@[simp] theorem tables_become (l : Logged σ ρ) (tables : σ) (changes : List (Change ρ)) :
    (l.become tables changes).tables = tables := rfl

@[simp] theorem changes_become (l : Logged σ ρ) (tables : σ) (changes : List (Change ρ)) :
    (l.become tables changes).changes = l.changes ++ changes := rfl

/-- A law of every change. -/
def Every (Law : Change ρ → Prop) (l : Logged σ ρ) : Prop := ∀ c ∈ l.changes, Law c

variable {Law : Change ρ → Prop}

theorem every_start (tables : σ) : (start tables : Logged σ ρ).Every Law := by
  intro c hc
  cases hc

theorem every_become {l : Logged σ ρ} (h : l.Every Law) {tables : σ} {changes : List (Change ρ)} :
    (l.become tables changes).Every Law ↔ ∀ c ∈ changes, Law c := by
  simp only [Every, changes_become, List.mem_append]
  exact ⟨fun hall c hc => hall c (Or.inr hc), fun hnew c hc => hc.elim (h c) (hnew c)⟩

/-- A law of every change is kept by new tables exactly when their changes meet it. -/
theorem both_every_flush {s : Session (Logged σ ρ)} (h : s.Both (Every Law)) {tables : σ}
    {changes : List (Change ρ)} :
    (s.flush (s.current.become tables changes)).Both (Every Law) ↔ ∀ c ∈ changes, Law c := by
  constructor
  · intro hboth
    exact (every_become h.current).mp hboth.current
  · intro hnew
    exact h.flush ((every_become h.current).mpr hnew)

end Logged

end UnitOfWork
