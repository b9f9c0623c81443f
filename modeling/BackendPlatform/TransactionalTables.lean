import BackendPlatform.ProgramTrees
import Mathlib.Data.Nat.Notation
import Mathlib.Logic.Function.Basic

/-!
# Transactional tables: schema, statements and a transaction running alone

A schema lists tables, their rows, the column checks and the unique
constraints. A statement carries its conditions and assignments as functions
of one row. A transaction that runs alone works on a copy of the committed
tables: commit publishes the copy and rollback drops it.
-/

set_option autoImplicit false

namespace BackendPlatform.TransactionalTables

/-- Tables with the checks every inserted row has to pass. -/
structure Schema where
  /-- The tables. -/
  Table : Type
  /-- The rows of a table. -/
  Row : Table → Type
  /-- The column types accept the row. -/
  valid : (t : Table) → Row t → Bool
  /-- A unique constraint forbids both rows together. -/
  conflict : (t : Table) → Row t → Row t → Bool

/-- How an insertion ended. -/
inductive Insertion where
  /-- The row is in the table. -/
  | inserted
  /-- A unique constraint rejected the row. -/
  | duplicateKey
  /-- A column rejected its value. -/
  | invalidValue
deriving DecidableEq

/-- One statement of a transaction. -/
inductive Statement (D : Schema) where
  /-- Read the rows that satisfy a condition. -/
  | select (t : D.Table) (q : D.Row t → Bool)
  /-- Read the rows that satisfy a condition and lock them. -/
  | selectForUpdate (t : D.Table) (q : D.Row t → Bool)
  /-- Insert one row. -/
  | insert (t : D.Table) (row : D.Row t)
  /-- Assign to every row that satisfies a condition. -/
  | update (t : D.Table) (q : D.Row t → Bool) (f : D.Row t → D.Row t)
  /-- Remove every row that satisfies a condition. -/
  | delete (t : D.Table) (q : D.Row t → Bool)
  /-- Publish the work of the transaction. -/
  | commit
  /-- Drop the work of the transaction. -/
  | rollback

/-- What a statement returns: rows, a count of matched rows or nothing. -/
abbrev Statement.Reply {D : Schema} : Statement D → Type
  | .select t _ => List (D.Row t)
  | .selectForUpdate t _ => List (D.Row t)
  | .insert _ _ => Insertion
  | .update _ _ _ => ℕ
  | .delete _ _ => ℕ
  | .commit => Unit
  | .rollback => Unit

/-- The contents of all tables. -/
abbrev Database (D : Schema) := (t : D.Table) → List (D.Row t)

/-- Committed tables and the working copy of the transaction on them. -/
structure Transaction (D : Schema) where
  /-- What other transactions see. -/
  committed : Database D
  /-- What this transaction sees. -/
  work : Database D

namespace Transaction

variable {D : Schema} [DecidableEq D.Table]

/-- Replace the working copy of one table. -/
def write (s : Transaction D) (t : D.Table) (rows : List (D.Row t)) : Transaction D :=
  {s with work := Function.update s.work t rows}

@[simp] theorem write_committed (s : Transaction D) (t : D.Table) (rows : List (D.Row t)) :
    (s.write t rows).committed=s.committed := rfl

@[simp] theorem write_work_self (s : Transaction D) (t : D.Table) (rows : List (D.Row t)) :
    (s.write t rows).work t=rows := Function.update_self _ _ _

theorem write_work_of_ne (s : Transaction D) {t other : D.Table} (rows : List (D.Row t))
    (h : other≠t) : (s.write t rows).work other=s.work other := Function.update_of_ne h _ _

/-- Insert a row unless a column or a unique constraint rejects it. -/
def insertRow (s : Transaction D) (t : D.Table) (row : D.Row t) : Insertion×Transaction D :=
  if D.valid t row then
    if (s.work t).any (D.conflict t row) then (.duplicateKey,s)
    else (.inserted,s.write t (s.work t++[row]))
  else (.invalidValue,s)

/-- Perform one statement of the only running transaction. -/
def perform : (stmt : Statement D) → Transaction D → stmt.Reply×Transaction D
  | .select t q,s => ((s.work t).filter q,s)
  | .selectForUpdate t q,s => ((s.work t).filter q,s)
  | .insert t row,s => s.insertRow t row
  | .update t q f,s =>
    (((s.work t).filter q).length,s.write t ((s.work t).map fun r => if q r then f r else r))
  | .delete t q,s => (((s.work t).filter q).length,s.write t ((s.work t).filter fun r => !q r))
  | .commit,s => ((),⟨s.work,s.work⟩)
  | .rollback,s => ((),⟨s.committed,s.committed⟩)

/-- The tables a statement can change. -/
def touches : Statement D → D.Table → Prop
  | .insert t _,other => other=t
  | .update t _ _,other => other=t
  | .delete t _,other => other=t
  | .rollback,_ => True
  | _,_ => False

/-- A statement keeps the working copy of every table it does not touch. -/
theorem perform_work_of_not_touches {stmt : Statement D} {t : D.Table} (s : Transaction D)
    (h : ¬touches stmt t) : (perform stmt s).2.work t=s.work t := by
  cases stmt with
  | select => rfl
  | selectForUpdate => rfl
  | insert u row =>
    simp only [perform,insertRow]
    split
    · split
      · rfl
      · exact write_work_of_ne s _ h
    · rfl
  | update u q f => exact write_work_of_ne s _ h
  | delete u q => exact write_work_of_ne s _ h
  | commit => rfl
  | rollback => exact absurd trivial h

/-- Only a commit changes the committed tables. -/
theorem perform_committed {stmt : Statement D} (s : Transaction D) (h : stmt≠.commit) :
    (perform stmt s).2.committed=s.committed := by
  cases stmt with
  | insert u row =>
    simp only [perform,insertRow]
    split
    · split <;> rfl
    · rfl
  | commit => exact absurd rfl h
  | _ => rfl

end Transaction

end BackendPlatform.TransactionalTables
