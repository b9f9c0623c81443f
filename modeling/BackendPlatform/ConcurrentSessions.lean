import BackendPlatform.UserRequests
import BackendPlatform.InterleavedRuns
import BackendPlatform.RowLocking

/-!
# Overlapping requests of the user service

Requests interleave effect by effect over tables with row locks. Every request
has a session of its own: a flush writes its changes one after another, waits
where a row is locked, and a failed flush rolls the transaction back. Closing
the session of a request drops what it has not committed.
-/

set_option autoImplicit false

namespace BackendPlatform.ConcurrentSessions

open ProgramTrees InterleavedRuns TransactionalTables RowLocking
open UserRecords UserRequests

/-- What overlapping requests share. -/
structure Shared where
  /-- How many identifiers have been drawn. -/
  draws : ℕ
  /-- The tables with their row locks. -/
  tables : RowLocking.Tables userSchema
  /-- The changes that each session has not flushed. -/
  unflushed : ℕ → List Change

/-- Write one change: blocked, still waiting, or done. -/
def writeNext (pid : ℕ) : Change → RowLocking.Tables userSchema →
    Option (Option (Except Failure Unit)×RowLocking.Tables userSchema)
  | .add t row,tables => (tables.insertRow pid t row).map fun (reply,tables') =>
    (reply.map fun
      | .inserted => .ok ()
      | .duplicateKey => .error .integrityError
      | .invalidValue => .error .dataError,tables')
  | .assign t isRow f,tables => (tables.fire pid (.update t isRow f)).map fun (reply,tables') =>
    (reply.map fun count =>
      if count≠1 then .error .staleData
      else if ((tables.visible pid t).filter isRow).all fun r => valid t (f r) then .ok ()
      else .error .dataError,tables')

namespace Shared

/-- The rows that a request sees. -/
def view (s : Shared) (pid : ℕ) : UserRecords.Tables := fun t => s.tables.visible pid t

/-- Replace the unflushed changes of a session. -/
def pend (s : Shared) (pid : ℕ) (changes : List Change) : Shared :=
  {s with unflushed := Function.update s.unflushed pid changes}

/-- Drop what a session has not committed. -/
def rolledBack (pid : ℕ) (s : Shared) : Shared :=
  {s.pend pid [] with tables := s.tables.release pid}

/-- Flush, change by change, and answer once nothing is left to write. -/
def flushed {R : Type} (pid : ℕ) (answer : Shared → R×Shared) (s : Shared) :
    Option (Option (Except Failure R)×Shared) :=
  match s.unflushed pid with
  | [] => some (some (.ok (answer s).1),(answer s).2)
  | change::rest =>
    match writeNext pid change s.tables with
    | none => none
    | some (none,tables) => some (none,{s with tables := tables})
    | some (some (.ok _),tables) => some (none,{s.pend pid rest with tables := tables})
    | some (some (.error e),_) => some (some (.error e),s.rolledBack pid)

/-- Perform one effect of one of many requests. -/
def fire (pid : ℕ) : (op : Effect) → ℕ → Shared → Option (Option op.Reply×Shared)
  | .draw,_,s => some (some s.draws,{s with draws := s.draws+1})
  | .select t q,_,s => s.flushed pid fun s => ((s.view pid t).filter q,s)
  | .selectRoles userId,_,s => s.flushed pid fun s => (rolesForUser (s.view pid) userId,s)
  | .selectPermissionNames userId,_,s =>
    s.flushed pid fun s => (permissionNamesForUser (s.view pid) userId,s)
  | .add t row,_,s => some (some (),s.pend pid (s.unflushed pid++[.add t row]))
  | .assign t isRow f,_,s => some (some (),s.pend pid (s.unflushed pid++[.assign t isRow f]))
  | .flush,_,s => s.flushed pid fun s => ((),s)
  | .changed,_,s => some (some !(s.unflushed pid).isEmpty,s)
  | .commit,_,s => s.flushed pid fun s => ((),{s with tables := s.tables.settle pid})

end Shared

/-- Overlapping requests; the session of a request is closed when it ends. -/
def userMachine : Machine userSignature Shared where
  fire := Shared.fire
  close := Shared.rolledBack

/-- A system of overlapping requests. -/
abbrev UserSystem := System userSignature Failure Response Shared

/-- One scheduling decision. -/
abbrev UserMove := Move userSignature Failure Response

/-- Committed rows without locks. -/
def idleTables (db : UserRecords.Tables) : RowLocking.Tables userSchema :=
  ⟨fun t => (db t).map fun r => ⟨some r,none,none⟩,fun _ => none⟩

/-- A system before its first request. -/
def idleSystem (draws : ℕ) (db : UserRecords.Tables) : UserSystem :=
  ⟨⟨draws,idleTables db,fun _ => []⟩,[],[]⟩

theorem mergedAt_idleTables (S : Set ℕ) (db : UserRecords.Tables) (t : Table) (i : ℕ) :
    mergedAt S ((idleTables db).cells t) i=(db t)[i]? := by
  simp only [mergedAt,idleTables,List.getElem?_map]
  cases (db t)[i]? with
  | none => rfl
  | some r => rfl

section Writes

variable {pid : ℕ} {s s' : Shared}

/-- What a flush does as long as a change is left: it waits, writes the change
or fails. -/
theorem flushed_cons {R : Type} {answer : Shared → R×Shared} {change : Change}
    {rest : List Change} {reply : Option (Except Failure R)}
    (hpending : s.unflushed pid=change::rest)
    (h : s.flushed pid answer=some (reply,s')) :
    (∃ tables,writeNext pid change s.tables=some (none,tables) ∧ reply=none ∧
      s'={s with tables := tables}) ∨
    (∃ tables,writeNext pid change s.tables=some (some (.ok ()),tables) ∧ reply=none ∧
      s'={s.pend pid rest with tables := tables}) ∨
    ∃ e tables,writeNext pid change s.tables=some (some (.error e),tables) ∧
      reply=some (.error e) ∧ s'=s.rolledBack pid := by
  simp only [Shared.flushed,hpending] at h
  split at h
  · cases h
  · rename_i tables hwrite
    cases h
    exact .inl ⟨tables,hwrite,rfl,rfl⟩
  · rename_i tables hwrite
    cases h
    exact .inr (.inl ⟨tables,hwrite,rfl,rfl⟩)
  · rename_i e tables hwrite
    cases h
    exact .inr (.inr ⟨e,tables,hwrite,rfl,rfl⟩)

/-- A flush answers once nothing is left to write. -/
theorem flushed_nil {R : Type} {answer : Shared → R×Shared}
    {reply : Option (Except Failure R)} (hpending : s.unflushed pid=[])
    (h : s.flushed pid answer=some (reply,s')) :
    reply=some (.ok (answer s).1) ∧ s'=(answer s).2 := by
  simp only [Shared.flushed,hpending,Option.some.injEq,Prod.mk.injEq] at h
  exact ⟨h.1.symm,h.2.symm⟩

/-- An added row is written if its columns accept it and no visible row conflicts. -/
theorem writeNext_add {t : Table} {row : Row t} {tables tables' : RowLocking.Tables userSchema}
    {reply : Option (Except Failure Unit)} (hvalid : valid t row=true)
    (hfree : ∀ r∈tables.visible pid t,conflict t row r=false)
    (h : writeNext pid (.add t row) tables=some (reply,tables')) :
    reply=some (.ok ()) ∧ tables.fire pid (.insert t row)=some (some .inserted,tables') ∧
      tables'=tables.write t (tables.cells t++[⟨none,some pid,some row⟩]) := by
  have hseen : ¬(tables.visible pid t).any (conflict t row)=true := by
    intro hany
    obtain ⟨r,hr,hconflict⟩ := List.any_eq_true.mp hany
    rw [hfree r hr] at hconflict
    cases hconflict
  simp only [writeNext] at h
  obtain ⟨⟨inserted,tables₁⟩,hinsert,heq⟩ := Option.map_eq_some_iff.mp h
  have hfire : tables.fire pid (.insert t row)=some (inserted,tables₁) := hinsert
  simp only [RowLocking.Tables.insertRow] at hinsert
  rw [if_pos hvalid] at hinsert
  split at hinsert
  · cases hinsert
  · cases hinsert
    cases heq
    exact ⟨rfl,hfire,rfl⟩

end Writes

end BackendPlatform.ConcurrentSessions
