import BackendPlatform.ConcurrentSessions
import BackendPlatform.RowInvariants

/-!
# Invariants of overlapping sessions

An invariant of the tables and a condition on the changes that wait in the
sessions are kept by every effect when writing one change, a rollback and a
commit keep the tables, and programs only ask for changes that meet the
condition. The flush in front of every query is taken apart here once.
-/

set_option autoImplicit false

namespace BackendPlatform.SessionInvariants

open ProgramTrees InterleavedRuns TransactionalTables RowLocking RowInvariants
open UserRecords UserRequests ConcurrentSessions

/-- The tables under their row locks. -/
abbrev LockedTables := RowLocking.Tables userSchema

/-- An effect only asks for changes that meet a condition. -/
def Asks (L : Change → Prop) : Effect → Prop
  | .add t row => L (.add t row)
  | .assign t isRow f => L (.assign t isRow f)
  | _ => True

/-- The tables meet an invariant and every unflushed change a condition. -/
structure Kept (I : LockedTables → Prop) (L : Change → Prop) (s : Shared) : Prop where
  /-- The invariant of the tables. -/
  tables : I s.tables
  /-- The condition on the changes. -/
  unflushed : ∀ pid, ∀ change∈s.unflushed pid, L change

/-- What has to be proved of the tables: single writes, rollbacks and commits
keep the invariant and change the tables in a certain way only. -/
structure Upkeep (I : LockedTables → Prop) (L : Change → Prop)
    (T : LockedTables → LockedTables → Prop) : Prop where
  /-- The tables may stay as they are. -/
  refl : ∀ tables, T tables tables
  /-- One change is written. -/
  write : ∀ pid change tables reply tables', I tables → L change →
    writeNext pid change tables=some (reply,tables') → I tables' ∧ T tables tables'
  /-- A transaction ends without a commit. -/
  release : ∀ pid tables, I tables → I (tables.release pid) ∧ T tables (tables.release pid)
  /-- A transaction commits. -/
  settle : ∀ pid tables, I tables → I (tables.settle pid) ∧ T tables (tables.settle pid)

variable {I : LockedTables → Prop} {L : Change → Prop} {T : LockedTables → LockedTables → Prop}
  {s s' : Shared} {pid : ℕ}

theorem Kept.pend (h : Kept I L s) {changes : List Change} (hchanges : ∀ change∈changes, L change) :
    Kept I L (s.pend pid changes) := by
  refine ⟨h.tables,fun j change hc => ?_⟩
  by_cases hj : j=pid
  · subst hj
    rw [show (s.pend j changes).unflushed j=changes from Function.update_self _ _ _] at hc
    exact hchanges change hc
  · rw [show (s.pend pid changes).unflushed j=s.unflushed j from
      Function.update_of_ne hj _ _] at hc
    exact h.unflushed j change hc

/-- One more change waits. -/
theorem Kept.append (h : Kept I L s) {change : Change} (hchange : L change) :
    Kept I L (s.pend pid (s.unflushed pid++[change])) := by
  refine h.pend fun other hother => ?_
  rcases List.mem_append.mp hother with hother|hother
  · exact h.unflushed pid other hother
  · obtain rfl := List.mem_singleton.mp hother
    exact hchange

theorem Upkeep.rolledBack (u : Upkeep I L T) (h : Kept I L s) (pid : ℕ) :
    Kept I L (s.rolledBack pid) ∧ T s.tables (s.rolledBack pid).tables := by
  have hrelease := u.release pid s.tables h.tables
  have hpend : Kept I L (s.pend pid []) := h.pend (by rintro change ⟨⟩)
  exact ⟨⟨hrelease.1,hpend.unflushed⟩,hrelease.2⟩

/-- A flush keeps what the answer after it keeps. -/
theorem Upkeep.flushed (u : Upkeep I L T) (h : Kept I L s) {R : Type} (answer : Shared → R×Shared)
    {reply : Option (Except Failure R)}
    (hanswer : Kept I L (answer s).2 ∧ T s.tables (answer s).2.tables)
    (hf : s.flushed pid answer=some (reply,s')) : Kept I L s' ∧ T s.tables s'.tables := by
  cases hpending : s.unflushed pid with
  | nil =>
    obtain ⟨_,rfl⟩ := flushed_nil hpending hf
    exact hanswer
  | cons change rest =>
    have hlawful : ∀ other∈change::rest, L other := fun other hother =>
      h.unflushed pid other (hpending ▸ hother)
    have hfirst : L change := hlawful change List.mem_cons_self
    rcases flushed_cons hpending hf with
      ⟨tables,hwrite,_,rfl⟩|⟨tables,hwrite,_,rfl⟩|⟨e,tables,_,_,rfl⟩
    · have hnew := u.write pid change _ _ _ h.tables hfirst hwrite
      exact ⟨⟨hnew.1,h.unflushed⟩,hnew.2⟩
    · have hnew := u.write pid change _ _ _ h.tables hfirst hwrite
      have hrest : Kept I L (s.pend pid rest) :=
        h.pend fun other hother => hlawful other (List.mem_cons_of_mem change hother)
      exact ⟨⟨hnew.1,hrest.unflushed⟩,hnew.2⟩
    · exact u.rolledBack h pid

/-- Every effect keeps the invariant. -/
theorem Upkeep.fire (u : Upkeep I L T) (h : Kept I L s) {op : Effect} {choice : ℕ}
    {reply : Option op.Reply} (hop : Asks L op)
    (hf : userMachine.fire pid op choice s=some (reply,s')) :
    Kept I L s' ∧ T s.tables s'.tables := by
  have hsame : Kept I L s ∧ T s.tables s.tables := ⟨h,u.refl s.tables⟩
  cases op with
  | draw =>
    cases hf
    exact ⟨⟨h.tables,h.unflushed⟩,u.refl s.tables⟩
  | select t q => exact u.flushed h _ hsame hf
  | selectRoles userId => exact u.flushed h _ hsame hf
  | selectPermissionNames userId => exact u.flushed h _ hsame hf
  | add t row =>
    cases hf
    exact ⟨h.append hop,u.refl s.tables⟩
  | assign t isRow f =>
    cases hf
    exact ⟨h.append hop,u.refl s.tables⟩
  | flush => exact u.flushed h _ hsame hf
  | changed =>
    cases hf
    exact hsame
  | commit =>
    have hsettle := u.settle pid s.tables h.tables
    exact u.flushed h (fun s => ((),{s with tables := s.tables.settle pid}))
      ⟨⟨hsettle.1,h.unflushed⟩,hsettle.2⟩ hf

/-- A change that only writes rows that meet the condition of their table. -/
def Meets (P : (t : Table) → Row t → Prop) : Change → Prop
  | .add t row => P t row
  | .assign t isRow f => ∀ r, isRow r=true → P t r → P t (f r)

/-- A condition on the rows of every table is kept by changes that meet it. -/
theorem upkeep_versions (P : (t : Table) → Row t → Prop) :
    Upkeep (Versions P) (Meets P) fun _ _ => True where
  refl _ := trivial
  write pid change tables reply tables' h hchange hwrite := by
    refine ⟨?_,trivial⟩
    cases change with
    | add t row =>
      obtain ⟨⟨inserted,tables₁⟩,hinsert,heq⟩ := Option.map_eq_some_iff.mp hwrite
      cases heq
      have hwrites : Writes (D := userSchema) P (.insert t row) := hchange
      exact h.fire hwrites hinsert
    | assign t isRow f =>
      obtain ⟨⟨count,tables₁⟩,hupdate,heq⟩ := Option.map_eq_some_iff.mp hwrite
      cases heq
      have hwrites : Writes (D := userSchema) P (.update t isRow f) := hchange
      exact h.fire hwrites hupdate
  release pid _ h := ⟨h.release pid,trivial⟩
  settle pid _ h := ⟨h.settle pid,trivial⟩

/-- Unlocked tables whose rows meet the condition. -/
theorem versions_idleTables {P : (t : Table) → Row t → Prop} {db : UserRecords.Tables}
    (h : ∀ t, ∀ r∈db t, P t r) : Versions P (idleTables db) := by
  intro t c hc
  obtain ⟨r,hr,rfl⟩ := List.mem_map.mp hc
  refine ⟨?_,by rintro r ⟨⟩⟩
  rintro r' ⟨⟩
  exact h t r hr

/-- A query that is answered reads what its request sees. -/
theorem flushed_ok {R : Type} {answer : Shared → R×Shared} {r : R}
    (hf : s.flushed pid answer=some (some (.ok r),s')) : r=(answer s).1 ∧ s'=(answer s).2 := by
  cases hpending : s.unflushed pid with
  | nil =>
    obtain ⟨hreply,hs⟩ := flushed_nil hpending hf
    exact ⟨Except.ok.inj (Option.some.inj hreply),hs⟩
  | cons change rest =>
    rcases flushed_cons hpending hf with ⟨_,_,hreply,_⟩|⟨_,_,hreply,_⟩|⟨_,_,_,hreply,_⟩
    · cases hreply
    · cases hreply
    · cases hreply

end BackendPlatform.SessionInvariants
