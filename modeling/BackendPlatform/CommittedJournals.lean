import BackendPlatform.RowLocking

/-!
# Tables that are only appended to

A journal says what a process has appended to a table in its transaction, and
what of that was committed. As long as no statement locks rows of the table,
appended rows are held until the commit and committed rows stay, whoever else
commits, rolls back or dies.
-/

set_option autoImplicit false

namespace BackendPlatform.CommittedJournals

open TransactionalTables RowLocking

section Cells

/-- What a process has appended to a table. -/
structure Journal (R : Type) where
  /-- What waits for the commit. -/
  pending : List R
  /-- What was committed. -/
  recorded : List R

variable {R : Type}

namespace Journal

/-- Nothing was appended. -/
def empty : Journal R := ⟨[],[]⟩

/-- A row is appended. -/
def append (row : R) (j : Journal R) : Journal R := ⟨row::j.pending,j.recorded⟩

/-- The transaction commits. -/
def settle (j : Journal R) : Journal R := ⟨[],j.pending++j.recorded⟩

/-- The transaction ends without a commit. -/
def release (j : Journal R) : Journal R := ⟨[],j.recorded⟩

end Journal

variable {cells : List (Cell R)} {journals : ℕ → Journal R}

/-- The cells of a table hold what the journals say. -/
structure Backed (cells : List (Cell R)) (journals : ℕ → Journal R) : Prop where
  /-- Its transaction holds what waits. -/
  pending : ∀ p, ∀ row∈(journals p).pending, ∃ i, Held p cells i row
  /-- What was committed is there. -/
  recorded : ∀ p, ∀ row∈(journals p).recorded, ∃ c∈cells, c.committed=some row
  /-- Nobody locks a committed row. -/
  unlocked : ∀ c∈cells, c.committed≠none → c.holder=none

/-- Appending needs the new row in the journal of its transaction. -/
theorem Backed.append (h : Backed cells journals) (pid : ℕ) (row : R) :
    Backed (cells++[⟨none,some pid,some row⟩])
      (Function.update journals pid ((journals pid).append row)) := by
  have hold : ∀ p, ∀ r∈(journals p).pending, ∃ i, Held p (cells++[⟨none,some pid,some row⟩]) i r :=
    fun p r hr => (h.pending p r hr).imp fun _ hheld => hheld.append _
  have hkept : ∀ p, ∀ r∈(journals p).recorded,
      ∃ c∈cells++[⟨none,some pid,some row⟩], c.committed=some r := by
    intro p r hr
    obtain ⟨c,hc,hcommitted⟩ := h.recorded p r hr
    exact ⟨c,List.mem_append_left _ hc,hcommitted⟩
  refine ⟨fun p r hr => ?_,fun p r hr => ?_,fun c hc hcommitted => ?_⟩
  · by_cases hp : p=pid
    · subst hp
      rw [Function.update_self] at hr
      rcases List.mem_cons.mp hr with rfl|hr
      · refine ⟨cells.length,⟨none,some p,some r⟩,?_,rfl,rfl⟩
        rw [List.getElem?_append_right le_rfl,Nat.sub_self]
        rfl
      · exact hold p r hr
    · rw [Function.update_of_ne hp] at hr
      exact hold p r hr
  · by_cases hp : p=pid
    · subst hp
      rw [Function.update_self] at hr
      exact hkept p r hr
    · rw [Function.update_of_ne hp] at hr
      exact hkept p r hr
  · rcases List.mem_append.mp hc with hc|hc
    · exact h.unlocked c hc hcommitted
    · obtain rfl := List.mem_singleton.mp hc
      exact absurd rfl hcommitted

/-- A commit publishes what waited. -/
theorem Backed.settle (h : Backed cells journals) (pid : ℕ) :
    Backed (cells.map (·.settle pid))
      (Function.update journals pid (journals pid).settle) := by
  have hkept : ∀ p, ∀ r∈(journals p).recorded,
      ∃ c∈cells.map (·.settle pid), c.committed=some r := by
    intro p r hr
    obtain ⟨c,hc,hcommitted⟩ := h.recorded p r hr
    have hfree : c.holder=none := h.unlocked c hc (by rw [hcommitted]; exact Option.some_ne_none r)
    refine ⟨c.settle pid,List.mem_map_of_mem hc,?_⟩
    rw [Cell.settle,if_neg (by rw [hfree]; exact (Option.some_ne_none pid).symm)]
    exact hcommitted
  refine ⟨fun p r hr => ?_,fun p r hr => ?_,fun c hc hcommitted => ?_⟩
  · by_cases hp : p=pid
    · subst hp
      rw [Function.update_self] at hr
      cases hr
    · rw [Function.update_of_ne hp] at hr
      exact (h.pending p r hr).imp fun _ hheld => hheld.settle_of_ne (Ne.symm hp)
  · by_cases hp : p=pid
    · subst hp
      rw [Function.update_self] at hr
      rcases List.mem_append.mp hr with hr|hr
      · obtain ⟨i,c,hc,hholder,hworking⟩ := h.pending p r hr
        refine ⟨c.settle p,List.mem_map_of_mem (List.mem_of_getElem? hc),?_⟩
        rw [Cell.settle,if_pos hholder]
        exact hworking
      · exact hkept p r hr
    · rw [Function.update_of_ne hp] at hr
      exact hkept p r hr
  · obtain ⟨before,hbefore,rfl⟩ := List.mem_map.mp hc
    unfold Cell.settle at hcommitted ⊢
    split
    · rfl
    · rename_i hholder
      rw [if_neg hholder] at hcommitted
      exact h.unlocked before hbefore hcommitted

/-- The end of a transaction drops what waited. -/
theorem Backed.release (h : Backed cells journals) (pid : ℕ) :
    Backed (cells.map (·.release pid))
      (Function.update journals pid (journals pid).release) := by
  have hkept : ∀ p, ∀ r∈(journals p).recorded,
      ∃ c∈cells.map (·.release pid), c.committed=some r := by
    intro p r hr
    obtain ⟨c,hc,hcommitted⟩ := h.recorded p r hr
    exact ⟨c.release pid,List.mem_map_of_mem hc,(Cell.release_committed pid c).trans hcommitted⟩
  refine ⟨fun p r hr => ?_,fun p r hr => ?_,fun c hc hcommitted => ?_⟩
  · by_cases hp : p=pid
    · subst hp
      rw [Function.update_self] at hr
      cases hr
    · rw [Function.update_of_ne hp] at hr
      exact (h.pending p r hr).imp fun _ hheld => hheld.release_of_ne (Ne.symm hp)
  · by_cases hp : p=pid
    · subst hp
      rw [Function.update_self] at hr
      exact hkept p r hr
    · rw [Function.update_of_ne hp] at hr
      exact hkept p r hr
  · obtain ⟨before,hbefore,rfl⟩ := List.mem_map.mp hc
    have hfree : before.holder=none :=
      h.unlocked before hbefore (by rw [←Cell.release_committed pid before]; exact hcommitted)
    rw [Cell.release,if_neg (by rw [hfree]; exact (Option.some_ne_none pid).symm)]
    exact hfree

end Cells

section Statements

variable {D : Schema} [DecidableEq D.Table] {t : D.Table}

/-- The statement locks no row of a table. -/
def Appends (t : D.Table) : Statement D → Prop
  | .selectForUpdate other _ => other≠t
  | .update other _ _ => other≠t
  | .delete other _ => other≠t
  | _ => True

/-- The journal after an answered statement. -/
def Journal.after (t : D.Table) (j : Journal (D.Row t)) :
    (stmt : Statement D) → stmt.Reply → Journal (D.Row t)
  | .select _ _,_ => j
  | .selectForUpdate _ _,_ => j
  | .insert other row,reply => match (reply : Insertion) with
    | .inserted => if h : other=t then j.append (h▸row) else j
    | _ => j
  | .update _ _ _,_ => j
  | .delete _ _,_ => j
  | .commit,_ => j.settle
  | .rollback,_ => j.release

theorem Journal.after_insert (j : Journal (D.Row t)) (row : D.Row t) :
    j.after t (.insert t row) Insertion.inserted=j.append row := dif_pos rfl

theorem Journal.after_insert_of_ne (j : Journal (D.Row t)) {other : D.Table} (row : D.Row other)
    (h : other≠t) : j.after t (.insert other row) Insertion.inserted=j := dif_neg h

variable {journals : ℕ → Journal (D.Row t)} {tables tables' : Tables D} {pid : ℕ}

/-- Answered statements that only append keep the journals backed. -/
theorem Backed.fire (h : Backed (tables.cells t) journals) {stmt : Statement D} {r : stmt.Reply}
    (happends : Appends t stmt) (hf : tables.fire pid stmt=some (some r,tables')) :
    Backed (tables'.cells t)
      (Function.update journals pid ((journals pid).after t stmt r)) := by
  have hsame : Function.update journals pid (journals pid)=journals := Function.update_eq_self _ _
  cases stmt with
  | select other q =>
    cases hf
    exact hsame.symm ▸ h
  | selectForUpdate other q =>
    obtain ⟨rows,_,_,hcells⟩ := Tables.locking_answer hf
    show Backed _ (Function.update journals pid (journals pid))
    rw [hsame,hcells,Tables.write_cells_of_ne _ _ (Ne.symm happends)]
    exact h
  | update other q f =>
    obtain ⟨rows,_,_,hcells⟩ := Tables.fire_update_answer hf
    show Backed _ (Function.update journals pid (journals pid))
    rw [hsame,hcells,Tables.write_cells_of_ne _ _ (Ne.symm happends)]
    exact h
  | delete other q =>
    obtain ⟨rows,_,_,hcells⟩ := Tables.fire_delete_answer hf
    show Backed _ (Function.update journals pid (journals pid))
    rw [hsame,hcells,Tables.write_cells_of_ne _ _ (Ne.symm happends)]
    exact h
  | insert other row =>
    rcases Tables.fire_insert_answer hf with ⟨hrejected,rfl⟩|⟨rfl,_,_,rfl⟩
    · cases r with
      | inserted => exact absurd rfl hrejected
      | duplicateKey => exact hsame.symm ▸ h
      | invalidValue => exact hsame.symm ▸ h
    · by_cases hother : other=t
      · subst hother
        rw [Journal.after_insert,Tables.write_cells_self]
        exact h.append pid row
      · rw [Journal.after_insert_of_ne _ _ hother,hsame,
          Tables.write_cells_of_ne _ _ (Ne.symm hother)]
        exact h
  | commit =>
    cases hf
    exact h.settle pid
  | rollback =>
    cases hf
    exact h.release pid

end Statements

end BackendPlatform.CommittedJournals
