import BackendPlatform.RowLocking

/-!
# Versions that wait for a commit

Committed versions of rows meet one condition, and the version that a
transaction holds meets a weaker one of that transaction. Locks and rollbacks
keep both; a commit keeps them when by then the weaker condition of the
transaction implies the stronger one.
-/

set_option autoImplicit false

namespace BackendPlatform.OwnedVersions

open TransactionalTables RowLocking

section Cells

variable {R : Type} {P P' : R → Prop} {W W' : ℕ → R → Prop} {cells : List (Cell R)} {p : ℕ}

/-- The conditions on committed and held versions. -/
structure Versioned (P : R → Prop) (W : ℕ → R → Prop) (cells : List (Cell R)) : Prop where
  /-- A committed version. -/
  committed : ∀ c∈cells, ∀ r, c.committed=some r → P r
  /-- A held version. -/
  working : ∀ c∈cells, ∀ p r, c.holder=some p → c.working=some r → W p r

theorem Versioned.mono (h : Versioned P W cells) (hP : ∀ r, P r → P' r)
    (hW : ∀ p r, W p r → W' p r) : Versioned P' W' cells :=
  ⟨fun c hc r hr => hP r (h.committed c hc r hr),
    fun c hc p r hp hr => hW p r (h.working c hc p r hp hr)⟩

/-- What a transaction sees meets its condition. -/
theorem Versioned.view (h : Versioned P W cells) (hPW : ∀ r, P r → W p r) {c : Cell R}
    (hc : c∈cells) {r : R} (hr : c.view p=some r) : W p r := by
  unfold Cell.view at hr
  split at hr
  · exact h.working c hc p r ‹_› hr
  · exact hPW r (h.committed c hc r hr)

/-- A lock leaves a version that meets the condition of its transaction. -/
theorem Versioned.lockRows (h : Versioned P W cells) (hPW : ∀ r, P r → W p r) {q : R → Bool}
    {g : R → Option R} (hg : ∀ r, q r=true → W p r → ∀ r', g r=some r' → W p r')
    (rows : List ℕ) : Versioned P W (lockRows p rows q g cells) := by
  have hlock : ∀ c∈cells, ∀ j r, (c.lock p q g).holder=some j → (c.lock p q g).working=some r →
      W j r := by
    intro c hc j r hholder hworking
    unfold Cell.lock at hholder hworking
    split at hholder
    · rename_i seen hview
      split at hholder
      · rename_i hq
        cases hholder
        rw [hview] at hworking
        simp only [hq,if_true] at hworking
        exact hg seen hq (h.view hPW hc hview) r hworking
      · rename_i hq
        rw [hview] at hworking
        simp only [hq] at hworking
        exact h.working c hc j r hholder hworking
    · rename_i hview
      rw [hview] at hworking
      exact h.working c hc j r hholder hworking
  refine ⟨fun c' hc' r hr => ?_,fun c' hc' j r hholder hworking => ?_⟩
  · obtain ⟨i,hi⟩ := List.mem_iff_getElem?.mp hc'
    rw [getElem?_lockRows] at hi
    obtain ⟨c,hc,rfl⟩ := Option.map_eq_some_iff.mp hi
    split at hr
    · exact h.committed c (List.mem_of_getElem? hc) r ((Cell.lock_committed p q g c).symm.trans hr)
    · exact h.committed c (List.mem_of_getElem? hc) r hr
  · obtain ⟨i,hi⟩ := List.mem_iff_getElem?.mp hc'
    rw [getElem?_lockRows] at hi
    obtain ⟨c,hc,rfl⟩ := Option.map_eq_some_iff.mp hi
    split at hholder
    · rename_i hrow
      rw [if_pos hrow] at hworking
      exact hlock c (List.mem_of_getElem? hc) j r hholder hworking
    · rename_i hrow
      rw [if_neg hrow] at hworking
      exact h.working c (List.mem_of_getElem? hc) j r hholder hworking

theorem Versioned.append (h : Versioned P W cells) {row : R} (hrow : W p row) :
    Versioned P W (cells++[⟨none,some p,some row⟩]) := by
  refine ⟨fun c hc r hr => ?_,fun c hc j r hholder hworking => ?_⟩
  · rcases List.mem_append.mp hc with hc|hc
    · exact h.committed c hc r hr
    · obtain rfl := List.mem_singleton.mp hc
      cases hr
  · rcases List.mem_append.mp hc with hc|hc
    · exact h.working c hc j r hholder hworking
    · obtain rfl := List.mem_singleton.mp hc
      cases hholder
      cases hworking
      exact hrow

/-- A commit publishes what the transaction holds. -/
theorem Versioned.settle (h : Versioned P W cells) (hW : ∀ r, W p r → P r)
    (hother : ∀ j r, j≠p → W j r → W' j r) : Versioned P W' (cells.map (·.settle p)) := by
  refine ⟨fun c' hc' r hr => ?_,fun c' hc' j r hholder hworking => ?_⟩
  · obtain ⟨c,hc,rfl⟩ := List.mem_map.mp hc'
    unfold Cell.settle at hr
    split at hr
    · exact hW r (h.working c hc p r ‹_› hr)
    · exact h.committed c hc r hr
  · obtain ⟨c,hc,rfl⟩ := List.mem_map.mp hc'
    obtain ⟨hsame,hbefore,hne⟩ := Cell.settle_of_held hholder
    rw [hsame] at hworking
    exact hother j r hne (h.working c hc j r hbefore hworking)

/-- A rollback drops it. -/
theorem Versioned.release (h : Versioned P W cells) (hother : ∀ j r, j≠p → W j r → W' j r) :
    Versioned P W' (cells.map (·.release p)) := by
  refine ⟨fun c' hc' r hr => ?_,fun c' hc' j r hholder hworking => ?_⟩
  · obtain ⟨c,hc,rfl⟩ := List.mem_map.mp hc'
    exact h.committed c hc r ((Cell.release_committed p c).symm.trans hr)
  · obtain ⟨c,hc,rfl⟩ := List.mem_map.mp hc'
    obtain ⟨hsame,hbefore,hne⟩ := Cell.release_of_held hholder
    rw [hsame] at hworking
    exact hother j r hne (h.working c hc j r hbefore hworking)

end Cells

section Statements

variable {D : Schema} [DecidableEq D.Table] {t : D.Table} {P : D.Row t → Prop}
  {W : ℕ → D.Row t → Prop} {tables tables' : Tables D} {p : ℕ}

/-- Answered statements inside a transaction keep the conditions when they keep
the condition of the transaction. -/
theorem Versioned.fire (h : Versioned P W (tables.cells t)) (hPW : ∀ r, P r → W p r)
    {stmt : Statement D} {r : stmt.Reply} (hcommit : stmt≠.commit) (hrollback : stmt≠.rollback)
    (hupdate : ∀ q f, stmt=.update t q f → ∀ row, q row=true → W p row → W p (f row))
    (hdelete : ∀ q, stmt≠.delete t q)
    (hinsert : ∀ row, (⟨stmt,r⟩ : Σ s : Statement D, s.Reply)=
      ⟨.insert t row,Insertion.inserted⟩ → W p row)
    (hf : tables.fire p stmt=some (some r,tables')) : Versioned P W (tables'.cells t) := by
  cases stmt with
  | select other q =>
    cases hf
    exact h
  | selectForUpdate other q =>
    obtain ⟨rows,_,_,hcells⟩ := Tables.locking_answer hf
    rw [hcells]
    by_cases hother : other=t
    · subst hother
      rw [Tables.write_cells_self]
      refine h.lockRows hPW ?_ rows
      rintro row _ hrow _ ⟨⟩
      exact hrow
    · rw [Tables.write_cells_of_ne _ _ (Ne.symm hother)]
      exact h
  | update other q f =>
    obtain ⟨rows,_,_,hcells⟩ := Tables.fire_update_answer hf
    rw [hcells]
    by_cases hother : other=t
    · subst hother
      rw [Tables.write_cells_self]
      refine h.lockRows hPW ?_ rows
      rintro row hq hrow _ ⟨⟩
      exact hupdate q f rfl row hq hrow
    · rw [Tables.write_cells_of_ne _ _ (Ne.symm hother)]
      exact h
  | delete other q =>
    obtain ⟨rows,_,_,hcells⟩ := Tables.fire_delete_answer hf
    rw [hcells]
    by_cases hother : other=t
    · subst hother
      exact absurd rfl (hdelete q)
    · rw [Tables.write_cells_of_ne _ _ (Ne.symm hother)]
      exact h
  | insert other row =>
    rcases Tables.fire_insert_answer hf with ⟨_,rfl⟩|⟨rfl,_,_,rfl⟩
    · exact h
    · by_cases hother : other=t
      · subst hother
        rw [Tables.write_cells_self]
        exact h.append (hinsert row rfl)
      · rw [Tables.write_cells_of_ne _ _ (Ne.symm hother)]
        exact h
  | commit => exact absurd rfl hcommit
  | rollback => exact absurd rfl hrollback

end Statements

end BackendPlatform.OwnedVersions
