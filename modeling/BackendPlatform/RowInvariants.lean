import BackendPlatform.RowLocking

/-!
# Conditions on every version of a row

A condition that every inserted row meets and every update keeps holds of the
committed version and of the holder's version of every row, whatever locks,
commits and rollbacks happen in between.
-/

set_option autoImplicit false

namespace BackendPlatform.RowInvariants

open TransactionalTables RowLocking

section Cells

variable {R : Type} {P : R → Prop} {c : Cell R} {cells : List (Cell R)} {p : ℕ} {q : R → Bool}

/-- The committed version and the version of the holder meet the condition. -/
structure Both (P : R → Prop) (c : Cell R) : Prop where
  /-- The committed version. -/
  committed : ∀ r, c.committed=some r → P r
  /-- The version of the holder. -/
  working : ∀ r, c.working=some r → P r

/-- What a process sees of a cell is one of its versions. -/
theorem Both.view (h : Both P c) {r : R} (hr : c.view p=some r) : P r := by
  unfold Cell.view at hr
  split at hr
  · exact h.working r hr
  · exact h.committed r hr

/-- A lock may leave another version that meets the condition. -/
theorem Both.lock (h : Both P c) {g : R → Option R}
    (hg : ∀ r, q r=true → P r → ∀ r', g r=some r' → P r') : Both P (c.lock p q g) := by
  unfold Cell.lock
  split
  · rename_i r hview
    split
    · rename_i hq
      exact ⟨h.committed,hg r hq (h.view hview)⟩
    · exact h
  · exact h

/-- A COMMIT leaves the versions among those there were. -/
theorem Both.settle (h : Both P c) (p : ℕ) : Both P (c.settle p) := by
  unfold Cell.settle
  split
  · exact ⟨h.working,by rintro r ⟨⟩⟩
  · exact h

/-- A ROLLBACK leaves the versions among those there were. -/
theorem Both.release (h : Both P c) (p : ℕ) : Both P (c.release p) := by
  unfold Cell.release
  split
  · exact ⟨h.committed,by rintro r ⟨⟩⟩
  · exact h

/-- A statement that keeps the property of rows keeps it of both versions. -/
theorem Both.lockRows (h : ∀ c∈cells,Both P c) {g : R → Option R}
    (hg : ∀ r, q r=true → P r → ∀ r', g r=some r' → P r') (rows : List ℕ) :
    ∀ c∈lockRows p rows q g cells,Both P c := by
  intro c' hc'
  obtain ⟨i,hi⟩ := List.mem_iff_getElem?.mp hc'
  rw [getElem?_lockRows] at hi
  obtain ⟨c,hc,rfl⟩ := Option.map_eq_some_iff.mp hi
  have hboth := h c (List.mem_of_getElem? hc)
  split
  · exact hboth.lock hg
  · exact hboth

end Cells

section Tables

variable {D : Schema} {P : (t : D.Table) → D.Row t → Prop} {s s' : Tables D} {p : ℕ}

/-- Every version of every row meets the condition of its table. -/
def Versions (P : (t : D.Table) → D.Row t → Prop) (s : Tables D) : Prop :=
  ∀ t, ∀ c∈s.cells t, Both (P t) c

/-- The statement only writes rows that meet the condition. -/
def Writes (P : (t : D.Table) → D.Row t → Prop) : Statement D → Prop
  | .insert t row => P t row
  | .update t q f => ∀ r, q r=true → P t r → P t (f r)
  | _ => True

/-- What a transaction sees meets the condition. -/
theorem Versions.visible (h : Versions P s) {t : D.Table} {r : D.Row t} (hr : r∈s.visible p t) :
    P t r := by
  obtain ⟨c,hc,hview⟩ := List.mem_filterMap.mp hr
  exact (h t c hc).view hview

/-- The conditions of one family imply those of another. -/
theorem Versions.mono {P' : (t : D.Table) → D.Row t → Prop} (h : Versions P s)
    (hp : ∀ t r, P t r → P' t r) : Versions P' s := fun t c hc =>
  ⟨fun r hr => hp t r ((h t c hc).committed r hr),fun r hr => hp t r ((h t c hc).working r hr)⟩

/-- What a locking statement answers was visible and meets its condition. -/
theorem mem_matched {R : Type} {cells : List (Cell R)} {rows : List ℕ} {q : R → Bool} {r : R}
    (h : r∈matched p rows q cells) : r∈cells.filterMap (·.view p) ∧ q r=true := by
  obtain ⟨i,_,hi⟩ := List.mem_filterMap.mp h
  obtain ⟨hview,hq⟩ := Option.filter_eq_some_iff.mp hi
  obtain ⟨c,hc,hview⟩ := Option.bind_eq_some_iff.mp hview
  exact ⟨List.mem_filterMap.mpr ⟨c,List.mem_of_getElem? hc,hview⟩,hq⟩

/-- What is committed meets the condition. -/
theorem Versions.committed (h : Versions P s) {t : D.Table} {r : D.Row t}
    (hr : r∈s.committed t) : P t r := by
  obtain ⟨c,hc,hcommitted⟩ := List.mem_filterMap.mp hr
  exact (h t c hc).committed r hcommitted

/-- The property is about the cells alone. -/
theorem Versions.same (h : Versions P s) (hcells : s'.cells=s.cells) : Versions P s' := by
  intro t
  rw [hcells]
  exact h t

/-- A COMMIT keeps the property of every version. -/
theorem Versions.settle (h : Versions P s) (p : ℕ) : Versions P (s.settle p) := by
  intro t c' hc'
  obtain ⟨c,hc,rfl⟩ := List.mem_map.mp hc'
  exact (h t c hc).settle p

/-- A ROLLBACK keeps the property of every version. -/
theorem Versions.release (h : Versions P s) (p : ℕ) : Versions P (s.release p) := by
  intro t c' hc'
  obtain ⟨c,hc,rfl⟩ := List.mem_map.mp hc'
  exact (h t c hc).release p

variable [DecidableEq D.Table]

/-- Writing cells with the property keeps it of every version. -/
theorem Versions.write (h : Versions P s) {t : D.Table} {cells : List (Cell (D.Row t))}
    (hs : s'.cells=(s.write t cells).cells) (hnew : ∀ c∈cells,Both (P t) c) : Versions P s' := by
  intro u
  rw [hs]
  by_cases hut : u=t
  · subst hut
    rw [Tables.write_cells_self]
    exact hnew
  · rw [Tables.write_cells_of_ne _ _ hut]
    exact h u

/-- A statement that only writes such rows keeps the condition. -/
theorem Versions.fire {stmt : Statement D} {reply : Option stmt.Reply} (h : Versions P s)
    (hstmt : Writes P stmt) (hf : s.fire p stmt=some (reply,s')) : Versions P s' := by
  cases reply with
  | none => exact h.same (Tables.fire_progress hf)
  | some reply =>
    cases stmt with
    | select t q =>
      cases hf
      exact h
    | selectForUpdate t q =>
      obtain ⟨rows,_,_,hs⟩ := Tables.locking_answer hf
      refine h.write hs (Both.lockRows (h t) ?_ rows)
      rintro r _ hr r' ⟨⟩
      exact hr
    | insert t row =>
      obtain ⟨_,rfl⟩|⟨_,_,_,rfl⟩ := Tables.fire_insert_answer hf
      · exact h
      · refine h.write rfl fun c hc => ?_
        rcases List.mem_append.mp hc with hc|hc
        · exact h t c hc
        · obtain rfl := List.mem_singleton.mp hc
          refine ⟨by rintro r ⟨⟩,?_⟩
          rintro r ⟨⟩
          exact hstmt
    | update t q f =>
      obtain ⟨rows,_,_,hs⟩ := Tables.fire_update_answer hf
      refine h.write hs (Both.lockRows (h t) ?_ rows)
      rintro r hq hr r' ⟨⟩
      exact hstmt r hq hr
    | delete t q =>
      obtain ⟨rows,_,_,hs⟩ := Tables.fire_delete_answer hf
      refine h.write hs (Both.lockRows (h t) ?_ rows)
      rintro r _ _ r' ⟨⟩
    | commit =>
      cases hf
      exact h.settle p
    | rollback =>
      cases hf
      exact h.release p

end Tables

end BackendPlatform.RowInvariants
