import BackendPlatform.InterleavedRuns
import BackendPlatform.RowLocking
import Mathlib.Data.List.Forall2

/-!
# Rows that only grow older

Some tables are histories: a row stays, keeps what identifies it, and its
marks are set but never taken back. An ageing names these tables and says
which version of a row may follow which. It is enough to look at single
statements: when every update of the programs moves each row it matches to a
later version and no statement deletes from these tables, the committed rows
age along every interleaved run, whoever commits, rolls back or dies.
-/

set_option autoImplicit false

namespace BackendPlatform.LastingRows

open ProgramTrees InterleavedRuns TransactionalTables RowLocking

section Bounded

variable {σ : Signature} {ε α S : Type} {P : σ.Op → Prop}

/-- Every remaining program only asks for effects in `P`. -/
def Bounded (P : σ.Op → Prop) (sys : System σ ε α S) : Prop :=
  ∀ (i : ℕ) (p : Program σ ε α), sys.procs[i]?=some (some p) → p.Within P

/-- What every effect in `P` and every closing keeps, and how it changes the
shared state, holds along every run of programs bounded by `P`. -/
theorem Bounded.reaches {m : Machine σ S} {C : System σ ε α S → Move σ ε α → Prop}
    {I : S → Prop} {R : S → S → Prop} {a b : System σ ε α S}
    (hspawn : ∀ sys p, C sys (.spawn p) → p.Within P) (hrefl : ∀ s, R s s)
    (htrans : ∀ s₁ s₂ s₃, R s₁ s₂ → R s₂ s₃ → R s₁ s₃)
    (hfire : ∀ pid op choice s reply s', I s → P op →
      m.fire pid op choice s=some (reply,s') → I s' ∧ R s s')
    (hclose : ∀ pid s, I s → I (m.close pid s) ∧ R s (m.close pid s))
    (ha : Bounded P a) (hinv : I a.shared) (h : m.Reaches C a b) :
    Bounded P b ∧ I b.shared ∧ R a.shared b.shared := by
  induction h with
  | refl => exact ⟨ha,hinv,hrefl _⟩
  | @step s t mv _ hc hs ih =>
    obtain ⟨hbound,hs₁,hr⟩ := ih
    cases mv with
    | effect i choice =>
      obtain ⟨op,k,hp,hcase⟩ := Machine.step_effect hs
      have hwithin := hbound i _ hp
      rcases hcase with ⟨s',hf,rfl⟩|⟨r,s',hf,rfl⟩
      · have hstep := hfire i op choice _ _ _ hs₁ hwithin.1 hf
        exact ⟨hbound,hstep.1,htrans _ _ _ hr hstep.2⟩
      · have hstep := hfire i op choice _ _ _ hs₁ hwithin.1 hf
        refine ⟨?_,hstep.1,htrans _ _ _ hr hstep.2⟩
        intro j p hj
        by_cases hij : j=i
        · subst hij
          have hlt : j<s.procs.length := (List.getElem?_eq_some_iff.mp hp).1
          rw [List.getElem?_set_self hlt] at hj
          obtain rfl := Option.some.inj (Option.some.inj hj)
          exact hwithin.2 r
        · rw [List.getElem?_set_ne (Ne.symm hij)] at hj
          exact hbound j p hj
    | finish i =>
      simp only [Machine.step] at hs
      split at hs
      · cases hs
        have hstep := hclose i _ hs₁
        exact ⟨hbound,hstep.1,htrans _ _ _ hr hstep.2⟩
      · cases hs
    | kill i =>
      simp only [Machine.step] at hs
      split at hs
      · rename_i op k hp
        cases hs
        have hstep := hclose i _ hs₁
        refine ⟨?_,hstep.1,htrans _ _ _ hr hstep.2⟩
        intro j p hj
        by_cases hij : j=i
        · subst hij
          have hlt : j<s.procs.length := (List.getElem?_eq_some_iff.mp hp).1
          rw [List.getElem?_set_self hlt] at hj
          cases hj
        · rw [List.getElem?_set_ne (Ne.symm hij)] at hj
          exact hbound j p hj
      · cases hs
    | spawn p =>
      cases hs
      refine ⟨?_,hs₁,hr⟩
      intro j q hj
      by_cases hlt : j<s.procs.length
      · rw [List.getElem?_append_left hlt] at hj
        exact hbound j q hj
      · rw [List.getElem?_append_right (Nat.le_of_not_lt hlt)] at hj
        obtain rfl := Option.some.inj (List.mem_singleton.mp (List.mem_of_getElem? hj))
        exact hspawn _ _ hc

end Bounded

section Cells

variable {R : Type} {later : R → R → Prop} {p : ℕ} {q : R → Bool} {c : Cell R}
  {cells : List (Cell R)}

/-- What the holder of a committed row sees is a later version of it. -/
def Cell.Ages (later : R → R → Prop) (c : Cell R) : Prop :=
  ∀ r, c.committed=some r → c.holder≠none → ∃ r', c.working=some r' ∧ later r r'

/-- Every cell ages. -/
def Ages (later : R → R → Prop) (cells : List (Cell R)) : Prop := ∀ c∈cells, Cell.Ages later c

/-- The committed version of the row with a given index. -/
def publishedAt (cells : List (Cell R)) (i : ℕ) : Option R :=
  cells[i]?.bind fun c => c.committed

/-- Every committed row of the first cells is committed in the second ones, in
a later version and at its place. -/
def Older (later : R → R → Prop) (cells cells' : List (Cell R)) : Prop :=
  ∀ i r, publishedAt cells i=some r → ∃ r', publishedAt cells' i=some r' ∧ later r r'

/-- A published row is the committed row of a cell. -/
theorem publishedAt_eq_some {i : ℕ} {r : R} (h : publishedAt cells i=some r) :
    ∃ c, cells[i]?=some c ∧ c.committed=some r := Option.bind_eq_some_iff.mp h

/-- What is published is what the cell has committed. -/
theorem publishedAt_of_getElem? {i : ℕ} (h : cells[i]?=some c) :
    publishedAt cells i=c.committed := by
  rw [publishedAt,h,Option.bind_some]

/-- Every table is older than itself. -/
theorem Older.refl (hrefl : ∀ r, later r r) (cells : List (Cell R)) : Older later cells cells :=
  fun _ r h => ⟨r,h,hrefl r⟩

/-- Older than an older table is older. -/
theorem Older.trans (htrans : ∀ a b c, later a b → later b c → later a c)
    {c₁ c₂ c₃ : List (Cell R)} (h : Older later c₁ c₂) (h' : Older later c₂ c₃) :
    Older later c₁ c₃ := by
  intro i r hr
  obtain ⟨r₁,hr₁,hl₁⟩ := h i r hr
  obtain ⟨r₂,hr₂,hl₂⟩ := h' i r₁ hr₁
  exact ⟨r₂,hr₂,htrans _ _ _ hl₁ hl₂⟩

/-- Cells whose committed versions are the same at every place. -/
theorem Older.of_committed (hrefl : ∀ r, later r r) {cells' : List (Cell R)}
    (h : ∀ i r, publishedAt cells i=some r → publishedAt cells' i=some r) :
    Older later cells cells' := fun i r hr => ⟨r,h i r hr,hrefl r⟩

/-- A lock that leaves a later version keeps the cell ageing. -/
theorem Cell.Ages.lock (hrefl : ∀ r, later r r)
    (htrans : ∀ a b c, later a b → later b c → later a c) {f : R → R}
    (hf : ∀ r, q r=true → later r (f r)) (h : Cell.Ages later c) :
    Cell.Ages later (c.lock p q fun r => some (f r)) := by
  unfold RowLocking.Cell.lock
  split
  · rename_i seen hview
    by_cases hq : q seen=true
    · rw [if_pos hq]
      intro r hr _
      refine ⟨f seen,rfl,htrans _ _ _ ?_ (hf seen hq)⟩
      unfold RowLocking.Cell.view at hview
      by_cases hown : c.holder=some p
      · rw [if_pos hown] at hview
        obtain ⟨r',hr',hl⟩ := h r hr (by rw [hown]; exact Option.some_ne_none p)
        rw [hview] at hr'
        exact Option.some.inj hr' ▸ hl
      · rw [if_neg hown] at hview
        rw [show c.committed=some r from hr] at hview
        exact Option.some.inj hview ▸ hrefl r
    · rw [if_neg hq]
      exact h
  · exact h

/-- A statement whose changes age the rows keeps the cells ageing. -/
theorem Ages.lockRows (hrefl : ∀ r, later r r)
    (htrans : ∀ a b c, later a b → later b c → later a c) {f : R → R}
    (hf : ∀ r, q r=true → later r (f r)) (rows : List ℕ) (h : Ages later cells) :
    Ages later (lockRows p rows q (fun r => some (f r)) cells) := by
  intro c' hc'
  obtain ⟨i,hi⟩ := List.mem_iff_getElem?.mp hc'
  rw [getElem?_lockRows] at hi
  obtain ⟨c,hc,rfl⟩ := Option.map_eq_some_iff.mp hi
  have hage := h c (List.mem_of_getElem? hc)
  by_cases hrow : i∈rows
  · rw [if_pos hrow]
    exact hage.lock hrefl htrans hf
  · rw [if_neg hrow]
    exact hage

/-- Locking statements publish nothing. -/
theorem Older.lockRows (hrefl : ∀ r, later r r) (p : ℕ) (rows : List ℕ) (q : R → Bool)
    (g : R → Option R) (cells : List (Cell R)) : Older later cells (lockRows p rows q g cells) := by
  refine .of_committed hrefl fun i r hr => ?_
  obtain ⟨c,hc,hr⟩ := publishedAt_eq_some hr
  have hlocked := getElem?_lockRows p rows q g cells i
  rw [hc,Option.map_some] at hlocked
  rw [publishedAt_of_getElem? hlocked]
  split
  · exact (Cell.lock_committed p q g c).trans hr
  · exact hr

/-- A new row has no committed version to compare with. -/
theorem Ages.append (h : Ages later cells) (p : ℕ) (row : R) :
    Ages later (cells++[⟨none,some p,some row⟩]) := by
  intro c hc
  rcases List.mem_append.mp hc with hc|hc
  · exact h c hc
  · obtain rfl := List.mem_singleton.mp hc
    rintro r ⟨⟩

/-- A table is older than one with a new row. -/
theorem Older.append (hrefl : ∀ r, later r r) (cells : List (Cell R)) (c : Cell R) :
    Older later cells (cells++[c]) := by
  refine .of_committed hrefl fun i r hr => ?_
  obtain ⟨d,hd,hr⟩ := publishedAt_eq_some hr
  have hlt : i<cells.length := (List.getElem?_eq_some_iff.mp hd).1
  rw [publishedAt,List.getElem?_append_left hlt,hd]
  exact hr

/-- A COMMIT keeps the cells ageing. -/
theorem Ages.settle (h : Ages later cells) (p : ℕ) : Ages later (cells.map (·.settle p)) := by
  intro c' hc'
  obtain ⟨c,hc,rfl⟩ := List.mem_map.mp hc'
  unfold RowLocking.Cell.settle
  split
  · rintro r _ hheld
    exact absurd rfl hheld
  · exact h c hc

/-- A commit publishes later versions. -/
theorem Older.settle (hrefl : ∀ r, later r r) (h : Ages later cells) (p : ℕ) :
    Older later cells (cells.map (·.settle p)) := by
  intro i r hr
  obtain ⟨c,hc,hr⟩ := publishedAt_eq_some hr
  rw [publishedAt,List.getElem?_map,hc,Option.map_some,Option.bind_some]
  unfold RowLocking.Cell.settle
  split
  · rename_i hheld
    exact h c (List.mem_of_getElem? hc) r hr (by rw [hheld]; exact Option.some_ne_none p)
  · exact ⟨r,hr,hrefl r⟩

/-- A ROLLBACK keeps the cells ageing. -/
theorem Ages.release (h : Ages later cells) (p : ℕ) : Ages later (cells.map (·.release p)) := by
  intro c' hc'
  obtain ⟨c,hc,rfl⟩ := List.mem_map.mp hc'
  unfold RowLocking.Cell.release
  split
  · rintro r _ hheld
    exact absurd rfl hheld
  · exact h c hc

/-- A ROLLBACK publishes nothing. -/
theorem Older.release (hrefl : ∀ r, later r r) (cells : List (Cell R)) (p : ℕ) :
    Older later cells (cells.map (·.release p)) := by
  refine .of_committed hrefl fun i r hr => ?_
  obtain ⟨c,hc,hr⟩ := publishedAt_eq_some hr
  rw [publishedAt,List.getElem?_map,hc]
  exact (Cell.release_committed p c).trans hr

/-- The committed rows reappear in their order, each in a later version. -/
theorem Older.sublist {cells' : List (Cell R)} (h : Older later cells cells') :
    List.SublistForall₂ later (cells.filterMap fun c => c.committed)
      (cells'.filterMap fun c => c.committed) := by
  induction cells generalizing cells' with
  | nil => exact .nil
  | cons c cells ih =>
    cases cells' with
    | nil =>
      have hnone : (c::cells).filterMap (fun c => c.committed)=[] := by
        rw [List.filterMap_eq_nil_iff]
        intro d hd
        obtain ⟨i,hi⟩ := List.mem_iff_getElem?.mp hd
        cases hcommitted : d.committed with
        | none => rfl
        | some r =>
          obtain ⟨r',hr',_⟩ := h i r ((publishedAt_of_getElem? hi).trans hcommitted)
          cases hr'
      rw [hnone]
      exact .nil
    | cons c' cells' =>
      have hrest : Older later cells cells' := fun i r hr => h (i+1) r hr
      have htail := ih hrest
      rw [List.filterMap_cons,List.filterMap_cons]
      cases hc : c.committed with
      | none =>
        cases c'.committed with
        | none => exact htail
        | some r' => exact .cons_right htail
      | some r =>
        obtain ⟨r',hr',hl⟩ := h 0 r hc
        rw [show c'.committed=some r' from hr']
        exact .cons hl htail

end Cells

section Tables

variable {D : Schema}

/-- The tables whose rows last, and which version of a row may follow which. -/
structure Ageing (D : Schema) where
  /-- The rows of the table last. -/
  lasting : D.Table → Prop
  /-- The second version may follow the first. -/
  later : (t : D.Table) → D.Row t → D.Row t → Prop
  /-- A row may stay as it is. -/
  refl : ∀ t r, later t r r
  /-- Later is transitive. -/
  trans : ∀ t a b c, later t a b → later t b c → later t a c

/-- The statement only makes lasting rows older. -/
def Ageing.Respects (G : Ageing D) : Statement D → Prop
  | .update t q f => G.lasting t → ∀ r, q r=true → G.later t r (f r)
  | .delete t _ => ¬G.lasting t
  | _ => True

/-- The lasting tables of all transactions age. -/
def Ageing.Sound (G : Ageing D) (s : Tables D) : Prop :=
  ∀ t, G.lasting t → Ages (G.later t) (s.cells t)

/-- The committed rows of the lasting tables have only grown older. -/
def Ageing.Lasts (G : Ageing D) (s s' : Tables D) : Prop :=
  ∀ t, G.lasting t → Older (G.later t) (s.cells t) (s'.cells t)

variable {G : Ageing D} {s s' : Tables D} {p : ℕ}

/-- Every system lasts into itself. -/
theorem Ageing.Lasts.refl (G : Ageing D) (s : Tables D) : G.Lasts s s :=
  fun t _ => Older.refl (G.refl t) _

/-- Lasting into a system that lasts on is lasting. -/
theorem Ageing.Lasts.trans {s₁ s₂ s₃ : Tables D} (h : G.Lasts s₁ s₂) (h' : G.Lasts s₂ s₃) :
    G.Lasts s₁ s₃ := fun t ht => (h t ht).trans (G.trans t) (h' t ht)

/-- Tables without locks age. -/
theorem Ageing.Sound.of_unlocked (h : ∀ t, ∀ c∈s.cells t, c.holder=none) : G.Sound s :=
  fun t _ c hc _ _ hheld => absurd (h t c hc) hheld

/-- The rows of a lasting table reappear in order, each in a later version. -/
theorem Ageing.Lasts.sublist {t : D.Table} (h : G.Lasts s s') (ht : G.lasting t) :
    List.SublistForall₂ (G.later t) (s.committed t) (s'.committed t) := (h t ht).sublist

/-- Cells that stay as they are. -/
theorem Ageing.Sound.same (h : G.Sound s) (hcells : s'.cells=s.cells) :
    G.Sound s' ∧ G.Lasts s s' := by
  have hlasts : G.Lasts s s' := by
    intro t _
    rw [hcells]
    exact Older.refl (G.refl t) _
  refine ⟨?_,hlasts⟩
  intro t ht
  rw [hcells]
  exact h t ht

/-- A rollback, or the end of a transaction, makes no row younger. -/
theorem Ageing.Sound.release (h : G.Sound s) (p : ℕ) :
    G.Sound (s.release p) ∧ G.Lasts s (s.release p) :=
  ⟨fun t ht => (h t ht).release p,fun t _ => Older.release (G.refl t) _ p⟩

variable [DecidableEq D.Table]

/-- New cells in one table, which age when its rows last. -/
theorem Ageing.Sound.write (h : G.Sound s) {t : D.Table} {cells : List (Cell (D.Row t))}
    (hs : s'.cells=(s.write t cells).cells)
    (hnew : G.lasting t → Ages (G.later t) cells ∧ Older (G.later t) (s.cells t) cells) :
    G.Sound s' ∧ G.Lasts s s' := by
  have hboth : ∀ u, G.lasting u →
      Ages (G.later u) (s'.cells u) ∧ Older (G.later u) (s.cells u) (s'.cells u) := by
    intro u hu
    rw [hs]
    by_cases hut : u=t
    · subst hut
      rw [Tables.write_cells_self]
      exact hnew hu
    · rw [Tables.write_cells_of_ne _ _ hut]
      exact ⟨h u hu,Older.refl (G.refl u) _⟩
  exact ⟨fun u hu => (hboth u hu).1,fun u hu => (hboth u hu).2⟩

/-- A statement that respects the ageing makes no row younger. -/
theorem Ageing.Sound.fire {stmt : Statement D} {reply : Option stmt.Reply} (h : G.Sound s)
    (hstmt : G.Respects stmt) (hf : s.fire p stmt=some (reply,s')) :
    G.Sound s' ∧ G.Lasts s s' := by
  cases reply with
  | none => exact h.same (Tables.fire_progress hf)
  | some reply =>
    cases stmt with
    | select t q =>
      cases hf
      exact h.same rfl
    | selectForUpdate t q =>
      obtain ⟨rows,_,_,hs⟩ := Tables.locking_answer hf
      exact h.write hs fun ht => ⟨(h t ht).lockRows (G.refl t) (G.trans t)
        (f := id) (fun r _ => G.refl t r) rows,Older.lockRows (G.refl t) _ _ _ _ _⟩
    | insert t row =>
      obtain ⟨_,rfl⟩|⟨_,_,_,rfl⟩ := Tables.fire_insert_answer hf
      · exact h.same rfl
      · exact h.write rfl fun ht => ⟨(h t ht).append p row,Older.append (G.refl t) _ _⟩
    | update t q f =>
      obtain ⟨rows,_,_,hs⟩ := Tables.fire_update_answer hf
      exact h.write hs fun ht => ⟨(h t ht).lockRows (G.refl t) (G.trans t) (hstmt ht) rows,
        Older.lockRows (G.refl t) _ _ _ _ _⟩
    | delete t q =>
      obtain ⟨rows,_,_,hs⟩ := Tables.fire_delete_answer hf
      exact h.write hs fun ht => absurd ht hstmt
    | commit =>
      cases hf
      exact ⟨fun t ht => (h t ht).settle p,fun t ht => Older.settle (G.refl t) (h t ht) p⟩
    | rollback =>
      cases hf
      exact h.release p

end Tables

end BackendPlatform.LastingRows
