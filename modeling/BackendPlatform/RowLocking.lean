import BackendPlatform.TransactionalTables
import Mathlib.Data.Set.Insert
import Mathlib.Data.List.Indexes

/-!
# Row locks under read committed isolation

Every row lives in a cell with its committed version, the transaction that
holds its lock and that transaction's version. Cells are only appended, so
an index names a row for the whole run. A locking statement first notes the
rows it sees and then waits until none of them is locked by another
transaction; when it wakes it reads them again and skips those that no
longer satisfy its condition.

The merged reading for a set of transactions takes their versions where
they hold the lock and the committed version elsewhere. A commit of one
transaction reads as adding it to the set and a rollback as removing it, so
an invariant of all merged readings is an invariant of whole runs.
-/

set_option autoImplicit false

namespace BackendPlatform.RowLocking

open TransactionalTables

/-- One row: committed version, lock holder and the holder's version. -/
structure Cell (R : Type) where
  /-- What other transactions see; nothing before the insert commits. -/
  committed : Option R
  /-- The transaction that holds the row lock. -/
  holder : Option ℕ
  /-- What the holder sees; nothing once it has deleted the row. -/
  working : Option R

variable {R : Type}

namespace Cell

/-- No other transaction holds the row lock. -/
def free (p : ℕ) (c : Cell R) : Bool := c.holder.all (·==p)

/-- What a transaction sees in the cell. -/
def view (p : ℕ) (c : Cell R) : Option R :=
  if c.holder=some p then c.working else c.committed

/-- Lock the row if it satisfies the condition and leave the given version. -/
def lock (p : ℕ) (q : R → Bool) (g : R → Option R) (c : Cell R) : Cell R :=
  match c.view p with
  | some r => if q r then ⟨c.committed,some p,g r⟩ else c
  | none => c

/-- Publish the version of a holder and release the lock. -/
def settle (p : ℕ) (c : Cell R) : Cell R :=
  if c.holder=some p then ⟨c.working,none,none⟩ else c

/-- Drop the version of a holder and release the lock. -/
def release (p : ℕ) (c : Cell R) : Cell R :=
  if c.holder=some p then ⟨c.committed,none,none⟩ else c

end Cell

/-- Indices of the rows a transaction sees to satisfy a condition. -/
def candidates (p : ℕ) (q : R → Bool) (cells : List (Cell R)) : List ℕ :=
  (List.range cells.length).filter fun i => (cells[i]?.bind (·.view p)).any q

/-- No noted row is locked by another transaction. -/
def ready (p : ℕ) (rows : List ℕ) (cells : List (Cell R)) : Bool :=
  rows.all fun i => cells[i]?.all (·.free p)

/-- The noted rows that still satisfy the condition. -/
def matched (p : ℕ) (rows : List ℕ) (q : R → Bool) (cells : List (Cell R)) : List R :=
  rows.filterMap fun i => (cells[i]?.bind (·.view p)).filter q

/-- Lock the noted rows that still satisfy the condition. -/
def lockRows (p : ℕ) (rows : List ℕ) (q : R → Bool) (g : R → Option R)
    (cells : List (Cell R)) : List (Cell R) :=
  cells.mapIdx fun i c => if i∈rows then c.lock p q g else c

/-- The tables and, for every waiting statement, the rows it noted. -/
structure Tables (D : Schema) where
  /-- Every row ever inserted. -/
  cells : (t : D.Table) → List (Cell (D.Row t))
  /-- Rows noted by the statement a transaction is waiting in. -/
  noted : ℕ → Option (List ℕ)

namespace Tables

variable {D : Schema}

/-- The rows a transaction sees. -/
def visible (s : Tables D) (p : ℕ) (t : D.Table) : List (D.Row t) :=
  (s.cells t).filterMap (·.view p)

/-- The committed rows. -/
def committed (s : Tables D) (t : D.Table) : List (D.Row t) :=
  (s.cells t).filterMap (·.committed)

variable [DecidableEq D.Table]

/-- Replace the cells of one table. -/
def write (s : Tables D) (t : D.Table) (cells : List (Cell (D.Row t))) : Tables D :=
  {s with cells := Function.update s.cells t cells}

/-- A written table reads as the new cells. -/
@[simp] theorem write_cells_self (s : Tables D) (t : D.Table) (cells : List (Cell (D.Row t))) :
    (s.write t cells).cells t=cells := Function.update_self _ _ _

/-- The other tables read as before. -/
theorem write_cells_of_ne (s : Tables D) {t other : D.Table} (cells : List (Cell (D.Row t)))
    (h : other≠t) : (s.write t cells).cells other=s.cells other := Function.update_of_ne h _ _

/-- A statement that locks: note the rows it sees, wait for their locks, then
lock the rows that still satisfy the condition and return them. -/
def locking (p : ℕ) (t : D.Table) (q : D.Row t → Bool) (g : D.Row t → Option (D.Row t))
    (s : Tables D) : Option (Option (List (D.Row t))×Tables D) :=
  match s.noted p with
  | none =>
    some (none,{s with noted := Function.update s.noted p (some (candidates p q (s.cells t)))})
  | some rows =>
    if ready p rows (s.cells t) then
      some (some (matched p rows q (s.cells t)),
        {s.write t (lockRows p rows q g (s.cells t)) with
          noted := Function.update s.noted p none})
    else none

/-- An insertion waits for other transactions that hold a conflicting row. -/
def insertRow (p : ℕ) (t : D.Table) (row : D.Row t) (s : Tables D) :
    Option (Option Insertion×Tables D) :=
  if D.valid t row then
    if (s.cells t).any fun c => !c.free p &&
        (c.committed.any (D.conflict t row) || c.working.any (D.conflict t row)) then none
    else if (s.visible p t).any (D.conflict t row) then some (some .duplicateKey,s)
    else some (some .inserted,s.write t (s.cells t++[⟨none,some p,some row⟩]))
  else some (some .invalidValue,s)

/-- Publish every version the transaction holds. -/
def settle (p : ℕ) (s : Tables D) : Tables D :=
  {s with cells := fun t => (s.cells t).map (·.settle p)}

/-- Drop every version the transaction holds and forget what it waits for. -/
def release (p : ℕ) (s : Tables D) : Tables D :=
  ⟨fun t => (s.cells t).map (·.release p),Function.update s.noted p none⟩

/-- Perform one statement of one of many transactions: blocked, progress
without a reply, or a reply. -/
def fire (p : ℕ) : (stmt : Statement D) → Tables D → Option (Option stmt.Reply×Tables D)
  | .select t q,s => some (some ((s.visible p t).filter q),s)
  | .selectForUpdate t q,s => s.locking p t q some
  | .insert t row,s => s.insertRow p t row
  | .update t q f,s => (s.locking p t q fun r => some (f r)).map fun (reply,s') =>
    (reply.map (·.length),s')
  | .delete t q,s => (s.locking p t q fun _ => none).map fun (reply,s') =>
    (reply.map (·.length),s')
  | .commit,s => some (some (),s.settle p)
  | .rollback,s => some (some (),s.release p)

section Inversion

variable {p : ℕ} {t : D.Table} {s s' : Tables D}

/-- A waiting statement changes no cell. -/
theorem locking_progress {q : D.Row t → Bool} {g : D.Row t → Option (D.Row t)}
    (h : s.locking p t q g=some (none,s')) : s'.cells=s.cells := by
  unfold locking at h
  split at h
  · cases h
    rfl
  · split at h <;> cases h

/-- An answered locking statement found its rows unlocked, returns those that
still satisfy the condition and locks exactly them. -/
theorem locking_answer {q : D.Row t → Bool} {g : D.Row t → Option (D.Row t)}
    {reply : List (D.Row t)} (h : s.locking p t q g=some (some reply,s')) :
    ∃ rows, ready p rows (s.cells t)=true ∧ reply=matched p rows q (s.cells t) ∧
      s'.cells=(s.write t (lockRows p rows q g (s.cells t))).cells := by
  unfold locking at h
  split at h
  · cases h
  · rename_i rows _
    split at h
    · rename_i hr
      cases h
      exact ⟨rows,hr,rfl,rfl⟩
    · cases h

/-- Internal progress never changes a cell. -/
theorem fire_progress {stmt : Statement D} (h : s.fire p stmt=some (none,s')) :
    s'.cells=s.cells := by
  cases stmt with
  | select t q => cases h
  | selectForUpdate t q => exact locking_progress h
  | insert t row =>
    simp only [fire,insertRow] at h
    split at h
    · split at h
      · cases h
      · split at h <;> cases h
    · cases h
  | update t q f =>
    simp only [fire,Option.map_eq_some_iff,Prod.exists,Prod.mk.injEq] at h
    obtain ⟨reply,s₁,hl,hr,rfl⟩ := h
    cases reply with
    | none => exact locking_progress hl
    | some rows => cases hr
  | delete t q =>
    simp only [fire,Option.map_eq_some_iff,Prod.exists,Prod.mk.injEq] at h
    obtain ⟨reply,s₁,hl,hr,rfl⟩ := h
    cases reply with
    | none => exact locking_progress hl
    | some rows => cases hr
  | commit => cases h
  | rollback => cases h

/-- An UPDATE that is answered held the locks of its rows and rewrote them. -/
theorem fire_update_answer {q : D.Row t → Bool} {f : D.Row t → D.Row t} {n : ℕ}
    (h : s.fire p (.update t q f)=some (some n,s')) :
    ∃ rows, ready p rows (s.cells t)=true ∧ n=(matched p rows q (s.cells t)).length ∧
      s'.cells=(s.write t (lockRows p rows q (fun r => some (f r)) (s.cells t))).cells := by
  obtain ⟨⟨reply,s₁⟩,hl,hr⟩ := Option.map_eq_some_iff.mp h
  cases reply with
  | none => cases hr
  | some found =>
    cases hr
    obtain ⟨rows,hready,rfl,hs⟩ := locking_answer hl
    exact ⟨rows,hready,rfl,hs⟩

/-- A DELETE that is answered held the locks of its rows and emptied them. -/
theorem fire_delete_answer {q : D.Row t → Bool} {n : ℕ}
    (h : s.fire p (.delete t q)=some (some n,s')) :
    ∃ rows, ready p rows (s.cells t)=true ∧ n=(matched p rows q (s.cells t)).length ∧
      s'.cells=(s.write t (lockRows p rows q (fun _ => none) (s.cells t))).cells := by
  obtain ⟨⟨reply,s₁⟩,hl,hr⟩ := Option.map_eq_some_iff.mp h
  cases reply with
  | none => cases hr
  | some found =>
    cases hr
    obtain ⟨rows,hready,rfl,hs⟩ := locking_answer hl
    exact ⟨rows,hready,rfl,hs⟩

/-- A rejected insertion changes nothing; an accepted one appends a cell that
its transaction holds and whose row conflicts with none it sees. -/
theorem fire_insert_answer {row : D.Row t} {o : Insertion}
    (h : s.fire p (.insert t row)=some (some o,s')) :
    (o≠.inserted ∧ s'=s) ∨
      (o=.inserted ∧ D.valid t row=true ∧ (s.visible p t).any (D.conflict t row)=false ∧
        s'=s.write t (s.cells t++[⟨none,some p,some row⟩])) := by
  simp only [fire,insertRow] at h
  split at h
  · rename_i hv
    split at h
    · cases h
    · split at h
      · cases h
        exact .inl ⟨by decide,rfl⟩
      · rename_i hc
        cases h
        exact .inr ⟨rfl,hv,Bool.eq_false_iff.mpr hc,rfl⟩
  · cases h
    exact .inl ⟨by decide,rfl⟩

/-- The statement locks the rows it matches. -/
def Locks : Statement D → Prop
  | .selectForUpdate _ _ | .update _ _ _ | .delete _ _ => True
  | _ => False

/-- A locking statement notes the rows it sees, or has noted them and is done
with them. -/
theorem locking_noted {q : D.Row t → Bool} {g : D.Row t → Option (D.Row t)}
    {reply : Option (List (D.Row t))} (h : s.locking p t q g=some (reply,s')) :
    (reply=none ∧ s.noted p=none ∧
        s'.noted=Function.update s.noted p (some (candidates p q (s.cells t)))) ∨
      ∃ rows,s.noted p=some rows ∧ ready p rows (s.cells t)=true ∧
        reply=some (matched p rows q (s.cells t)) ∧
        s'.cells=(s.write t (lockRows p rows q g (s.cells t))).cells ∧
        s'.noted=Function.update s.noted p none := by
  unfold locking at h
  split at h
  · rename_i hnone
    cases h
    exact .inl ⟨rfl,hnone,rfl⟩
  · rename_i rows hrows
    split at h
    · rename_i hr
      cases h
      exact .inr ⟨rows,hrows,hr,rfl,rfl,rfl⟩
    · cases h

/-- What a statement does to the rows that are noted. -/
theorem fire_noted {stmt : Statement D} {reply : Option stmt.Reply}
    (h : s.fire p stmt=some (reply,s')) : (∀ j,j≠p → s'.noted j=s.noted j) ∧
      (reply=none → Locks stmt) ∧ (reply≠none → Locks stmt ∨ s.noted p=none →
        s'.noted p=none) := by
  have hlocking : ∀ {t : D.Table} {q : D.Row t → Bool} {g : D.Row t → Option (D.Row t)}
      {rows : Option (List (D.Row t))} {s' : Tables D},s.locking p t q g=some (rows,s') →
      (∀ j,j≠p → s'.noted j=s.noted j) ∧ (rows≠none → s'.noted p=none) := by
    intro t q g rows s' hl
    rcases locking_noted hl with ⟨rfl,_,hnoted⟩|⟨_,_,_,_,_,hnoted⟩
    · refine ⟨fun j hj => ?_,fun hno => absurd rfl hno⟩
      rw [hnoted,Function.update_of_ne hj]
    · refine ⟨fun j hj => ?_,fun _ => ?_⟩
      · rw [hnoted,Function.update_of_ne hj]
      · rw [hnoted,Function.update_self]
  cases stmt with
  | select t q =>
    cases h
    exact ⟨fun _ _ => rfl,by rintro ⟨⟩,fun _ hnone => hnone.resolve_left id⟩
  | selectForUpdate t q =>
    obtain ⟨hother,hself⟩ := hlocking h
    exact ⟨hother,fun _ => trivial,fun hne _ => hself hne⟩
  | insert t row =>
    simp only [fire,insertRow] at h
    split at h
    · split at h
      · cases h
      · split at h
        · cases h
          exact ⟨fun _ _ => rfl,by rintro ⟨⟩,fun _ hnone => hnone.resolve_left id⟩
        · cases h
          exact ⟨fun _ _ => rfl,by rintro ⟨⟩,fun _ hnone => hnone.resolve_left id⟩
    · cases h
      exact ⟨fun _ _ => rfl,by rintro ⟨⟩,fun _ hnone => hnone.resolve_left id⟩
  | update t q f =>
    obtain ⟨⟨rows,s₁⟩,hl,hr⟩ := Option.map_eq_some_iff.mp h
    obtain ⟨hother,hself⟩ := hlocking hl
    cases hr
    refine ⟨hother,fun _ => trivial,fun hne _ => hself ?_⟩
    rintro rfl
    exact hne rfl
  | delete t q =>
    obtain ⟨⟨rows,s₁⟩,hl,hr⟩ := Option.map_eq_some_iff.mp h
    obtain ⟨hother,hself⟩ := hlocking hl
    cases hr
    refine ⟨hother,fun _ => trivial,fun hne _ => hself ?_⟩
    rintro rfl
    exact hne rfl
  | commit =>
    cases h
    exact ⟨fun _ _ => rfl,by rintro ⟨⟩,fun _ hnone => hnone.resolve_left id⟩
  | rollback =>
    cases h
    exact ⟨fun j hj => Function.update_of_ne hj _ _,by rintro ⟨⟩,
      fun _ _ => Function.update_self _ _ _⟩

end Inversion

end Tables

section Merged

open Classical in
/-- The versions of the given transactions where they hold the lock, the
committed version elsewhere. -/
noncomputable def Cell.merged (S : Set ℕ) (c : Cell R) : Option R :=
  match c.holder with
  | some p => if p∈S then c.working else c.committed
  | none => c.committed

/-- The merged reading of the row with a given index. -/
noncomputable def mergedAt (S : Set ℕ) (cells : List (Cell R)) (i : ℕ) : Option R :=
  cells[i]?.bind (·.merged S)

/-- A transaction holds the lock of a row and sees the given version. -/
def Held (p : ℕ) (cells : List (Cell R)) (i : ℕ) (r : R) : Prop :=
  ∃ c, cells[i]?=some c ∧ c.holder=some p ∧ c.working=some r

variable {p : ℕ} {S : Set ℕ} {c : Cell R} {cells : List (Cell R)}
  {q : R → Bool} {g : R → Option R} {rows : List ℕ} {i : ℕ} {r : R}

/-- With nobody's writes counted, a cell reads as committed. -/
theorem Cell.merged_empty (c : Cell R) : c.merged ∅=c.committed := by
  unfold merged
  split <;> simp

/-- With one process counted, a cell reads as that process sees it. -/
theorem Cell.merged_singleton (p : ℕ) (c : Cell R) : c.merged {p}=c.view p := by
  unfold merged view
  split
  · rename_i h
    simp [h]
  · rename_i h
    simp [h]

/-- A cell held by a counted process reads as it left it. -/
theorem Cell.merged_of_holder (h : c.holder=some p) (hp : p∈S) : c.merged S=c.working := by
  simp [merged,h,hp]

/-- An unlocked row, or one of its own, reads the same for a transaction and
for every set that contains it. -/
theorem Cell.merged_eq_view (hf : c.free p=true) (hp : p∈S) : c.merged S=c.view p := by
  unfold merged view
  split
  · rename_i p' h
    have he : p'=p := by simpa [free,h] using hf
    simp [h,he,hp]
  · rename_i h
    simp [h]

/-- A cell nobody else holds reads as committed to the others. -/
theorem Cell.merged_eq_committed (hf : c.free p=true) (hp : p∉S) : c.merged S=c.committed := by
  unfold merged
  split
  · rename_i p' h
    have he : p'=p := by simpa [free,h] using hf
    simp [he,hp]
  · rfl

/-- A write shows in the readings that count its process. -/
theorem Cell.merged_lock_of_mem (hf : c.free p=true) (hp : p∈S) :
    (c.lock p q g).merged S=(c.merged S).bind fun r => if q r then g r else some r := by
  rw [merged_eq_view hf hp]
  unfold lock
  split
  · rename_i r hv
    rw [hv]
    by_cases hq : q r=true
    · simp [hq,merged,hp]
    · simp only [hq,Bool.false_eq_true,if_false,Option.bind_some]
      rw [merged_eq_view hf hp,hv]
  · rename_i hv
    rw [merged_eq_view hf hp,hv,Option.bind_none]

/-- A write does not show in the readings that leave its process out. -/
theorem Cell.merged_lock_of_notMem (hf : c.free p=true) (hp : p∉S) :
    (c.lock p q g).merged S=c.merged S := by
  rw [merged_eq_committed hf hp]
  unfold lock
  split
  · by_cases hq : q ‹_›=true
    · simp [hq,merged,hp]
    · simp only [hq,Bool.false_eq_true,if_false]
      exact merged_eq_committed hf hp
  · exact merged_eq_committed hf hp

/-- A commit reads as adding the transaction to the set. -/
theorem Cell.merged_settle (p : ℕ) (S : Set ℕ) (c : Cell R) :
    (c.settle p).merged S=c.merged (insert p S) := by
  unfold settle
  split
  · rename_i h
    simp [merged,h]
  · rename_i h
    unfold merged
    split
    · rename_i p' hp'
      have hne : p'≠p := fun he => h (he ▸ hp')
      have hm : p'∈S ↔ p'∈insert p S := by simp [hne]
      by_cases hS : p'∈S
      · rw [if_pos hS,if_pos (hm.mp hS)]
      · rw [if_neg hS,if_neg (mt hm.mpr hS)]
    · rfl

/-- An inserted row conflicts with no row that reads together with it: neither
with one its transaction sees nor with one that another transaction holds. -/
theorem Tables.apart_of_inserted {D : Schema} [DecidableEq D.Table] {s s' : Tables D}
    {t : D.Table} {row r : D.Row t} {c : Cell (D.Row t)} {S : Set ℕ} {p : ℕ}
    (h : s.fire p (.insert t row)=some (some .inserted,s')) (hc : c∈s.cells t) (hp : p∈S)
    (hr : c.merged S=some r) : D.conflict t row r=false := by
  simp only [Tables.fire,Tables.insertRow] at h
  split at h
  · split at h
    · cases h
    · rename_i hblocked
      split at h
      · cases h
      · rename_i hvisible
        cases hfree : c.free p with
        | true =>
          have hmem : r∈s.visible p t :=
            List.mem_filterMap.mpr ⟨c,hc,(Cell.merged_eq_view hfree hp).symm.trans hr⟩
          exact Bool.eq_false_iff.mpr fun hconflict =>
            hvisible (List.any_eq_true.mpr ⟨r,hmem,hconflict⟩)
        | false =>
          refine Bool.eq_false_iff.mpr fun hconflict => hblocked (List.any_eq_true.mpr ⟨c,hc,?_⟩)
          have hone : c.committed=some r ∨ c.working=some r := by
            unfold Cell.merged at hr
            split at hr
            · split at hr
              · exact .inr hr
              · exact .inl hr
            · exact .inl hr
          rcases hone with hcommitted | hworking
          · simp [hfree,hcommitted,hconflict]
          · simp [hfree,hworking,hconflict]
  · cases h

/-- A rollback reads as removing the transaction from the set. -/
theorem Cell.merged_release (p : ℕ) (S : Set ℕ) (c : Cell R) :
    (c.release p).merged S=c.merged (S\{p}) := by
  unfold release
  split
  · rename_i h
    simp [merged,h]
  · rename_i h
    unfold merged
    split
    · rename_i p' hp'
      have hne : p'≠p := fun he => h (he ▸ hp')
      have hm : p'∈S ↔ p'∈S\{p} := by simp [hne]
      by_cases hS : p'∈S
      · rw [if_pos hS,if_pos (hm.mp hS)]
      · rw [if_neg hS,if_neg (mt hm.mpr hS)]
    · rfl

/-- A row that is locked after a commit was locked by another transaction before. -/
theorem Cell.settle_of_held {j : ℕ} (h : (c.settle p).holder=some j) :
    c.settle p=c ∧ c.holder=some j ∧ j≠p := by
  unfold settle at h ⊢
  by_cases hp : c.holder=some p
  · rw [if_pos hp] at h
    cases h
  · rw [if_neg hp] at h ⊢
    exact ⟨rfl,h,fun hjp => hp (hjp ▸ h)⟩

/-- A row that is locked after a rollback was locked by another transaction before. -/
theorem Cell.release_of_held {j : ℕ} (h : (c.release p).holder=some j) :
    c.release p=c ∧ c.holder=some j ∧ j≠p := by
  unfold release at h ⊢
  by_cases hp : c.holder=some p
  · rw [if_pos hp] at h
    cases h
  · rw [if_neg hp] at h ⊢
    exact ⟨rfl,h,fun hjp => hp (hjp ▸ h)⟩

/-- Commits of other transactions leave a locked row alone. -/
theorem Cell.settle_of_ne {j : ℕ} (h : c.holder=some j) (hne : p≠j) : c.settle p=c := by
  have hn : c.holder≠some p := fun he => hne (Option.some.inj (he.symm.trans h))
  rw [settle,if_neg hn]

/-- Rollbacks of other transactions leave a locked row alone. -/
theorem Cell.release_of_ne {j : ℕ} (h : c.holder=some j) (hne : p≠j) : c.release p=c := by
  have hn : c.holder≠some p := fun he => hne (Option.some.inj (he.symm.trans h))
  rw [release,if_neg hn]

/-- A commit makes no new version of a row. -/
theorem Cell.settle_versions (h : (c.settle p).committed=some r ∨ (c.settle p).working=some r) :
    c.committed=some r ∨ c.working=some r := by
  unfold settle at h
  split at h
  · rcases h with h|h
    · exact .inr h
    · cases h
  · exact h

/-- A rollback makes no new version of a row. -/
theorem Cell.release_versions
    (h : (c.release p).committed=some r ∨ (c.release p).working=some r) :
    c.committed=some r ∨ c.working=some r := by
  unfold release at h
  split at h
  · rcases h with h|h
    · exact .inl h
    · cases h
  · exact h

/-- A write commits nothing. -/
theorem Cell.lock_committed (p : ℕ) (q : R → Bool) (g : R → Option R) (c : Cell R) :
    (c.lock p q g).committed=c.committed := by
  unfold lock
  split
  · split
    · rfl
    · rfl
  · rfl

/-- A release commits nothing. -/
theorem Cell.release_committed (p : ℕ) (c : Cell R) : (c.release p).committed=c.committed := by
  unfold release
  split
  · rfl
  · rfl

/-- The cells of a statement that may run are free for its process. -/
theorem free_of_ready (h : ready p rows cells=true) (hi : i∈rows) (hc : cells[i]?=some c) :
    c.free p=true := by
  have hall := List.all_eq_true.mp h i hi
  rwa [hc] at hall

/-- A statement changes the cells of its rows and no others. -/
theorem getElem?_lockRows (p : ℕ) (rows : List ℕ) (q : R → Bool) (g : R → Option R)
    (cells : List (Cell R)) (i : ℕ) :
    (lockRows p rows q g cells)[i]?=
      cells[i]?.map fun c => if i∈rows then c.lock p q g else c := List.getElem?_mapIdx

/-- Locking statements act row by row on every merged reading that contains
their transaction. -/
theorem mergedAt_lockRows_of_mem (hr : ready p rows cells=true) (hp : p∈S) :
    mergedAt S (lockRows p rows q g cells) i=
      if i∈rows then (mergedAt S cells i).bind fun r => if q r then g r else some r
      else mergedAt S cells i := by
  unfold mergedAt
  rw [getElem?_lockRows]
  cases hc : cells[i]? with
  | none => simp
  | some c =>
    by_cases hi : i∈rows
    · simp only [hi,if_true,Option.map_some,Option.bind_some]
      exact Cell.merged_lock_of_mem (free_of_ready hr hi hc) hp
    · simp [hi]

/-- Locking statements are invisible to every other merged reading. -/
theorem mergedAt_lockRows_of_notMem (hr : ready p rows cells=true) (hp : p∉S) :
    mergedAt S (lockRows p rows q g cells) i=mergedAt S cells i := by
  unfold mergedAt
  rw [getElem?_lockRows]
  cases hc : cells[i]? with
  | none => rfl
  | some c =>
    by_cases hi : i∈rows
    · simp only [hi,if_true,Option.map_some,Option.bind_some]
      exact Cell.merged_lock_of_notMem (free_of_ready hr hi hc) hp
    · simp [hi]

/-- An appended cell is read at the new position. -/
theorem mergedAt_append (S : Set ℕ) (cells : List (Cell R)) (c : Cell R) (i : ℕ) :
    mergedAt S (cells++[c]) i=
      if i=cells.length then c.merged S else mergedAt S cells i := by
  unfold mergedAt
  by_cases hi : i=cells.length
  · simp [hi]
  · rw [if_neg hi]
    by_cases hlt : i<cells.length
    · rw [List.getElem?_append_left hlt]
    · rw [List.getElem?_eq_none (by simp; omega),List.getElem?_eq_none (by omega)]

/-- After a COMMIT every reading counts the process. -/
theorem mergedAt_settle (p : ℕ) (S : Set ℕ) (cells : List (Cell R)) (i : ℕ) :
    mergedAt S (cells.map (·.settle p)) i=mergedAt (insert p S) cells i := by
  unfold mergedAt
  rw [List.getElem?_map]
  cases cells[i]? with
  | none => rfl
  | some c => exact Cell.merged_settle p S c

/-- After a ROLLBACK no reading counts the process. -/
theorem mergedAt_release (p : ℕ) (S : Set ℕ) (cells : List (Cell R)) (i : ℕ) :
    mergedAt S (cells.map (·.release p)) i=mergedAt (S\{p}) cells i := by
  unfold mergedAt
  rw [List.getElem?_map]
  cases cells[i]? with
  | none => rfl
  | some c => exact Cell.merged_release p S c

/-- A position that reads a row is inside the table. -/
theorem mergedAt_lt (h : mergedAt S cells i=some r) : i<cells.length := by
  unfold mergedAt at h
  obtain ⟨c,hc,_⟩ := Option.bind_eq_some_iff.mp h
  exact (List.getElem?_eq_some_iff.mp hc).1

/-- The committed rows are the merged reading without any transaction. -/
theorem mem_committed {D : Schema} {s : Tables D} {t : D.Table} {r : D.Row t} :
    r∈s.committed t ↔ ∃ i, mergedAt ∅ (s.cells t) i=some r := by
  simp only [Tables.committed,List.mem_filterMap,mergedAt]
  constructor
  · rintro ⟨c,hc,hr⟩
    obtain ⟨i,hi⟩ := List.getElem?_of_mem hc
    exact ⟨i,by rw [hi,Option.bind_some,Cell.merged_empty,hr]⟩
  · rintro ⟨i,hi⟩
    obtain ⟨c,hc,hr⟩ := Option.bind_eq_some_iff.mp hi
    exact ⟨c,List.mem_of_getElem? hc,by rw [←Cell.merged_empty,hr]⟩

/-- A held row is what every reading that counts its process shows. -/
theorem Held.mergedAt_eq (h : Held p cells i r) (hp : p∈S) : mergedAt S cells i=some r := by
  obtain ⟨c,hc,hh,hw⟩ := h
  rw [mergedAt,hc,Option.bind_some,Cell.merged_of_holder hh hp,hw]

/-- Two transactions never hold the same row. -/
theorem Held.pid_eq {p' : ℕ} {r' : R} (h : Held p cells i r) (h' : Held p' cells i r') :
    p=p' := by
  obtain ⟨c,hc,hh,_⟩ := h
  obtain ⟨c',hc',hh',_⟩ := h'
  rw [hc] at hc'
  cases hc'
  exact Option.some.inj (hh.symm.trans hh')

/-- The rows another transaction holds are not ready to be locked. -/
theorem Held.notMem_rows {p' : ℕ} (h : Held p cells i r) (hne : p'≠p)
    (hr : ready p' rows cells=true) : i∉rows := by
  intro hi
  obtain ⟨c,hc,hh,_⟩ := h
  have hf := free_of_ready hr hi hc
  simp only [Cell.free,hh,Option.all_some,beq_iff_eq] at hf
  exact hne hf.symm

/-- A held row survives the statements of others. -/
theorem Held.lockRows_of_ne {p' : ℕ} (h : Held p cells i r) (hne : p'≠p)
    (hr : ready p' rows cells=true) : Held p (lockRows p' rows q g cells) i r := by
  have hi := h.notMem_rows hne hr
  obtain ⟨c,hc,hh,hw⟩ := h
  exact ⟨c,by rw [getElem?_lockRows,hc,Option.map_some,if_neg hi],hh,hw⟩

/-- A held row survives an insert. -/
theorem Held.append (h : Held p cells i r) (c : Cell R) : Held p (cells++[c]) i r := by
  obtain ⟨d,hd,hh,hw⟩ := h
  refine ⟨d,?_,hh,hw⟩
  rw [List.getElem?_append_left (List.getElem?_eq_some_iff.mp hd).1,hd]

/-- A held row survives another's COMMIT. -/
theorem Held.settle_of_ne {p' : ℕ} (h : Held p cells i r) (hne : p'≠p) :
    Held p (cells.map (·.settle p')) i r := by
  obtain ⟨c,hc,hh,hw⟩ := h
  refine ⟨c,?_,hh,hw⟩
  rw [List.getElem?_map,hc,Option.map_some,Cell.settle_of_ne hh hne]

/-- A held row survives another's ROLLBACK. -/
theorem Held.release_of_ne {p' : ℕ} (h : Held p cells i r) (hne : p'≠p) :
    Held p (cells.map (·.release p')) i r := by
  obtain ⟨c,hc,hh,hw⟩ := h
  refine ⟨c,?_,hh,hw⟩
  rw [List.getElem?_map,hc,Option.map_some,Cell.release_of_ne hh hne]

/-- A row that a locking statement returns satisfied its condition when the
statement woke, and its transaction holds the version it was left in. -/
theorem held_of_matched (g : R → Option R) (hr : ready p rows cells=true)
    (h : r∈matched p rows q cells) {r' : R} (hg : g r=some r') :
    q r=true ∧ ∃ i, i∈rows ∧ mergedAt {p} cells i=some r ∧
      (∀ T : Set ℕ, p∈T → mergedAt T cells i=some r) ∧
      Held p (lockRows p rows q g cells) i r' := by
  obtain ⟨i,hi,hv⟩ := List.mem_filterMap.mp h
  obtain ⟨hb,hq⟩ := Option.filter_eq_some_iff.mp hv
  obtain ⟨c,hc,hview⟩ := Option.bind_eq_some_iff.mp hb
  have hf := free_of_ready hr hi hc
  refine ⟨hq,i,hi,?_,?_,?_⟩
  · rw [mergedAt,hc,Option.bind_some,Cell.merged_singleton,hview]
  · intro T hT
    rw [mergedAt,hc,Option.bind_some,Cell.merged_eq_view hf hT,hview]
  · refine ⟨c.lock p q g,?_,?_,?_⟩
    · rw [getElem?_lockRows,hc,Option.map_some,if_pos hi]
    · simp [Cell.lock,hview,hq]
    · simp [Cell.lock,hview,hq,hg]

/-- Rows that differ at every pair of indices are unique in a merged reading. -/
theorem merged_filter_length_le_one {P : R → Bool} {cells : List (Cell R)}
    (h : ∀ i j a b, mergedAt S cells i=some a → mergedAt S cells j=some b →
      P a=true → P b=true → i=j) :
    ((cells.filterMap (·.merged S)).filter P).length≤1 := by
  induction cells with
  | nil => exact Nat.zero_le _
  | cons c tail ih =>
    have htail : ((tail.filterMap (·.merged S)).filter P).length≤1 := by
      refine ih fun i j a b ha hb hpa hpb => ?_
      exact Nat.succ.inj (h (i+1) (j+1) a b ha hb hpa hpb)
    cases hc : c.merged S with
    | none =>
      rw [List.filterMap_cons_none hc]
      exact htail
    | some r =>
      rw [List.filterMap_cons_some hc]
      by_cases hp : P r=true
      · have hnil : (tail.filterMap (·.merged S)).filter P=[] := by
          rw [List.filter_eq_nil_iff]
          intro a ha hpa
          obtain ⟨d,hd,hda⟩ := List.mem_filterMap.mp ha
          obtain ⟨j,hj⟩ := List.getElem?_of_mem hd
          have h0 : mergedAt S (c::tail) 0=some r := hc
          have hj' : mergedAt S (c::tail) (j+1)=some a := by
            show (tail[j]?).bind _=_
            rw [hj]
            exact hda
          exact absurd (h 0 (j+1) r a h0 hj' hp hpa) (by omega)
        rw [List.filter_cons_of_pos hp,hnil]
        exact Nat.le_refl 1
      · rw [List.filter_cons_of_neg hp]
        exact htail

/-- Rows that differ at every pair of indices are unique in the committed
list. -/
theorem committed_filter_length_le_one {D : Schema} (s : Tables D) (t : D.Table)
    (P : D.Row t → Bool)
    (h : ∀ i j a b, mergedAt ∅ (s.cells t) i=some a → mergedAt ∅ (s.cells t) j=some b →
      P a=true → P b=true → i=j) :
    ((s.committed t).filter P).length≤1 := by
  have hread : s.committed t=(s.cells t).filterMap (·.merged ∅) :=
    congrArg (List.filterMap · (s.cells t)) (funext fun c => (Cell.merged_empty c).symm)
  rw [hread]
  exact merged_filter_length_le_one h

/-- Rows that differ at every pair of indices are unique in what a transaction
sees. -/
theorem visible_filter_length_le_one {D : Schema} {s : Tables D} {t : D.Table}
    {P : D.Row t → Bool}
    (h : ∀ i j a b, mergedAt {p} (s.cells t) i=some a → mergedAt {p} (s.cells t) j=some b →
      P a=true → P b=true → i=j) :
    ((s.visible p t).filter P).length≤1 := by
  have hread : s.visible p t=(s.cells t).filterMap (·.merged {p}) :=
    congrArg (List.filterMap · (s.cells t)) (funext fun c => (Cell.merged_singleton p c).symm)
  rw [hread]
  exact merged_filter_length_le_one h

section Owned

/-- A transaction holds the lock of the row with a given index. -/
def Owns (p : ℕ) (cells : List (Cell R)) (i : ℕ) (c : Cell R) : Prop :=
  cells[i]?=some c ∧ c.holder=some p

/-- A transaction holds no lock in a table. -/
def Unlocked (p : ℕ) (cells : List (Cell R)) : Prop := ∀ c∈cells, c.holder≠some p

variable {p p' : ℕ} {cells : List (Cell R)} {rows : List ℕ} {q : R → Bool} {g : R → Option R}
  {i : ℕ} {c : Cell R}

/-- What a transaction without locks sees is committed. -/
theorem committed_of_visible {D : Schema} {s : Tables D} {t : D.Table} {r : D.Row t}
    (hunlocked : Unlocked p (s.cells t)) (h : r∈s.visible p t) :
    ∃ c∈s.cells t, c.committed=some r := by
  obtain ⟨c,hc,hview⟩ := List.mem_filterMap.mp h
  unfold Cell.view at hview
  rw [if_neg (hunlocked c hc)] at hview
  exact ⟨c,hc,hview⟩

/-- Locking statements of other transactions leave an owned row alone. -/
theorem Owns.lockRows_of_ne (h : Owns p cells i c) (hne : p'≠p)
    (hr : ready p' rows cells=true) : Owns p (lockRows p' rows q g cells) i c := by
  have hi : i∉rows := by
    intro hi
    have hf : c.free p'=true := free_of_ready hr hi h.1
    simp only [Cell.free,h.2,Option.all_some,beq_iff_eq] at hf
    exact hne hf.symm
  have hcell : (lockRows p' rows q g cells)[i]?=some c := by
    rw [getElem?_lockRows,h.1,Option.map_some,if_neg hi]
  exact ⟨hcell,h.2⟩

/-- An owned cell survives an insert. -/
theorem Owns.append (h : Owns p cells i c) (d : Cell R) : Owns p (cells++[d]) i c := by
  have hlt : i<cells.length := (List.getElem?_eq_some_iff.mp h.1).1
  exact ⟨(List.getElem?_append_left hlt).trans h.1,h.2⟩

/-- An owned cell survives another's COMMIT. -/
theorem Owns.settle_of_ne (h : Owns p cells i c) (hne : p'≠p) :
    Owns p (cells.map (·.settle p')) i c := by
  refine ⟨?_,h.2⟩
  rw [List.getElem?_map,h.1,Option.map_some,Cell.settle_of_ne h.2 hne]

/-- An owned cell survives another's ROLLBACK. -/
theorem Owns.release_of_ne (h : Owns p cells i c) (hne : p'≠p) :
    Owns p (cells.map (·.release p')) i c := by
  refine ⟨?_,h.2⟩
  rw [List.getElem?_map,h.1,Option.map_some,Cell.release_of_ne h.2 hne]

/-- A process holds nothing more through the statements of others. -/
theorem Unlocked.lockRows_of_ne (h : Unlocked p cells) (hne : p'≠p) :
    Unlocked p (lockRows p' rows q g cells) := by
  intro c hc
  obtain ⟨i,hi⟩ := List.getElem?_of_mem hc
  rw [getElem?_lockRows] at hi
  obtain ⟨d,hd,rfl⟩ := Option.map_eq_some_iff.mp hi
  have hold : d.holder≠some p := h d (List.mem_of_getElem? hd)
  by_cases hmem : i∈rows
  · rw [if_pos hmem]
    unfold Cell.lock
    split
    · split
      · exact fun he => hne (Option.some.inj he)
      · exact hold
    · exact hold
  · rwa [if_neg hmem]

/-- A process holds nothing more through the insert of another. -/
theorem Unlocked.append (h : Unlocked p cells) (hc : c.holder≠some p) :
    Unlocked p (cells++[c]) := by
  intro d hd
  rcases List.mem_append.mp hd with hold | hnew
  · exact h d hold
  · rwa [List.mem_singleton.mp hnew]

/-- A process holds nothing more through a COMMIT. -/
theorem Unlocked.settle (h : Unlocked p cells) (p' : ℕ) :
    Unlocked p (cells.map (·.settle p')) := by
  intro c hc hp
  obtain ⟨d,hd,rfl⟩ := List.mem_map.mp hc
  exact h d hd (Cell.settle_of_held hp).2.1

/-- A process holds nothing more through a ROLLBACK. -/
theorem Unlocked.release (h : Unlocked p cells) (p' : ℕ) :
    Unlocked p (cells.map (·.release p')) := by
  intro c hc hp
  obtain ⟨d,hd,rfl⟩ := List.mem_map.mp hc
  exact h d hd (Cell.release_of_held hp).2.1

/-- A commit releases every lock. -/
theorem unlocked_settle (p : ℕ) (cells : List (Cell R)) :
    Unlocked p (cells.map (·.settle p)) := by
  intro c hc hp
  obtain ⟨d,_,rfl⟩ := List.mem_map.mp hc
  exact (Cell.settle_of_held hp).2.2 rfl

/-- A rollback releases every lock. -/
theorem unlocked_release (p : ℕ) (cells : List (Cell R)) :
    Unlocked p (cells.map (·.release p)) := by
  intro c hc hp
  obtain ⟨d,_,rfl⟩ := List.mem_map.mp hc
  exact (Cell.release_of_held hp).2.2 rfl

/-- A locking statement that matches nothing locks nothing. -/
theorem lockRows_of_matched_nil (h : matched p rows q cells=[]) :
    lockRows p rows q g cells=cells := by
  refine List.ext_getElem? fun i => ?_
  rw [getElem?_lockRows]
  cases hc : cells[i]? with
  | none => rfl
  | some c =>
    rw [Option.map_some]
    by_cases hi : i∈rows
    · have hnone : (c.view p).filter q=none := by
        have hall := List.filterMap_eq_nil_iff.mp h i hi
        simpa [hc] using hall
      rw [if_pos hi]
      unfold Cell.lock
      split
      · rename_i r hv
        have hq : ¬q r=true := by
          intro hq
          simp [hv,hq] at hnone
        rw [if_neg hq]
      · rfl
    · rw [if_neg hi]

/-- A matched row was seen by a transaction that now holds its lock. -/
theorem owns_of_matched {r r' : R} (h : r∈matched p rows q cells) (hg : g r=some r') :
    q r=true ∧ ∃ i c, i∈rows ∧ cells[i]?=some c ∧ c.view p=some r ∧
      Owns p (lockRows p rows q g cells) i ⟨c.committed,some p,some r'⟩ := by
  obtain ⟨i,hi,hv⟩ := List.mem_filterMap.mp h
  obtain ⟨hb,hq⟩ := Option.filter_eq_some_iff.mp hv
  obtain ⟨c,hc,hview⟩ := Option.bind_eq_some_iff.mp hb
  have hlock : c.lock p q g=⟨c.committed,some p,some r'⟩ := by
    simp [Cell.lock,hview,hq,hg]
  have hcell : (lockRows p rows q g cells)[i]?=some ⟨c.committed,some p,some r'⟩ := by
    rw [getElem?_lockRows,hc,Option.map_some,if_pos hi,hlock]
  exact ⟨hq,i,c,hi,hc,hview,hcell,rfl⟩

end Owned

end Merged

end BackendPlatform.RowLocking
