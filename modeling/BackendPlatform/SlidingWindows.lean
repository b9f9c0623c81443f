import Mathlib.Data.Nat.Notation
import Mathlib.Data.List.Basic
import Mathlib.Tactic.Common

/-!
# Counters with windows and locks

A counter counts calls in a window that starts with the first of them. Below
the maximum it starts anew once the window has run out, at the maximum once
the lock is over. Instants are natural numbers in any unit.
-/

set_option autoImplicit false

namespace BackendPlatform.SlidingWindows

/-- A window as its last call has left it. -/
structure Window where
  /-- The first call. -/
  first : ℕ
  /-- The last call so far. -/
  last : ℕ
  /-- The calls so far. -/
  count : ℕ

/-- The calls that a counter has counted, in order, and its window. -/
inductive Counts (M W L : ℕ) : List ℕ → Window → Prop where
  /-- The first call ever. -/
  | start (t : ℕ) : Counts M W L [t] ⟨t,t,1⟩
  /-- A call in the window of the last one. -/
  | goOn {calls : List ℕ} {w : Window} {t : ℕ} (h : Counts M W L calls w) (hlast : w.last≤t)
      (hopen : w.count < M) : Counts M W L (calls++[t]) ⟨w.first,t,w.count+1⟩
  /-- A call that starts a window. -/
  | renew {calls : List ℕ} {w : Window} {t : ℕ} (h : Counts M W L calls w) (hlast : w.last≤t)
      (hover : w.count < M → w.first+W≤t) (hlocked : M≤w.count → w.last+L≤t) :
      Counts M W L (calls++[t]) ⟨t,t,1⟩

/-- The calls in the half-open interval of a length from an instant on. -/
def inInterval (a D : ℕ) (calls : List ℕ) : ℕ := calls.countP fun t => a≤t ∧ t < a+D

variable {M W L D a : ℕ} {calls : List ℕ} {w : Window}

/-- One more call counts if it is in the interval. -/
theorem inInterval_append (calls : List ℕ) (t : ℕ) :
    inInterval a D (calls++[t])=inInterval a D calls+if a≤t ∧ t < a+D then 1 else 0 := by
  simp [inInterval,List.countP_append,List.countP_singleton]

/-- A window counts at least its first call and at most the maximum. -/
theorem Counts.bounds (h : Counts M W L calls w) (hM : 1≤M) :
    w.first≤w.last ∧ 1≤w.count ∧ w.count≤M := by
  induction h with
  | start t => exact ⟨Nat.le_refl t,Nat.le_refl 1,hM⟩
  | goOn h hlast hopen ih =>
    obtain ⟨hfirst,_,_⟩ := ih
    exact ⟨Nat.le_trans hfirst hlast,Nat.le_add_left 1 _,hopen⟩
  | renew h hlast hover hlocked ih => exact ⟨Nat.le_refl _,Nat.le_refl 1,hM⟩

/-- What is known of the calls in an interval from the last window alone. -/
structure Few (M a D n : ℕ) (w : Window) : Prop where
  /-- Before the interval there are none. -/
  before : w.last < a → n=0
  /-- A window that started before the interval has all of them. -/
  early : w.first < a → n≤w.count
  /-- A window that started in the interval has all but fewer than a maximum. -/
  late : a≤w.first → w.last < a+D → n≤M-1+w.count
  /-- There are never two full windows. -/
  bound : n≤2*M-1

/-- No interval that is as short as a window and as a lock has two full
windows of calls. -/
theorem Counts.few (h : Counts M W L calls w) (hM : 1≤M) (hW : D≤W) (hL : D≤L) (a : ℕ) :
    Few M a D (inInterval a D calls) w := by
  induction h with
  | start t =>
    have hone : inInterval a D [t]≤1 := List.countP_le_length
    have hnone : t < a → inInterval a D [t]=0 := by
      intro hlt
      have hout : ¬(a≤t ∧ t < a+D) := by omega
      simp [inInterval,hout]
    constructor <;> (try dsimp only) <;> omega
  | @goOn calls w t h hlast hopen ih =>
    obtain ⟨hbefore,hearly,hlate,hbound⟩ := ih
    have hb := h.bounds hM
    rw [inInterval_append]
    by_cases hin : a≤t ∧ t < a+D
    · rw [if_pos hin]
      constructor <;> (try dsimp only) <;> omega
    · rw [if_neg hin]
      constructor <;> (try dsimp only) <;> omega
  | @renew calls w t h hlast hover hlocked ih =>
    obtain ⟨hbefore,hearly,hlate,hbound⟩ := ih
    have hb := h.bounds hM
    rw [inInterval_append]
    by_cases hin : a≤t ∧ t < a+D
    · rw [if_pos hin]
      constructor <;> (try dsimp only) <;> omega
    · rw [if_neg hin]
      constructor <;> (try dsimp only) <;> omega

end BackendPlatform.SlidingWindows
