import Mathlib.Logic.Function.Basic
import Mathlib.Data.Nat.Notation

/-!
# A key-value store whose entries expire

Every entry may carry the instant from which it no longer exists. Expired
entries stay in the map and every read filters them, so time passes without
a state change. Reads at a later instant never see more than earlier ones.
-/

set_option autoImplicit false

namespace BackendPlatform.ExpiringStore

/-- A stored value and the instant from which it is gone, if any. -/
structure Entry (V : Type) where
  /-- The stored value. -/
  value : V
  /-- First instant at which the entry no longer exists. -/
  expiresAt : Option ℕ

/-- The entry still exists at the given instant. -/
def Entry.live {V : Type} (entry : Entry V) (now : ℕ) : Bool :=
  entry.expiresAt.all (now<·)

/-- The raw map, expired entries included. -/
abbrev Store (K V : Type) := K → Option (Entry V)

namespace Store

variable {K V : Type}

/-- The store without any entry. -/
def empty : Store K V := fun _ => none

/-- Read a key at an instant. -/
def lookup (store : Store K V) (now : ℕ) (key : K) : Option V :=
  ((store key).filter (·.live now)).map (·.value)

/-- A value is read exactly from a live entry. -/
theorem lookup_eq_some {store : Store K V} {now : ℕ} {key : K} {value : V} :
    store.lookup now key=some value ↔
      ∃ entry, store key=some entry ∧ entry.live now=true ∧ entry.value=value := by
  simp [lookup,Option.filter_eq_some_iff,and_assoc]

/-- A missing entry reads as nothing at any time. -/
theorem lookup_eq_none_of_eq_none {store : Store K V} {key : K} (h : store key=none)
    (now : ℕ) : store.lookup now key=none := by
  simp [lookup,h]

variable [DecidableEq K]

/-- Write a key, replacing its value and its expiry. -/
def assign (store : Store K V) (key : K) (value : V) (expiresAt : Option ℕ) : Store K V :=
  Function.update store key (some ⟨value,expiresAt⟩)

/-- Remove one key. -/
def remove (store : Store K V) (key : K) : Store K V := Function.update store key none

/-- Remove every listed key. -/
def removeAll (store : Store K V) (keys : List K) : Store K V := keys.foldl remove store

/-- Replace the value of an existing key and keep its expiry. -/
def replace (store : Store K V) (key : K) (value : V) : Store K V :=
  Function.update store key ((store key).map fun entry => {entry with value := value})

/-- Set the expiry of a key that exists at the instant. -/
def retime (store : Store K V) (now : ℕ) (key : K) (expiresAt : ℕ) : Store K V :=
  Function.update store key
    (((store key).filter (·.live now)).map fun entry => {entry with expiresAt := some expiresAt})

/-- An assigned key holds its value and expiry. -/
@[simp] theorem assign_self (store : Store K V) (key : K) (value : V) (expiresAt : Option ℕ) :
    store.assign key value expiresAt key=some ⟨value,expiresAt⟩ := Function.update_self _ _ _

/-- The other keys are left. -/
theorem assign_of_ne (store : Store K V) {key other : K} (value : V) (expiresAt : Option ℕ)
    (h : other≠key) : store.assign key value expiresAt other=store other :=
  Function.update_of_ne h _ _

/-- A removed key is gone. -/
@[simp] theorem remove_self (store : Store K V) (key : K) : store.remove key key=none :=
  Function.update_self _ _ _

/-- The other keys are left. -/
theorem remove_of_ne (store : Store K V) {key other : K} (h : other≠key) :
    store.remove key other=store other := Function.update_of_ne h _ _

/-- The other keys are left. -/
theorem replace_of_ne (store : Store K V) {key other : K} (value : V) (h : other≠key) :
    store.replace key value other=store other := Function.update_of_ne h _ _

/-- The other keys are left. -/
theorem retime_of_ne (store : Store K V) (now : ℕ) {key other : K} (expiresAt : ℕ)
    (h : other≠key) : store.retime now key expiresAt other=store other :=
  Function.update_of_ne h _ _

/-- A key outside the list is left. -/
theorem removeAll_of_notMem (store : Store K V) {keys : List K} {key : K} (h : key∉keys) :
    store.removeAll keys key=store key := by
  induction keys generalizing store with
  | nil => rfl
  | cons head tail ih =>
    have hh : key≠head := fun he => h (he ▸ List.mem_cons_self)
    have ht : key∉tail := fun hm => h (List.mem_cons_of_mem _ hm)
    rw [removeAll,List.foldl_cons]
    exact (ih (store.remove head) ht).trans (remove_of_ne store hh)

/-- A key of the list is gone. -/
theorem removeAll_of_mem (store : Store K V) {keys : List K} {key : K} (h : key∈keys) :
    store.removeAll keys key=none := by
  induction keys generalizing store with
  | nil => cases h
  | cons head tail ih =>
    rw [removeAll,List.foldl_cons]
    by_cases ht : key∈tail
    · exact ih _ ht
    · have hh : key=head := (List.mem_cons.mp h).resolve_right ht
      exact (removeAll_of_notMem (store.remove head) ht).trans (hh ▸ remove_self store head)

/-- Removal never brings a key into existence. -/
theorem removeAll_eq_none (store : Store K V) (keys : List K) {key : K} (h : store key=none) :
    store.removeAll keys key=none := by
  by_cases hk : key∈keys
  · exact removeAll_of_mem store hk
  · exact (removeAll_of_notMem store hk).trans h

/-- A new expiry creates no entry. -/
theorem retime_eq_none (store : Store K V) (now : ℕ) (key : K) (expiresAt : ℕ) {other : K}
    (h : store other=none) : store.retime now key expiresAt other=none := by
  by_cases hk : other=key
  · subst hk
    simp [retime,h]
  · exact (retime_of_ne store now expiresAt hk).trans h

end Store

end BackendPlatform.ExpiringStore
