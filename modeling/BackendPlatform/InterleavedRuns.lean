import BackendPlatform.ProgramTrees
import Mathlib.Data.Nat.Notation
import Mathlib.Logic.Function.Basic

/-!
# Interleaved runs of program trees over one shared state

A system is a shared state, the remaining program of every process and the
history of answered effects. A move lets one process perform its next
effect, closes a finished process, kills a running one or starts another.
A machine decides when an effect is blocked, when it only makes internal
progress and when it is answered. Invariants of whole runs are proved over
protocol states: one obligation for each kind of move.
-/

set_option autoImplicit false

namespace BackendPlatform.InterleavedRuns

open ProgramTrees

/-- One answered effect of one process. -/
structure Event (σ : Signature) where
  /-- The process that performed the effect. -/
  pid : ℕ
  /-- The effect. -/
  op : σ.Op
  /-- The reply it got. -/
  reply : σ.Reply op

/-- Semantics of the effects over the shared state. -/
structure Machine (σ : Signature) (S : Type) where
  /-- Perform an effect under one nondeterministic choice: blocked, internal
  progress without a reply, or an answer. -/
  fire : ℕ → (op : σ.Op) → ℕ → S → Option (Option (σ.Reply op)×S)
  /-- Release what a process holds when it ends. -/
  close : ℕ → S → S

/-- Shared state, remaining programs and the answered effects, latest first.
A killed process has no remaining program. -/
structure System (σ : Signature) (ε α S : Type) where
  /-- The shared state. -/
  shared : S
  /-- Remaining program of every process started so far. -/
  procs : List (Option (Program σ ε α))
  /-- Answered effects, latest first. -/
  history : List (Event σ)

/-- A scheduling decision. -/
inductive Move (σ : Signature) (ε α : Type) where
  /-- A process performs its next effect. -/
  | effect (pid choice : ℕ)
  /-- A process that has returned or raised releases its resources. -/
  | finish (pid : ℕ)
  /-- A running process dies. -/
  | kill (pid : ℕ)
  /-- A new process starts. -/
  | spawn (program : Program σ ε α)

variable {σ : Signature} {ε α S St : Type}

/-- Outcome of a process that has returned or raised. -/
def System.outcome (sys : System σ ε α S) (pid : ℕ) : Option (Except ε α) :=
  match sys.procs[pid]? with
  | some (some (.pure a)) => some (.ok a)
  | some (some (.raise e)) => some (.error e)
  | _ => none

/-- Perform one move; a move that does not apply gives no next system. -/
def Machine.step (m : Machine σ S) (sys : System σ ε α S) :
    Move σ ε α → Option (System σ ε α S)
  | .effect i c =>
    match sys.procs[i]? with
    | some (some (.call op k)) =>
      match m.fire i op c sys.shared with
      | none => none
      | some (none,s) => some {sys with shared := s}
      | some (some r,s) =>
        some ⟨s,sys.procs.set i (some (k r)),⟨i,op,r⟩::sys.history⟩
    | _ => none
  | .finish i =>
    match sys.outcome i with
    | some _ => some {sys with shared := m.close i sys.shared}
    | none => none
  | .kill i =>
    match sys.procs[i]? with
    | some (some (.call _ _)) =>
      some {sys with shared := m.close i sys.shared, procs := sys.procs.set i none}
    | _ => none
  | .spawn p => some {sys with procs := sys.procs++[some p]}

/-- Perform a whole schedule, checking the system before every move. -/
def Machine.runSchedule (m : Machine σ S) (check : System σ ε α S → Move σ ε α → Bool) :
    List (Move σ ε α) → System σ ε α S → Option (System σ ε α S)
  | [],sys => some sys
  | mv::rest,sys =>
    if check sys mv then (m.step sys mv).bind (m.runSchedule check rest) else none

/-- Systems reached by moves that all satisfy a condition on the system
before the move. -/
inductive Machine.Reaches (m : Machine σ S) (C : System σ ε α S → Move σ ε α → Prop)
    (sys : System σ ε α S) : System σ ε α S → Prop
  /-- The empty run. -/
  | refl : m.Reaches C sys sys
  /-- One more move. -/
  | step {a b : System σ ε α S} (mv : Move σ ε α) : m.Reaches C sys a → C a mv →
      m.step a mv=some b → m.Reaches C sys b

/-- Under a weaker condition on its moves the same run is a run. -/
theorem Machine.Reaches.mono {m : Machine σ S} {C D : System σ ε α S → Move σ ε α → Prop}
    {a b : System σ ε α S} (hcd : ∀ s mv, C s mv → D s mv) (h : m.Reaches C a b) :
    m.Reaches D a b := by
  induction h with
  | refl => exact .refl
  | step mv _ hc hs ih => exact .step mv ih (hcd _ _ hc) hs

/-- Every executed schedule whose checks imply the condition is such a run. -/
theorem Machine.Reaches.of_schedule {m : Machine σ S}
    {C : System σ ε α S → Move σ ε α → Prop} {check : System σ ε α S → Move σ ε α → Bool}
    {start a b : System σ ε α S} {schedule : List (Move σ ε α)} (ha : m.Reaches C start a)
    (hc : ∀ mv∈schedule,∀ s, check s mv=true → C s mv)
    (h : m.runSchedule check schedule a=some b) : m.Reaches C start b := by
  induction schedule generalizing a with
  | nil => exact (Option.some.inj h) ▸ ha
  | cons mv rest ih =>
    simp only [Machine.runSchedule] at h
    split at h
    · rename_i hcheck
      obtain ⟨next,hs,hr⟩ := Option.bind_eq_some_iff.mp h
      exact ih (.step mv ha (hc mv List.mem_cons_self a hcheck) hs)
        (fun mv' hm => hc mv' (List.mem_cons_of_mem _ hm)) hr
    · cases h

/-- One answered effect, in terms of the parts of the system. -/
theorem Machine.step_effect {m : Machine σ S} {a b : System σ ε α S} {i c : ℕ}
    (h : m.step a (.effect i c)=some b) :
    ∃ op k, a.procs[i]?=some (some (.call op k)) ∧
      ((∃ s, m.fire i op c a.shared=some (none,s) ∧ b={a with shared := s}) ∨
        ∃ r s, m.fire i op c a.shared=some (some r,s) ∧
          b=⟨s,a.procs.set i (some (k r)),⟨i,op,r⟩::a.history⟩) := by
  simp only [Machine.step] at h
  split at h
  · rename_i op k hp
    refine ⟨op,k,hp,?_⟩
    split at h
    · cases h
    · rename_i s hf
      exact .inl ⟨s,hf,(Option.some.inj h).symm⟩
    · rename_i r s hf
      exact .inr ⟨r,s,hf,(Option.some.inj h).symm⟩
  · cases h

/-- Another state than the updated one was there before the update. -/
theorem of_update {states : ℕ → St} {i j : ℕ} {t s : St} (h : Function.update states i t j=s)
    (hs : s≠t) : j≠i ∧ states j=s := by
  by_cases hji : j=i
  · subst hji
    rw [Function.update_self] at h
    exact absurd h.symm hs
  · rw [Function.update_of_ne hji] at h
    exact ⟨hji,h⟩

/-- Control states tracked along a run: the invariant holds of them and every
remaining program follows the protocol from its own. -/
structure Tracks (A : Protocol σ St) (start : St) (Q : St → Except ε α → Prop)
    (Inv : S → List (Event σ) → (ℕ → St) → Prop) (sys : System σ ε α S)
    (states : ℕ → St) : Prop where
  /-- The invariant of shared state, history and control states. -/
  inv : Inv sys.shared sys.history states
  /-- Remaining programs follow the protocol. -/
  follows : ∀ i (p : Program σ ε α), sys.procs[i]?=some (some p) → p.Follows A (states i) Q
  /-- Processes that do not exist yet are in the starting state. -/
  unborn : ∀ i, sys.procs.length ≤ i → states i=start

/-- What has to be proved of every kind of move for an invariant of control
states to hold in whole runs. -/
structure Obligations (m : Machine σ S) (A : Protocol σ St) (start : St)
    (Q : St → Except ε α → Prop) (Inv : S → List (Event σ) → (ℕ → St) → Prop)
    (C : System σ ε α S → Move σ ε α → Prop) (ended : St → St) : Prop where
  /-- Every program that may start follows the protocol. -/
  spawn : ∀ (sys : System σ ε α S) p, C sys (.spawn p) → p.Follows A start Q
  /-- Outcomes stay justified when a process has released its resources. -/
  outcome : ∀ t o, Q t o → Q (ended t) o
  /-- Internal progress keeps the invariant. -/
  progress : ∀ (sys : System σ ε α S) states i op c s, Tracks A start Q Inv sys states →
    m.fire i op c sys.shared=some (none,s) → Inv s sys.history states
  /-- Every answer is one the protocol offers. -/
  offer : ∀ (sys : System σ ε α S) states i op c r s, Tracks A start Q Inv sys states →
    C sys (.effect i c) → m.fire i op c sys.shared=some (some r,s) → A.Offers (states i) op r
  /-- An answered effect keeps the invariant in the next control state. -/
  answer : ∀ (sys : System σ ε α S) states i op k c r s t, Tracks A start Q Inv sys states →
    C sys (.effect i c) → sys.procs[i]?=some (some (.call op k)) →
    A.Moves (states i) op r t → m.fire i op c sys.shared=some (some r,s) →
    Inv s (⟨i,op,r⟩::sys.history) (Function.update states i t)
  /-- Ending a process keeps the invariant in the ended control state. -/
  close : ∀ (sys : System σ ε α S) states i, Tracks A start Q Inv sys states → i<sys.procs.length →
    Inv (m.close i sys.shared) sys.history (Function.update states i (ended (states i)))

/-- The obligations of runs in which internal progress changes the state and
replies depend on the condition on the move. -/
structure Duties (m : Machine σ S) (A : Protocol σ St) (start : St)
    (Q : St → Except ε α → Prop) (Inv : S → List (Event σ) → (ℕ → St) → Prop)
    (C : System σ ε α S → Move σ ε α → Prop) (ended : St → St) : Prop where
  /-- Every program that may start follows the protocol. -/
  spawn : ∀ (sys : System σ ε α S) p, C sys (.spawn p) → p.Follows A start Q
  /-- Outcomes stay justified when a process has released its resources. -/
  outcome : ∀ t o, Q t o → Q (ended t) o
  /-- Internal progress keeps the invariant. -/
  progress : ∀ (sys : System σ ε α S) states i op k c s, Tracks A start Q Inv sys states →
    C sys (.effect i c) → sys.procs[i]?=some (some (.call op k)) →
    m.fire i op c sys.shared=some (none,s) → Inv s sys.history states
  /-- Every answer is one the protocol offers. -/
  offer : ∀ (sys : System σ ε α S) states i op k c r s, Tracks A start Q Inv sys states →
    C sys (.effect i c) → sys.procs[i]?=some (some (.call op k)) →
    m.fire i op c sys.shared=some (some r,s) → A.Offers (states i) op r
  /-- An answered effect keeps the invariant in the next control state. -/
  answer : ∀ (sys : System σ ε α S) states i op k c r s t, Tracks A start Q Inv sys states →
    C sys (.effect i c) → sys.procs[i]?=some (some (.call op k)) →
    A.Moves (states i) op r t → m.fire i op c sys.shared=some (some r,s) →
    Inv s (⟨i,op,r⟩::sys.history) (Function.update states i t)
  /-- Ending a process keeps the invariant in the ended control state. -/
  close : ∀ (sys : System σ ε α S) states i, Tracks A start Q Inv sys states → i<sys.procs.length →
    Inv (m.close i sys.shared) sys.history (Function.update states i (ended (states i)))

/-- Obligations for every answer are duties for every step. -/
theorem Obligations.duties {m : Machine σ S} {A : Protocol σ St} {start : St}
    {Q : St → Except ε α → Prop} {Inv : S → List (Event σ) → (ℕ → St) → Prop}
    {C : System σ ε α S → Move σ ε α → Prop} {ended : St → St}
    (ob : Obligations m A start Q Inv C ended) : Duties m A start Q Inv C ended where
  spawn := ob.spawn
  outcome := ob.outcome
  progress sys states i op _ c s ht _ _ hf := ob.progress sys states i op c s ht hf
  offer sys states i op _ c r s ht hc _ hf := ob.offer sys states i op c r s ht hc hf
  answer := ob.answer
  close := ob.close

/-- Killed processes are in control states that may be dead. -/
def Buried (dead : St → Prop) (sys : System σ ε α S) (states : ℕ → St) : Prop :=
  ∀ i, sys.procs[i]?=some none → dead (states i)

/-- The obligations of runs in which the control state of a killed process
matters: only a dead one is left behind. -/
structure MortalDuties (m : Machine σ S) (A : Protocol σ St) (start : St)
    (Q : St → Except ε α → Prop) (Inv : S → List (Event σ) → (ℕ → St) → Prop)
    (C : System σ ε α S → Move σ ε α → Prop) (ended : St → St) (dead : St → Prop) : Prop where
  /-- Every program that may start follows the protocol. -/
  spawn : ∀ (sys : System σ ε α S) p, C sys (.spawn p) → p.Follows A start Q
  /-- Outcomes stay justified when a process has released its resources. -/
  outcome : ∀ t o, Q t o → Q (ended t) o
  /-- Ended control states are dead. -/
  buried : ∀ t, dead (ended t)
  /-- Internal progress keeps the invariant. -/
  progress : ∀ (sys : System σ ε α S) states i op k c s, Tracks A start Q Inv sys states →
    Buried dead sys states → C sys (.effect i c) → sys.procs[i]?=some (some (.call op k)) →
    m.fire i op c sys.shared=some (none,s) → Inv s sys.history states
  /-- Every answer is one the protocol offers. -/
  offer : ∀ (sys : System σ ε α S) states i op k c r s, Tracks A start Q Inv sys states →
    Buried dead sys states → C sys (.effect i c) → sys.procs[i]?=some (some (.call op k)) →
    m.fire i op c sys.shared=some (some r,s) → A.Offers (states i) op r
  /-- An answered effect keeps the invariant in the next control state. -/
  answer : ∀ (sys : System σ ε α S) states i op k c r s t, Tracks A start Q Inv sys states →
    Buried dead sys states → C sys (.effect i c) → sys.procs[i]?=some (some (.call op k)) →
    A.Moves (states i) op r t → m.fire i op c sys.shared=some (some r,s) →
    Inv s (⟨i,op,r⟩::sys.history) (Function.update states i t)
  /-- Ending a process keeps the invariant in the ended control state. -/
  close : ∀ (sys : System σ ε α S) states i, Tracks A start Q Inv sys states →
    Buried dead sys states → i<sys.procs.length →
    Inv (m.close i sys.shared) sys.history (Function.update states i (ended (states i)))

/-- Duties with an ending for the dead are duties of a mortal run. -/
theorem Duties.mortal {m : Machine σ S} {A : Protocol σ St} {start : St}
    {Q : St → Except ε α → Prop} {Inv : S → List (Event σ) → (ℕ → St) → Prop}
    {C : System σ ε α S → Move σ ε α → Prop} {ended : St → St}
    (ob : Duties m A start Q Inv C ended) : MortalDuties m A start Q Inv C ended fun _ => True where
  spawn := ob.spawn
  outcome := ob.outcome
  buried _ := trivial
  progress sys states i op k c s ht _ hc hp hf := ob.progress sys states i op k c s ht hc hp hf
  offer sys states i op k c r s ht _ hc hp hf := ob.offer sys states i op k c r s ht hc hp hf
  answer sys states i op k c r s t ht _ hc hp hm hf :=
    ob.answer sys states i op k c r s t ht hc hp hm hf
  close sys states i ht _ hi := ob.close sys states i ht hi

/-- One step of a mortal run keeps the invariant. -/
theorem MortalDuties.step {m : Machine σ S} {A : Protocol σ St} {start : St}
    {Q : St → Except ε α → Prop} {Inv : S → List (Event σ) → (ℕ → St) → Prop}
    {C : System σ ε α S → Move σ ε α → Prop} {ended : St → St} {dead : St → Prop}
    (ob : MortalDuties m A start Q Inv C ended dead) {a b : System σ ε α S} {states : ℕ → St}
    (ht : Tracks A start Q Inv a states) (hb : Buried dead a states) {mv : Move σ ε α}
    (hc : C a mv) (h : m.step a mv=some b) :
    ∃ states', Tracks A start Q Inv b states' ∧ Buried dead b states' := by
  cases mv with
  | effect i c =>
    obtain ⟨op,k,hp,⟨s,hf,rfl⟩|⟨r,s,hf,rfl⟩⟩ := Machine.step_effect h
    · exact ⟨states,⟨ob.progress a states i op k c s ht hb hc hp hf,ht.follows,ht.unborn⟩,hb⟩
    · have hlt : i<a.procs.length := (List.getElem?_eq_some_iff.mp hp).1
      obtain ⟨t,hm,hk⟩ := ht.follows i _ hp r (ob.offer a states i op k c r s ht hb hc hp hf)
      refine ⟨Function.update states i t,
        ⟨ob.answer a states i op k c r s t ht hb hc hp hm hf,?_,?_⟩,?_⟩
      · intro j p hj
        by_cases hij : j=i
        · subst hij
          rw [List.getElem?_set_self hlt] at hj
          cases hj
          rwa [Function.update_self]
        · rw [List.getElem?_set_ne (Ne.symm hij)] at hj
          rw [Function.update_of_ne hij]
          exact ht.follows j p hj
      · intro j hj
        rw [List.length_set] at hj
        rw [Function.update_of_ne (by omega)]
        exact ht.unborn j hj
      · intro j hj
        by_cases hij : j=i
        · subst hij
          rw [List.getElem?_set_self hlt] at hj
          cases hj
        · rw [List.getElem?_set_ne (Ne.symm hij)] at hj
          rw [Function.update_of_ne hij]
          exact hb j hj
  | finish i =>
    simp only [Machine.step] at h
    split at h
    · rename_i o ho
      cases h
      have hlt : i<a.procs.length := by
        by_contra hn
        simp [System.outcome,List.getElem?_eq_none (Nat.le_of_not_lt hn)] at ho
      refine ⟨Function.update states i (ended (states i)),⟨ob.close a states i ht hb hlt,?_,?_⟩,?_⟩
      · intro j p hj
        by_cases hij : j=i
        · subst hij
          rw [Function.update_self]
          have hf := ht.follows j p hj
          simp only [System.outcome,hj] at ho
          cases p with
          | pure v => exact ob.outcome _ _ hf
          | raise e => exact ob.outcome _ _ hf
          | call op k => cases ho
        · rw [Function.update_of_ne hij]
          exact ht.follows j p hj
      · intro j hj
        have hle : a.procs.length≤j := hj
        rw [Function.update_of_ne (by omega)]
        exact ht.unborn j hle
      · intro j hj
        by_cases hij : j=i
        · subst hij
          rw [Function.update_self]
          exact ob.buried _
        · rw [Function.update_of_ne hij]
          exact hb j hj
    · cases h
  | kill i =>
    simp only [Machine.step] at h
    split at h
    · rename_i op k hp
      cases h
      have hlt : i<a.procs.length := (List.getElem?_eq_some_iff.mp hp).1
      refine ⟨Function.update states i (ended (states i)),⟨ob.close a states i ht hb hlt,?_,?_⟩,?_⟩
      · intro j p hj
        by_cases hij : j=i
        · subst hij
          rw [List.getElem?_set_self hlt] at hj
          cases hj
        · rw [List.getElem?_set_ne (Ne.symm hij)] at hj
          rw [Function.update_of_ne hij]
          exact ht.follows j p hj
      · intro j hj
        rw [List.length_set] at hj
        rw [Function.update_of_ne (by omega)]
        exact ht.unborn j hj
      · intro j hj
        by_cases hij : j=i
        · subst hij
          rw [Function.update_self]
          exact ob.buried _
        · rw [List.getElem?_set_ne (Ne.symm hij)] at hj
          rw [Function.update_of_ne hij]
          exact hb j hj
    · cases h
  | spawn p =>
    cases h
    refine ⟨states,⟨ht.inv,?_,?_⟩,?_⟩
    · intro j q hj
      by_cases hlt : j<a.procs.length
      · rw [List.getElem?_append_left hlt] at hj
        exact ht.follows j q hj
      · rw [List.getElem?_append_right (Nat.le_of_not_lt hlt)] at hj
        obtain ⟨hn,hq⟩ := List.getElem?_eq_some_iff.mp hj
        simp only [List.length_singleton,Nat.lt_one_iff] at hn
        simp only [hn,List.getElem_cons_zero,Option.some.injEq] at hq
        subst hq
        rw [ht.unborn j (Nat.le_of_not_lt hlt)]
        exact ob.spawn a p hc
    · intro j hj
      rw [List.length_append,List.length_singleton] at hj
      exact ht.unborn j (by omega)
    · intro j hj
      by_cases hlt : j<a.procs.length
      · rw [List.getElem?_append_left hlt] at hj
        exact hb j hj
      · rw [List.getElem?_append_right (Nat.le_of_not_lt hlt)] at hj
        obtain ⟨hn,hq⟩ := List.getElem?_eq_some_iff.mp hj
        simp only [List.length_singleton,Nat.lt_one_iff] at hn
        simp [hn] at hq

/-- The run lemma that knows of killed processes. -/
theorem MortalDuties.reaches {m : Machine σ S} {A : Protocol σ St} {start : St}
    {Q : St → Except ε α → Prop} {Inv : S → List (Event σ) → (ℕ → St) → Prop}
    {C : System σ ε α S → Move σ ε α → Prop} {ended : St → St} {dead : St → Prop}
    (ob : MortalDuties m A start Q Inv C ended dead) {a b : System σ ε α S} {states : ℕ → St}
    (ht : Tracks A start Q Inv a states) (hb : Buried dead a states) (h : m.Reaches C a b) :
    ∃ states', Tracks A start Q Inv b states' ∧ Buried dead b states' := by
  induction h with
  | refl => exact ⟨states,ht,hb⟩
  | step mv _ hc hs ih =>
    obtain ⟨states',ht',hb'⟩ := ih
    exact ob.step ht' hb' hc hs

/-- One step of a run keeps the invariant. -/
theorem Duties.step {m : Machine σ S} {A : Protocol σ St} {start : St}
    {Q : St → Except ε α → Prop} {Inv : S → List (Event σ) → (ℕ → St) → Prop}
    {C : System σ ε α S → Move σ ε α → Prop} {ended : St → St}
    (ob : Duties m A start Q Inv C ended) {a b : System σ ε α S} {states : ℕ → St}
    (ht : Tracks A start Q Inv a states) {mv : Move σ ε α} (hc : C a mv)
    (h : m.step a mv=some b) : ∃ states', Tracks A start Q Inv b states' := by
  obtain ⟨states',ht',_⟩ := ob.mortal.step ht (fun _ _ => trivial) hc h
  exact ⟨states',ht'⟩

/-- One step keeps the processes tracked. -/
theorem Tracks.step {m : Machine σ S} {A : Protocol σ St} {start : St}
    {Q : St → Except ε α → Prop} {Inv : S → List (Event σ) → (ℕ → St) → Prop}
    {C : System σ ε α S → Move σ ε α → Prop} {ended : St → St}
    (ob : Obligations m A start Q Inv C ended) {a b : System σ ε α S} {states : ℕ → St}
    (ht : Tracks A start Q Inv a states) {mv : Move σ ε α} (hc : C a mv)
    (h : m.step a mv=some b) : ∃ states', Tracks A start Q Inv b states' :=
  ob.duties.step ht hc h

/-- The run lemma of the stronger obligations. -/
theorem Duties.reaches {m : Machine σ S} {A : Protocol σ St} {start : St}
    {Q : St → Except ε α → Prop} {Inv : S → List (Event σ) → (ℕ → St) → Prop}
    {C : System σ ε α S → Move σ ε α → Prop} {ended : St → St}
    (ob : Duties m A start Q Inv C ended) {a b : System σ ε α S} {states : ℕ → St}
    (ht : Tracks A start Q Inv a states) (h : m.Reaches C a b) :
    ∃ states', Tracks A start Q Inv b states' := by
  induction h with
  | refl => exact ⟨states,ht⟩
  | step mv _ hc hs ih =>
    obtain ⟨states',ht'⟩ := ih
    exact ob.step ht' hc hs

/-- The run lemma: control states can be tracked along every run. -/
theorem Tracks.reaches {m : Machine σ S} {A : Protocol σ St} {start : St}
    {Q : St → Except ε α → Prop} {Inv : S → List (Event σ) → (ℕ → St) → Prop}
    {C : System σ ε α S → Move σ ε α → Prop} {ended : St → St}
    (ob : Obligations m A start Q Inv C ended) {a b : System σ ε α S} {states : ℕ → St}
    (ht : Tracks A start Q Inv a states) (h : m.Reaches C a b) :
    ∃ states', Tracks A start Q Inv b states' :=
  ob.duties.reaches ht h

/-- A tracked outcome is justified by its control state. -/
theorem Tracks.outcome {A : Protocol σ St} {start : St} {Q : St → Except ε α → Prop}
    {Inv : S → List (Event σ) → (ℕ → St) → Prop} {sys : System σ ε α S}
    {states : ℕ → St} (ht : Tracks A start Q Inv sys states) {i : ℕ} {o : Except ε α}
    (ho : sys.outcome i=some o) : Q (states i) o := by
  unfold System.outcome at ho
  split at ho
  · rename_i v hp
    cases ho
    exact ht.follows i _ hp
  · rename_i e hp
    cases ho
    exact ht.follows i _ hp
  · cases ho

end BackendPlatform.InterleavedRuns
