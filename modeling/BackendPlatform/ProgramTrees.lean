import Mathlib.Logic.Basic

/-!
# Program trees over an effect signature

A program is the tree of its effects: every node asks for one effect and
continues with the reply, every leaf is a value or a raised error. The same
tree is run alone against a handler or interleaved with others, one effect
at a time. Footprints bound which effects a tree may ask for. Protocols
are small automata that a tree must follow for every reply it can get;
they replace continuations by finite control states in global proofs.
-/

set_option autoImplicit false

namespace BackendPlatform.ProgramTrees

/-- Effects and the type of the reply that each of them returns. -/
structure Signature where
  /-- The effect a program may ask for. -/
  Op : Type
  /-- The reply returned for one effect. -/
  Reply : Op → Type

/-- A program as the tree of its effects. -/
inductive Program (σ : Signature) (ε α : Type) : Type where
  /-- The program returns. -/
  | pure (value : α) : Program σ ε α
  /-- The program ends with an exception. -/
  | raise (error : ε) : Program σ ε α
  /-- One effect, then the continuation at its reply. -/
  | call (op : σ.Op) (next : σ.Reply op → Program σ ε α) : Program σ ε α

variable {σ : Signature} {ε α β S St : Type}

namespace Program

/-- Sequencing; an exception skips the rest. -/
def bind : Program σ ε α → (α → Program σ ε β) → Program σ ε β
  | .pure a, f => f a
  | .raise e, _ => .raise e
  | .call op k, f => .call op fun r => (k r).bind f

/-- Exception handling: only the exception leaves are replaced, so effects
made before the exception stay made. -/
def handle : Program σ ε α → (ε → Program σ ε α) → Program σ ε α
  | .pure a, _ => .pure a
  | .raise e, h => h e
  | .call op k, h => .call op fun r => (k r).handle h

/-- A single effect, returning its reply. -/
def perform (op : σ.Op) : Program σ ε (σ.Reply op) := .call op .pure

instance : Monad (Program σ ε) where
  pure := .pure
  bind := .bind

instance : MonadExceptOf ε (Program σ ε) where
  throw := .raise
  tryCatch := .handle

@[simp] theorem pure_bind (a : α) (f : α → Program σ ε β) :
    (Program.pure a : Program σ ε α).bind f=f a := rfl

@[simp] theorem raise_bind (e : ε) (f : α → Program σ ε β) :
    (Program.raise e : Program σ ε α).bind f=.raise e := rfl

@[simp] theorem call_bind (op : σ.Op) (k : σ.Reply op → Program σ ε α)
    (f : α → Program σ ε β) :
    (Program.call op k).bind f=.call op fun r => (k r).bind f := rfl

@[simp] theorem monad_pure (a : α) : (Pure.pure a : Program σ ε α)=.pure a := rfl

@[simp] theorem monad_bind (p : Program σ ε α) (f : α → Program σ ε β) :
    (p >>= f)=p.bind f := rfl

@[simp] theorem monad_throw (e : ε) : (throw e : Program σ ε α)=.raise e := rfl

@[simp] theorem monad_tryCatch (p : Program σ ε α) (h : ε → Program σ ε α) :
    (tryCatch p h : Program σ ε α)=p.handle h := rfl

/-- Sequencing is associative. -/
theorem bind_assoc {γ : Type} (p : Program σ ε α) (f : α → Program σ ε β)
    (g : β → Program σ ε γ) : (p.bind f).bind g=p.bind fun a => (f a).bind g := by
  induction p with
  | pure a => rfl
  | raise e => rfl
  | call op k ih => exact congrArg (Program.call op) (funext ih)

/-- Run a tree alone: the handler answers every effect from its state. -/
def run (handler : (op : σ.Op) → S → σ.Reply op × S) : Program σ ε α → S → Except ε α × S
  | .pure a, s => (.ok a,s)
  | .raise e, s => (.error e,s)
  | .call op k, s => (k (handler op s).1).run handler (handler op s).2

/-- The run of a sequence continues from the state the first part left. -/
theorem run_bind (handler : (op : σ.Op) → S → σ.Reply op × S) (p : Program σ ε α)
    (f : α → Program σ ε β) (s : S) :
    (p.bind f).run handler s=
      match p.run handler s with
      | (.ok a,s') => (f a).run handler s'
      | (.error e,s') => (.error e,s') := by
  induction p generalizing s with
  | pure a => rfl
  | raise e => rfl
  | call op k ih => exact ih _ _

/-- A handled run resumes at the handler with every effect kept. -/
theorem run_handle (handler : (op : σ.Op) → S → σ.Reply op × S) (p : Program σ ε α)
    (h : ε → Program σ ε α) (s : S) :
    (p.handle h).run handler s=
      match p.run handler s with
      | (.ok a,s') => (.ok a,s')
      | (.error e,s') => (h e).run handler s' := by
  induction p generalizing s with
  | pure a => rfl
  | raise e => rfl
  | call op k ih => exact ih _ _

/-- The answered effects of a run alone, in order. -/
def record (handler : (op : σ.Op) → S → σ.Reply op × S) :
    Program σ ε α → S → List ((op : σ.Op)×σ.Reply op)
  | .pure _, _ => []
  | .raise _, _ => []
  | .call op k, s =>
    ⟨op,(handler op s).1⟩::(k (handler op s).1).record handler (handler op s).2

/-- The record of a sequence continues with the record of the second part. -/
theorem record_bind (handler : (op : σ.Op) → S → σ.Reply op × S) (p : Program σ ε α)
    (f : α → Program σ ε β) (s : S) :
    (p.bind f).record handler s=p.record handler s++
      match p.run handler s with
      | (.ok a,s') => (f a).record handler s'
      | (.error _,_) => [] := by
  induction p generalizing s with
  | pure a => rfl
  | raise e => rfl
  | call op k ih => exact congrArg (_::·) (ih _ _)

/-- The record of a sequence is the record of its first part and then of the
second. -/
theorem mem_record_bind {handler : (op : σ.Op) → S → σ.Reply op × S} {p : Program σ ε α}
    {f : α → Program σ ε β} {s : S} {e : (op : σ.Op)×σ.Reply op} :
    e∈(p.bind f).record handler s ↔ e∈p.record handler s ∨
      ∃ a s', p.run handler s=(.ok a,s') ∧ e∈(f a).record handler s' := by
  rw [record_bind,List.mem_append]
  refine or_congr_right ?_
  generalize p.run handler s=r
  obtain ⟨o,s'⟩ := r
  cases o with
  | ok a => exact ⟨fun h => ⟨a,s',rfl,h⟩,fun ⟨_,_,he,h⟩ => by cases he; exact h⟩
  | error e => exact ⟨fun h => (List.not_mem_nil h).elim,fun ⟨_,_,he,_⟩ => by cases he⟩

/-- The run from a state ends in an outcome and a state that satisfy `Q`. -/
def Ensures (handler : (op : σ.Op) → S → σ.Reply op × S) (p : Program σ ε α) (s : S)
    (Q : Except ε α → S → Prop) : Prop := Q (p.run handler s).1 (p.run handler s).2

section Ensures

variable {handler : (op : σ.Op) → S → σ.Reply op × S} {s : S}

@[simp] theorem ensures_pure (a : α) (Q : Except ε α → S → Prop) :
    (Program.pure a : Program σ ε α).Ensures handler s Q ↔ Q (.ok a) s := Iff.rfl

@[simp] theorem ensures_raise (e : ε) (Q : Except ε α → S → Prop) :
    (Program.raise e : Program σ ε α).Ensures handler s Q ↔ Q (.error e) s := Iff.rfl

/-- A weaker postcondition follows. -/
theorem Ensures.mono {p : Program σ ε α} {Q R : Except ε α → S → Prop}
    (h : p.Ensures handler s Q) (hqr : ∀ o s', Q o s' → R o s') : p.Ensures handler s R :=
  hqr _ _ h

/-- Two postconditions of one run hold together. -/
theorem Ensures.and {p : Program σ ε α} {Q R : Except ε α → S → Prop}
    (hq : p.Ensures handler s Q) (hr : p.Ensures handler s R) :
    p.Ensures handler s fun o s' => Q o s' ∧ R o s' := ⟨hq,hr⟩

/-- The rule of sequencing. -/
theorem Ensures.bind {p : Program σ ε α} {f : α → Program σ ε β} {Q : Except ε α → S → Prop}
    {R : Except ε β → S → Prop} (hp : p.Ensures handler s Q)
    (hok : ∀ a s', Q (.ok a) s' → (f a).Ensures handler s' R)
    (herror : ∀ e s', Q (.error e) s' → R (.error e) s') : (p.bind f).Ensures handler s R := by
  unfold Ensures at hp hok ⊢
  rw [run_bind]
  generalize p.run handler s=r at hp
  obtain ⟨o,s'⟩ := r
  cases o with
  | ok a => exact hok a s' hp
  | error e => exact herror e s' hp

/-- The rule of exception handling. -/
theorem Ensures.handle {p : Program σ ε α} {h : ε → Program σ ε α}
    {Q R : Except ε α → S → Prop} (hp : p.Ensures handler s Q)
    (hok : ∀ a s', Q (.ok a) s' → R (.ok a) s')
    (herror : ∀ e s', Q (.error e) s' → (h e).Ensures handler s' R) :
    (p.handle h).Ensures handler s R := by
  unfold Ensures at hp herror ⊢
  rw [run_handle]
  generalize p.run handler s=r at hp
  obtain ⟨o,s'⟩ := r
  cases o with
  | ok a => exact hok a s' hp
  | error e => exact herror e s' hp

end Ensures

/-- Every effect the tree can ask for, whatever the replies, satisfies `P`. -/
def Within (P : σ.Op → Prop) : Program σ ε α → Prop
  | .pure _ => True
  | .raise _ => True
  | .call op k => P op ∧ ∀ r, (k r).Within P

/-- A sequence of two parts inside a footprint is inside it. -/
theorem within_bind {P : σ.Op → Prop} {p : Program σ ε α} {f : α → Program σ ε β}
    (hp : p.Within P) (hf : ∀ a, (f a).Within P) : (p.bind f).Within P := by
  induction p with
  | pure a => exact hf a
  | raise e => trivial
  | call op k ih => exact ⟨hp.1,fun r => ih r (hp.2 r)⟩

@[simp] theorem within_pure {P : σ.Op → Prop} (a : α) :
    (Program.pure a : Program σ ε α).Within P := trivial

@[simp] theorem within_raise {P : σ.Op → Prop} (e : ε) :
    (Program.raise e : Program σ ε α).Within P := trivial

@[simp] theorem within_call {P : σ.Op → Prop} (op : σ.Op) (k : σ.Reply op → Program σ ε α) :
    (Program.call op k).Within P ↔ P op ∧ ∀ r, (k r).Within P := Iff.rfl

@[simp] theorem within_ite {P : σ.Op → Prop} (c : Prop) [Decidable c] (p q : Program σ ε α) :
    (if c then p else q).Within P ↔ (c → p.Within P) ∧ (¬c → q.Within P) := by
  split <;> simp [*]

/-- A handler inside the footprint keeps its program inside. -/
theorem within_handle {P : σ.Op → Prop} {p : Program σ ε α} {h : ε → Program σ ε α}
    (hp : p.Within P) (hh : ∀ e, (h e).Within P) : (p.handle h).Within P := by
  induction p with
  | pure a => trivial
  | raise e => exact hh e
  | call op k ih => exact ⟨hp.1,fun r => ih r (hp.2 r)⟩

/-- A larger footprint holds the program too. -/
theorem within_mono {P Q : σ.Op → Prop} {p : Program σ ε α} (hpq : ∀ op, P op → Q op)
    (hp : p.Within P) : p.Within Q := by
  induction p with
  | pure a => trivial
  | raise e => trivial
  | call op k ih => exact ⟨hpq op hp.1,fun r => ih r (hp.2 r)⟩

/-- A program inside two footprints is inside their intersection. -/
theorem within_and {P Q : σ.Op → Prop} {p : Program σ ε α} (hp : p.Within P)
    (hq : p.Within Q) : p.Within fun op => P op ∧ Q op := by
  induction p with
  | pure a => trivial
  | raise e => trivial
  | call op k ih => exact ⟨⟨hp.1,hq.1⟩,fun r => ih r (hp.2 r) (hq.2 r)⟩

/-- The same for a family of footprints. -/
theorem within_forall {ι : Type} {P : ι → σ.Op → Prop} {p : Program σ ε α}
    (hp : ∀ x, p.Within (P x)) : p.Within fun op => ∀ x, P x op := by
  induction p with
  | pure a => trivial
  | raise e => trivial
  | call op k ih => exact ⟨fun x => (hp x).1,fun r => ih r fun x => (hp x).2 r⟩

/-- Every exception the tree can end with satisfies `P`. -/
def Raises (P : ε → Prop) : Program σ ε α → Prop
  | .pure _ => True
  | .raise e => P e
  | .call _ k => ∀ r, (k r).Raises P

@[simp] theorem raises_pure {P : ε → Prop} (a : α) :
    (Program.pure a : Program σ ε α).Raises P := trivial

@[simp] theorem raises_raise {P : ε → Prop} (e : ε) :
    (Program.raise e : Program σ ε α).Raises P ↔ P e := Iff.rfl

@[simp] theorem raises_call {P : ε → Prop} (op : σ.Op) (k : σ.Reply op → Program σ ε α) :
    (Program.call op k).Raises P ↔ ∀ r, (k r).Raises P := Iff.rfl

/-- A sequence raises what its parts raise. -/
theorem raises_bind {P : ε → Prop} {p : Program σ ε α} {f : α → Program σ ε β}
    (hp : p.Raises P) (hf : ∀ a, (f a).Raises P) : (p.bind f).Raises P := by
  induction p with
  | pure a => exact hf a
  | raise e => exact hp
  | call op k ih => exact fun r => ih r (hp r)

/-- A run ends with one of the exceptions of the tree. -/
theorem ensures_raises {P : ε → Prop} {handler : (op : σ.Op) → S → σ.Reply op × S}
    {p : Program σ ε α} (hp : p.Raises P) (s : S) :
    p.Ensures handler s fun o _ => ∀ e, o=.error e → P e := by
  induction p generalizing s with
  | pure a => exact fun _ => nofun
  | raise e =>
    rintro e' ⟨⟩
    exact hp
  | call op k ih => exact ih _ (hp _) _

/-- A record has no other effects than the footprint. -/
theorem record_within {P : σ.Op → Prop} {handler : (op : σ.Op) → S → σ.Reply op × S}
    {p : Program σ ε α} (hp : p.Within P) (s : S) : ∀ e∈p.record handler s,P e.1 := by
  induction p generalizing s with
  | pure a => exact fun _ => nofun
  | raise e => exact fun _ => nofun
  | call op k ih =>
    intro e he
    obtain rfl|he := List.mem_cons.mp he
    · exact hp.1
    · exact ih _ (hp.2 _) _ e he

/-- A run inside a footprint keeps every state relation its effects keep. -/
theorem run_within {P : σ.Op → Prop} {handler : (op : σ.Op) → S → σ.Reply op × S}
    {R : S → S → Prop} (hrefl : ∀ s, R s s) (htrans : ∀ a b c, R a b → R b c → R a c)
    (hstep : ∀ op s, P op → R s (handler op s).2) {p : Program σ ε α} (hp : p.Within P)
    (s : S) : R s (p.run handler s).2 := by
  induction p generalizing s with
  | pure a => exact hrefl s
  | raise e => exact hrefl s
  | call op k ih => exact htrans _ _ _ (hstep op s hp.1) (ih _ (hp.2 _) _)

/-- A run inside a footprint keeps every state relation its effects keep. -/
theorem ensures_within {P : σ.Op → Prop} {handler : (op : σ.Op) → S → σ.Reply op × S}
    (R : S → S → Prop) (hrefl : ∀ s, R s s) (htrans : ∀ a b c, R a b → R b c → R a c)
    (hstep : ∀ op s, P op → R s (handler op s).2) {p : Program σ ε α} (hp : p.Within P)
    (s : S) : p.Ensures handler s fun _ s' => R s s' := run_within hrefl htrans hstep hp s

end Program

/-- A protocol relates a control state, an effect and its reply to the next
control state, and says which replies the environment can give there. An
effect without a successor state is not allowed. -/
structure Protocol (σ : Signature) (St : Type) where
  /-- One allowed effect with its reply. -/
  Moves : St → (op : σ.Op) → σ.Reply op → St → Prop
  /-- A reply the environment can give. -/
  Offers : St → (op : σ.Op) → σ.Reply op → Prop

namespace Program

/-- The tree only asks for effects the protocol allows, whatever the offered
replies, and ends in a control state that satisfies `Q` with its outcome. -/
def Follows (A : Protocol σ St) : Program σ ε α → St → (St → Except ε α → Prop) → Prop
  | .pure a, s, Q => Q s (.ok a)
  | .raise e, s, Q => Q s (.error e)
  | .call op k, s, Q => ∀ r, A.Offers s op r → ∃ s', A.Moves s op r s' ∧ (k r).Follows A s' Q

variable {A : Protocol σ St}

@[simp] theorem follows_pure {s : St} {Q : St → Except ε α → Prop} (a : α) :
    (Program.pure a : Program σ ε α).Follows A s Q ↔ Q s (.ok a) := Iff.rfl

@[simp] theorem follows_raise {s : St} {Q : St → Except ε α → Prop} (e : ε) :
    (Program.raise e : Program σ ε α).Follows A s Q ↔ Q s (.error e) := Iff.rfl

/-- A weaker postcondition follows. -/
theorem Follows.mono {p : Program σ ε α} {s : St} {Q R : St → Except ε α → Prop}
    (h : p.Follows A s Q) (hqr : ∀ s o, Q s o → R s o) : p.Follows A s R := by
  induction p generalizing s with
  | pure a => exact hqr _ _ h
  | raise e => exact hqr _ _ h
  | call op k ih =>
    intro r ho
    obtain ⟨s',hm,hk⟩ := h r ho
    exact ⟨s',hm,ih r hk⟩

/-- A sequence follows the protocol when its first part ends where every
continuation can start. -/
theorem Follows.bind {p : Program σ ε α} {f : α → Program σ ε β} {s : St}
    {Q : St → Except ε α → Prop} {R : St → Except ε β → Prop} (hp : p.Follows A s Q)
    (hok : ∀ s a, Q s (.ok a) → (f a).Follows A s R)
    (herror : ∀ s e, Q s (.error e) → R s (.error e)) : (p.bind f).Follows A s R := by
  induction p generalizing s with
  | pure a => exact hok _ _ hp
  | raise e => exact herror _ _ hp
  | call op k ih =>
    intro r ho
    obtain ⟨s',hm,hk⟩ := hp r ho
    exact ⟨s',hm,ih r hk⟩

/-- A handler takes over in the state where the failure was raised. -/
theorem Follows.handle {p : Program σ ε α} {h : ε → Program σ ε α} {s : St}
    {Q R : St → Except ε α → Prop} (hp : p.Follows A s Q)
    (hok : ∀ s a, Q s (.ok a) → R s (.ok a))
    (herror : ∀ s e, Q s (.error e) → (h e).Follows A s R) : (p.handle h).Follows A s R := by
  induction p generalizing s with
  | pure a => exact hok _ _ hp
  | raise e => exact herror _ _ hp
  | call op k ih =>
    intro r ho
    obtain ⟨s',hm,hk⟩ := hp r ho
    exact ⟨s',hm,ih r hk⟩

/-- A tree whose effects all leave the control state alone ends where it began. -/
theorem Follows.of_within {P : σ.Op → Prop} {p : Program σ ε α} {s : St}
    (hp : p.Within P) (hstay : ∀ op r, P op → A.Moves s op r s) :
    p.Follows A s fun s' _ => s'=s := by
  induction p with
  | pure a => exact rfl
  | raise e => exact rfl
  | call op k ih => exact fun r _ => ⟨s,hstay op r hp.1,ih r (hp.2 r)⟩

/-- A tree that stays where it is, followed by the rest. -/
theorem Follows.bind_of_within {P : σ.Op → Prop} {p : Program σ ε α}
    {f : α → Program σ ε β} {s : St} {R : St → Except ε β → Prop} (hp : p.Within P)
    (hstay : ∀ op r, P op → A.Moves s op r s) (hok : ∀ a, (f a).Follows A s R)
    (herror : ∀ e, R s (.error e)) : (p.bind f).Follows A s R := by
  refine (Follows.of_within hp hstay).bind ?_ ?_
  · rintro s' a rfl
    exact hok a
  · rintro s' e rfl
    exact herror e

/-- A tree that follows a protocol of its handler keeps the invariant of the
handler's state and its control state. -/
theorem Follows.run {handler : (op : σ.Op) → S → σ.Reply op × S} {Inv : S → St → Prop}
    {p : Program σ ε α} {s : St} {Q : St → Except ε α → Prop} (hp : p.Follows A s Q)
    (hoffer : ∀ w t op, Inv w t → A.Offers t op (handler op w).1)
    (hstep : ∀ w t op t', Inv w t → A.Moves t op (handler op w).1 t' → Inv (handler op w).2 t')
    {w : S} (hw : Inv w s) :
    ∃ t, Inv (p.run handler w).2 t ∧ Q t (p.run handler w).1 := by
  induction p generalizing s w with
  | pure a => exact ⟨s,hw,hp⟩
  | raise e => exact ⟨s,hw,hp⟩
  | call op k ih =>
    obtain ⟨s',hm,hk⟩ := hp (handler op w).1 (hoffer w s op hw)
    exact ih _ hk (hstep w s op s' hw hm)

end Program

end BackendPlatform.ProgramTrees
