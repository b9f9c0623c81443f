import BackendPlatform.ProgramTrees

/-!
# Runs that can be cut

A program that runs alone can end before any of its effects: the connection is
lost, before the effect took place or after it. The states a program reaches
are those of its complete runs and of the cut ones.
-/

set_option autoImplicit false

namespace BackendPlatform.ProgramTrees.Program

variable {σ : Signature} {ε α β S : Type} {handler : (op : σ.Op) → S → σ.Reply op×S}

/-- A run ends in a state, with an outcome if it was not cut. -/
inductive Reaches (handler : (op : σ.Op) → S → σ.Reply op×S) :
    Program σ ε α → S → Option (Except ε α) → S → Prop where
  /-- The run is cut here. -/
  | cut (p : Program σ ε α) (s : S) : Reaches handler p s none s
  /-- The program returns. -/
  | pure (a : α) (s : S) : Reaches handler (.pure a) s (some (.ok a)) s
  /-- The program raises. -/
  | raise (e : ε) (s : S) : Reaches handler (.raise e) s (some (.error e)) s
  /-- An effect takes place. -/
  | call {op : σ.Op} {k : σ.Reply op → Program σ ε α} {s s' : S} {o : Option (Except ε α)}
      (h : Reaches handler (k (handler op s).1) (handler op s).2 o s') :
      Reaches handler (.call op k) s o s'

/-- A returned value changes nothing more. -/
theorem reaches_pure {a : α} {s s' : S} {o : Option (Except ε α)}
    (h : Reaches handler (.pure a : Program σ ε α) s o s') :
    s'=s ∧ (o=none ∨ o=some (.ok a)) := by
  cases h with
  | cut => exact ⟨rfl,.inl rfl⟩
  | pure => exact ⟨rfl,.inr rfl⟩

/-- An exception changes nothing more. -/
theorem reaches_raise {e : ε} {s s' : S} {o : Option (Except ε α)}
    (h : Reaches handler (.raise e : Program σ ε α) s o s') :
    s'=s ∧ (o=none ∨ o=some (.error e)) := by
  cases h with
  | cut => exact ⟨rfl,.inl rfl⟩
  | raise => exact ⟨rfl,.inr rfl⟩

/-- A run is cut before its first effect, or the effect takes place. -/
theorem reaches_call {op : σ.Op} {k : σ.Reply op → Program σ ε α} {s s' : S}
    {o : Option (Except ε α)} (h : Reaches handler (.call op k) s o s') :
    o=none ∧ s'=s ∨ Reaches handler (k (handler op s).1) (handler op s).2 o s' := by
  cases h with
  | cut => exact .inl ⟨rfl,rfl⟩
  | call h => exact .inr h

/-- A sequence ends in its first part or continues from where that returned. -/
theorem reaches_bind {p : Program σ ε α} {f : α → Program σ ε β} {s s' : S}
    {o : Option (Except ε β)} (h : Reaches handler (p.bind f) s o s') :
    (∃ o',Reaches handler p s o' s' ∧ ∀ b,o≠some (.ok b)) ∨
      ∃ a s₁,Reaches handler p s (some (.ok a)) s₁ ∧ Reaches handler (f a) s₁ o s' := by
  induction p generalizing s with
  | pure a => exact .inr ⟨a,s,.pure a s,h⟩
  | raise e =>
    obtain ⟨rfl,ho⟩ := reaches_raise h
    refine .inl ⟨none,.cut _ _,fun b hb => ?_⟩
    rcases ho with ho|ho
    · rw [ho] at hb
      cases hb
    · rw [ho] at hb
      cases hb
  | call op k ih =>
    rcases reaches_call h with ⟨rfl,rfl⟩|hrest
    · exact .inl ⟨none,.cut _ _,fun _ => nofun⟩
    · rcases ih _ hrest with ⟨o',hp,ho⟩|⟨a,s₁,hp,hf⟩
      · exact .inl ⟨o',.call hp,ho⟩
      · exact .inr ⟨a,s₁,.call hp,hf⟩

/-- A cut run inside a footprint keeps every state relation its effects keep. -/
theorem reaches_within {P : σ.Op → Prop} {R : S → S → Prop} (hrefl : ∀ s,R s s)
    (htrans : ∀ a b c,R a b → R b c → R a c) (hstep : ∀ op s,P op → R s (handler op s).2)
    {p : Program σ ε α} (hp : p.Within P) {s s' : S} {o : Option (Except ε α)}
    (h : Reaches handler p s o s') : R s s' := by
  induction h with
  | cut p s => exact hrefl s
  | pure a s => exact hrefl s
  | raise e s => exact hrefl s
  | call _ ih => exact htrans _ _ _ (hstep _ _ hp.1) (ih (hp.2 _))

/-- A run that is not cut is the run of the program. -/
theorem reaches_run {p : Program σ ε α} {s s' : S} {o : Option (Except ε α)}
    {outcome : Except ε α} (h : Reaches handler p s o s') (ho : o=some outcome) :
    p.run handler s=(outcome,s') := by
  induction h with
  | cut => cases ho
  | pure => cases ho; rfl
  | raise => cases ho; rfl
  | call _ ih => exact ih ho

/-- The run of a program is one of its runs. -/
theorem reaches_of_run (p : Program σ ε α) (s : S) :
    Reaches handler p s (some (p.run handler s).1) (p.run handler s).2 := by
  induction p generalizing s with
  | pure a => exact .pure a s
  | raise e => exact .raise e s
  | call op k ih => exact .call (ih _ _)

/-- The state after the first effects of a program. -/
def stop (handler : (op : σ.Op) → S → σ.Reply op×S) : Nat → Program σ ε α → S → S
  | n+1,.call op k,s => stop handler n (k (handler op s).1) (handler op s).2
  | _,_,s => s

/-- A run can be cut after any number of effects. -/
theorem reaches_stop (n : Nat) (p : Program σ ε α) (s : S) :
    Reaches handler p s none (stop handler n p s) := by
  induction n generalizing p s with
  | zero => exact .cut p s
  | succ n ih =>
    cases p with
    | pure a => exact .cut _ s
    | raise e => exact .cut _ s
    | call op k => exact .call (ih _ _)

/-- The program never returns. -/
def NeverReturns (p : Program σ ε α) : Prop :=
  match p with
  | .pure _ => False
  | .raise _ => True
  | .call _ k => ∀ r,(k r).NeverReturns

theorem neverReturns_bind {p : Program σ ε α} {f : α → Program σ ε β}
    (hf : ∀ a,(f a).NeverReturns) : (p.bind f).NeverReturns := by
  induction p with
  | pure a => exact hf a
  | raise e => trivial
  | call op k ih => exact fun r => ih r

theorem NeverReturns.ne {p : Program σ ε α} (hp : p.NeverReturns) {s s' : S}
    {o : Option (Except ε α)} (h : Reaches handler p s o s') (a : α) : o≠some (.ok a) := by
  induction h with
  | cut => nofun
  | pure => exact hp.elim
  | raise => nofun
  | call _ ih => exact ih (hp _)

end BackendPlatform.ProgramTrees.Program
