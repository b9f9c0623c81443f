import BackendPlatform.AuthFootprints

/-!
# Requests one after another

A server state is the environment and the committed database. A request runs
on it to its end with a choice for every effect, and its session is closed
without a further commit. Time passes between requests and an administrator
may switch accounts on and off. Runs keep the trace of every input with the
state before it, so that statements about runs speak about the past.
-/

set_option autoImplicit false

namespace BackendPlatform.ServerRuns

open ProgramTrees TransactionalTables ExpiringStore
open AuthRecords AuthEffects AuthRepositories AuthServices AuthFlows AuthFootprints

section Runs

/-- The environment and the committed database. -/
structure ServerState where
  /-- Everything outside the database. -/
  env : Environment
  /-- The committed database. -/
  db : Database authSchema

/-- What happens to the server. -/
inductive Input where
  /-- A request arrives; the choices answer its effects. -/
  | call (client : ClientRequest) (choices : List ℕ)
  /-- An administrator switches an account on or off. -/
  | setActive (userId : UUID) (active : Bool)
  /-- Time passes. -/
  | elapse (delay : ℕ)

namespace ServerState

/-- The world a request finds. -/
def world (s : ServerState) (choices : List ℕ) : World := ⟨s.env,⟨s.db,s.db⟩,choices⟩

/-- The run of one request. -/
def serve (d : Deployment) (client : ClientRequest) (choices : List ℕ) (s : ServerState) :
    Except Failure Response×World := (respond d client).run World.perform (s.world choices)

/-- The database after an administrator has switched an account. -/
def switched (db : Database authSchema) (userId : UUID) (active : Bool) : Database authSchema :=
  Function.update db .users ((db .users).map fun (u : User) =>
    if u.id=userId then {u with isActive := active} else u)

/-- The state after one input. -/
def next (d : Deployment) : Input → ServerState → ServerState
  | .call client choices,s =>
    ⟨(s.serve d client choices).2.env,(s.serve d client choices).2.data.committed⟩
  | .setActive userId active,s => {s with db := switched s.db userId active}
  | .elapse delay,s => {s with env := s.env.tick delay}

end ServerState

/-- Inputs with the states before them, latest first. -/
abbrev Trace := List (ServerState×Input)

/-- Runs whose inputs all satisfy a condition on the past and on the state
before them. -/
inductive Runs (d : Deployment) (C : Trace → ServerState → Input → Prop) (start : ServerState) :
    Trace → ServerState → Prop
  /-- Nothing has happened. -/
  | refl : Runs d C start [] start
  /-- One more input. -/
  | step {trace : Trace} {s : ServerState} (input : Input) : Runs d C start trace s →
      C trace s input → Runs d C start ((s,input)::trace) (s.next d input)

/-- An invariant of traces and states that every allowed input keeps holds in
every run. -/
theorem Runs.invariant {d : Deployment} {C : Trace → ServerState → Input → Prop}
    {start s : ServerState} {trace : Trace} (Inv : Trace → ServerState → Prop)
    (hstart : Inv [] start)
    (hstep : ∀ trace s input, Inv trace s → C trace s input →
      Inv ((s,input)::trace) (s.next d input))
    (h : Runs d C start trace s) : Inv trace s := by
  induction h with
  | refl => exact hstart
  | step input _ hc ih => exact hstep _ _ input ih hc

/-- Perform a list of inputs, checking the state before each of them. -/
def performAll (d : Deployment) (check : Trace → ServerState → Input → Bool) :
    List Input → Trace → ServerState → Option (Trace×ServerState)
  | [],trace,s => some (trace,s)
  | input::rest,trace,s =>
    if check trace s input then performAll d check rest ((s,input)::trace) (s.next d input)
    else none

theorem runs_of_performAll {d : Deployment} {check : Trace → ServerState → Input → Bool}
    {C : Trace → ServerState → Input → Prop} {start : ServerState} {inputs : List Input}
    {trace trace' : Trace} {s s' : ServerState}
    (hc : ∀ t r input, check t r input=true → C t r input) (hs : Runs d C start trace s)
    (h : performAll d check inputs trace s=some (trace',s')) : Runs d C start trace' s' := by
  induction inputs generalizing trace s with
  | nil =>
    cases h
    exact hs
  | cons input rest ih =>
    simp only [performAll] at h
    split at h
    · rename_i hcheck
      exact ih (.step input hs (hc _ _ _ hcheck)) h
    · cases h

/-- A server on which nothing has happened yet. -/
def sampleState (users : List User) (secrets : List TwoFactorSecret) (codes : List BackupCode) :
    ServerState := ⟨sampleEnvironment,sampleDatabase users secrets codes⟩

end Runs

section Frames

/-- The action run alone ensures the postcondition. -/
abbrev Yields {α : Type} (p : Action α) (w : World) (Q : Except Failure α → World → Prop) : Prop :=
  p.Ensures World.perform w Q

variable {α β : Type} {p : Action α} {w : World} {fp : List Access}

/-- A table that a footprint does not change. -/
abbrev Spares (t : Table) (a : Access) : Prop :=
  a∉[Access.insert t,.update t,.delete t,.rollback]

/-- The working copy of a table stays as it is under a footprint that spares it. -/
theorem yields_work (t : Table) (hp : Inside p fp) (ht : ∀ a∈fp,Spares t a) (w : World) :
    Yields p w fun _ w' => w'.data.work t=w.data.work t := by
  refine Program.ensures_within (fun w w' => w'.data.work t=w.data.work t)
    (fun _ => rfl)
    (by intro _ _ _ h h'; exact h'.trans h) ?_ hp w
  intro op w hop
  cases op with
  | external op => rfl
  | sql stmt =>
    refine Transaction.perform_work_of_not_touches w.data ?_
    intro htouch
    cases stmt with
    | insert u row =>
      exact ht (.insert u) (hop _ (by simp [accesses])) (by simp [show t=u from htouch])
    | update u q f =>
      exact ht (.update u) (hop _ (by simp [accesses])) (by simp [show t=u from htouch])
    | delete u q =>
      exact ht (.delete u) (hop _ (by simp [accesses])) (by simp [show t=u from htouch])
    | rollback => exact ht .rollback (hop _ (by simp [accesses])) (by simp)
    | _ => exact htouch

/-- Nothing is committed under a footprint without commits. -/
theorem yields_committed (hp : Inside p fp) (hc : .commit∉fp) (w : World) :
    Yields p w fun _ w' => w'.data.committed=w.data.committed := by
  refine Program.ensures_within (fun w w' => w'.data.committed=w.data.committed)
    (fun _ => rfl)
    (by intro _ _ _ h h'; exact h'.trans h) ?_ hp w
  intro op w hop
  cases op with
  | external op => rfl
  | sql stmt =>
    refine Transaction.perform_committed w.data ?_
    rintro rfl
    exact hc (hop _ (by simp [accesses]))

/-- An access that changes no table. -/
abbrev Reads : Access → Prop
  | .insert _ | .update _ | .delete _ | .commit | .rollback => False
  | _ => True

instance (a : Access) : Decidable (Reads a) := by
  cases a <;> unfold Reads <;> infer_instance

/-- The database stays as it is under a footprint that only reads it. -/
theorem yields_data (hp : Inside p fp) (hr : ∀ a∈fp,Reads a) (w : World) :
    Yields p w fun _ w' => w'.data=w.data := by
  refine Program.ensures_within (fun w w' => w'.data=w.data)
    (fun _ => rfl)
    (by intro _ _ _ h h'; exact h'.trans h) ?_ hp w
  intro op w hop
  cases op with
  | external op => rfl
  | sql stmt =>
    have hread : ∀ a∈accesses (.sql stmt),Reads a := fun a ha => hr a (hop a ha)
    cases stmt with
    | select => rfl
    | selectForUpdate => rfl
    | insert => exact (hread _ (List.mem_singleton_self _)).elim
    | update => exact (hread _ (List.mem_singleton_self _)).elim
    | delete => exact (hread _ (List.mem_singleton_self _)).elim
    | commit => exact (hread _ (List.mem_singleton_self _)).elim
    | rollback => exact (hread _ (List.mem_singleton_self _)).elim

/-- Nothing is said about the first part. -/
theorem yields_skip {f : α → Action β} {Q : Except Failure β → World → Prop}
    (hok : ∀ a w', Yields (f a) w' Q) (herror : ∀ e w', Q (.error e) w') :
    Yields (p.bind f) w Q :=
  (show Yields p w fun _ _ => True from trivial).bind (fun a w' _ => hok a w')
    fun e w' _ => herror e w'

end Frames

section Statements

/-- The world after the working copy of a table has been replaced. -/
def World.rewrite (w : World) (t : Table) (rows : List (Row t)) : World :=
  {w with data := w.data.write t rows}

theorem run_insertRow {t : Table} {row : Row t} {w : World} (hvalid : valid t row=true)
    (hconflict : (w.data.work t).any (conflict t row)=false) :
    (insertRow t row).run World.perform w=(.ok (),World.rewrite w t (w.data.work t++[row])) := by
  have hperform : Transaction.perform (.insert t row) w.data=
      (.inserted,w.data.write t (w.data.work t++[row])) := by
    simp only [Transaction.perform,Transaction.insertRow]
    rw [if_pos hvalid,if_neg (by simp [hconflict])]
  simp only [insertRow,sql,Program.monad_bind,Program.call_bind,Program.pure_bind,Program.run,
    World.perform,hperform]
  rfl

/-- A row that does not fit its columns is rejected. -/
theorem run_insertRow_invalid {t : Table} {row : Row t} {w : World} (hvalid : valid t row=false) :
    (insertRow t row).run World.perform w=(.error .dataError,w) := by
  have hperform : Transaction.perform (.insert t row) w.data=(.invalidValue,w.data) := by
    simp only [Transaction.perform,Transaction.insertRow]
    rw [if_neg (by simp [hvalid])]
  simp only [insertRow,sql,Program.monad_bind,Program.call_bind,Program.pure_bind,Program.run,
    World.perform,hperform]
  rfl

theorem run_flushUpdate {t : Table} {isRow : Row t → Bool} {f : Row t → Row t} {w : World}
    (hone : ((w.data.work t).filter isRow).length=1) :
    (flushUpdate t isRow f).run World.perform w=(.ok (),World.rewrite w t
      ((w.data.work t).map fun r => if isRow r then f r else r)) := by
  simp only [flushUpdate,updateRows,sql,Program.monad_bind,Program.call_bind,Program.pure_bind,
    Program.run,World.perform,Transaction.perform,hone,if_true]
  rfl

end Statements

section Loads

/-- Loading a user reads and changes nothing. -/
theorem load_run (q : User → Bool) (w : World) :
    (UserRepository.load q).run World.perform w=
      match (w.data.work .users).filter q with
      | [] => (.ok none,w)
      | [row] => (.ok (some ⟨row,
          ((w.data.work .twoFactorSecrets).filter fun s => s.userId==row.id).head?,
          (w.data.work .backupCodes).filter fun c => c.userId==row.id⟩),w)
      | _ => (.error .multipleResultsFound,w) := by
  show ((scalarOneOrNone ((w.data.work .users).filter q)).bind _).run World.perform w=_
  generalize (w.data.work .users).filter q=rows
  match rows with
  | [] => rfl
  | [row] => rfl
  | _::_::_ => rfl

/-- A loaded user is a stored one. -/
theorem yields_load (q : User → Bool) (w : World) :
    Yields (UserRepository.load q) w fun o w' => w'=w ∧
      ∀ user, o=.ok (some user) → user.row∈w.data.work .users ∧ q user.row=true := by
  unfold Yields Program.Ensures
  rw [load_run]
  split
  · exact ⟨rfl,fun _ => nofun⟩
  · rename_i row hrow
    refine ⟨rfl,fun user hu => ?_⟩
    cases hu
    exact List.mem_filter.mp (hrow ▸ List.mem_singleton_self row)
  · exact ⟨rfl,fun _ => nofun⟩

end Loads

end BackendPlatform.ServerRuns
