import BackendPlatform.AuthFootprints

/-!
# Concurrent requests to the authentication service

A run starts from committed tables without locks. Requests start at any
time, interleave effect by effect, and may die between two effects. A
process returns its request together with the response, so that outcomes of
a run name what was asked.
-/

set_option autoImplicit false

namespace BackendPlatform.ConcurrentRequests

open ProgramTrees InterleavedRuns TransactionalTables RowLocking
open AuthRecords AuthEffects AuthFlows

/-- A response with the request it answers. -/
structure Served where
  /-- The request. -/
  client : ClientRequest
  /-- The response. -/
  response : Response

/-- The program of one request. -/
def served (d : Deployment) (client : ClientRequest) : Action Served := do
  return ⟨client,←respond d client⟩

/-- A system of concurrent requests. -/
abbrev AuthSystem := System authSignature Failure Served Shared

/-- One scheduling decision. -/
abbrev AuthMove := Move authSignature Failure Served

/-- Committed rows without locks. -/
def idleTables (db : Database authSchema) : Tables authSchema :=
  ⟨fun t => (db t).map fun r => ⟨some r,none,none⟩,fun _ => none⟩

/-- A system before its first request. -/
def idleSystem (env : Environment) (db : Database authSchema) : AuthSystem :=
  ⟨⟨env,idleTables db⟩,[],[]⟩

/-- Only requests to the service are started. -/
def Starts (d : Deployment) (_ : AuthSystem) : AuthMove → Prop
  | .spawn program => ∃ client, program=served d client
  | _ => True

/-- A system reached from idle tables by concurrent requests. -/
abbrev Reached (d : Deployment) (env : Environment) (db : Database authSchema)
    (sys : AuthSystem) : Prop :=
  authMachine.Reaches (Starts d) (idleSystem env db) sys

section Schedules

/-- One line of a written schedule. -/
inductive Directive where
  /-- A request arrives. -/
  | start (client : ClientRequest)
  /-- A process performs a number of effects. -/
  | steps (pid count : ℕ)
  /-- A process performs one effect under a choice. -/
  | choose (pid choice : ℕ)
  /-- A process ends and releases its resources. -/
  | finish (pid : ℕ)

/-- The moves of a line. -/
def Directive.moves (d : Deployment) : Directive → List AuthMove
  | .start client => [.spawn (served d client)]
  | .steps pid count => List.replicate count (.effect pid 0)
  | .choose pid choice => [.effect pid choice]
  | .finish pid => [.finish pid]

/-- Perform a written schedule from idle tables. -/
def follow (d : Deployment) (check : AuthSystem → AuthMove → Bool) (env : Environment)
    (db : Database authSchema) (lines : List Directive) : Option AuthSystem :=
  authMachine.runSchedule check (lines.flatMap (·.moves d)) (idleSystem env db)

theorem reaches_of_follow {d : Deployment} {check : AuthSystem → AuthMove → Bool}
    {D : AuthSystem → AuthMove → Prop} {env : Environment} {db : Database authSchema}
    {lines : List Directive} {sys : AuthSystem} (hd : ∀ s mv, check s mv=true → D s mv)
    (h : follow d check env db lines=some sys) :
    authMachine.Reaches (fun s mv => Starts d s mv ∧ D s mv) (idleSystem env db) sys := by
  refine Machine.Reaches.of_schedule .refl ?_ h
  intro mv hmv s hcheck
  refine ⟨?_,hd s mv hcheck⟩
  obtain ⟨line,_,hline⟩ := List.mem_flatMap.mp hmv
  cases line with
  | start client =>
    obtain rfl := List.mem_singleton.mp hline
    exact ⟨client,rfl⟩
  | steps pid count =>
    obtain rfl := List.eq_of_mem_replicate hline
    trivial
  | choose pid choice =>
    obtain rfl := List.mem_singleton.mp hline
    trivial
  | finish pid =>
    obtain rfl := List.mem_singleton.mp hline
    trivial

theorem reached_of_follow {d : Deployment} {env : Environment} {db : Database authSchema}
    {lines : List Directive} {sys : AuthSystem}
    (h : follow d (fun _ _ => true) env db lines=some sys) : Reached d env db sys :=
  (reaches_of_follow (fun _ _ _ => trivial) h).mono fun _ _ hc => hc.1

end Schedules

theorem mergedAt_idleTables (S : Set ℕ) (db : Database authSchema) (t : Table) (i : ℕ) :
    mergedAt S ((idleTables db).cells t) i=(db t)[i]? := by
  simp only [mergedAt,idleTables,List.getElem?_map]
  cases (db t)[i]? with
  | none => rfl
  | some r => rfl

section Fire

variable {s s' : Shared} {pid choice : ℕ}

/-- An effect outside the database leaves the tables alone. -/
theorem fire_external {op : External} {reply : Option op.Reply}
    (h : authMachine.fire pid (.external op) choice s=some (reply,s')) :
    reply=some (s.env.perform op choice).1 ∧
      s'={s with env := (s.env.perform op choice).2} := by
  simp only [authMachine,Shared.fire,Option.some.injEq,Prod.mk.injEq] at h
  exact ⟨h.1.symm,h.2.symm⟩

/-- A statement leaves everything but the tables alone. -/
theorem fire_sql {stmt : Statement authSchema} {reply : Option stmt.Reply}
    (h : authMachine.fire pid (.sql stmt) choice s=some (reply,s')) :
    s.tables.fire pid stmt=some (reply,s'.tables) ∧ s'.env=s.env := by
  obtain ⟨⟨reply',tables⟩,hf,he⟩ := Option.map_eq_some_iff.mp h
  cases he
  exact ⟨hf,rfl⟩

/-- Internal progress changes no cell and nothing outside the database. -/
theorem fire_progress {op : Effect} (h : authMachine.fire pid op choice s=some (none,s')) :
    s'.tables.cells=s.tables.cells ∧ s'.env=s.env := by
  cases op with
  | external op => cases (fire_external h).1
  | sql stmt =>
    obtain ⟨hf,he⟩ := fire_sql h
    exact ⟨Tables.fire_progress hf,he⟩

end Fire

/-- The cells of a table stay as they are under statements on other tables
and under plain reads. -/
theorem fire_cells_of_ne {s s' : Tables authSchema} {pid : ℕ} {stmt : Statement authSchema}
    {reply : stmt.Reply} {t : Table} (h : s.fire pid stmt=some (some reply,s'))
    (hstmt : ∀ access∈AuthFootprints.accesses (.sql stmt),
      access∉[AuthFootprints.Access.lock t,.insert t,.update t,.delete t,.commit,.rollback]) :
    s'.cells t=s.cells t := by
  cases stmt with
  | select u q =>
    cases h
    rfl
  | selectForUpdate u q =>
    obtain ⟨rows,_,_,hs⟩ := Tables.locking_answer h
    have hne : t≠u := fun he => hstmt (.lock u) (by simp [AuthFootprints.accesses]) (by simp [he])
    exact (congrFun hs t).trans (Tables.write_cells_of_ne _ _ hne)
  | insert u row =>
    obtain ⟨_,rfl⟩|⟨_,_,_,rfl⟩ := Tables.fire_insert_answer h
    · rfl
    · have hne : t≠u := fun he =>
        hstmt (.insert u) (by simp [AuthFootprints.accesses]) (by simp [he])
      exact Tables.write_cells_of_ne _ _ hne
  | update u q f =>
    obtain ⟨rows,_,_,hs⟩ := Tables.fire_update_answer h
    have hne : t≠u := fun he =>
      hstmt (.update u) (by simp [AuthFootprints.accesses]) (by simp [he])
    exact (congrFun hs t).trans (Tables.write_cells_of_ne _ _ hne)
  | delete u q =>
    obtain ⟨rows,_,_,hs⟩ := Tables.fire_delete_answer h
    have hne : t≠u := fun he =>
      hstmt (.delete u) (by simp [AuthFootprints.accesses]) (by simp [he])
    exact (congrFun hs t).trans (Tables.write_cells_of_ne _ _ hne)
  | commit => exact absurd (hstmt .commit (by simp [AuthFootprints.accesses])) (by simp)
  | rollback => exact absurd (hstmt .rollback (by simp [AuthFootprints.accesses])) (by simp)

end BackendPlatform.ConcurrentRequests
