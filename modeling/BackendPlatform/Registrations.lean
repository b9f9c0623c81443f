import BackendPlatform.ConcurrentRequests
import BackendPlatform.ServerRuns

/-!
# One account for each address

Concurrent registrations of one address. A call looks the address up, hashes
the password and inserts the account. As long as no call inserts while another
one has the address, exactly one of them registers it and the others are told
that it exists.
-/

set_option autoImplicit false

namespace BackendPlatform.Registrations

open ProgramTrees InterleavedRuns TransactionalTables RowLocking
open AuthRecords AuthEffects AuthRepositories AuthServices AuthFlows
open ConcurrentRequests

section Protocol

/-- How far a call is. -/
inductive Phase where
  /-- The address has not been looked up. -/
  | start
  /-- Nobody had the address. -/
  | vacant
  /-- Somebody has the address. -/
  | taken
  /-- The account is inserted. -/
  | inserted (user : User)
  /-- Its audit row is inserted. -/
  | audited (user : User)
  /-- Both are committed. -/
  | registered (user : User)
  /-- The call ended before its commit. -/
  | lost
  /-- The database refused a row, or two accounts have the address. -/
  | refused

/-- The audit row of a registration. -/
def Records (event : AuditEvent) (user : User) : Prop :=
  event.eventType="auth.register.success" ∧ event.outcome="success" ∧
    event.actorUserId=some user.id ∧ event.targetUserId=some user.id

/-- The account of a call that has inserted one. -/
def Phase.owned : Phase → Option User
  | .inserted user => some user
  | .audited user => some user
  | .registered user => some user
  | _ => none

variable (address : String)

/-- The phase after an insertion. -/
def after (next : Phase) : Insertion → Phase
  | .inserted => next
  | _ => .refused

/-- The phase after the look-up. -/
def found : List User → Phase
  | [] => .vacant
  | [_] => .taken
  | _ => .refused

/-- The effects of a registration. -/
def moves : Phase → (op : Effect) → op.Reply → Phase → Prop
  | phase,.external _,_,next => next=phase
  | .start,.sql (.select .users q),reply,next =>
      (∀ u,q u=(u.email==address)) ∧ next=found reply
  | .taken,.sql (.select _ _),_,next => next=.taken
  | .vacant,.sql (.insert .users row),reply,next =>
      row.email=address ∧ valid .users row=true ∧ next=after (.inserted row) reply
  | .inserted user,.sql (.insert .auditEvents event),reply,next =>
      Records event user ∧ valid .auditEvents event=true ∧ next=after (.audited user) reply
  | .audited user,.sql .commit,_,next => next=.registered user
  | _,_,_,_ => False

/-- The protocol of a registration; the database may answer anything. -/
def protocol : Protocol authSignature Phase := ⟨moves address,fun _ _ _ => True⟩

/-- A call that ends before its commit has lost its rows. -/
def ended : Phase → Phase
  | .inserted _ => .lost
  | .audited _ => .lost
  | phase => phase

/-- How a call may end: it has registered the address or the address is taken. -/
def Justified : Phase → Except Failure Served → Prop
  | .registered _,.ok _ => True
  | .taken,.error failure => failure=.userAlreadyExists
  | .refused,_ => True
  | _,_ => False

end Protocol

section Program

variable {d : Deployment} {address email password : String} {ip ua : Option String}

/-- What a call needs: a password that is accepted, and values that fit their
columns. -/
structure Registers (d : Deployment) (address : String) (client : ClientRequest) : Prop where
  /-- A registration of the address. -/
  request : ∃ email password,client.request=.register email password ∧ d.lower email=address ∧
    PasswordService.validatePasswordPolicy d password=.pure ()
  /-- The address fits its column. -/
  address : address.length≤320
  /-- The client address fits its column. -/
  ipAddress : fits 64 client.ipAddress=true
  /-- The client program fits its column. -/
  userAgent : fits 512 client.userAgent=true

/-- An insertion is answered or refused. -/
theorem follows_insertRow {t : Table} {row : Row t} {phase next : Phase} {f : Unit → Action Served}
    (hmoves : ∀ reply : Insertion,moves address phase (.sql (.insert t row)) reply (after next reply))
    (hf : (f ()).Follows (protocol address) next Justified) :
    ((insertRow t row).bind f).Follows (protocol address) phase Justified := by
  intro reply _
  refine ⟨_,hmoves reply,?_⟩
  cases reply with
  | inserted => exact hf
  | duplicateKey => trivial
  | invalidValue => trivial

/-- A registration after nobody was found. -/
theorem follows_vacant {client : ClientRequest} (h : Registers d address client)
    (hemail : d.lower email=address)
    (hpolicy : PasswordService.validatePasswordPolicy d password=.pure ()) :
    ((PasswordService.hashPassword d password).bind fun passwordHash =>
      (UserRepository.create d email passwordHash).bind fun user =>
      (AuditService.logEvent d "auth.register.success" "success" (some user.id)
        (some user.id) client.ipAddress
        client.userAgent [("email",.str user.email)]).bind fun _ =>
      commit.bind fun _ => (.pure ⟨client,.done⟩ : Action Served)).Follows (protocol address)
        .vacant Justified := by
  have hhash : PasswordService.hashPassword d password=
      (draw.bind fun n => .pure ⟨n,password⟩ : Action PasswordHash) := by
    simp only [PasswordService.hashPassword,hpolicy,Program.monad_bind,Program.pure_bind]
    rfl
  rw [hhash]
  intro salt _
  refine ⟨.vacant,rfl,?_⟩
  intro id _
  refine ⟨.vacant,rfl,?_⟩
  let user : User := ⟨⟨id⟩,d.lower email,⟨salt,password⟩,true,false,false,false⟩
  let event : AuditEvent := ⟨"auth.register.success","success",some ⟨id⟩,some ⟨id⟩,
    client.ipAddress,client.userAgent,AuditService.sanitizePayload d [("email",.str (d.lower email))]⟩
  have hvalid : valid .users user=true := by
    refine decide_eq_true ?_
    rw [show user.email=address from hemail]
    exact h.address
  have hevent : valid .auditEvents event=true := by
    show (fits 64 client.ipAddress && fits 512 client.userAgent)=true
    rw [h.ipAddress,h.userAgent]
    rfl
  have hinserted : ∀ reply : Insertion,moves address .vacant (.sql (.insert .users user)) reply
      (after (.inserted user) reply) := fun _ => ⟨hemail,hvalid,rfl⟩
  have haudited : ∀ reply : Insertion,moves address (.inserted user)
      (.sql (.insert .auditEvents event)) reply (after (.audited user) reply) :=
    fun _ => ⟨⟨rfl,rfl,rfl,rfl⟩,hevent,rfl⟩
  show (((insertRow .users user).bind fun _ => (.pure user : Action User)).bind fun user =>
    (AuditService.logEvent d "auth.register.success" "success" (some user.id)
      (some user.id) client.ipAddress
      client.userAgent [("email",.str user.email)]).bind fun _ =>
    commit.bind fun _ => (.pure ⟨client,.done⟩ : Action Served)).Follows (protocol address)
      .vacant Justified
  rw [Program.bind_assoc]
  refine follows_insertRow hinserted ?_
  refine follows_insertRow haudited ?_
  intro reply _
  exact ⟨_,rfl,trivial⟩

/-- A registration keeps to the protocol. -/
theorem follows_served {client : ClientRequest} (h : Registers d address client) :
    (served d client).Follows (protocol address) .start Justified := by
  obtain ⟨email,password,hrequest,hemail,hpolicy⟩ := h.request
  have hprogram : served d client=(UserRepository.getByEmail d email).bind fun found =>
      if found.isSome then .raise .userAlreadyExists
      else (PasswordService.hashPassword d password).bind fun passwordHash =>
      (UserRepository.create d email passwordHash).bind fun user =>
      (AuditService.logEvent d "auth.register.success" "success" (some user.id)
        (some user.id) client.ipAddress
        client.userAgent [("email",.str user.email)]).bind fun _ =>
      commit.bind fun _ => (.pure ⟨client,.done⟩ : Action Served) := by
    simp only [served,respond,hrequest,AuthService.register,Program.monad_bind,Program.monad_pure,
      Program.monad_throw,Program.bind_assoc,Program.pure_bind]
    refine congrArg (Program.bind _) (funext fun found => ?_)
    split
    · rfl
    · simp only [Program.bind_assoc]
  rw [hprogram]
  intro rows _
  refine ⟨_,⟨fun u => by rw [hemail],rfl⟩,?_⟩
  match rows with
  | [] => exact follows_vacant h hemail hpolicy
  | [row] => exact fun secrets _ => ⟨.taken,rfl,fun codes _ => ⟨.taken,rfl,rfl⟩⟩
  | _::_::_ => trivial

end Program

section Invariant

/-- The effect writes to the database. -/
def Writes : Effect → Prop
  | .sql (.insert _ _) => True
  | .sql (.update _ _ _) => True
  | .sql (.delete _ _) => True
  | .sql .commit => True
  | _ => False

/-- What calls for one address keep: one of them at most has inserted an
account, and only its rows are locked. -/
structure Registering (address : String) (s : Shared) (history : List (Event authSignature))
    (states : ℕ → Phase) : Prop where
  /-- One call at most has inserted an account. -/
  alone : ∀ i j u v,(states i).owned=some u → (states j).owned=some v → i=j
  /-- A locked account is the one its holder has inserted. -/
  holders : ∀ c∈s.tables.cells .users,∀ i,c.holder=some i → ∃ u : User,c=⟨none,some i,some u⟩ ∧
    (states i=.inserted u ∨ states i=.audited u)
  /-- A locked audit row is the one its holder has inserted. -/
  auditHolders : ∀ c∈s.tables.cells .auditEvents,∀ i,c.holder=some i →
    ∃ (e : AuditEvent) (u : User),c=⟨none,some i,some e⟩ ∧ states i=.audited u ∧ Records e u
  /-- An inserted account is in its table. -/
  stored : ∀ i u,(states i=.inserted u ∨ states i=.audited u) →
    ⟨none,some i,some u⟩∈s.tables.cells .users ∧ u.email=address
  /-- An inserted audit row is in its table. -/
  storedAudit : ∀ i u,states i=.audited u → ∃ e : AuditEvent,Records e u ∧
    ⟨none,some i,some e⟩∈s.tables.cells .auditEvents
  /-- A registered account is committed with its audit row. -/
  registered : ∀ i u,states i=.registered u → u.email=address ∧
    (∃ c∈s.tables.cells .users,c.committed=some u) ∧
    ∃ c∈s.tables.cells .auditEvents,∃ e : AuditEvent,c.committed=some e ∧ Records e u
  /-- A committed account of the address has been registered. -/
  owners : ∀ c∈s.tables.cells .users,∀ u : User,c.committed=some u → u.email=address →
    ∃ i,states i=.registered u
  /-- One account at most has the address. -/
  single : ∀ S n m (a b : User),mergedAt S (s.tables.cells .users) n=some a →
    mergedAt S (s.tables.cells .users) m=some b → a.email=address → b.email=address → n=m
  /-- An address is taken by a registered account. -/
  taken : ∀ i,states i=.taken → ∃ j u,states j=.registered u
  /-- A call that has inserted nothing has written nothing. -/
  silent : ∀ event∈history,(states event.pid=.start ∨ states event.pid=.vacant ∨
    states event.pid=.taken) → ¬Writes event.op

variable {address : String} {s : Shared} {history : List (Event authSignature)}
  {states : ℕ → Phase} {i : ℕ}

/-- The invariant reads nothing but the rows. -/
theorem Registering.congr (h : Registering address s history states) {s' : Shared}
    (hcells : s'.tables.cells=s.tables.cells) : Registering address s' history states := by
  obtain ⟨halone,hholders,haudit,hstored,hstoredAudit,hregistered,howners,hsingle,htaken,hsilent⟩ := h
  rw [←hcells] at hholders haudit hstored hstoredAudit hregistered howners hsingle
  exact ⟨halone,hholders,haudit,hstored,hstoredAudit,hregistered,howners,hsingle,htaken,hsilent⟩

/-- A call that owns nothing goes on to a phase that owns nothing. -/
theorem Registering.pass (h : Registering address s history states) {next : Phase}
    {event : Event authSignature} {s' : Shared} (hcells : s'.tables.cells=s.tables.cells)
    (hevent : event.pid=i ∧ ¬Writes event.op)
    (hold : states i=next ∨ (states i).owned=none ∧ next.owned=none)
    (hwritten : next=.start ∨ next=.vacant ∨ next=.taken → states i=.start ∨ states i=.vacant ∨
      states i=.taken)
    (htaken : next=.taken → ∃ j u,states j=.registered u) :
    Registering address s' (event::history) (Function.update states i next) := by
  have howned : ∀ j u,(Function.update states i next j).owned=some u →
      (states j).owned=some u ∧ (Function.update states i next j)=states j := by
    intro j u hj
    by_cases hji : j=i
    · subst hji
      rw [Function.update_self] at hj ⊢
      rcases hold with rfl|⟨_,hnone⟩
      · exact ⟨hj,rfl⟩
      · rw [hnone] at hj
        cases hj
    · rw [Function.update_of_ne hji] at hj ⊢
      exact ⟨hj,rfl⟩
  have hback : ∀ j u,(states j).owned=some u → Function.update states i next j=states j := by
    intro j u hj
    by_cases hji : j=i
    · subst hji
      rw [Function.update_self]
      rcases hold with rfl|⟨hnone,_⟩
      · rfl
      · rw [hnone] at hj
        cases hj
    · exact Function.update_of_ne hji _ _
  have hfrom : ∀ {j : ℕ} {phase : Phase} {u : User},Function.update states i next j=phase →
      phase.owned=some u → states j=phase := by
    intro j phase u hj hphase
    have hsame := (howned j u (hj ▸ hphase)).2
    rw [←hsame,hj]
  have hto : ∀ {j : ℕ} {phase : Phase} {u : User},states j=phase → phase.owned=some u →
      Function.update states i next j=phase := by
    intro j phase u hj hphase
    rw [hback j u (hj ▸ hphase),hj]
  refine ⟨fun j k u v hj hk => h.alone j k u v (howned j u hj).1 (howned k v hk).1,?_,?_,?_,?_,?_,
    ?_,?_,?_,?_⟩
  · intro c hc j hj
    rw [hcells] at hc
    obtain ⟨u,heq,hphase⟩ := h.holders c hc j hj
    exact ⟨u,heq,hphase.imp (fun hp => hto hp rfl) fun hp => hto hp rfl⟩
  · intro c hc j hj
    rw [hcells] at hc
    obtain ⟨e,u,heq,hphase,hrecords⟩ := h.auditHolders c hc j hj
    exact ⟨e,u,heq,hto hphase rfl,hrecords⟩
  · intro j u hj
    rw [hcells]
    exact h.stored j u (hj.imp (fun hp => hfrom hp rfl) fun hp => hfrom hp rfl)
  · intro j u hj
    rw [hcells]
    exact h.storedAudit j u (hfrom hj rfl)
  · intro j u hj
    rw [hcells]
    exact h.registered j u (hfrom hj rfl)
  · intro c hc u hu haddress
    rw [hcells] at hc
    obtain ⟨j,hj⟩ := h.owners c hc u hu haddress
    exact ⟨j,hto hj rfl⟩
  · rw [hcells]
    exact h.single
  · intro j hj
    have hregistered : ∃ k u,states k=.registered u := by
      by_cases hji : j=i
      · subst hji
        rw [Function.update_self] at hj
        exact htaken hj
      · rw [Function.update_of_ne hji] at hj
        exact h.taken j hj
    obtain ⟨k,u,hk⟩ := hregistered
    exact ⟨k,u,hto hk rfl⟩
  · intro other hother hphase
    rcases List.mem_cons.mp hother with rfl|hold'
    · exact hevent.2
    · refine h.silent other hold' ?_
      by_cases hji : other.pid=i
      · rw [hji,Function.update_self] at hphase
        rw [hji]
        exact hwritten hphase
      · rwa [Function.update_of_ne hji] at hphase

/-- Calls that have inserted nothing are silent after the step of one that has. -/
theorem Registering.quiet (h : Registering address s history states) {next : Phase} {user : User}
    (hnext : next.owned=some user) {event : Event authSignature} (hevent : event.pid=i) :
    ∀ other∈event::history,(Function.update states i next other.pid=.start ∨
      Function.update states i next other.pid=.vacant ∨
      Function.update states i next other.pid=.taken) → ¬Writes other.op := by
  intro other hother hphase
  by_cases hji : other.pid=i
  · rw [hji,Function.update_self] at hphase
    rcases hphase with rfl|rfl|rfl
    · cases hnext
    · cases hnext
    · cases hnext
  · rw [Function.update_of_ne hji] at hphase
    rcases List.mem_cons.mp hother with rfl|hold
    · exact absurd hevent hji
    · exact h.silent other hold hphase

/-- Nobody else owns anything when a call inserts an account that conflicts
with no row. -/
theorem Registering.insert (h : Registering address s history states) {user : User}
    {event : Event authSignature} {s' : Shared} (hvacant : states i=.vacant)
    (hemail : user.email=address)
    (hfree : ∀ c∈s.tables.cells .users,∀ u : User,c.committed=some u ∨ c.working=some u →
      conflict .users user u=false)
    (husers : s'.tables.cells .users=s.tables.cells .users++[⟨none,some i,some user⟩])
    (haudits : s'.tables.cells .auditEvents=s.tables.cells .auditEvents)
    (hevent : event.pid=i) :
    Registering address s' (event::history) (Function.update states i (.inserted user)) := by
  have hdifferent : ∀ c∈s.tables.cells .users,∀ u : User,c.committed=some u ∨ c.working=some u →
      u.email≠address := by
    intro c hc u hu haddress
    have hno := hfree c hc u hu
    have hsame : (user.email==u.email)=true := by
      rw [hemail,haddress]
      exact beq_self_eq_true _
    have hconflict : conflict .users user u=true := by
      show (user.id==u.id || user.email==u.email)=true
      rw [hsame,Bool.or_true]
    rw [hconflict] at hno
    cases hno
  have hnobody : ∀ j u,(states j).owned≠some u := by
    intro j u hj
    cases hphase : states j with
    | inserted v =>
      obtain ⟨hmem,haddress⟩ := h.stored j v (.inl hphase)
      exact hdifferent _ hmem v (.inr rfl) haddress
    | audited v =>
      obtain ⟨hmem,haddress⟩ := h.stored j v (.inr hphase)
      exact hdifferent _ hmem v (.inr rfl) haddress
    | registered v =>
      obtain ⟨haddress,⟨c,hc,hcommitted⟩,_⟩ := h.registered j v hphase
      exact hdifferent c hc v (.inl hcommitted) haddress
    | _ =>
      rw [hphase] at hj
      cases hj
  have hnew : ∀ {j : ℕ} {phase : Phase} {u : User},
      Function.update states i (.inserted user) j=phase → phase.owned=some u → j=i := by
    intro j phase u hj hphase
    by_contra hji
    rw [Function.update_of_ne hji] at hj
    exact hnobody j u (hj ▸ hphase)
  have hself : Function.update states i (.inserted user) i=.inserted user := Function.update_self _ _ _
  refine ⟨fun j k u v hj hk => (hnew rfl hj).trans (hnew rfl hk).symm,?_,?_,?_,?_,?_,?_,?_,?_,?_⟩
  · intro c hc j hj
    rw [husers] at hc
    rcases List.mem_append.mp hc with hold|hlast
    · obtain ⟨u,_,hphase⟩ := h.holders c hold j hj
      rcases hphase with hphase|hphase
      · exact absurd (hphase ▸ rfl) (hnobody j u)
      · exact absurd (hphase ▸ rfl) (hnobody j u)
    · have hcell := List.mem_singleton.mp hlast
      subst hcell
      have hji : i=j := Option.some.inj hj
      subst hji
      exact ⟨user,rfl,.inl hself⟩
  · intro c hc j hj
    rw [haudits] at hc
    obtain ⟨_,u,_,hphase,_⟩ := h.auditHolders c hc j hj
    exact absurd (hphase ▸ rfl) (hnobody j u)
  · intro j u hj
    have hji : j=i := hj.elim (fun hp => hnew hp rfl) fun hp => hnew hp rfl
    subst hji
    rw [hself] at hj
    have hu : user=u := hj.elim (fun hp => Phase.inserted.inj hp) nofun
    subst hu
    rw [husers]
    exact ⟨List.mem_append_right _ (List.mem_singleton_self _),hemail⟩
  · intro j u hj
    have hji := hnew hj rfl
    subst hji
    rw [hself] at hj
    cases hj
  · intro j u hj
    have hji := hnew hj rfl
    subst hji
    rw [hself] at hj
    cases hj
  · intro c hc u hu haddress
    rw [husers] at hc
    rcases List.mem_append.mp hc with hold|hlast
    · exact absurd haddress (hdifferent c hold u (.inl hu))
    · rw [List.mem_singleton.mp hlast] at hu
      cases hu
  · have hlast : ∀ S n (a : User),mergedAt S (s'.tables.cells .users) n=some a →
        a.email=address → n=(s.tables.cells .users).length := by
      intro S n a ha haddress
      rw [husers,mergedAt_append] at ha
      by_contra hn
      rw [if_neg hn] at ha
      obtain ⟨c,hc,hca⟩ := Option.bind_eq_some_iff.mp ha
      have hversion : c.committed=some a ∨ c.working=some a := by
        unfold Cell.merged at hca
        split at hca
        · split at hca
          · exact .inr hca
          · exact .inl hca
        · exact .inl hca
      exact hdifferent c (List.mem_of_getElem? hc) a hversion haddress
    intro S n m a b ha hb hea heb
    rw [hlast S n a ha hea,hlast S m b hb heb]
  · intro j hj
    by_cases hji : j=i
    · subst hji
      rw [hself] at hj
      cases hj
    · rw [Function.update_of_ne hji] at hj
      obtain ⟨k,u,hk⟩ := h.taken j hj
      exact absurd (hk ▸ rfl) (hnobody k u)
  · exact h.quiet rfl hevent

/-- The call that owns an account owns it in its next phase. -/
theorem Registering.sole (h : Registering address s history states) {user : User}
    (howned : (states i).owned=some user) {next : Phase} (hnext : next.owned=some user) {j : ℕ}
    {u : User} (hj : (Function.update states i next j).owned=some u) : j=i ∧ u=user := by
  by_cases hji : j=i
  · subst hji
    rw [Function.update_self,hnext] at hj
    exact ⟨rfl,(Option.some.inj hj).symm⟩
  · rw [Function.update_of_ne hji] at hj
    exact absurd (h.alone j i u user hj howned) hji

/-- The audit row of an inserted account. -/
theorem Registering.audit (h : Registering address s history states) {user : User}
    {event : Event authSignature} {e : AuditEvent} {s' : Shared}
    (hinserted : states i=.inserted user) (hrecords : Records e user)
    (husers : s'.tables.cells .users=s.tables.cells .users)
    (haudits : s'.tables.cells .auditEvents=
      s.tables.cells .auditEvents++[⟨none,some i,some e⟩])
    (hevent : event.pid=i) :
    Registering address s' (event::history) (Function.update states i (.audited user)) := by
  have howned : (states i).owned=some user := by
    rw [hinserted]
    rfl
  have hself : Function.update states i (.audited user) i=.audited user := Function.update_self _ _ _
  have hsole : ∀ {j : ℕ} {phase : Phase} {u : User},
      Function.update states i (.audited user) j=phase → phase.owned=some u → j=i ∧ u=user := by
    intro j phase u hj hphase
    exact h.sole howned rfl (hj ▸ hphase)
  have hregistered : ∀ j u,states j≠.registered u := by
    intro j u hj
    have hji : j=i := h.alone j i u user (hj ▸ rfl) howned
    rw [hji,hinserted] at hj
    cases hj
  refine ⟨fun j k u v hj hk => (hsole rfl hj).1.trans (hsole rfl hk).1.symm,?_,?_,?_,?_,?_,?_,?_,?_,
    ?_⟩
  · intro c hc j hj
    rw [husers] at hc
    obtain ⟨u,heq,hphase⟩ := h.holders c hc j hj
    have hjowned : (states j).owned=some u := hphase.elim (fun hp => hp ▸ rfl) fun hp => hp ▸ rfl
    have hji := h.alone j i u user hjowned howned
    subst hji
    have hu : user=u := Option.some.inj (howned.symm.trans hjowned)
    subst hu
    exact ⟨user,heq,.inr hself⟩
  · intro c hc j hj
    rw [haudits] at hc
    rcases List.mem_append.mp hc with hold|hlast
    · obtain ⟨_,u,_,hphase,_⟩ := h.auditHolders c hold j hj
      have hji : j=i := h.alone j i u user (hphase ▸ rfl) howned
      rw [hji,hinserted] at hphase
      cases hphase
    · have hcell := List.mem_singleton.mp hlast
      subst hcell
      have hji : i=j := Option.some.inj hj
      subst hji
      exact ⟨e,user,rfl,hself,hrecords⟩
  · intro j u hj
    obtain ⟨rfl,rfl⟩ : j=i ∧ u=user := hj.elim (fun hp => hsole hp rfl) fun hp => hsole hp rfl
    rw [husers]
    exact h.stored j u (.inl hinserted)
  · intro j u hj
    obtain ⟨rfl,rfl⟩ := hsole hj rfl
    rw [haudits]
    exact ⟨e,hrecords,List.mem_append_right _ (List.mem_singleton_self _)⟩
  · intro j u hj
    obtain ⟨rfl,rfl⟩ := hsole hj rfl
    rw [hself] at hj
    cases hj
  · intro c hc u hu haddress
    rw [husers] at hc
    obtain ⟨j,hj⟩ := h.owners c hc u hu haddress
    exact absurd hj (hregistered j u)
  · rw [husers]
    exact h.single
  · intro j hj
    by_cases hji : j=i
    · subst hji
      rw [hself] at hj
      cases hj
    · rw [Function.update_of_ne hji] at hj
      obtain ⟨k,u,hk⟩ := h.taken j hj
      exact absurd hk (hregistered k u)
  · exact h.quiet rfl hevent

/-- The commit of an account with its audit row. -/
theorem Registering.commit (h : Registering address s history states) {user : User}
    {event : Event authSignature} {s' : Shared} (haudited : states i=.audited user)
    (hcells : ∀ t,s'.tables.cells t=(s.tables.cells t).map (·.settle i)) (hevent : event.pid=i) :
    Registering address s' (event::history) (Function.update states i (.registered user)) := by
  have howned : (states i).owned=some user := by
    rw [haudited]
    rfl
  have hself : Function.update states i (.registered user) i=.registered user :=
    Function.update_self _ _ _
  have hsole : ∀ {j : ℕ} {phase : Phase} {u : User},
      Function.update states i (.registered user) j=phase → phase.owned=some u → j=i ∧ u=user := by
    intro j phase u hj hphase
    exact h.sole howned rfl (hj ▸ hphase)
  obtain ⟨hstored,haddress⟩ := h.stored i user (.inr haudited)
  obtain ⟨e,hrecords,hevents⟩ := h.storedAudit i user haudited
  refine ⟨fun j k u v hj hk => (hsole rfl hj).1.trans (hsole rfl hk).1.symm,?_,?_,?_,?_,?_,?_,?_,?_,
    ?_⟩
  · intro c hc j hj
    rw [hcells] at hc
    obtain ⟨c₀,hc₀,rfl⟩ := List.mem_map.mp hc
    obtain ⟨_,hholder,hji⟩ := Cell.settle_of_held hj
    obtain ⟨u,_,hphase⟩ := h.holders c₀ hc₀ j hholder
    have hjowned : (states j).owned=some u := hphase.elim (fun hp => hp ▸ rfl) fun hp => hp ▸ rfl
    exact absurd (h.alone j i u user hjowned howned) hji
  · intro c hc j hj
    rw [hcells] at hc
    obtain ⟨c₀,hc₀,rfl⟩ := List.mem_map.mp hc
    obtain ⟨_,hholder,hji⟩ := Cell.settle_of_held hj
    obtain ⟨_,u,_,hphase,_⟩ := h.auditHolders c₀ hc₀ j hholder
    exact absurd (h.alone j i u user (hphase ▸ rfl) howned) hji
  · intro j u hj
    obtain ⟨rfl,rfl⟩ : j=i ∧ u=user := hj.elim (fun hp => hsole hp rfl) fun hp => hsole hp rfl
    rw [hself] at hj
    rcases hj with hj|hj
    · cases hj
    · cases hj
  · intro j u hj
    obtain ⟨rfl,rfl⟩ := hsole hj rfl
    rw [hself] at hj
    cases hj
  · intro j u hj
    obtain ⟨rfl,rfl⟩ := hsole hj rfl
    refine ⟨haddress,⟨⟨some u,none,none⟩,?_,rfl⟩,⟨some e,none,none⟩,?_,e,rfl,hrecords⟩
    · rw [hcells]
      exact List.mem_map.mpr ⟨_,hstored,if_pos rfl⟩
    · rw [hcells]
      exact List.mem_map.mpr ⟨_,hevents,if_pos rfl⟩
  · intro c hc u hu hemail
    rw [hcells] at hc
    obtain ⟨c₀,hc₀,rfl⟩ := List.mem_map.mp hc
    by_cases hi : c₀.holder=some i
    · obtain ⟨v,heq,hphase⟩ := h.holders c₀ hc₀ i hi
      have hv : v=user := by
        rcases hphase with hp|hp
        · rw [haudited] at hp
          cases hp
        · rw [haudited] at hp
          exact (Phase.audited.inj hp).symm
      subst hv
      subst heq
      have hpublished : (Cell.settle i (⟨none,some i,some v⟩ : Cell User)).committed=some v := by
        simp [Cell.settle]
      have huv : v=u := Option.some.inj (hpublished.symm.trans hu)
      subst huv
      exact ⟨i,hself⟩
    · have hsame : c₀.settle i=c₀ := if_neg hi
      rw [hsame] at hu
      obtain ⟨j,hj⟩ := h.owners c₀ hc₀ u hu hemail
      have hji : j=i := h.alone j i u user (hj ▸ rfl) howned
      rw [hji,haudited] at hj
      cases hj
  · intro S n m a b ha hb
    rw [hcells,mergedAt_settle] at ha hb
    exact h.single _ n m a b ha hb
  · intro j _
    exact ⟨i,user,hself⟩
  · exact h.quiet rfl hevent

/-- The end of a call releases what it has not committed. -/
theorem Registering.close (h : Registering address s history states) {s' : Shared}
    (hcells : ∀ t,s'.tables.cells t=(s.tables.cells t).map (·.release i)) :
    Registering address s' history (Function.update states i (ended (states i))) := by
  have hcommitted : ∀ {R : Type} (c : Cell R),(c.release i).committed=c.committed :=
    fun c => Cell.release_committed i c
  have hphases : ∀ j,Function.update states i (ended (states i)) j=states j ∨
      j=i ∧ Function.update states i (ended (states i)) j=.lost ∧
        ∃ u,states i=.inserted u ∨ states i=.audited u := by
    intro j
    by_cases hji : j=i
    · subst hji
      rw [Function.update_self]
      cases hphase : states j with
      | inserted u => exact .inr ⟨rfl,rfl,u,.inl rfl⟩
      | audited u => exact .inr ⟨rfl,rfl,u,.inr rfl⟩
      | _ => exact .inl rfl
    · exact .inl (Function.update_of_ne hji _ _)
  have hfrom : ∀ {j : ℕ} {phase : Phase},Function.update states i (ended (states i)) j=phase →
      phase≠.lost → states j=phase := by
    intro j phase hj hne
    rcases hphases j with hsame|⟨_,hlost,_⟩
    · rw [←hsame,hj]
    · exact absurd (hj.symm.trans hlost) hne
  have hregistered : ∀ {j : ℕ} {u : User},states j=.registered u →
      Function.update states i (ended (states i)) j=.registered u := by
    intro j u hj
    rcases hphases j with hsame|⟨rfl,_,v,hphase⟩
    · rw [hsame,hj]
    · rw [hj] at hphase
      rcases hphase with hp|hp
      · cases hp
      · cases hp
  have hown : ∀ {j : ℕ} {u : User},
      (Function.update states i (ended (states i)) j).owned=some u → (states j).owned=some u := by
    intro j u hj
    rcases hphases j with hsame|⟨_,hlost,_⟩
    · rwa [hsame] at hj
    · rw [hlost] at hj
      cases hj
  refine ⟨fun j k u v hj hk => h.alone j k u v (hown hj) (hown hk),?_,?_,?_,?_,?_,?_,?_,?_,?_⟩
  · intro c hc j hj
    rw [hcells] at hc
    obtain ⟨c₀,hc₀,rfl⟩ := List.mem_map.mp hc
    obtain ⟨hsame,hholder,hji⟩ := Cell.release_of_held hj
    obtain ⟨u,heq,hphase⟩ := h.holders c₀ hc₀ j hholder
    rw [hsame,Function.update_of_ne hji]
    exact ⟨u,heq,hphase⟩
  · intro c hc j hj
    rw [hcells] at hc
    obtain ⟨c₀,hc₀,rfl⟩ := List.mem_map.mp hc
    obtain ⟨hsame,hholder,hji⟩ := Cell.release_of_held hj
    obtain ⟨e,u,heq,hphase,hrecords⟩ := h.auditHolders c₀ hc₀ j hholder
    rw [hsame,Function.update_of_ne hji]
    exact ⟨e,u,heq,hphase,hrecords⟩
  · intro j u hj
    have hji : j≠i := by
      rintro rfl
      rw [Function.update_self] at hj
      rcases hj with hj|hj
      · cases hphase : states j <;> rw [hphase] at hj <;> cases hj
      · cases hphase : states j <;> rw [hphase] at hj <;> cases hj
    rw [Function.update_of_ne hji] at hj
    obtain ⟨hmem,haddress⟩ := h.stored j u hj
    rw [hcells]
    exact ⟨List.mem_map.mpr ⟨_,hmem,if_neg fun heq => hji (Option.some.inj heq)⟩,haddress⟩
  · intro j u hj
    have hji : j≠i := by
      rintro rfl
      rw [Function.update_self] at hj
      cases hphase : states j <;> rw [hphase] at hj <;> cases hj
    rw [Function.update_of_ne hji] at hj
    obtain ⟨e,hrecords,hmem⟩ := h.storedAudit j u hj
    rw [hcells]
    exact ⟨e,hrecords,List.mem_map.mpr ⟨_,hmem,if_neg fun heq => hji (Option.some.inj heq)⟩⟩
  · intro j u hj
    obtain ⟨haddress,⟨c,hc,hu⟩,c',hc',e,he,hrecords⟩ := h.registered j u (hfrom hj nofun)
    rw [hcells,hcells]
    exact ⟨haddress,⟨_,List.mem_map_of_mem hc,(hcommitted c).trans hu⟩,
      _,List.mem_map_of_mem hc',e,(hcommitted c').trans he,hrecords⟩
  · intro c hc u hu haddress
    rw [hcells] at hc
    obtain ⟨c₀,hc₀,rfl⟩ := List.mem_map.mp hc
    obtain ⟨j,hj⟩ := h.owners c₀ hc₀ u ((hcommitted c₀).symm.trans hu) haddress
    exact ⟨j,hregistered hj⟩
  · intro S n m a b ha hb
    rw [hcells,mergedAt_release] at ha hb
    exact h.single _ n m a b ha hb
  · intro j hj
    obtain ⟨k,u,hk⟩ := h.taken j (hfrom hj nofun)
    exact ⟨k,u,hregistered hk⟩
  · intro other hother hphase
    exact h.silent other hother (hphase.imp (fun hp => hfrom hp nofun)
      (Or.imp (fun hp => hfrom hp nofun) fun hp => hfrom hp nofun))

/-- A row that conflicts with no version of another row is inserted. -/
theorem inserted_of_free {t : Table} {row : Row t} {tables tables' : Tables authSchema}
    {reply : Insertion} (hvalid : valid t row=true)
    (hfree : ∀ c∈tables.cells t,∀ r : Row t,c.committed=some r ∨ c.working=some r →
      conflict t row r=false)
    (hfire : tables.fire i (.insert t row)=some (some reply,tables')) :
    reply=.inserted ∧ tables'=tables.write t (tables.cells t++[⟨none,some i,some row⟩]) := by
  have hseen : ¬(tables.visible i t).any (conflict t row)=true := by
    intro hany
    obtain ⟨r,hr,hconflict⟩ := List.any_eq_true.mp hany
    obtain ⟨c,hc,hview⟩ := List.mem_filterMap.mp hr
    have hversion : c.committed=some r ∨ c.working=some r := by
      unfold Cell.view at hview
      split at hview
      · exact .inr hview
      · exact .inl hview
    rw [hfree c hc r hversion] at hconflict
    cases hconflict
  simp only [Tables.fire,Tables.insertRow] at hfire
  rw [if_pos hvalid] at hfire
  split at hfire
  · cases hfire
  · cases hfire
    exact ⟨rfl,rfl⟩

/-- The rows that a call sees before it inserts anything are the committed ones. -/
theorem Registering.visible (h : Registering address s history states)
    (howned : (states i).owned=none) :
    s.tables.visible i .users=s.tables.committed .users := by
  refine List.filterMap_congr fun c hc => ?_
  refine if_neg fun hholder => ?_
  obtain ⟨u,_,hphase⟩ := h.holders c hc i hholder
  rcases hphase with hphase|hphase
  · rw [hphase] at howned
    cases howned
  · rw [hphase] at howned
    cases howned

/-- The look-up finds a registered account or none. -/
theorem Registering.lookUp (h : Registering address s history states) (hstart : states i=.start)
    {q : User → Bool} (hq : ∀ u,q u=(u.email==address)) {event : Event authSignature}
    {s' : Shared} (htables : s'.tables=s.tables) (hevent : event.pid=i ∧ ¬Writes event.op) :
    Registering address s' (event::history)
        (Function.update states i (found ((s.tables.visible i .users).filter q))) ∧
      found ((s.tables.visible i .users).filter q)≠.refused := by
  have hnone : (states i).owned=none := by
    rw [hstart]
    rfl
  have hcells : s'.tables.cells=s.tables.cells := by rw [htables]
  have hone : ((s.tables.committed .users).filter q).length≤1 := by
    refine committed_filter_length_le_one s.tables .users q fun n m a b ha hb hqa hqb => ?_
    rw [hq] at hqa hqb
    exact h.single ∅ n m a b ha hb (eq_of_beq hqa) (eq_of_beq hqb)
  rw [h.visible hnone]
  match hrows : (s.tables.committed .users).filter q with
  | [] =>
    exact ⟨h.pass hcells hevent (.inr ⟨hnone,rfl⟩) (fun _ => .inl hstart) nofun,nofun⟩
  | [user] =>
    have hmem : user∈(s.tables.committed .users).filter q := by
      rw [hrows]
      exact List.mem_singleton_self _
    obtain ⟨hcommitted,hqu⟩ := List.mem_filter.mp hmem
    obtain ⟨c,hc,hu⟩ := List.mem_filterMap.mp hcommitted
    rw [hq] at hqu
    have htaken : ∃ j u,states j=.registered u := by
      obtain ⟨j,hj⟩ := h.owners c hc user hu (eq_of_beq hqu)
      exact ⟨j,user,hj⟩
    exact ⟨h.pass hcells hevent (.inr ⟨hnone,rfl⟩) (fun _ => .inl hstart) fun _ => htaken,nofun⟩
  | first::second::rest =>
    rw [hrows] at hone
    simp only [List.length_cons] at hone
    omega

/-- Every answered statement keeps the invariant, as long as accounts are
inserted next to no row they conflict with. -/
theorem Registering.statement (h : Registering address s history states) {s' : Shared}
    {next : Phase} {stmt : Statement authSchema} {reply : stmt.Reply}
    (hm : moves address (states i) (.sql stmt) reply next)
    (hf : s.tables.fire i stmt=some (some reply,s'.tables))
    (hfree : ∀ row,Effect.sql stmt=.sql (.insert .users row) → ∀ c∈s.tables.cells .users,
      ∀ u : User,c.committed=some u ∨ c.working=some u → conflict .users row u=false) :
    Registering address s' (⟨i,.sql stmt,reply⟩::history) (Function.update states i next) ∧
      next≠.refused := by
  cases hphase : states i with
  | start =>
    rw [hphase] at hm
    cases stmt with
    | select t q =>
      cases t with
      | users =>
        obtain ⟨hq,rfl⟩ := hm
        have hpair := Prod.mk.inj (Option.some.inj hf)
        have hreply := Option.some.inj hpair.1
        rw [←hreply]
        exact h.lookUp hphase hq hpair.2.symm ⟨rfl,id⟩
      | _ => simp [moves] at hm
    | _ => simp [moves] at hm
  | taken =>
    rw [hphase] at hm
    cases stmt with
    | select t q =>
      have hnext : next=.taken := by
        cases t <;> exact hm
      subst hnext
      have hpair := Prod.mk.inj (Option.some.inj hf)
      have hcells : s'.tables.cells=s.tables.cells := by rw [hpair.2]
      exact ⟨h.pass hcells ⟨rfl,id⟩ (.inl hphase) (fun _ => .inr (.inr hphase))
        fun _ => h.taken i hphase,nofun⟩
    | _ => simp [moves] at hm
  | vacant =>
    rw [hphase] at hm
    cases stmt with
    | insert t row =>
      cases t with
      | users =>
        obtain ⟨hemail,hvalid,rfl⟩ := hm
        have hconflicts := hfree row rfl
        obtain ⟨rfl,hs⟩ := inserted_of_free hvalid hconflicts hf
        refine ⟨h.insert hphase hemail hconflicts ?_ ?_ rfl,nofun⟩
        · rw [hs]
          exact Tables.write_cells_self (_ : Tables authSchema) _ _
        · rw [hs]
          exact Tables.write_cells_of_ne _ _ nofun
      | _ => simp [moves] at hm
    | _ => simp [moves] at hm
  | inserted user =>
    rw [hphase] at hm
    cases stmt with
    | insert t row =>
      cases t with
      | auditEvents =>
        obtain ⟨hrecords,hvalid,rfl⟩ := hm
        obtain ⟨rfl,hs⟩ := inserted_of_free hvalid (fun _ _ _ _ => rfl) hf
        refine ⟨h.audit hphase hrecords ?_ ?_ rfl,nofun⟩
        · rw [hs]
          exact Tables.write_cells_of_ne _ _ nofun
        · rw [hs]
          exact Tables.write_cells_self (_ : Tables authSchema) _ _
      | _ => simp [moves] at hm
    | _ => simp [moves] at hm
  | audited user =>
    rw [hphase] at hm
    cases stmt with
    | commit =>
      have hnext : next=.registered user := hm
      subst hnext
      have hpair := Prod.mk.inj (Option.some.inj hf)
      refine ⟨h.commit hphase (fun t => ?_) rfl,nofun⟩
      rw [←hpair.2]
      rfl
    | _ => simp [moves] at hm
  | registered user =>
    rw [hphase] at hm
    cases stmt <;> simp [moves] at hm
  | lost =>
    rw [hphase] at hm
    cases stmt <;> simp [moves] at hm
  | refused =>
    rw [hphase] at hm
    cases stmt <;> simp [moves] at hm

end Invariant

section Runs

variable {address : String} {states : ℕ → Phase}

/-- Only registrations of the address are started. -/
def Calls (d : Deployment) (address : String) (_ : AuthSystem) : AuthMove → Prop
  | .spawn program => ∃ client,program=served d client ∧ Registers d address client
  | _ => True

/-- The call has looked the address up and found nobody. -/
def FoundNobody (address : String) (history : List (Event authSignature)) (i : ℕ) : Prop :=
  ∃ q : User → Bool,(∀ u,q u=(u.email==address)) ∧
    (⟨i,.sql (.select .users q),([] : List User)⟩ : Event authSignature)∈history

/-- When a call that found nobody is about to insert its account, no version of
a row conflicts with it: nobody has inserted the address since its look-up, or
had inserted it then without having committed. -/
def InsertsFree (address : String) (sys : AuthSystem) : AuthMove → Prop
  | .effect i _ => FoundNobody address sys.history i →
    ∀ row k,sys.procs[i]?=some (some (.call (.sql (.insert .users row)) k)) →
      ∀ c∈sys.shared.tables.cells .users,∀ u : User,c.committed=some u ∨ c.working=some u →
        conflict .users row u=false
  | _ => True

/-- The invariant of runs. -/
structure Inv (address : String) (s : Shared) (history : List (Event authSignature))
    (states : ℕ → Phase) : Prop where
  /-- The rows are those of the calls. -/
  registering : Registering address s history states
  /-- No call was refused. -/
  accepted : ∀ i,states i≠.refused
  /-- Calls on their way to the insertion have found nobody. -/
  looked : ∀ i,states i=.vacant → FoundNobody address history i

/-- An empty look-up stays in the history. -/
theorem FoundNobody.mono {address : String} {history history' : List (Event authSignature)}
    {i : ℕ} (h : FoundNobody address history i) (hsub : history⊆history') :
    FoundNobody address history' i := by
  obtain ⟨q,hq,hevent⟩ := h
  exact ⟨q,hq,hsub hevent⟩

/-- Only a call that found nobody inserts an account. -/
theorem vacant_of_insert {phase next : Phase} {row : User} {reply : Insertion}
    (hm : moves address phase (.sql (.insert .users row)) reply next) : phase=.vacant := by
  cases phase with
  | vacant => rfl
  | _ => exact hm.elim

/-- Only the look-up makes a call one that found nobody. -/
theorem foundNobody_of_moves {phase : Phase} {stmt : Statement authSchema} {reply : stmt.Reply}
    {history : List (Event authSignature)} {i : ℕ}
    (hm : moves address phase (.sql stmt) reply .vacant) :
    FoundNobody address (⟨i,.sql stmt,reply⟩::history) i := by
  cases phase with
  | start =>
    cases stmt with
    | select t q =>
      cases t with
      | users =>
        obtain ⟨hq,hfound⟩ := hm
        cases reply with
        | nil => exact ⟨q,hq,List.mem_cons_self⟩
        | cons first rest => cases rest <;> cases hfound
      | _ => simp [moves] at hm
    | _ => simp [moves] at hm
  | vacant =>
    cases stmt with
    | insert t row =>
      cases t with
      | users =>
        obtain ⟨-,-,hafter⟩ := hm
        cases reply <;> cases hafter
      | _ => simp [moves] at hm
    | _ => simp [moves] at hm
  | taken =>
    cases stmt with
    | select t q => cases t <;> cases hm
    | _ => simp [moves] at hm
  | inserted user =>
    cases stmt with
    | insert t row =>
      cases t with
      | auditEvents =>
        obtain ⟨-,-,hafter⟩ := hm
        cases reply <;> cases hafter
      | _ => simp [moves] at hm
    | _ => simp [moves] at hm
  | audited user =>
    cases stmt with
    | commit => cases hm
    | _ => simp [moves] at hm
  | registered user => cases stmt <;> simp [moves] at hm
  | lost => cases stmt <;> simp [moves] at hm
  | refused => cases stmt <;> simp [moves] at hm

/-- A phase that is not refused does not become so when the registration ends.
-/
theorem ended_ne_refused {phase : Phase} (h : phase≠.refused) : ended phase≠.refused := by
  cases phase with
  | refused => exact absurd rfl h
  | _ => exact nofun

/-- Moving one registration to another phase than the refused one refuses none.
-/
theorem update_ne_refused {states : ℕ → Phase} (h : ∀ i,states i≠.refused) {i : ℕ} {next : Phase}
    (hnext : next≠.refused) (j : ℕ) : Function.update states i next j≠.refused := by
  by_cases hji : j=i
  · subst hji
    rwa [Function.update_self]
  · rw [Function.update_of_ne hji]
    exact h j

/-- What every kind of move has to keep. -/
theorem obligations (d : Deployment) (address : String) :
    Obligations authMachine (protocol address) .start Justified (Inv address)
      (fun sys mv => Calls d address sys mv ∧ InsertsFree address sys mv) ended := by
  constructor
  · rintro sys p ⟨⟨client,rfl,hregisters⟩,_⟩
    exact follows_served hregisters
  · intro phase o ho
    cases phase with
    | inserted user => exact ho.elim
    | audited user => exact ho.elim
    | _ => exact ho
  · intro sys states i op c s ht hf
    obtain ⟨hinv,hne,hlooked⟩ := ht.inv
    have hcells : s.tables.cells=sys.shared.tables.cells := (fire_progress hf).1
    exact ⟨hinv.congr hcells,hne,hlooked⟩
  · exact fun _ _ _ _ _ _ _ _ _ _ => trivial
  · intro sys states i op k c r s t ht hc hp hm hf
    obtain ⟨hinv,hne,hlooked⟩ := ht.inv
    have hothers : ∀ j,j≠i → Function.update states i t j=.vacant →
        FoundNobody address (⟨i,op,r⟩::sys.history) j := by
      intro j hji hj
      rw [Function.update_of_ne hji] at hj
      exact (hlooked j hj).mono (List.subset_cons_self _ _)
    cases op with
    | external op =>
      obtain ⟨_,rfl⟩ := fire_external hf
      have ht' : t=states i := by
        generalize states i=phase at hm
        cases phase <;> exact hm
      subst ht'
      refine ⟨hinv.pass rfl ⟨rfl,id⟩ (.inl rfl) id fun h => hinv.taken i h,
        update_ne_refused hne (hne i),fun j hj => ?_⟩
      rw [Function.update_eq_self] at hj
      exact (hlooked j hj).mono (List.subset_cons_self _ _)
    | sql stmt =>
      have hfree : ∀ row,Effect.sql stmt=.sql (.insert .users row) →
          ∀ c∈sys.shared.tables.cells .users,∀ u : User,c.committed=some u ∨ c.working=some u →
            conflict .users row u=false := by
        rintro row ⟨⟩
        exact hc.2 (hlooked i (vacant_of_insert hm)) row k hp
      obtain ⟨hnext,hrefused⟩ := hinv.statement hm (fire_sql hf).1 hfree
      refine ⟨hnext,update_ne_refused hne hrefused,fun j hj => ?_⟩
      by_cases hji : j=i
      · subst hji
        rw [Function.update_self] at hj
        exact foundNobody_of_moves (hj ▸ hm)
      · exact hothers j hji hj
  · intro sys states i ht _
    obtain ⟨hinv,hne,hlooked⟩ := ht.inv
    refine ⟨hinv.close fun _ => rfl,update_ne_refused hne (ended_ne_refused (hne i)),
      fun j hj => hlooked j ?_⟩
    by_cases hji : j=i
    · subst hji
      rw [Function.update_self] at hj
      cases hphase : states j with
      | vacant => rfl
      | _ =>
        rw [hphase] at hj
        cases hj
    · rwa [Function.update_of_ne hji] at hj

/-- The committed rows as the next request finds them. -/
def afterwards (sys : AuthSystem) (choices : List ℕ) : World :=
  ⟨sys.shared.env,⟨sys.shared.tables.committed,sys.shared.tables.committed⟩,choices⟩

/-- The address is registered once. -/
structure RegisteredOnce (d : Deployment) (address : String) (sys : AuthSystem) : Prop where
  /-- A call registers the address or is told that it exists. -/
  ends : ∀ i o,sys.outcome i=some o → (∃ r,o=.ok r) ∨ o=.error .userAlreadyExists
  /-- Two calls never both register it. -/
  alone : ∀ i j r r',sys.outcome i=some (.ok r) → sys.outcome j=some (.ok r') → i=j
  /-- Once all calls have ended, one has registered it. -/
  one : sys.procs≠[] → (∀ i,i < sys.procs.length → ∃ o,sys.outcome i=some o) →
    ∃ i r,sys.outcome i=some (.ok r)
  /-- A call that is told that it exists has written nothing. -/
  silent : ∀ i,sys.outcome i=some (.error .userAlreadyExists) →
    ∀ event∈sys.history,event.pid=i → ¬Writes event.op
  /-- Once a call has ended, one account with the address is committed with its
  audit row, and it is found under every case of the address. -/
  stored : ∀ i o,sys.outcome i=some o → ∃ user : User,
    (sys.shared.tables.committed .users).filter (fun u => u.email==address)=[user] ∧
    (∃ event∈sys.shared.tables.committed .auditEvents,Records event user) ∧
    ∀ email choices,d.lower email=address → ∃ loaded,loaded.row=user ∧
      ((UserRepository.getByEmail d email).run World.perform (afterwards sys choices)).1=
        .ok (some loaded)

/-- The only committed account of an address is loaded. -/
theorem finds_account {d : Deployment} {address email : String} {sys : AuthSystem} {user : User}
    (choices : List ℕ)
    (hone : (sys.shared.tables.committed .users).filter (fun u => u.email==address)=[user])
    (hemail : d.lower email=address) :
    ∃ loaded,loaded.row=user ∧
      ((UserRepository.getByEmail d email).run World.perform (afterwards sys choices)).1=
        .ok (some loaded) := by
  have hload := ServerRuns.load_run (fun u => u.email==address) (afterwards sys choices)
  have hwork : ((afterwards sys choices).data.work .users).filter (fun u => u.email==address)=
      [user] := hone
  rw [hwork] at hload
  rw [UserRepository.getByEmail,hemail,hload]
  exact ⟨_,rfl,rfl⟩

/-- What the control states say about the calls that have ended. -/
theorem Registering.registeredOnce {d : Deployment} {sys : AuthSystem}
    (ht : Tracks (protocol address) .start Justified (Inv address) sys states) :
    RegisteredOnce d address sys := by
  obtain ⟨hinv,hne⟩ := ht.inv
  have hphase : ∀ i o,sys.outcome i=some o → (∃ u r,states i=.registered u ∧ o=.ok r) ∨
      (states i=.taken ∧ o=.error .userAlreadyExists) := by
    intro i o ho
    have hjustified : Justified (states i) o := ht.outcome ho
    cases hstate : states i with
    | registered user =>
      rw [hstate] at hjustified
      cases o with
      | ok r => exact .inl ⟨user,r,rfl,rfl⟩
      | error failure => exact hjustified.elim
    | taken =>
      rw [hstate] at hjustified
      cases o with
      | ok r => exact hjustified.elim
      | error failure =>
        have hfailure : failure=.userAlreadyExists := hjustified
        subst hfailure
        exact .inr ⟨rfl,rfl⟩
    | refused => exact absurd hstate (hne i)
    | _ =>
      rw [hstate] at hjustified
      exact hjustified.elim
  have hregistered : ∀ i o,sys.outcome i=some o → ∃ j u,states j=.registered u := by
    intro i o ho
    rcases hphase i o ho with ⟨u,_,hstate,_⟩|⟨hstate,_⟩
    · exact ⟨i,u,hstate⟩
    · exact hinv.taken i hstate
  have hsuccess : ∀ i r,sys.outcome i=some (.ok r) → ∃ u,states i=.registered u := by
    intro i r ho
    rcases hphase i _ ho with ⟨u,_,hstate,_⟩|⟨_,herror⟩
    · exact ⟨u,hstate⟩
    · cases herror
  refine ⟨?_,?_,?_,?_,?_⟩
  · intro i o ho
    rcases hphase i o ho with ⟨_,r,_,hok⟩|⟨_,herror⟩
    · exact .inl ⟨r,hok⟩
    · exact .inr herror
  · intro i j r r' hi hj
    obtain ⟨u,hu⟩ := hsuccess i r hi
    obtain ⟨v,hv⟩ := hsuccess j r' hj
    exact hinv.alone i j u v (hu ▸ rfl) (hv ▸ rfl)
  · intro hprocs hall
    obtain ⟨o,ho⟩ := hall 0 (List.length_pos_iff.mpr hprocs)
    obtain ⟨j,u,hj⟩ := hregistered 0 o ho
    have hlt : j < sys.procs.length := by
      by_contra hge
      rw [ht.unborn j (Nat.le_of_not_lt hge)] at hj
      cases hj
    obtain ⟨o',ho'⟩ := hall j hlt
    rcases hphase j o' ho' with ⟨_,r,_,rfl⟩|⟨htaken,_⟩
    · exact ⟨j,r,ho'⟩
    · rw [hj] at htaken
      cases htaken
  · intro i ho event hevent hpid
    have htaken : states i=.taken := by
      rcases hphase i _ ho with ⟨_,_,_,hok⟩|⟨hstate,_⟩
      · cases hok
      · exact hstate
    refine hinv.silent event hevent (.inr (.inr ?_))
    rw [hpid]
    exact htaken
  · intro i o ho
    obtain ⟨j,user,hj⟩ := hregistered i o ho
    obtain ⟨haddress,⟨c,hc,hu⟩,c',hc',event,he,hrecords⟩ := hinv.registered j user hj
    have hmem : user∈(sys.shared.tables.committed .users).filter (fun u => u.email==address) := by
      refine List.mem_filter.mpr ⟨List.mem_filterMap.mpr ⟨c,hc,hu⟩,?_⟩
      rw [haddress]
      exact beq_self_eq_true _
    have hlength : ((sys.shared.tables.committed .users).filter
        (fun u => u.email==address)).length≤1 := by
      refine committed_filter_length_le_one sys.shared.tables .users (fun u => u.email==address)
        fun n m a b ha hb hea heb => ?_
      exact hinv.single ∅ n m a b ha hb (eq_of_beq hea) (eq_of_beq heb)
    have hone : (sys.shared.tables.committed .users).filter (fun u => u.email==address)=[user] := by
      have hpos := List.length_pos_of_mem hmem
      obtain ⟨only,honly⟩ := List.length_eq_one_iff.mp (Nat.le_antisymm hlength hpos)
      rw [honly] at hmem ⊢
      rw [List.mem_singleton.mp hmem]
    have haudit : event∈sys.shared.tables.committed .auditEvents :=
      List.mem_filterMap.mpr ⟨c',hc',he⟩
    exact ⟨user,hone,⟨event,haudit,hrecords⟩,fun email choices hemail =>
      finds_account choices hone hemail⟩

/-- Before the first call. -/
theorem Registering.idle {env : Environment} {db : Database authSchema}
    (hdb : ∀ u∈db .users,u.email≠address) :
    Registering address (idleSystem env db).shared [] fun _ => .start := by
  have hcell : ∀ (t : Table),∀ c∈(idleTables db).cells t,c.holder=none ∧
      ∃ r∈db t,c=⟨some r,none,none⟩ := by
    intro t c hc
    obtain ⟨r,hr,rfl⟩ := List.mem_map.mp hc
    exact ⟨rfl,r,hr,rfl⟩
  have hnobody : ∀ S n (a : User),mergedAt S ((idleTables db).cells .users) n=some a →
      a.email≠address := by
    intro S n a ha
    rw [mergedAt_idleTables] at ha
    exact hdb a (List.mem_of_getElem? ha)
  refine ⟨?_,?_,?_,?_,?_,?_,?_,?_,?_,?_⟩
  · intro i j u v hi
    cases hi
  · intro c hc i hi
    rw [(hcell .users c hc).1] at hi
    cases hi
  · intro c hc i hi
    rw [(hcell .auditEvents c hc).1] at hi
    cases hi
  · intro i u hi
    rcases hi with hi|hi
    · cases hi
    · cases hi
  · intro i u hi
    cases hi
  · intro i u hi
    cases hi
  · intro c hc u hu haddress
    obtain ⟨_,r,hr,rfl⟩ := hcell .users c hc
    have hru : r=u := Option.some.inj hu
    subst hru
    exact absurd haddress (hdb r hr)
  · intro S n m a b ha _ hea _
    exact absurd hea (hnobody S n a ha)
  · intro i hi
    cases hi
  · intro event hevent
    cases hevent

/-- An address nobody has is registered once by any number of concurrent calls,
as long as none of them inserts its account while another one has the address. -/
theorem registered_once {d : Deployment} {env : Environment} {db : Database authSchema}
    {sys : AuthSystem} (hdb : ∀ u∈db .users,u.email≠address)
    (h : authMachine.Reaches (fun sys mv => Calls d address sys mv ∧ InsertsFree address sys mv)
      (idleSystem env db) sys) : RegisteredOnce d address sys := by
  have hstart : Tracks (protocol address) .start Justified (Inv address) (idleSystem env db)
      fun _ => .start := by
    refine ⟨⟨Registering.idle hdb,fun _ => nofun,fun _ => nofun⟩,?_,fun _ _ => rfl⟩
    intro i p hp
    simp [idleSystem] at hp
  obtain ⟨states,ht⟩ := hstart.reaches (obligations d address) h
  exact Registering.registeredOnce ht

end Runs

section Samples

/-- A registration of the sample address. -/
def sampleRegistration : ClientRequest := fromClient (.register "a@b" "password1")

/-- The check that implies the condition. -/
def insertsFree (sys : AuthSystem) : AuthMove → Bool
  | .effect i _ =>
    match sys.procs[i]? with
    | some (some (.call (.sql (.insert .users row)) _)) =>
      (sys.shared.tables.cells .users).all fun c =>
        !c.committed.any (conflict .users row) && !c.working.any (conflict .users row)
    | _ => true
  | _ => true

/-- The decidable check of a move gives the condition on it. -/
theorem insertsFree_of_check {address : String} (sys : AuthSystem) (mv : AuthMove)
    (h : insertsFree sys mv=true) :
    InsertsFree address sys mv := by
  cases mv with
  | effect i choice =>
    intro _ row k hp c hc u hu
    simp only [insertsFree,hp,List.all_eq_true,Bool.and_eq_true,Bool.not_eq_true'] at h
    obtain ⟨hcommitted,hworking⟩ := h c hc
    rcases hu with hu|hu
    · rwa [hu] at hcommitted
    · rwa [hu] at hworking
  | _ => trivial

/-- Both sample requests register the watched address. -/
theorem registers_sample : Registers sampleDeployment "a@b" sampleRegistration :=
  ⟨⟨"a@b","password1",rfl,rfl,rfl⟩,by decide,by decide,by decide⟩

/-- A written schedule of sample registrations runs registrations only. -/
theorem calls_of_follow {check : AuthSystem → AuthMove → Bool} {D : AuthSystem → AuthMove → Prop}
    {env : Environment} {db : Database authSchema} {lines : List Directive} {sys : AuthSystem}
    (hlines : ∀ client,.start client∈lines → client=sampleRegistration)
    (hd : ∀ s mv,check s mv=true → D s mv)
    (h : follow sampleDeployment check env db lines=some sys) :
    authMachine.Reaches (fun s mv => Calls sampleDeployment "a@b" s mv ∧ D s mv)
      (idleSystem env db) sys := by
  refine Machine.Reaches.of_schedule .refl ?_ h
  intro mv hmv s hcheck
  refine ⟨?_,hd s mv hcheck⟩
  obtain ⟨line,hmem,hline⟩ := List.mem_flatMap.mp hmv
  cases line with
  | start client =>
    have hmove : mv=.spawn (served sampleDeployment client) := List.mem_singleton.mp hline
    have hclient := hlines client hmem
    subst hmove hclient
    exact ⟨sampleRegistration,rfl,registers_sample⟩
  | steps pid count =>
    obtain rfl := List.eq_of_mem_replicate hline
    trivial
  | choose pid choice =>
    obtain rfl := List.mem_singleton.mp hline
    trivial
  | finish pid =>
    obtain rfl := List.mem_singleton.mp hline
    trivial

/-- How a call of a system has ended: it has registered, it failed, or neither. -/
def ending (sys : AuthSystem) (i : ℕ) : Option (Option Failure) :=
  (sys.outcome i).map fun o => match o with
    | .ok _ => none
    | .error failure => some failure

/-- A registration that is seen to end with a failure has that outcome. -/
theorem outcome_of_ending {sys : AuthSystem} {i : ℕ} {failure : Failure}
    (h : ending sys i=some (some failure)) : sys.outcome i=some (.error failure) := by
  obtain ⟨o,ho,hend⟩ := Option.map_eq_some_iff.mp h
  cases o with
  | ok r => cases hend
  | error e =>
    have he : e=failure := Option.some.inj hend
    rw [ho,he]

/-- Two registrations of the sample address; the second one looks it up while
the first one hashes its password. -/
def sampleCollision : List Directive :=
  [.start sampleRegistration,.start sampleRegistration,.steps 0 1,.steps 1 1,.steps 0 5,.finish 0,
    .steps 1 3]

/-- The same two registrations, one after the other. -/
def sampleTurns : List Directive :=
  [.start sampleRegistration,.start sampleRegistration,.steps 0 6,.finish 0,.steps 1 3]

/-- Two overlapping registrations, one after the other's commit: one account. -/
theorem registered_once_sample : ∃ sys : AuthSystem,sys.procs.length=2 ∧
    ending sys 0=some none ∧ ending sys 1=some (some .userAlreadyExists) ∧
    RegisteredOnce sampleDeployment "a@b" sys := by
  have hrun : (follow sampleDeployment insertsFree sampleEnvironment (sampleDatabase [] [] [])
      sampleTurns).any (fun sys => decide (sys.procs.length=2) &&
        decide (ending sys 0=some none) &&
        decide (ending sys 1=some (some .userAlreadyExists)))=true := by
    decide +kernel
  obtain ⟨sys,hsys,hall⟩ := (Option.any_eq_true _ _).mp hrun
  simp only [Bool.and_eq_true,decide_eq_true_eq] at hall
  obtain ⟨⟨htwo,hfirst⟩,hsecond⟩ := hall
  have hlines : ∀ client,.start client∈sampleTurns → client=sampleRegistration := by
    intro client hmem
    simpa [sampleTurns] using hmem
  have hdb : ∀ u∈sampleDatabase [] [] [] .users,u.email≠"a@b" :=
    fun _ hu => absurd hu List.not_mem_nil
  exact ⟨sys,htwo,hfirst,hsecond,registered_once hdb
    (calls_of_follow hlines insertsFree_of_check hsys)⟩

/-- Two look-ups before either INSERT: the second registration ends at the
unique constraint instead of the conflict answer. -/
theorem registration_meets_constraint : ∃ sys,
    authMachine.Reaches (Calls sampleDeployment "a@b")
      (idleSystem sampleEnvironment (sampleDatabase [] [] [])) sys ∧
    sys.outcome 1=some (.error .integrityError) ∧ ¬RegisteredOnce sampleDeployment "a@b" sys := by
  have hrun : (follow sampleDeployment (fun _ _ => true) sampleEnvironment
      (sampleDatabase [] [] []) sampleCollision).any (fun sys =>
        decide (ending sys 1=some (some .integrityError)))=true := by
    decide +kernel
  obtain ⟨sys,hsys,hend⟩ := (Option.any_eq_true _ _).mp hrun
  have hlines : ∀ client,.start client∈sampleCollision → client=sampleRegistration := by
    intro client hmem
    simpa [sampleCollision] using hmem
  have hreached := calls_of_follow (D := fun _ _ => True) hlines (fun _ _ _ => trivial) hsys
  have hlost := outcome_of_ending (of_decide_eq_true hend)
  refine ⟨sys,hreached.mono fun _ _ hc => hc.1,hlost,fun h => ?_⟩
  rcases h.ends 1 _ hlost with ⟨r,hok⟩|hexists
  · cases hok
  · cases hexists

end Samples

end BackendPlatform.Registrations
