import BackendPlatform.OwnedVersions
import BackendPlatform.RecordedAnswers

/-!
# No session without its sign-in event

A request commits the sessions it opens only together with the event of the
sign-in. However requests overlap, and wherever they are killed, every
committed session was there at the start or the request that inserted it has
its event in the committed audit trail.
-/

set_option autoImplicit false

namespace BackendPlatform.AuditedSessions

open ProgramTrees InterleavedRuns TransactionalTables RowLocking CommittedJournals OwnedVersions
open AuthRecords AuthEffects AuthRepositories AuthServices AuthFlows AuthFootprints
open ConcurrentRequests EvidencedRequests LastingRecords AuditTrail RecordedAnswers
open AuthService RefreshTokenService TwoFactorService Endpoints

section Rules

/-- What a request has logged and which sessions its transaction opens. -/
structure Ledger where
  /-- What it has logged. -/
  trail : Trail
  /-- The sessions that wait for the commit. -/
  opened : List UserSession

/-- The sessions of the transaction after an effect. -/
def nextOpened (opened : List UserSession) : (op : Effect) → op.Reply → List UserSession
  | .sql (.insert .userSessions session),reply => match (reply : Insertion) with
    | .inserted => session::opened
    | _ => opened
  | .sql .commit,_ => []
  | .sql .rollback,_ => []
  | _,_ => opened

/-- The event is the one of a sign-in of the user of the session. -/
def Covers (d : Deployment) (event : AuditEvent) (session : UserSession) : Prop :=
  ∃ client payload, event=success d client "auth.login.success" (some session.userId) payload

/-- Every session that waits has an event that waits. -/
def Covered (d : Deployment) (ledger : Ledger) : Prop :=
  ∀ session∈ledger.opened, ∃ event∈ledger.trail.pending, Covers d event session

/-- The protocol of a request: it only commits sessions with their events. -/
def protocol (d : Deployment) : Protocol authSignature Ledger where
  Moves ledger op r ledger' := (op=.sql .commit → Covered d ledger) ∧
    ledger'=⟨after ledger.trail op r,nextOpened ledger.opened op r⟩
  Offers _ _ _ := True

/-- A protocol that also restricts the effects. -/
def guarded {σ : Signature} {St : Type} (P : σ.Op → Prop) (A : Protocol σ St) : Protocol σ St where
  Moves s op r s' := P op ∧ A.Moves s op r s'
  Offers := A.Offers

/-- A program inside a footprint follows the protocol restricted to it. -/
theorem follows_guarded {σ : Signature} {St ε α : Type} {P : σ.Op → Prop} {A : Protocol σ St}
    {p : Program σ ε α} {s : St} {Q : St → Except ε α → Prop} (hp : p.Within P)
    (h : p.Follows A s Q) : p.Follows (guarded P A) s Q := by
  induction p generalizing s with
  | pure a => exact h
  | raise e => exact h
  | call op k ih =>
    intro r hr
    obtain ⟨s',hmoves,hk⟩ := h r hr
    exact ⟨s',⟨hp.1,hmoves⟩,ih r (hp.2 r) hk⟩

variable {d : Deployment} {α β : Type} {ledger : Ledger}

/-- An action that keeps to the protocol and ends in a result that satisfies
the postcondition. -/
abbrev Ends (d : Deployment) (ledger : Ledger) (p : Action α) (Q : Ledger → α → Prop) : Prop :=
  p.Follows (protocol d) ledger fun ledger' o => ∀ a, o=.ok a → Q ledger' a

/-- A returned value ends the request where the ledger stands. -/
theorem ends_pure {Q : Ledger → α → Prop} {a : α} (h : Q ledger a) :
    Ends d ledger (.pure a : Action α) Q := by
  rintro _ ⟨⟩
  exact h

/-- A failure owes nothing. -/
theorem ends_raise {Q : Ledger → α → Prop} (e : Failure) :
    Ends d ledger (.raise e : Action α) Q := by
  rintro _ ⟨⟩

/-- The second part continues on the ledger that the first one left. -/
theorem Ends.bind {p : Action α} {f : α → Action β} {Q : Ledger → α → Prop}
    {R : Ledger → β → Prop} (hp : Ends d ledger p Q)
    (hf : ∀ ledger' a, Q ledger' a → Ends d ledger' (f a) R) : Ends d ledger (p.bind f) R :=
  Program.Follows.bind hp (fun ledger' a hq => hf ledger' a (hq a rfl)) fun _ _ _ => by
    rintro _ ⟨⟩

/-- An effect leaves the sessions of its transaction alone. -/
def Leaves (op : Effect) : Prop := ∀ opened r, nextOpened opened op r=opened

/-- An effect without an insert of a session and without the end of a
transaction leaves the ledger alone. -/
theorem leaves_of_uses {op : Effect} (hinsert : Access.insert .userSessions∉accesses op)
    (hcommit : Access.commit∉accesses op) (hrollback : Access.rollback∉accesses op) :
    Leaves op := by
  intro opened r
  cases op with
  | external op => rfl
  | sql stmt =>
    cases stmt with
    | insert t row =>
      cases t with
      | userSessions => exact absurd (List.mem_singleton_self _) hinsert
      | _ => rfl
    | commit => exact absurd (List.mem_singleton_self _) hcommit
    | rollback => exact absurd (List.mem_singleton_self _) hrollback
    | _ => rfl

/-- An access that neither opens a session nor ends the transaction. -/
def Inner (a : Access) : Prop := a≠.insert .userSessions ∧ a≠.commit ∧ a≠.rollback

instance (a : Access) : Decidable (Inner a) := inferInstanceAs (Decidable (_ ∧ _ ∧ _))

/-- Actions that only make such accesses keep the sessions. -/
theorem ends_inner {p : Action α} {fp : List Access} (h : Inside p fp) (hfp : ∀ a∈fp, Inner a) :
    Ends d ledger p fun ledger' _ => ledger'.opened=ledger.opened := by
  induction p generalizing ledger with
  | pure a => exact ends_pure rfl
  | raise e => exact ends_raise e
  | call op k ih =>
    intro r _
    have hinner : ∀ a∈accesses op, Inner a := fun a ha => hfp a (h.1 a ha)
    have hleaves : Leaves op := leaves_of_uses (fun ha => (hinner _ ha).1 rfl)
      (fun ha => (hinner _ ha).2.1 rfl) fun ha => (hinner _ ha).2.2 rfl
    refine ⟨_,⟨?_,rfl⟩,(ih r (h.2 r)).mono fun _ _ hq a ha =>
      (hq a ha).trans (hleaves ledger.opened r)⟩
    rintro rfl
    exact absurd rfl (hinner .commit (List.mem_singleton_self _)).2.1

/-- Without a session that waits, actions that open none may also commit. -/
theorem ends_outer {p : Action α} {fp : List Access} (h : Inside p fp)
    (hfp : ∀ a∈fp, a≠.insert .userSessions) (hledger : ledger.opened=[]) :
    Ends d ledger p fun ledger' _ => ledger'.opened=[] := by
  induction p generalizing ledger with
  | pure a => exact ends_pure hledger
  | raise e => exact ends_raise e
  | call op k ih =>
    intro r _
    have hnext : nextOpened ledger.opened op r=[] := by
      rw [hledger]
      by_cases hends : Access.commit∈accesses op ∨ Access.rollback∈accesses op
      · cases op with
        | external op => rfl
        | sql stmt =>
          cases stmt with
          | insert t row => rcases hends with hends|hends <;> simp [accesses] at hends
          | _ => rfl
      · obtain ⟨hcommit,hrollback⟩ := not_or.mp hends
        exact leaves_of_uses (fun ha => hfp _ (h.1 _ ha) rfl) hcommit hrollback [] r
    refine ⟨_,⟨fun _ => ?_,rfl⟩,ih r (h.2 r) hnext⟩
    intro session hsession
    rw [hledger] at hsession
    cases hsession

/-- A transaction with the sessions of one user commits with the event of the sign-in. -/
theorem ends_signed {client : ClientRequest} {userId : UUID} {payload : List (String×PyValue)}
    {next : Action α} {Q : Ledger → α → Prop}
    (hledger : ∀ session∈ledger.opened, session.userId=userId)
    (hnext : ∀ ledger', Ends d ledger' next Q) :
    Ends d ledger ((AuditService.logEvent d "auth.login.success" "success" (some userId)
      (some userId)
      client.ipAddress client.userAgent payload).bind fun _ => commit.bind fun _ => next) Q := by
  intro o _
  refine ⟨_,⟨by rintro ⟨⟩,rfl⟩,?_⟩
  cases o with
  | inserted =>
    refine fun r _ => ⟨_,⟨fun _ session hsession => ?_,rfl⟩,hnext _⟩
    refine ⟨success d client "auth.login.success" (some userId) payload,List.mem_cons_self,client,
      payload,?_⟩
    rw [hledger session hsession]
  | duplicateKey => exact ends_raise _
  | invalidValue => exact ends_raise _

end Rules

section Requests

variable {d : Deployment} {client : ClientRequest} {ledger : Ledger} {α : Type}

/-- Issued tokens open sessions of their user only. -/
theorem ends_issueForUser (hledger : ledger.opened=[]) (userId : UUID) (ip ua : Option String) :
    Ends d ledger (issueForUser d userId ip ua) fun ledger' _ =>
      ∀ session∈ledger'.opened, session.userId=userId := by
  have huuid : ∀ ledger, Ends d ledger uuid4 fun ledger' _ => ledger'.opened=ledger.opened :=
    fun _ => fun _ _ => ⟨_,⟨by rintro ⟨⟩,rfl⟩,ends_pure rfl⟩
  refine (huuid ledger).bind fun ledger₁ familyId h₁ =>
    Ends.bind (Q := fun ledger' _ => ∀ session∈ledger'.opened, session.userId=userId) ?_
      fun ledger₂ session h₂ => (huuid ledger₂).bind fun ledger₃ jti h₃ =>
      (ends_inner (inside_issueRefreshToken d _ _ _ _) (by decide)).bind fun ledger₄ token h₄ =>
      (ends_inner (inside_insertRow .refreshTokens _) (by decide)).bind fun ledger₅ _ h₅ =>
      (ends_inner (inside_issueAccessToken d _ _) (by decide)).bind fun ledger₆ _ h₆ =>
      ends_pure ?_
  · refine (huuid ledger₁).bind fun ledger₂ id h₂ => ?_
    have hnone : ledger₂.opened=[] := h₂.trans (h₁.trans hledger)
    intro o _
    refine ⟨_,⟨by rintro ⟨⟩,rfl⟩,?_⟩
    cases o with
    | inserted =>
      refine ends_pure fun session hsession => ?_
      have hsession : session∈
          (⟨id,userId,familyId,ip,ua,none,none⟩ : UserSession)::ledger₂.opened := hsession
      rw [hnone] at hsession
      rw [List.mem_singleton.mp hsession]
    | duplicateKey => exact ends_raise _
    | invalidValue => exact ends_raise _
  · rw [h₆,h₅,h₄,h₃]
    exact h₂

/-- Granting access opens one session and logs it in the same transaction. -/
theorem ends_grantAccess (hledger : ledger.opened=[]) (user : LoadedUser)
    (email identifier : String) :
    Ends d ledger (grantAccess d user email identifier client.ipAddress client.userAgent)
      fun _ _ => True := by
  refine (ends_inner (inside_clearFailures d _ _) (by decide)).bind fun ledger₁ _ h₁ =>
    (ends_inner (inside_clearFailures d _ _) (by decide)).bind fun ledger₂ _ h₂ => ?_
  simp only [Program.monad_bind,Program.monad_pure]
  split
  · exact (ends_inner (inside_createLoginChallenge d _ _) (by decide)).bind fun _ _ _ =>
      ends_pure trivial
  · exact (ends_issueForUser (h₂.trans (h₁.trans hledger)) _ _ _).bind fun _ _ hopened =>
      ends_signed hopened fun _ => ends_pure trivial

/-- A login ends with the session it opened logged. -/
theorem ends_login (client : ClientRequest) (hledger : ledger.opened=[])
    (email password : String) :
    Ends d ledger (login d email password client.ipAddress client.userAgent) fun _ _ => True := by
  have hreject : ∀ {ledger : Ledger} user email identifier, ledger.opened=[] → Ends d ledger
      (rejectPassword d user email identifier client.ipAddress client.userAgent)
      fun _ _ => True := by
    intro ledger user email identifier hnone
    exact (ends_outer (inside_rejectPassword d user email identifier _ _) (by decide) hnone).mono
      fun _ _ _ _ _ => trivial
  refine (ends_inner (inside_load _) (by decide)).bind fun ledger₁ found h₁ => ?_
  have h₁ := h₁.trans hledger
  cases found with
  | none =>
    exact (ends_inner (inside_assertNotLocked d _ _) (by decide)).bind fun _ _ h₂ =>
      hreject _ _ _ (h₂.trans h₁)
  | some user =>
    simp only [Program.monad_throw,Program.monad_bind]
    split
    · exact ends_raise _
    · refine (ends_inner (inside_assertNotLocked d _ _) (by decide)).bind fun ledger₂ _ h₂ =>
        (ends_inner (inside_assertNotLocked d _ _) (by decide)).bind fun ledger₃ _ h₃ => ?_
      have h₃ := h₃.trans (h₂.trans h₁)
      split
      · exact hreject _ _ _ h₃
      · split
        · exact (ends_outer (inside_refuse d _ _ _ _ _) (by decide) h₃).mono
            fun _ _ _ _ _ => trivial
        · exact ends_grantAccess h₃ _ _ _

/-- Accesses of the second step that open no session. -/
def factorStep : List Access := secondStep.filter fun a => a≠.insert .userSessions

/-- The second factor ends with the session it opened logged. -/
theorem ends_answerChallenge (hledger : ledger.opened=[]) (user : LoadedUser)
    (challengeId identifier : String) (totp backup : Option String) :
    Ends d ledger (answerChallenge d user challengeId identifier totp backup client.ipAddress
      client.userAgent) fun _ _ => True := by
  refine (ends_outer (show Inside _ factorStep from Program.within_handle
    ((inside_verifyForLogin d user totp backup).widen rfl) fun failure => ?_) (by decide)
    hledger).bind fun ledger₁ factor h₁ => ?_
  · simp only [Program.monad_throw,Program.monad_bind]
    split
    · exact inside_bind ((inside_recordFailure _ _ _).widen rfl) fun _ =>
        (inside_refuse _ _ _ _ _ _).widen rfl
    · trivial
  · refine (ends_inner (inside_clearFailures d _ _) (by decide)).bind fun ledger₂ _ h₂ =>
      (ends_inner (inside_deleteLoginChallenge _) (by decide)).bind fun ledger₃ _ h₃ =>
      (ends_inner (inside_flushFactor factor) (by decide)).bind fun ledger₄ _ h₄ => ?_
    have h₄ := h₄.trans (h₃.trans (h₂.trans h₁))
    exact (ends_issueForUser h₄ _ _ _).bind fun _ _ hopened =>
      ends_signed hopened fun _ => ends_pure trivial

/-- The second step of a sign-in ends with the session it opened logged. -/
theorem ends_verifyLoginChallenge (client : ClientRequest) (hledger : ledger.opened=[])
    (challengeId : String) (totp backup : Option String) :
    Ends d ledger (verifyLoginChallenge d challengeId totp backup client.ipAddress
      client.userAgent) fun _ _ => True := by
  have hrefuse : ∀ {ledger : Ledger} userId payload failure, ledger.opened=[] → Ends d ledger
      (refuse d userId client.ipAddress client.userAgent payload failure : Action TokenPair)
      fun _ _ => True := by
    intro ledger userId payload failure hnone
    exact (ends_outer (inside_refuse d _ _ _ _ _) (by decide) hnone).mono fun _ _ _ _ _ => trivial
  refine (ends_inner (inside_assertNotLocked d _ _) (by decide)).bind fun ledger₁ _ h₁ =>
    (ends_inner (inside_getLoginChallenge challengeId) (by decide)).bind fun ledger₂ found h₂ => ?_
  have h₂ := h₂.trans (h₁.trans hledger)
  cases found with
  | none => exact ends_raise _
  | some challenge =>
    simp only [Program.monad_throw,Program.monad_bind]
    split
    · exact (ends_inner (inside_recordFailure d _ _) (by decide)).bind fun _ _ h₃ =>
        (ends_inner (inside_deleteLoginChallenge _) (by decide)).bind fun _ _ h₄ =>
        hrefuse _ _ _ (h₄.trans (h₃.trans h₂))
    · split
      · exact ends_raise _
      · refine (ends_inner (inside_load _) (by decide)).bind fun ledger₃ found h₃ => ?_
        have h₃ := h₃.trans h₂
        cases found with
        | none => exact ends_raise _
        | some user =>
          dsimp only
          split
          · exact (ends_inner (inside_deleteLoginChallenge _) (by decide)).bind fun _ _ h₄ =>
              hrefuse _ _ _ (h₄.trans h₃)
          · exact ends_answerChallenge h₃ _ _ _ _ _

/-- Every request keeps to the protocol. -/
theorem ends_served (hledger : ledger.opened=[]) :
    Ends d ledger (served d client) fun _ _ => True := by
  refine Ends.bind (Q := fun _ _ => True) ?_ fun _ _ _ => ends_pure trivial
  by_cases hopens : Access.insert .userSessions∈footprint client.request
  · obtain ⟨request,ip,ua⟩ := client
    cases request with
    | login email password =>
      exact (ends_login ⟨.login email password,ip,ua⟩ hledger email password).bind
        fun _ _ _ => ends_pure trivial
    | verifyLoginChallenge challengeId totp backup =>
      exact (ends_verifyLoginChallenge ⟨.verifyLoginChallenge challengeId totp backup,ip,ua⟩
        hledger challengeId totp backup).bind fun _ _ _ => ends_pure trivial
    | _ => exact absurd hopens (of_decide_eq_true rfl)
  · refine (ends_outer (inside_respond d client) (fun a ha hinsert => ?_) hledger).mono
      fun _ _ _ _ _ => trivial
    subst hinsert
    exact hopens ha

end Requests

section Runs

variable {d : Deployment} {env : Environment} {db : Database authSchema} {sys : AuthSystem}
  {history history' : List (Event authSignature)} {trails trails' : ℕ → Trail}
  {opened : ℕ → List UserSession}

/-- What requests may do to the tables. -/
def Lawful (op : Effect) : Prop := Respects op ∧ Appending op

/-- Every served request stays within the effects the ledger follows. -/
theorem lawful_served (d : Deployment) (client : ClientRequest) :
    (served d client).Within Lawful := by
  have hquiet : ∀ a∈footprint client.request, Quiet a := by
    cases client.request with
    | _ => exact of_decide_eq_true rfl
  have happending : (respond d client).Within Appending := Program.within_mono
    (fun _ huses => appending_of_quiet fun a ha => hquiet a (huses a ha)) (inside_respond d client)
  exact Program.within_bind (Program.within_and (ageless_respond d client) happending)
    fun _ => trivial

/-- The session was inserted by this request. -/
def Entered (history : List (Event authSignature)) (pid : ℕ) (session : UserSession) : Prop :=
  answered history pid (.sql (.insert .userSessions session)) Insertion.inserted

/-- The session was there at the start, or the event of its sign-in is on record. -/
def Accounted (d : Deployment) (db : Database authSchema) (history : List (Event authSignature))
    (trails : ℕ → Trail) (session : UserSession) : Prop :=
  (∃ old∈db .userSessions, asOpened old=asOpened session) ∨
    ∃ pid first event, Entered history pid first ∧ asOpened first=asOpened session ∧
      Covers d event first ∧ event∈(trails pid).recorded

/-- Or it waits in the transaction. -/
def Waiting (P : UserSession → Prop) (opened : ℕ → List UserSession) (p : ℕ)
    (session : UserSession) : Prop :=
  P session ∨ ∃ first∈opened p, asOpened first=asOpened session

/-- An accounted session stays so as the history and the trails grow. -/
theorem Accounted.mono (hsub : history⊆history')
    (hrecorded : ∀ p, ∀ event∈(trails p).recorded, event∈(trails' p).recorded)
    {session : UserSession} (h : Accounted d db history trails session) :
    Accounted d db history' trails' session := by
  refine h.imp_right ?_
  rintro ⟨pid,first,event,hentered,hsame,hcovers,hevent⟩
  exact ⟨pid,first,event,hsub hentered,hsame,hcovers,hrecorded pid event hevent⟩

/-- Later versions of a session are accounted for as it is. -/
theorem Accounted.same {a b : UserSession} (hsame : asOpened b=asOpened a)
    (h : Accounted d db history trails a) : Accounted d db history trails b := by
  simpa only [Accounted,hsame] using h

/-- What waits for its commit depends on the session as it was opened only. -/
theorem Waiting.same {a b : UserSession} {p : ℕ} (hsame : asOpened b=asOpened a)
    (h : Waiting (Accounted d db history trails) opened p a) :
    Waiting (Accounted d db history trails) opened p b := by
  rcases h with haccounted|⟨first,hfirst,hopened⟩
  · exact .inl (haccounted.same hsame)
  · exact .inr ⟨first,hfirst,hopened.trans hsame.symm⟩

/-- What was waited for stays or is committed by its own process only. -/
theorem Waiting.mono {P P' : UserSession → Prop} {opened opened' : ℕ → List UserSession} {p : ℕ}
    {session : UserSession} (hP : ∀ session, P session → P' session)
    (hopened : ∀ first∈opened p, first∈opened' p) (h : Waiting P opened p session) :
    Waiting P' opened' p session :=
  h.imp (hP session) fun hwaits => hwaits.imp fun first hfirst =>
    ⟨hopened first hfirst.1,hfirst.2⟩

/-- A waiting session was waiting before or is the one just inserted. -/
theorem mem_nextOpened {waiting : List UserSession} {pid : ℕ} {op : Effect} {r : op.Reply}
    {session : UserSession} (h : session∈nextOpened waiting op r) : session∈waiting ∨
      (⟨pid,op,r⟩ : Event authSignature)=
        ⟨pid,.sql (.insert .userSessions session),Insertion.inserted⟩ := by
  cases op with
  | external op => exact .inl h
  | sql stmt =>
    cases stmt with
    | insert t row =>
      cases t with
      | userSessions =>
        cases r with
        | inserted =>
          rcases List.mem_cons.mp h with rfl|hold
          · exact .inr rfl
          · exact .inl hold
        | _ => exact .inl h
      | _ => exact .inl h
    | commit => cases h
    | rollback => cases h
    | _ => exact .inl h

/-- Only the end of a transaction takes sessions from those that wait. -/
theorem subset_nextOpened {waiting : List UserSession} {stmt : Statement authSchema}
    {r : stmt.Reply} (hcommit : stmt≠.commit) (hrollback : stmt≠.rollback) :
    waiting⊆nextOpened waiting (.sql stmt) r := by
  cases stmt with
  | insert t row =>
    cases t with
    | userSessions =>
      cases r with
      | inserted => exact List.subset_cons_self _ _
      | _ => exact List.Subset.refl _
    | _ => exact List.Subset.refl _
  | commit => exact absurd rfl hcommit
  | rollback => exact absurd rfl hrollback
  | _ => exact List.Subset.refl _

/-- The invariant of runs: committed sessions are accounted for, held ones may
still wait for the commit. -/
structure Audited (d : Deployment) (db : Database authSchema) (s : Shared)
    (history : List (Event authSignature)) (ledgers : ℕ → Ledger) : Prop where
  /-- The audit trail holds what the ledgers say. -/
  trailed : Trailed s history (Ledger.trail∘ledgers)
  /-- Sessions that wait were inserted by their process. -/
  entered : ∀ p, ∀ session∈(ledgers p).opened, Entered history p session
  /-- The versions of the sessions. -/
  versions : Versioned (Accounted d db history (Ledger.trail∘ledgers))
    (Waiting (Accounted d db history (Ledger.trail∘ledgers)) (Ledger.opened∘ledgers))
    (s.tables.cells .userSessions)

/-- What a transaction with events for its sessions commits is accounted for. -/
theorem Audited.publish {s : Shared} {ledgers : ℕ → Ledger} {pid : ℕ} {session : UserSession}
    (h : Audited d db s history ledgers) (hcovered : Covered d (ledgers pid))
    (hsub : history⊆history')
    (hrecorded : ∀ p, ∀ event∈((Ledger.trail∘ledgers) p).recorded, event∈(trails' p).recorded)
    (hpending : ∀ event∈(ledgers pid).trail.pending, event∈(trails' pid).recorded)
    (hwaiting : Waiting (Accounted d db history (Ledger.trail∘ledgers)) (Ledger.opened∘ledgers)
      pid session) : Accounted d db history' trails' session := by
  rcases hwaiting with haccounted|⟨first,hfirst,hsame⟩
  · exact haccounted.mono hsub hrecorded
  · obtain ⟨event,hevent,hcovers⟩ := hcovered first hfirst
    exact .inr ⟨pid,first,event,hsub (h.entered pid first hfirst),hsame,hcovers,
      hpending event hevent⟩

/-- An answered effect of a request keeps the invariant. -/
theorem Audited.answer {s s' : Shared} {ledgers : ℕ → Ledger} {pid choice : ℕ} {op : Effect}
    {r : op.Reply} (h : Audited d db s history ledgers) (hlawful : Lawful op)
    (hcovered : op=.sql .commit → Covered d (ledgers pid))
    (hf : authMachine.fire pid op choice s=some (some r,s')) :
    Audited d db s' (⟨pid,op,r⟩::history) (Function.update ledgers pid
      ⟨after (ledgers pid).trail op r,nextOpened (ledgers pid).opened op r⟩) := by
  have htrailed : Trailed s' (⟨pid,op,r⟩::history) (Function.update (Ledger.trail∘ledgers) pid
      (after (ledgers pid).trail op r)) := h.trailed.answer hlawful.2 hf
  have hrecorded : ∀ p, ∀ event∈((Ledger.trail∘ledgers) p).recorded,
      event∈(Function.update (Ledger.trail∘ledgers) pid
        (after (ledgers pid).trail op r) p).recorded :=
    recorded_update fun _ hevent => recorded_after hevent
  have hsub : history⊆⟨pid,op,r⟩::history := List.subset_cons_self _ _
  have haccounted : ∀ session, Accounted d db history (Ledger.trail∘ledgers) session →
      Accounted d db (⟨pid,op,r⟩::history) (Function.update (Ledger.trail∘ledgers) pid
        (after (ledgers pid).trail op r)) session := fun session => .mono hsub hrecorded
  have hother : ∀ j session, j≠pid →
      Waiting (Accounted d db history (Ledger.trail∘ledgers)) (Ledger.opened∘ledgers) j session →
      Waiting (Accounted d db (⟨pid,op,r⟩::history) (Function.update (Ledger.trail∘ledgers) pid
        (after (ledgers pid).trail op r))) (Function.update (Ledger.opened∘ledgers) pid
        (nextOpened (ledgers pid).opened op r)) j session := by
    intro j session hj hwaiting
    refine hwaiting.mono haccounted fun first hfirst => ?_
    rw [Function.update_of_ne hj]
    exact hfirst
  have hversions := h.versions.mono haccounted fun _ _ => id
  refine ⟨by rw [Function.comp_update]; exact htrailed,fun p session hsession => ?_,?_⟩
  · by_cases hp : p=pid
    · subst hp
      rw [Function.update_self] at hsession
      rcases mem_nextOpened hsession with hold|hnew
      · exact hsub (h.entered p session hold)
      · rw [hnew]
        exact List.mem_cons_self
    · rw [Function.update_of_ne hp] at hsession
      exact hsub (h.entered p session hsession)
  · rw [Function.comp_update,Function.comp_update]
    cases op with
    | external op =>
      rw [(fire_external hf).2]
      refine hversions.mono (fun _ => id) fun p session hwaiting => ?_
      by_cases hp : p=pid
      · subst hp
        refine hwaiting.mono haccounted fun first hfirst => ?_
        rw [Function.update_self]
        exact hfirst
      · exact hother p session hp hwaiting
    | sql stmt =>
      have htables := (fire_sql hf).1
      by_cases hcommit : stmt=.commit
      · subst hcommit
        rw [←(Prod.mk.inj (Option.some.inj htables)).2]
        refine hversions.settle (fun session hwaiting => ?_) hother
        refine h.publish (hcovered rfl) hsub hrecorded (fun event hevent => ?_) hwaiting
        rw [Function.update_self]
        exact List.mem_append_left _ hevent
      · by_cases hrollback : stmt=.rollback
        · subst hrollback
          rw [←(Prod.mk.inj (Option.some.inj htables)).2]
          exact hversions.release hother
        · have hopened : (ledgers pid).opened⊆nextOpened (ledgers pid).opened (.sql stmt) r :=
            subset_nextOpened hcommit hrollback
          have hmine : ∀ session, Waiting (Accounted d db history (Ledger.trail∘ledgers))
              (Ledger.opened∘ledgers) pid session → Waiting (Accounted d db
                (⟨pid,.sql stmt,r⟩::history) (Function.update (Ledger.trail∘ledgers) pid
                (after (ledgers pid).trail (.sql stmt) r))) (Function.update (Ledger.opened∘ledgers)
                pid (nextOpened (ledgers pid).opened (.sql stmt) r)) pid session := by
            intro session hwaiting
            refine hwaiting.mono haccounted fun first hfirst => ?_
            rw [Function.update_self]
            exact hopened hfirst
          have hnext := hversions.mono (fun _ => id) fun p session hwaiting =>
            (eq_or_ne p pid).elim (fun hp => hp▸hmine session (hp▸hwaiting))
              fun hp => hother p session hp hwaiting
          refine Versioned.fire (D := authSchema) (t := Table.userSessions) hnext
            (fun session => Or.inl) hcommit hrollback ?_ ?_ ?_ htables
          · rintro q f rfl session hq hwaiting
            have hlater : Later .userSessions session (f session) :=
              hlawful.1 (show Lasting .userSessions by decide) session hq
            exact hwaiting.same hlater.1
          · rintro q rfl
            exact hlawful.1 (show Lasting .userSessions by decide)
          · rintro row ⟨⟩
            refine .inr ⟨row,?_,rfl⟩
            rw [Function.update_self]
            exact List.mem_cons_self

/-- The obligations of runs. -/
theorem duties (d : Deployment) (db : Database authSchema) :
    Duties authMachine (guarded Lawful (protocol d)) ⟨Journal.empty,[]⟩ (fun _ _ => True)
      (Audited d db) (Starts d) fun ledger => ⟨ledger.trail.release,[]⟩ where
  spawn sys p hc := by
    obtain ⟨client,rfl⟩ := hc
    exact follows_guarded (lawful_served d client) ((ends_served rfl).mono fun _ _ _ => trivial)
  outcome _ _ _ := trivial
  progress sys ledgers i op k c s ht _ _ hf := by
    have hinv : Audited d db sys.shared sys.history ledgers := ht.inv
    refine ⟨{hinv.trailed with backed := ?_},hinv.entered,?_⟩
    · rw [(fire_progress hf).1]
      exact hinv.trailed.backed
    · rw [(fire_progress hf).1]
      exact hinv.versions
  offer _ _ _ _ _ _ _ _ _ _ _ _ := trivial
  answer sys ledgers i op k c r s t ht _ _ hm hf := by
    obtain ⟨hlawful,hcovered,rfl⟩ := hm
    exact Audited.answer ht.inv hlawful hcovered hf
  close sys ledgers i ht hi := by
    have hinv : Audited d db sys.shared sys.history ledgers := ht.inv
    have htrails : Ledger.trail∘Function.update ledgers i ⟨(ledgers i).trail.release,[]⟩=
        Function.update (Ledger.trail∘ledgers) i (ledgers i).trail.release :=
      Function.comp_update _ _ _ _
    have hrecorded : ∀ p, ∀ event∈((Ledger.trail∘ledgers) p).recorded,
        event∈(Function.update (Ledger.trail∘ledgers) i (ledgers i).trail.release p).recorded :=
      recorded_update fun _ hevent => hevent
    refine ⟨?_,fun p session hsession => ?_,?_⟩
    · rw [htrails]
      exact hinv.trailed.close i
    · by_cases hp : p=i
      · subst hp
        rw [Function.update_self] at hsession
        cases hsession
      · rw [Function.update_of_ne hp] at hsession
        exact hinv.entered p session hsession
    · rw [htrails,Function.comp_update]
      have haccounted : ∀ session, Accounted d db sys.history (Ledger.trail∘ledgers) session → _ :=
        fun session => Accounted.mono (List.Subset.refl _) hrecorded
      refine (hinv.versions.mono haccounted fun _ _ => id).release fun j session hj hwaiting => ?_
      refine hwaiting.mono haccounted fun first hfirst => ?_
      rw [Function.update_of_ne hj]
      exact hfirst

end Runs

end BackendPlatform.AuditedSessions
