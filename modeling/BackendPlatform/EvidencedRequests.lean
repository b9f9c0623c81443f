import BackendPlatform.ConcurrentRequests
import BackendPlatform.RowInvariants

/-!
# Requests that have a reason for what they write

A request keeps what it was answered, and before it writes a row or leaves a
challenge it has to know the reason: conditions say what has to be known for
which write. When every reason is one for the invariant of the rows, the
invariant holds in every run, however requests overlap, and the history of the
run holds the evidence.
-/

set_option autoImplicit false

namespace BackendPlatform.EvidencedRequests

open ProgramTrees InterleavedRuns ExpiringStore TransactionalTables RowLocking RowInvariants
open AuthRecords AuthEffects AuthRepositories AuthServices AuthFlows AuthFootprints
open ConcurrentRequests
open AuthService BruteForceProtectionService TwoFactorService

section Evidence

/-- What has been answered to a request. -/
abbrev Answers := (op : Effect) → op.Reply → Prop

/-- Nothing has been answered yet. -/
def noAnswers : Answers := fun _ _ => False

/-- One more answer. -/
def Answers.add (E : Answers) (op : Effect) (r : op.Reply) : Answers :=
  fun op' r' => E op' r' ∨ (⟨op',r'⟩ : Σ op : Effect,op.Reply)=⟨op,r⟩

/-- Recording one more answer keeps the answers there were. -/
theorem Answers.le_add (E : Answers) (op : Effect) (r : op.Reply) : E≤E.add op r :=
  fun _ _ h => .inl h

/-- The answer just recorded is among the answers. -/
theorem Answers.add_self (E : Answers) (op : Effect) (r : op.Reply) : E.add op r op r := .inr rfl

/-- A query returned the row. -/
def Looked (E : Answers) (t : Table) (row : Row t) : Prop :=
  ∃ (q : Row t → Bool) (rows : List (Row t)), row∈rows ∧
    (E (.sql (.select t q)) rows ∨ E (.sql (.selectForUpdate t q)) rows)

/-- A TOTP code of the confirmed secret for a later timecode than its last one. -/
structure AcceptedTotp (d : Deployment) (E : Answers) (user : User) (code : String)
    (record : TwoFactorSecret) (timecode : ℕ) : Prop where
  /-- The secret was looked up. -/
  looked : Looked E .twoFactorSecrets record
  /-- It is the secret of the user. -/
  owner : record.userId=user.id
  /-- It is confirmed. -/
  confirmed : record.confirmedAt≠none
  /-- The timecode is next to the clock. -/
  current : ∃ now, E (.external .now) now ∧
    timecode∈candidateTimecodes (now/1000000/d.settings.totpIntervalSeconds)
  /-- The code is that of the timecode. -/
  code : d.normalize code=d.normalize (d.totpAt record.encryptedSecret.secret timecode)
  /-- The timecode is a new one. -/
  fresh : ∀ last, record.lastUsedTimecode=some last → last<timecode

/-- A backup code that was not used. -/
structure AcceptedBackup (E : Answers) (user : User) (code : String) (row : BackupCode) :
    Prop where
  /-- The code was looked up. -/
  looked : Looked E .backupCodes row
  /-- It is a code of the user. -/
  owner : row.userId=user.id
  /-- It was not used. -/
  unused : row.usedAt=none
  /-- It is the code of the request. -/
  code : PasswordService.verifyPassword code row.codeHash=true

/-- An accepted second factor. -/
inductive Accepts (d : Deployment) (E : Answers) (user : User) (totp backup : Option String) : Prop
  /-- A TOTP code. -/
  | totp (code : String) (record : TwoFactorSecret) (timecode : ℕ) (hgiven : given totp=some code)
      (h : AcceptedTotp d E user code record timecode)
  /-- A backup code. -/
  | backup (code : String) (row : BackupCode) (hgiven : given backup=some code)
      (h : AcceptedBackup E user code row)

variable {d : Deployment} {E E' : Answers} {user : User}

/-- A row that was looked up stays looked up as answers are added. -/
theorem Looked.mono (hle : E≤E') {t : Table} {row : Row t} (h : Looked E t row) :
    Looked E' t row := by
  obtain ⟨q,rows,hrow,hquery⟩ := h
  exact ⟨q,rows,hrow,hquery.imp (hle _ _) (hle _ _)⟩

/-- Evidence of an accepted second factor survives further answers. -/
theorem Accepts.mono (hle : E≤E') {totp backup : Option String}
    (h : Accepts d E user totp backup) : Accepts d E' user totp backup := by
  cases h with
  | totp code record timecode hgiven h =>
    obtain ⟨now,hnow,hcandidate⟩ := h.current
    exact .totp code record timecode hgiven
      {h with looked := h.looked.mono hle, current := ⟨now,hle _ _ hnow,hcandidate⟩}
  | backup code row hgiven h =>
    exact .backup code row hgiven {h with looked := h.looked.mono hle}

end Evidence

section Rules

/-- What has to be known for which write. -/
structure Conditions where
  /-- A row is inserted. -/
  insert : Answers → (t : Table) → Row t → Prop
  /-- A row is updated to another one. -/
  change : Answers → (t : Table) → Row t → Row t → Prop
  /-- A challenge is left in Redis. -/
  challenge : Answers → String → LoginChallenge → Prop

/-- The request knows the reason for an effect. -/
def Provides (K : Conditions) (E : Answers) : Effect → Prop
  | .sql (.insert t row) => K.insert E t row
  | .sql (.update t q f) => ∀ row, q row=true → K.change E t row (f row)
  | .external (.redisSet (.loginChallenge challengeId) (.challenge challenge) _) =>
    K.challenge E challengeId challenge
  | _ => True

/-- Rows that a query returns meet its condition, and a signed token carries
the claims that were signed. -/
def Offered : (op : Effect) → op.Reply → Prop
  | .sql (.select _ q),rows => ∀ row∈rows, q row=true
  | .sql (.selectForUpdate _ q),rows => ∀ row∈rows, q row=true
  | .external (.sign payload),token => token=.signed payload 0
  | _,_ => True

/-- The protocol of a request: it keeps what it was answered. -/
def protocol (K : Conditions) : Protocol authSignature Answers where
  Moves E op r E' := Provides K E op ∧ E'=E.add op r
  Offers _ op r := Offered op r

variable {K : Conditions} {E E' : Answers} {α β : Type}

/-- An action that keeps to the protocol and ends in a result that satisfies
the postcondition. -/
abbrev Keeps (K : Conditions) (E : Answers) (p : Action α) (Q : Answers → α → Prop) : Prop :=
  p.Follows (protocol K) E fun E' o => E≤E' ∧ ∀ a, o=.ok a → Q E' a

/-- What an action comes to when it is given some of the answers. -/
inductive Comes (p : Action α) (E : Answers) : Action α → Prop
  /-- No answer yet. -/
  | start : Comes p E p
  /-- One more answer. -/
  | answer {op : Effect} {k : op.Reply → Action α} {r : op.Reply}
      (h : Comes p E (.call op k)) (hr : E op r) : Comes p E (k r)

/-- Further answers take nothing back. -/
theorem Comes.mono {p q : Action α} (hle : E≤E') (h : Comes p E q) : Comes p E' q := by
  induction h with
  | start => exact .start
  | answer _ hr ih => exact ih.answer (hle _ _ hr)

/-- Conditions may be replaced by others that hold wherever the action comes to
an effect. -/
theorem Comes.follows {K K' : Conditions} {p : Action α}
    (hprovides : ∀ E op k, Comes p E (.call op k) → Provides K E op → Provides K' E op)
    {q : Action α} {R : Answers → Except Failure α → Prop} (hq : Comes p E q)
    (h : q.Follows (protocol K) E R) : q.Follows (protocol K') E R := by
  induction q generalizing E with
  | pure a => exact h
  | raise e => exact h
  | call op k ih =>
    intro r hr
    obtain ⟨_,⟨hop,rfl⟩,hk⟩ := h r hr
    have hnext : Comes p (E.add op r) (k r) := (hq.mono (E.le_add op r)).answer (E.add_self op r)
    exact ⟨_,⟨hprovides E op k hq hop,rfl⟩,ih r hnext hk⟩

/-- A finished request keeps the conditions when its result meets the
postcondition. -/
theorem keeps_pure {Q : Answers → α → Prop} {a : α} (h : Q E a) :
    Keeps K E (.pure a : Action α) Q := by
  refine ⟨le_rfl,?_⟩
  rintro _ ⟨⟩
  exact h

/-- A raised failure has no result to justify. -/
theorem keeps_raise {Q : Answers → α → Prop} (e : Failure) :
    Keeps K E (.raise e : Action α) Q :=
  ⟨le_rfl,by rintro _ ⟨⟩⟩

/-- More was answered at the start. -/
theorem Keeps.later {p : Action α} {Q : Answers → α → Prop} (hle : E≤E')
    (h : Keeps K E' p Q) :
    p.Follows (protocol K) E' fun E'' o => E≤E'' ∧ ∀ a, o=.ok a → Q E'' a :=
  h.mono fun _ _ hq => ⟨hle.trans hq.1,hq.2⟩

/-- Sequencing: the second part starts from the answers the first one got. -/
theorem Keeps.bind {p : Action α} {f : α → Action β} {Q : Answers → α → Prop}
    {R : Answers → β → Prop} (hp : Keeps K E p Q)
    (hf : ∀ E' a, E≤E' → Q E' a → Keeps K E' (f a) R) : Keeps K E (p.bind f) R :=
  Program.Follows.bind hp (fun E' a hq => (hf E' a hq.1 (hq.2 a rfl)).later hq.1)
    fun _ _ hq => ⟨hq.1,by rintro _ ⟨⟩⟩

/-- One effect must be justified by the answers so far; its own answer justifies
what follows. -/
theorem keeps_call {op : Effect} {k : op.Reply → Action α} {Q : Answers → α → Prop}
    (hop : Provides K E op) (hk : ∀ r, Offered op r → Keeps K (E.add op r) (k r) Q) :
    Keeps K E (.call op k) Q := fun r hr =>
  ⟨E.add op r,⟨hop,rfl⟩,(hk r hr).later (E.le_add op r)⟩

/-- A handler starts from the answers of the part it caught the failure of. -/
theorem Keeps.handle {p : Action α} {h : Failure → Action α} {Q : Answers → α → Prop}
    (hp : Keeps K E p Q) (hh : ∀ E' e, E≤E' → Keeps K E' (h e) Q) : Keeps K E (p.handle h) Q :=
  Program.Follows.handle hp (fun _ _ hq => hq) fun E' e hq => (hh E' e hq.1).later hq.1

/-- A refusal returns nothing. -/
theorem Keeps.elim {p : Action α} {Q : Answers → α → Prop} (h : Keeps K E p fun _ _ => False) :
    Keeps K E p Q :=
  h.mono fun _ _ hq => ⟨hq.1,fun a ha => (hq.2 a ha).elim⟩

/-- Actions whose effects need no reason. -/
theorem keeps_of_within {P : Effect → Prop} {p : Action α} (h : p.Within P)
    (hP : ∀ op, P op → ∀ E, Provides K E op) : Keeps K E p fun _ _ => True := by
  induction p generalizing E with
  | pure a => exact keeps_pure trivial
  | raise e => exact keeps_raise e
  | call op k ih => exact keeps_call (hP op h.1 E) fun r _ => ih r (h.2 r)

/-- An access that the conditions allow for no reason. -/
def Allows (K : Conditions) : Access → Prop
  | .insert t => ∀ E row, K.insert E t row
  | .update t => ∀ E row row', K.change E t row row'
  | .redisWrite a => a=.challenge → ∀ E challengeId challenge, K.challenge E challengeId challenge
  | _ => True

/-- Actions that only make such accesses. -/
theorem keeps_allowed {p : Action α} {fp : List Access} (h : Inside p fp)
    (hfp : ∀ a∈fp, Allows K a) : Keeps K E p fun _ _ => True := by
  refine keeps_of_within h fun op huses E => ?_
  have hallows : ∀ a∈accesses op, Allows K a := fun a ha => hfp a (huses a ha)
  cases op with
  | external op =>
    cases op with
    | redisSet key value expiry =>
      have hwrite : Allows K (.redisWrite (area key)) := hallows _ (List.mem_singleton_self _)
      cases key with
      | loginChallenge challengeId =>
        cases value with
        | challenge challenge => exact hwrite rfl E challengeId challenge
        | _ => trivial
      | _ => trivial
    | _ => trivial
  | sql stmt =>
    cases stmt with
    | insert t row =>
      have hinsert : Allows K (.insert t) := hallows _ (List.mem_singleton_self _)
      exact hinsert E row
    | update t q f =>
      have hupdate : Allows K (.update t) := hallows _ (List.mem_singleton_self _)
      exact fun row _ => hupdate E row (f row)
    | _ => trivial

/-- An access that never needs a reason. -/
def Free : Access → Bool
  | .insert _ => false
  | .update _ => false
  | .redisWrite a => a≠.challenge
  | _ => true

/-- Actions that only make such accesses. -/
theorem keeps_free {p : Action α} {fp : List Access} (h : Inside p fp) (hfp : fp.all Free=true) :
    Keeps K E p fun _ _ => True := by
  refine keeps_allowed h fun a ha => ?_
  have hfree : Free a=true := List.all_eq_true.mp hfp a ha
  cases a with
  | insert t => cases hfree
  | update t => cases hfree
  | redisWrite a => exact fun hchallenge => absurd hchallenge (of_decide_eq_true hfree)
  | _ => trivial

/-- Failures are logged for no reason. -/
def LogsFailures (K : Conditions) : Prop :=
  ∀ E (event : AuditEvent), event.outcome="failure" → K.insert E .auditEvents event

end Rules

section Lookups

variable {K : Conditions} {d : Deployment} {E E' : Answers} {α : Type}

/-- A SELECT justifies every row it returns, and each meets the condition of the
query. -/
theorem keeps_select (t : Table) (q : Row t → Bool) :
    Keeps K E (selectRows t q) fun E' rows => E' (.sql (.select t q)) rows ∧
      ∀ row∈rows, Looked E' t row ∧ q row=true := by
  refine keeps_call trivial fun rows hrows => keeps_pure ⟨E.add_self _ _,fun row hrow => ?_⟩
  exact ⟨⟨q,rows,hrow,.inl (E.add_self _ _)⟩,hrows row hrow⟩

/-- A locking SELECT justifies its rows in the same way. -/
theorem keeps_selectForUpdate (t : Table) (q : Row t → Bool) :
    Keeps K E (selectRowsForUpdate t q) fun E' rows => E' (.sql (.selectForUpdate t q)) rows ∧
      ∀ row∈rows, Looked E' t row ∧ q row=true := by
  refine keeps_call trivial fun rows hrows => keeps_pure ⟨E.add_self _ _,fun row hrow => ?_⟩
  exact ⟨⟨q,rows,hrow,.inr (E.add_self _ _)⟩,hrows row hrow⟩

/-- The row picked from a result is one of its rows; none means that there was
none. -/
theorem keeps_scalarOneOrNone (rows : List α) :
    Keeps K E (scalarOneOrNone rows) fun _ found =>
      (found=none → rows=[]) ∧ ∀ row, found=some row → row∈rows := by
  unfold scalarOneOrNone
  split
  · exact keeps_pure ⟨fun _ => rfl,by rintro _ ⟨⟩⟩
  · rename_i row
    refine keeps_pure ⟨by rintro ⟨⟩,?_⟩
    rintro _ ⟨⟩
    exact List.mem_singleton_self row
  · exact keeps_raise _

/-- A user with its secret and codes as they were looked up. -/
structure Loaded (E : Answers) (user : LoadedUser) : Prop where
  /-- The row. -/
  row : Looked E .users user.row
  /-- The secret. -/
  secret : ∀ record, user.twoFactorSecret=some record →
    Looked E .twoFactorSecrets record ∧ record.userId=user.row.id
  /-- The codes. -/
  codes : ∀ code∈user.backupCodes, Looked E .backupCodes code ∧ code.userId=user.row.id

/-- A loaded user keeps its evidence as answers are added. -/
theorem Loaded.mono (hle : E≤E') {user : LoadedUser} (h : Loaded E user) : Loaded E' user where
  row := h.row.mono hle
  secret record hrecord := (h.secret record hrecord).imp_left (Looked.mono hle)
  codes code hcode := (h.codes code hcode).imp_left (Looked.mono hle)

/-- Loading a user looks its row up, or the table had none that matches. -/
theorem keeps_load (q : User → Bool) :
    Keeps K E (UserRepository.load q) fun E' found =>
      (found=none → E' (.sql (.select .users q)) []) ∧
      ∀ user, found=some user → Loaded E' user ∧ q user.row=true := by
  refine (keeps_select .users q).bind fun E₁ rows _ hrows =>
    (keeps_scalarOneOrNone rows).bind fun E₂ found hle₂ hfound => ?_
  cases found with
  | none =>
    obtain rfl := hfound.1 rfl
    exact keeps_pure ⟨fun _ => hle₂ _ _ hrows.1,by rintro _ ⟨⟩⟩
  | some row =>
    obtain ⟨hrow,hq⟩ := hrows.2 row (hfound.2 row rfl)
    refine (keeps_select .twoFactorSecrets _).bind fun E₃ secrets hle₃ hsecrets =>
      (keeps_select .backupCodes _).bind fun E₄ codes hle₄ hcodes =>
      keeps_pure ⟨by rintro ⟨⟩,?_⟩
    rintro _ ⟨⟩
    refine ⟨⟨hrow.mono (hle₂.trans (hle₃.trans hle₄)),fun record hrecord => ?_,
      fun code hcode => ?_⟩,hq⟩
    · obtain ⟨hlooked,howner⟩ := hsecrets.2 record (List.mem_of_mem_head? hrecord)
      exact ⟨hlooked.mono hle₄,beq_iff_eq.mp howner⟩
    · obtain ⟨hlooked,howner⟩ := hcodes.2 code hcode
      exact ⟨hlooked,beq_iff_eq.mp howner⟩

/-- A request that passes the lock check was told that the lock is not there. -/
theorem keeps_assertNotLocked (scope : Scope) (identifier : String) :
    Keeps K E (assertNotLocked d scope identifier) fun E' _ =>
      E' (.external (.redisExists (lockKey d scope identifier))) false := by
  refine keeps_call trivial fun isLocked _ => ?_
  cases isLocked with
  | true => exact keeps_call trivial fun _ _ => keeps_raise _
  | false => exact keeps_pure (E.add_self _ _)

/-- A drawn identifier is the one the source of randomness gave. -/
theorem keeps_uuid4 :
    Keeps K E uuid4 fun E' drawn => E' (.external .draw) drawn.int :=
  keeps_call trivial fun _ _ => keeps_pure (E.add_self _ _)

/-- The time used is the one the clock gave. -/
theorem keeps_utcNow : Keeps K E utcNow fun E' now => E' (.external .now) now :=
  keeps_call trivial fun _ _ => keeps_pure (E.add_self _ _)

/-- An INSERT needs the reason its table demands. -/
theorem keeps_insertRow {t : Table} {row : Row t} (h : Provides K E (.sql (.insert t row))) :
    Keeps K E (insertRow t row) fun _ _ => True := by
  refine keeps_call h fun o _ => ?_
  cases o with
  | inserted => exact keeps_pure trivial
  | duplicateKey => exact keeps_raise _
  | invalidValue => exact keeps_raise _

/-- An UPDATE needs a reason for the change of every row it hits. -/
theorem keeps_flushUpdate {t : Table} {isRow : Row t → Bool} {f : Row t → Row t}
    (h : ∀ row, isRow row=true → K.change E t row (f row)) :
    Keeps K E (flushUpdate t isRow f) fun _ _ => True := by
  refine keeps_call h fun count _ => ?_
  show Keeps K _ (if count=1 then _ else _) _
  split
  · exact keeps_pure trivial
  · exact keeps_raise _

/-- Logging needs the reason of the audit row that it inserts. -/
theorem keeps_logEvent {eventType outcome : String} {userId : Option UUID}
    {ip ua : Option String} {payload : List (String×PyValue)}
    (h : K.insert E .auditEvents
      ⟨eventType,outcome,userId,userId,ip,ua,AuditService.sanitizePayload d payload⟩) :
    Keeps K E (AuditService.logEvent d eventType outcome userId userId ip ua payload)
      fun _ _ => True :=
  keeps_insertRow (t := .auditEvents) h

/-- A COMMIT needs no reason of its own. -/
theorem keeps_commit : Keeps K E commit fun _ _ => True :=
  keeps_call trivial fun _ _ => keeps_pure trivial

/-- Dropping a challenge needs no reason. -/
theorem keeps_deleteLoginChallenge (challengeId : String) :
    Keeps K E (deleteLoginChallenge challengeId) fun _ _ => True :=
  keeps_call trivial fun _ _ => keeps_pure trivial

/-- A refusal logs a failure, which needs no evidence, and raises. -/
theorem keeps_refuse (hlogs : LogsFailures K) (userId : Option UUID) (ip ua : Option String)
    (payload : List (String×PyValue)) (failure : Failure) :
    Keeps K E (refuse d userId ip ua payload failure : Action α) fun _ _ => False :=
  (keeps_logEvent (hlogs _ _ rfl)).bind fun _ _ _ _ => keeps_commit.bind fun _ _ _ _ =>
    keeps_raise _

/-- A Redis write needs the reason of its key. -/
theorem keeps_redisSet {key : RedisKey} {value : RedisValue} {expiry : ℕ}
    (h : Provides K E (.external (.redisSet key value expiry))) :
    Keeps K E (redisSet key value expiry) fun _ _ => True := by
  unfold redisSet
  split
  · exact keeps_raise _
  · exact keeps_call h fun _ _ => keeps_pure trivial

/-- The number of failures is the one that Redis counted. -/
theorem keeps_recordFailure (scope : Scope) (identifier : String) :
    Keeps K E (recordFailure d scope identifier) fun E' attempts =>
      E' (.external (.redisIncr (failKey d scope identifier))) (some attempts) := by
  refine Keeps.bind (Q := fun E' attempts =>
    E' (.external (.redisIncr (failKey d scope identifier))) (some attempts)) ?_
    fun E₁ attempts hle₁ hcounted => ?_
  · refine keeps_call trivial fun count _ => ?_
    cases count with
    | none => exact keeps_raise _
    | some attempts => exact keeps_pure (E.add_self _ _)
  · simp only [Program.monad_bind,Program.monad_pure]
    have hlocks : ∀ E', E₁≤E' → Keeps K E' (if (policy d.settings scope).maxAttempts≤attempts then
        (redisSet (lockKey d scope identifier) (.text "1")
          (policy d.settings scope).lockSeconds).bind fun _ =>
          (redisDelete [failKey d scope identifier]).bind fun _ => .pure attempts
        else .pure attempts : Action ℕ) fun E' attempts =>
          E' (.external (.redisIncr (failKey d scope identifier))) (some attempts) := by
      intro E' hle
      split
      · have hset : Keeps K E' (redisSet (lockKey d scope identifier) (.text "1")
            (policy d.settings scope).lockSeconds) fun _ _ => True := keeps_redisSet trivial
        refine hset.bind fun E₂ _ hle₂ _ =>
          Keeps.bind (Q := fun _ _ => True) (keeps_call trivial fun _ _ => keeps_pure trivial)
            fun E₃ _ hle₃ _ => keeps_pure ((hle.trans (hle₂.trans hle₃)) _ _ hcounted)
      · exact keeps_pure (hle _ _ hcounted)
    split
    · exact Keeps.bind (Q := fun _ _ => True) (keeps_call trivial fun _ _ => keeps_pure trivial)
        fun E₂ _ hle₂ _ => hlocks E₂ hle₂
    · exact hlocks E₁ le_rfl

/-- Clearing the counters needs no reason. -/
theorem keeps_clearFailures (scope : Scope) (identifier : String) :
    Keeps K E (clearFailures d scope identifier) fun _ _ => True :=
  keeps_free (inside_clearFailures d scope identifier) rfl

/-- A challenge that is found is the one that Redis returned. -/
theorem keeps_getLoginChallenge (challengeId : String) :
    Keeps K E (getLoginChallenge challengeId) fun E' found => ∀ challenge,
      found=some challenge → E' (.external (.redisGet (.loginChallenge challengeId)))
        (some (.challenge challenge)) := by
  refine keeps_call trivial fun reply _ => ?_
  simp only [Program.pure_bind]
  split
  · refine keeps_pure ?_
    rintro _ ⟨⟩
    exact E.add_self _ _
  · exact keeps_pure (by rintro _ ⟨⟩)

/-- The claims are those of a signed token that is accepted now. -/
theorem keeps_decodeAndValidate (token : RawToken) (type : TokenType) :
    Keeps K E (JWTService.decodeAndValidate d token type) fun E' claims =>
      ∃ payload encoding now, token=.signed payload encoding ∧ E' (.external .now) now ∧
        JWTService.refusal d payload type now=none ∧ claims.sub=payload.sub ∧
        claims.sessionId=payload.sid := by
  cases token with
  | garbage text => exact keeps_raise _
  | signed payload encoding =>
    refine keeps_utcNow.bind fun E₁ now _ hnow => ?_
    cases hrefusal : JWTService.refusal d payload type now with
    | some failure => exact keeps_raise _
    | none => exact keeps_pure ⟨payload,encoding,now,rfl,hnow,hrefusal,rfl,rfl⟩

end Lookups

section Factors

variable {K : Conditions} {d : Deployment} {E : Answers} {user : LoadedUser}

/-- The object for a fetched row is that row or one that was loaded. -/
theorem identityMap_eq_or_mem {α : Type} (loaded : List α) (same : α → α → Bool) (fetched : α) :
    identityMap loaded same fetched=fetched ∨ identityMap loaded same fetched∈loaded := by
  unfold identityMap
  cases hfind : loaded.find? (same fetched) with
  | none => exact .inl rfl
  | some known => exact .inr (List.mem_of_find?_eq_some hfind)

/-- The second factor that is found was looked up and belongs to the loaded
user. -/
theorem keeps_getSecret (hloaded : Loaded E user) :
    Keeps K E (TwoFactorRepository.getSecret user) fun E' found => ∀ record,
      found=some record → Looked E' .twoFactorSecrets record ∧ record.userId=user.row.id := by
  refine (keeps_select .twoFactorSecrets _).bind fun E₁ rows hle₁ hrows =>
    (keeps_scalarOneOrNone rows).bind fun E₂ found hle₂ hfound => keeps_pure ?_
  intro record hrecord
  obtain ⟨fetched,hfetched,rfl⟩ := Option.map_eq_some_iff.mp hrecord
  rcases identityMap_eq_or_mem user.twoFactorSecret.toList (fun a b => a.id==b.id) fetched with
    hsame|hknown
  · obtain ⟨hlooked,howner⟩ := hrows.2 fetched (hfound.2 fetched hfetched)
    rw [hsame]
    exact ⟨hlooked.mono hle₂,beq_iff_eq.mp howner⟩
  · obtain ⟨hlooked,howner⟩ := hloaded.secret _ (Option.mem_toList.mp hknown)
    exact ⟨hlooked.mono (hle₁.trans hle₂),howner⟩

/-- A code that passes equals the code of a time step next to the clock's
answer. -/
theorem keeps_verifyTotpCode (secret : TotpSecret) (code : String) :
    Keeps K E (verifyTotpCode d secret code) fun E' result => result.1=true →
      (∃ now, E' (.external .now) now ∧
        result.2∈candidateTimecodes (now/1000000/d.settings.totpIntervalSeconds)) ∧
      d.normalize code=d.normalize (d.totpAt secret result.2) := by
  refine keeps_utcNow.bind fun E₁ now _ hnow => ?_
  simp only [Program.monad_throw,Program.monad_bind,Program.monad_pure]
  split
  · exact keeps_raise _
  · split
    · rename_i timecode hfind
      have hmatch := List.find?_some hfind
      exact keeps_pure fun _ =>
        ⟨⟨now,hnow,List.mem_of_find?_eq_some hfind⟩,of_decide_eq_true hmatch⟩
    · refine keeps_pure ?_
      rintro ⟨⟩

/-- A rejected code ends the request. -/
theorem keeps_rejectCode {α : Type} :
    Keeps K E (rejectCode user : Action α) fun _ _ => False :=
  keeps_call trivial fun _ _ => keeps_raise _

/-- A metric needs no reason. -/
theorem keeps_observe (observation : Observation) :
    Keeps K E (observe observation) fun _ _ => True :=
  keeps_call trivial fun _ _ => keeps_pure trivial

/-- A TOTP code is let through only with the evidence of its time step. -/
theorem keeps_verifyTotp (hloaded : Loaded E user) (code : String) :
    Keeps K E (verifyTotp d user code) fun E' _ =>
      ∃ record timecode, AcceptedTotp d E' user.row code record timecode := by
  refine (keeps_getSecret hloaded).bind fun E₁ found hle₁ hfound => ?_
  cases found with
  | none => exact keeps_raise _
  | some record =>
    obtain ⟨hlooked,howner⟩ := hfound record rfl
    simp only [Program.monad_throw,Program.monad_bind]
    split
    · exact keeps_raise _
    · rename_i hconfirmed
      refine (keeps_verifyTotpCode _ code).bind fun E₂ result hle₂ hvalid => ?_
      split
      · exact keeps_rejectCode.elim
      · rename_i hmatches
        split
        · exact keeps_rejectCode.elim
        · rename_i hfresh
          have hresult : result.1=true := by simpa using hmatches
          obtain ⟨⟨now,hnow,hcandidate⟩,hcode⟩ := hvalid hresult
          refine (keeps_observe _).bind fun E₃ _ hle₃ _ => keeps_pure ⟨record,result.2,?_⟩
          exact {
            looked := hlooked.mono (hle₂.trans hle₃)
            owner := howner
            confirmed := by simpa using hconfirmed
            current := ⟨now,hle₃ _ _ hnow,hcandidate⟩
            code := hcode
            fresh := by
              intro last hlast
              rw [hlast] at hfresh
              simpa using hfresh }

/-- A backup code is let through only with the unused row that it matches. -/
theorem keeps_verifyBackupCode (hloaded : Loaded E user) (code : String) :
    Keeps K E (verifyBackupCode user code) fun E' _ =>
      ∃ row, AcceptedBackup E' user.row code row := by
  refine Keeps.bind (Q := fun E' codes => ∀ row∈codes, Looked E' .backupCodes row ∧
    row.userId=user.row.id) ?_ fun E₁ codes hle₁ hcodes => ?_
  · refine (keeps_selectForUpdate .backupCodes _).bind fun E₁ rows hle₁ hrows => keeps_pure ?_
    intro row hrow
    obtain ⟨fetched,hfetched,rfl⟩ := List.mem_map.mp hrow
    rcases identityMap_eq_or_mem user.backupCodes (fun a b => a.id==b.id) fetched with hsame|hknown
    · obtain ⟨hlooked,howner⟩ := hrows.2 fetched hfetched
      rw [hsame]
      exact ⟨hlooked,beq_iff_eq.mp howner⟩
    · obtain ⟨hlooked,howner⟩ := hloaded.codes _ hknown
      exact ⟨hlooked.mono hle₁,howner⟩
  · split
    · exact keeps_rejectCode.elim
    · rename_i row hfind
      have hmatch := List.find?_some hfind
      simp only [Bool.and_eq_true,Option.isNone_iff_eq_none] at hmatch
      obtain ⟨hlooked,howner⟩ := hcodes row (List.mem_of_find?_eq_some hfind)
      refine (keeps_observe _).bind fun E₂ _ hle₂ _ => keeps_utcNow.bind fun E₃ _ hle₃ _ =>
        keeps_pure ⟨row,hlooked.mono (hle₂.trans hle₃),howner,hmatch.1,hmatch.2⟩

/-- The second step of a sign-in ends with an accepted factor of an enrolled
user. -/
theorem keeps_verifyForLogin (hloaded : Loaded E user) (totp backup : Option String) :
    Keeps K E (verifyForLogin d user totp backup) fun E' _ =>
      user.row.twoFactorEnabled=true ∧ Accepts d E' user.row totp backup := by
  simp only [verifyForLogin,Program.monad_throw,Program.monad_bind]
  split
  · exact keeps_raise _
  · rename_i henabled
    have henabled : user.row.twoFactorEnabled=true := by simpa using henabled
    split
    · rename_i code hcode _
      refine (keeps_verifyTotp hloaded code).mono fun E' o hq => ⟨hq.1,fun a ha => ?_⟩
      obtain ⟨record,timecode,haccepted⟩ := hq.2 a ha
      exact ⟨henabled,.totp code record timecode hcode haccepted⟩
    · rename_i code _ hcode
      refine (keeps_verifyBackupCode hloaded code).mono fun E' o hq => ⟨hq.1,fun a ha => ?_⟩
      obtain ⟨row,haccepted⟩ := hq.2 a ha
      exact ⟨henabled,.backup code row hcode haccepted⟩
    · exact keeps_raise _

end Factors

section Runs

variable {K : Conditions} {d : Deployment} {Asked : ClientRequest → Prop}
  {history history' : List (Event authSignature)}

/-- What a run has answered to one process. -/
def answered (history : List (Event authSignature)) (pid : ℕ) : Answers :=
  fun op r => ⟨pid,op,r⟩∈history

/-- A longer history has given a process no fewer answers. -/
theorem answered_mono (h : history⊆history') (pid : ℕ) :
    answered history pid≤answered history' pid := fun _ _ he => h he

/-- Invariants of rows and challenges that every reason is a reason for. -/
structure Reasons (K : Conditions) (P : List (Event authSignature) → (t : Table) → Row t → Prop)
    (C : List (Event authSignature) → String → LoginChallenge → Prop) : Prop where
  /-- More history takes no evidence away. -/
  mono : ∀ {history history' : List (Event authSignature)}, history⊆history' →
    ∀ t row, P history t row → P history' t row
  /-- Nor does it for challenges. -/
  monoChallenge : ∀ {history history' : List (Event authSignature)}, history⊆history' →
    ∀ challengeId challenge, C history challengeId challenge → C history' challengeId challenge
  /-- Inserted rows meet the invariant. -/
  insert : ∀ {history : List (Event authSignature)} {pid : ℕ} {E : Answers},
    E≤answered history pid → (∀ t row, Looked E t row → P history t row) →
    ∀ t row, answered history pid (.sql (.insert t row)) .inserted → K.insert E t row →
      P history t row
  /-- Updated rows meet the invariant. -/
  change : ∀ {history : List (Event authSignature)} {pid : ℕ} {E : Answers},
    E≤answered history pid → (∀ t row, Looked E t row → P history t row) →
    ∀ t row row', K.change E t row row' → P history t row → P history t row'
  /-- Challenges meet theirs. -/
  challenge : ∀ {history : List (Event authSignature)} {pid : ℕ} {E : Answers},
    E≤answered history pid → (∀ t row, Looked E t row → P history t row) →
    ∀ challengeId challenge, K.challenge E challengeId challenge → C history challengeId challenge

variable {P : List (Event authSignature) → (t : Table) → Row t → Prop}
  {C : List (Event authSignature) → String → LoginChallenge → Prop}

/-- The invariant of runs. -/
structure Tracked (K : Conditions)
    (P : List (Event authSignature) → (t : Table) → Row t → Prop)
    (C : List (Event authSignature) → String → LoginChallenge → Prop) (s : Shared)
    (history : List (Event authSignature)) (states : ℕ → Answers) : Prop where
  /-- What a process knows was answered to it. -/
  known : ∀ pid, states pid≤answered history pid
  /-- The rows meet the invariant. -/
  rows : Versions (P history) s.tables
  /-- So do those that were looked up. -/
  looked : ∀ pid t row, Looked (answered history pid) t row → P history t row
  /-- The challenges in Redis meet theirs. -/
  challenges : ∀ challengeId challenge entry, s.env.redis (.loginChallenge challengeId)=some entry →
    entry.value=.challenge challenge → C history challengeId challenge
  /-- So do those that were read. -/
  stood : ∀ pid challengeId challenge,
    answered history pid (.external (.redisGet (.loginChallenge challengeId)))
      (some (.challenge challenge)) → C history challengeId challenge

variable {s s' : Shared} {sys : AuthSystem} {states : ℕ → Answers} {pid choice : ℕ} {op : Effect}
  {r : op.Reply}

/-- A query answers with the visible rows that meet its condition. -/
theorem select_answer {t : Table} {q : Row t → Bool} {rows : List (Row t)}
    {tables : RowLocking.Tables authSchema}
    (hf : s.tables.fire pid (.select t q)=some (some rows,tables)) :
    rows=(s.tables.visible pid t).filter q :=
  (Option.some.inj (Prod.mk.inj (Option.some.inj hf)).1).symm

/-- Answers to queries are offered. -/
theorem offered_of_fire (hf : authMachine.fire pid op choice s=some (some r,s')) :
    Offered op r := by
  cases op with
  | external op =>
    cases op with
    | sign payload => exact Option.some.inj (fire_external hf).1
    | _ => trivial
  | sql stmt =>
    obtain ⟨hf,_⟩ := fire_sql hf
    cases stmt with
    | select t q =>
      obtain rfl := select_answer hf
      exact fun row hrow => (List.mem_filter.mp hrow).2
    | selectForUpdate t q =>
      obtain ⟨rows,_,rfl,_⟩ := Tables.locking_answer hf
      exact fun row hrow => (mem_matched hrow).2
    | _ => trivial

/-- A row that a query newly returns was visible. -/
theorem visible_of_fire (hf : authMachine.fire pid op choice s=some (some r,s')) {j : ℕ} {t : Table}
    {row : Row t} (h : Looked (answered (⟨pid,op,r⟩::history) j) t row) :
    Looked (answered history j) t row ∨ row∈s.tables.visible pid t := by
  obtain ⟨q,rows,hrow,hquery⟩ := h
  rcases hquery with hquery|hquery
  · rcases List.mem_cons.mp hquery with heq|hold
    · cases heq
      obtain ⟨hf,_⟩ := fire_sql hf
      obtain rfl := select_answer hf
      exact .inr (List.mem_filter.mp hrow).1
    · exact .inl ⟨q,rows,hrow,.inl hold⟩
  · rcases List.mem_cons.mp hquery with heq|hold
    · cases heq
      obtain ⟨hf,_⟩ := fire_sql hf
      obtain ⟨noted,_,rfl,_⟩ := Tables.locking_answer hf
      exact .inr (mem_matched hrow).1
    · exact .inl ⟨q,rows,hrow,.inr hold⟩

/-- An increment leaves no other challenge than the one that was there. -/
theorem redis_of_increment {e : Environment} {key : RedisKey} {entry : Entry RedisValue}
    {challenge : LoginChallenge} (hentry : e.increment key key=some entry)
    (hvalue : entry.value=.challenge challenge) : e.redis key=some entry := by
  unfold Environment.increment at hentry
  cases hlookup : e.redis.lookup e.clock key with
  | none =>
    simp only [hlookup,Store.assign_self,Option.some.injEq] at hentry
    subst hentry
    cases hvalue
  | some value =>
    cases value with
    | number n =>
      simp only [hlookup,Store.replace,Function.update_self] at hentry
      obtain ⟨old,_,rfl⟩ := Option.map_eq_some_iff.mp hentry
      cases hvalue
    | text value => simpa only [hlookup] using hentry
    | challenge value => simpa only [hlookup] using hentry

/-- A challenge in Redis was there before or is the one that is set. -/
theorem challenge_of_perform {op : External} {e : Environment} {challengeId : String}
    {challenge : LoginChallenge} {entry : Entry RedisValue}
    (hentry : (e.perform op choice).2.redis (.loginChallenge challengeId)=some entry)
    (hvalue : entry.value=.challenge challenge) :
    (∃ entry, e.redis (.loginChallenge challengeId)=some entry ∧
      entry.value=.challenge challenge) ∨
    ∃ expiry, op=.redisSet (.loginChallenge challengeId) (.challenge challenge) expiry := by
  cases op with
  | redisSet key value expiry =>
    by_cases hkey : RedisKey.loginChallenge challengeId=key
    · subst hkey
      have hset : some ⟨value,some (e.clock+choice+seconds expiry)⟩=some entry :=
        (Store.assign_self _ _ _ _).symm.trans hentry
      obtain rfl := Option.some.inj hset
      exact .inr ⟨expiry,by rw [show value=.challenge challenge from hvalue]⟩
    · exact .inl ⟨entry,(Store.assign_of_ne _ _ _ hkey).symm.trans hentry,hvalue⟩
  | redisDelete keys =>
    have hentry : e.redis.removeAll keys (.loginChallenge challengeId)=some entry := hentry
    refine .inl ⟨entry,?_,hvalue⟩
    by_cases hkey : RedisKey.loginChallenge challengeId∈keys
    · rw [Store.removeAll_of_mem _ hkey] at hentry
      cases hentry
    · rwa [Store.removeAll_of_notMem _ hkey] at hentry
  | redisIncr key =>
    have hentry : (e.tick choice).increment key (.loginChallenge challengeId)=some entry := hentry
    refine .inl ?_
    by_cases hkey : RedisKey.loginChallenge challengeId=key
    · subst hkey
      have hold : (e.tick choice).redis (.loginChallenge challengeId)=some entry :=
        redis_of_increment hentry hvalue
      exact ⟨entry,hold,hvalue⟩
    · rw [Environment.increment_of_ne _ hkey] at hentry
      exact ⟨entry,hentry,hvalue⟩
  | redisExpire key expiry =>
    have hentry : e.redis.retime (e.clock+choice) key (e.clock+choice+seconds expiry)
        (.loginChallenge challengeId)=some entry := hentry
    refine .inl ?_
    by_cases hkey : RedisKey.loginChallenge challengeId=key
    · subst hkey
      rw [Store.retime,Function.update_self] at hentry
      obtain ⟨old,hold,rfl⟩ := Option.map_eq_some_iff.mp hentry
      exact ⟨old,(Option.filter_eq_some_iff.mp hold).1,hvalue⟩
    · rw [Store.retime_of_ne _ _ _ hkey] at hentry
      exact ⟨entry,hentry,hvalue⟩
  | _ => exact .inl ⟨entry,hentry,hvalue⟩

/-- The statements of a request only write rows that meet the invariant, once
their insertions are answered. -/
theorem Tracked.writes (reasons : Reasons K P C) (h : Tracked K P C s history states)
    (hsub : history⊆history') {stmt : Statement authSchema}
    (hprovides : Provides K (states pid) (.sql stmt))
    (hinserted : ∀ t row, stmt=.insert t row →
      answered history' pid (.sql (.insert t row)) .inserted) :
    Writes (P history') stmt := by
  have hknown : states pid≤answered history' pid := (h.known pid).trans (answered_mono hsub pid)
  have hlooked : ∀ t row, Looked (states pid) t row → P history' t row :=
    fun t row hrow => reasons.mono hsub t row (h.looked pid t row (hrow.mono (h.known pid)))
  cases stmt with
  | insert t row => exact reasons.insert hknown hlooked t row (hinserted t row rfl) hprovides
  | update t q f =>
    exact fun row hq hrow => reasons.change hknown hlooked t row _ (hprovides row hq) hrow
  | _ => trivial

/-- An answered statement keeps the invariant of the rows. -/
theorem Tracked.versions (reasons : Reasons K P C) (h : Tracked K P C s history states)
    {stmt : Statement authSchema} {reply : stmt.Reply} {tables : RowLocking.Tables authSchema}
    (hprovides : Provides K (states pid) (.sql stmt))
    (hf : s.tables.fire pid stmt=some (some reply,tables)) :
    Versions (P (⟨pid,.sql stmt,reply⟩::history)) tables := by
  have hsub : history⊆⟨pid,.sql stmt,reply⟩::history := List.subset_cons_self _ _
  have hrows : Versions (P (⟨pid,.sql stmt,reply⟩::history)) s.tables :=
    h.rows.mono fun t row hrow => reasons.mono hsub t row hrow
  cases stmt with
  | insert t row =>
    obtain ⟨_,rfl⟩|⟨rfl,_,_,_⟩ := Tables.fire_insert_answer hf
    · exact hrows
    · refine hrows.fire (h.writes reasons hsub hprovides ?_) hf
      rintro _ _ ⟨⟩
      exact List.mem_cons_self
  | _ => exact hrows.fire (h.writes reasons hsub hprovides (by rintro _ _ ⟨⟩)) hf

/-- An answered effect keeps the invariant. -/
theorem Tracked.answer (reasons : Reasons K P C) (h : Tracked K P C s history states)
    (hprovides : Provides K (states pid) op)
    (hf : authMachine.fire pid op choice s=some (some r,s')) :
    Tracked K P C s' (⟨pid,op,r⟩::history)
      (Function.update states pid ((states pid).add op r)) := by
  have hsub : history⊆⟨pid,op,r⟩::history := List.subset_cons_self _ _
  refine ⟨fun j => ?_,?_,fun j t row hlooked => ?_,
    fun challengeId challenge entry hentry hvalue => ?_,fun j challengeId challenge hread => ?_⟩
  · by_cases hj : j=pid
    · subst hj
      rw [Function.update_self]
      rintro op' r' (hold|hnew)
      · exact hsub (h.known j op' r' hold)
      · cases hnew
        exact List.mem_cons_self
    · rw [Function.update_of_ne hj]
      exact (h.known j).trans (answered_mono hsub j)
  · cases op with
    | external op =>
      rw [(fire_external hf).2]
      exact h.rows.mono fun t row hrow => reasons.mono hsub t row hrow
    | sql stmt => exact h.versions reasons hprovides (fire_sql hf).1
  · rcases visible_of_fire hf hlooked with hold|hvisible
    · exact reasons.mono hsub t row (h.looked j t row hold)
    · exact reasons.mono hsub t row (h.rows.visible hvisible)
  · cases op with
    | sql stmt =>
      rw [(fire_sql hf).2] at hentry
      exact reasons.monoChallenge hsub _ _ (h.challenges _ _ _ hentry hvalue)
    | external op =>
      rw [(fire_external hf).2] at hentry
      rcases challenge_of_perform hentry hvalue with ⟨old,hold,hvalue⟩|⟨expiry,rfl⟩
      · exact reasons.monoChallenge hsub _ _ (h.challenges _ _ _ hold hvalue)
      · exact reasons.monoChallenge hsub _ _ (reasons.challenge (h.known pid)
          (fun t row hrow => h.looked pid t row (hrow.mono (h.known pid))) _ _ hprovides)
  · rcases List.mem_cons.mp hread with heq|hold
    · cases heq
      have hlookup := Option.some.inj (fire_external hf).1
      obtain ⟨entry,hentry,_,hvalue⟩ := Store.lookup_eq_some.mp hlookup.symm
      exact reasons.monoChallenge hsub _ _ (h.challenges _ _ _ hentry hvalue)
    · exact reasons.monoChallenge hsub _ _ (h.stood j _ _ hold)

/-- Only these requests are started. -/
def StartsAsked (d : Deployment) (Asked : ClientRequest → Prop) (_ : AuthSystem) : AuthMove → Prop
  | .spawn program => ∃ client, Asked client ∧ program=served d client
  | _ => True

/-- The obligations of runs. -/
theorem duties (reasons : Reasons K P C) {J : Answers → Served → Prop}
    (hserved : ∀ client, Asked client → Keeps K noAnswers (served d client) J) :
    Duties authMachine (protocol K) noAnswers (fun E o => ∀ a, o=.ok a → J E a) (Tracked K P C)
      (StartsAsked d Asked) id where
  spawn sys p hc := by
    obtain ⟨client,hasked,rfl⟩ := hc
    exact (hserved client hasked).mono fun _ _ hq => hq.2
  outcome _ _ h := h
  progress sys states i op k c s ht _ _ hf := by
    obtain ⟨hcells,henv⟩ := fire_progress hf
    have hinv : Tracked K P C sys.shared sys.history states := ht.inv
    exact {hinv with
      rows := hinv.rows.same hcells
      challenges := by rw [henv]; exact hinv.challenges}
  offer sys states i op k c r s _ _ _ hf := offered_of_fire hf
  answer sys states i op k c r s t ht _ _ hm hf := by
    obtain ⟨hprovides,rfl⟩ := hm
    exact Tracked.answer reasons ht.inv hprovides hf
  close sys states i ht _ := by
    have hinv : Tracked K P C sys.shared sys.history states := ht.inv
    rw [id_eq,Function.update_eq_self]
    exact {hinv with rows := hinv.rows.release i}

/-- They hold before the first request. -/
theorem tracked_idle {env : Environment} {db : Database authSchema}
    (hrows : ∀ t, ∀ row∈db t, P [] t row)
    (hchallenges : ∀ challengeId challenge entry,
      env.redis (.loginChallenge challengeId)=some entry → entry.value=.challenge challenge →
        C [] challengeId challenge) :
    Tracked K P C (idleSystem env db).shared [] fun _ => noAnswers := by
  have hidle : Versions (P []) (idleTables db) := by
    intro t c hc
    obtain ⟨row,hrow,rfl⟩ := List.mem_map.mp hc
    refine ⟨?_,by rintro r ⟨⟩⟩
    rintro _ ⟨⟩
    exact hrows t row hrow
  refine ⟨fun _ _ _ h => h.elim,hidle,?_,hchallenges,?_⟩
  · rintro pid t row ⟨q,rows,_,hquery⟩
    rcases hquery with hquery|hquery <;> cases hquery
  · rintro pid challengeId challenge ⟨⟩

/-- In every run the invariants hold, and what was returned is justified. -/
theorem tracked_reaches {env : Environment} {db : Database authSchema} (reasons : Reasons K P C)
    {J : Answers → Served → Prop}
    (hserved : ∀ client, Asked client → Keeps K noAnswers (served d client) J)
    (hrows : ∀ t, ∀ row∈db t, P [] t row)
    (hchallenges : ∀ challengeId challenge entry,
      env.redis (.loginChallenge challengeId)=some entry → entry.value=.challenge challenge →
        C [] challengeId challenge)
    (h : authMachine.Reaches (StartsAsked d Asked) (idleSystem env db) sys) :
    ∃ states, Tracked K P C sys.shared sys.history states ∧
      ∀ pid answer, sys.outcome pid=some (.ok answer) → J (states pid) answer := by
  have hstart : Tracks (protocol K) noAnswers (fun E o => ∀ a, o=.ok a → J E a) (Tracked K P C)
      (idleSystem env db) fun _ => noAnswers :=
    ⟨tracked_idle hrows hchallenges,fun i p hp => (by cases hp),fun _ _ => rfl⟩
  obtain ⟨states,ht⟩ := (duties reasons hserved).reaches hstart h
  exact ⟨states,ht.inv,fun pid answer ho => ht.outcome ho answer rfl⟩

/-- A written schedule of asked requests is a run of them. -/
theorem reaches_of_schedule {lines : List Directive} {start : AuthSystem}
    (hasked : ∀ client, .start client∈lines → Asked client)
    (h : authMachine.runSchedule (fun _ _ => true) (lines.flatMap (·.moves d)) start=some sys) :
    authMachine.Reaches (StartsAsked d Asked) start sys := by
  refine Machine.Reaches.of_schedule .refl ?_ h
  intro mv hmv _ _
  obtain ⟨line,hline,hmv⟩ := List.mem_flatMap.mp hmv
  cases line with
  | start client =>
    obtain rfl := List.mem_singleton.mp hmv
    exact ⟨client,hasked client hline,rfl⟩
  | steps pid count =>
    obtain rfl := List.eq_of_mem_replicate hmv
    trivial
  | choose pid choice =>
    obtain rfl := List.mem_singleton.mp hmv
    trivial
  | finish pid =>
    obtain rfl := List.mem_singleton.mp hmv
    trivial

/-- So is one that begins with idle tables. -/
theorem reaches_of_lines {env : Environment} {db : Database authSchema} {lines : List Directive}
    (hasked : ∀ client, .start client∈lines → Asked client)
    (h : follow d (fun _ _ => true) env db lines=some sys) :
    authMachine.Reaches (StartsAsked d Asked) (idleSystem env db) sys :=
  reaches_of_schedule hasked h

end Runs

end BackendPlatform.EvidencedRequests
