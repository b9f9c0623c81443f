import BackendPlatform.AccountRecovery

/-!
# What a login challenge stands for

A challenge is created after the password of an account has been verified and
is answered later. The answer reads neither the password nor the block of the
account again, so the challenge stands for the password check only as long as
no reset changes the password and no failure blocks the account in between.
-/

set_option autoImplicit false

namespace BackendPlatform.ChallengeStanding

open ProgramTrees TransactionalTables ExpiringStore
open AuthRecords AuthEffects AuthRepositories AuthServices AuthFlows AuthFootprints
open ServerRuns ReachableStates FailedSignIns AccountRecovery AuthService
open BruteForceProtectionService RefreshTokenService

section Guesses

variable {d : Deployment} {ip ua : Option String} {id : UUID} {stored password : String}
  {w : World} {bound : ℕ}

end Guesses

section Frames

variable {α β : Type} {p : Action α} {fp : List Access} {c : String}

/-- What every effect but the creation of a challenge leaves of it. -/
structure Faded (c : String) (w w' : World) : Prop where
  /-- Time does not go back. -/
  clock : w.env.clock ≤ w'.env.clock
  /-- Draws stay drawn. -/
  draws : w.env.draws ≤ w'.env.draws
  /-- The entry is the same or gone. -/
  entry : w'.env.redis (.loginChallenge c)=w.env.redis (.loginChallenge c) ∨
    w'.env.redis (.loginChallenge c)=none

/-- An unchanged challenge has at most faded. -/
theorem Faded.refl (c : String) (w : World) : Faded c w w :=
  ⟨Nat.le_refl _,Nat.le_refl _,.inl rfl⟩

/-- Fading composes. -/
theorem Faded.trans {w₁ w₂ w₃ : World} (h : Faded c w₁ w₂) (h' : Faded c w₂ w₃) :
    Faded c w₁ w₃ := by
  refine ⟨h.clock.trans h'.clock,h.draws.trans h'.draws,?_⟩
  rcases h'.entry with hsame | hgone
  · rw [hsame]
    exact h.entry
  · exact .inr hgone

/-- An entry that is there later was the same before, and alive. -/
theorem Faded.lookup {w w' : World} {now : Instant} {value : RedisValue} (h : Faded c w w')
    (hnow : w.env.clock ≤ now)
    (hvalue : w'.env.redis.lookup now (.loginChallenge c)=some value) :
    w.env.redis.lookup w.env.clock (.loginChallenge c)=some value := by
  obtain ⟨entry,hentry,hlive,rfl⟩ := Store.lookup_eq_some.mp hvalue
  have hbefore : w.env.redis (.loginChallenge c)=some entry := by
    rcases h.entry with hsame | hgone
    · rw [←hsame,hentry]
    · rw [hgone] at hentry
      cases hentry
  refine Store.lookup_eq_some.mpr ⟨entry,hbefore,?_,rfl⟩
  cases hexpiry : entry.expiresAt with
  | none => simp [Entry.live,hexpiry]
  | some instant =>
    have hlater : now < instant := by simpa [Entry.live,hexpiry] using hlive
    have hearlier : w.env.clock < instant := Nat.lt_of_le_of_lt hnow hlater
    simpa [Entry.live,hexpiry] using hearlier

/-- An effect that writes no value to the challenge. -/
def Calm (c : String) : Effect → Prop
  | .external (.redisSet key _ _) => key≠.loginChallenge c
  | .external (.redisIncr key) => key≠.loginChallenge c
  | .external (.redisExpire key _) => key≠.loginChallenge c
  | _ => True

end Frames

section SignIns

variable {d : Deployment} {ip ua : Option String} {c : String}

/-- A challenge of the account with a user id. -/
def challengeOf (id : UUID) (fingerprint : Option (Hmac String)) : RedisValue :=
  .challenge ⟨some id.str,fingerprint⟩

/-- A fresh identifier. -/
theorem yields_uuid4 (w : World) : Yields uuid4 w fun o w' =>
    o=.ok ⟨w.env.draws⟩ ∧ w'.data=w.data ∧ w'.env={w.env with draws := w.env.draws+1} :=
  ⟨rfl,rfl,rfl⟩

end SignIns

section Answers

variable {d : Deployment}

end Answers

section Theorem

variable {d : Deployment} {start s : ServerState} {trace : Trace} {email password : String}

/-- A sign-in with a password has created a challenge. -/
def Issued (d : Deployment) (entry : ServerState×Input) (email password challengeId : String) :
    Prop :=
  ∃ ip ua choices result,entry.2=.call ⟨.login email password,ip,ua⟩ choices ∧
    (entry.1.serve d ⟨.login email password,ip,ua⟩ choices).1=.ok (.login result) ∧
    result.challengeId=some challengeId

/-- The call is a reset that gives the account, not blocked so far, another
password. -/
def Resets (d : Deployment) (s : ServerState) (client : ClientRequest) (choices : List ℕ)
    (row : User) : Prop :=
  ∃ email code password,client.request=.resetPassword email code password ∧
    account d email=row.email ∧ row.loginBlocked=false ∧
    PasswordService.verifyPassword password row.passwordHash=false ∧
    (s.serve d client choices).1=.ok .done

/-- What holds of the challenges in every state of a run. -/
structure Standing (d : Deployment) (trace : Trace) (s : ServerState) : Prop where
  /-- Issued challenges have drawn identifiers. -/
  drawn : ∀ entry∈trace,∀ email password challengeId,Issued d entry email password challengeId →
    ∃ n<s.env.draws,challengeId=(UUID.mk n).str
  /-- Pending challenges name accounts with the verified password. -/
  pending : ∀ entry∈trace,∀ email password challengeId,
    Issued d entry email password challengeId → ∀ value,
      s.env.redis.lookup s.env.clock (.loginChallenge challengeId)=some value →
        ∃ id fingerprint,value=challengeOf id fingerprint ∧
          Restored s.db id (account d email) password

/-- An account with a confirmed second factor and one backup code. -/
def sampleStart : ServerState := sampleState [sampleUser2fa] [sampleSecret] [sampleCode]

/-- The sample start meets the constraints of its tables. -/
theorem sound_sampleStart : Sound sampleStart.env sampleStart.db := by
  refine ⟨fun t r hr => ?_,fun t => ?_,fun _ _ => nofun⟩
  · cases t with
    | users =>
      obtain rfl := List.mem_singleton.mp hr
      show 2<10
      omega
    | twoFactorSecrets =>
      obtain rfl := List.mem_singleton.mp hr
      show 3<10
      omega
    | backupCodes =>
      obtain rfl := List.mem_singleton.mp hr
      show 5<10
      omega
    | refreshTokens => cases hr
    | userSessions => cases hr
    | passwordResetTokens => cases hr
    | auditEvents => cases hr
  · cases t with
    | users => exact List.pairwise_singleton _ _
    | twoFactorSecrets => exact List.pairwise_singleton _ _
    | backupCodes => exact List.pairwise_singleton _ _
    | refreshTokens => exact .nil
    | userSessions => exact .nil
    | passwordResetTokens => exact .nil
    | auditEvents => exact .nil

end Theorem

end BackendPlatform.ChallengeStanding
