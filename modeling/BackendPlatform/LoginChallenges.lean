import BackendPlatform.ConcurrentRequests

/-!
# Login challenges under concurrency

A challenge is read when a request starts to answer it and deleted only after
its second factor. A request that deletes a challenge still present in Redis
is the only one to redeem it: identifiers are never drawn twice, so nothing
brings the challenge back. Two requests that both read it before the first
deletion are both served.
-/

set_option autoImplicit false

namespace BackendPlatform.LoginChallenges

open ProgramTrees InterleavedRuns TransactionalTables ExpiringStore
open AuthRecords AuthEffects AuthRepositories AuthServices AuthFlows AuthFootprints
open ConcurrentRequests

section Protocol

/-- How far a request has come with a challenge. -/
inductive Phase where
  /-- It has created and redeemed nothing. -/
  | idle
  /-- It has drawn the identifier of a new challenge. -/
  | drew (n : ℕ)
  /-- Its second factor has been accepted. -/
  | accepted
  /-- It has deleted the challenge after its second factor. -/
  | redeemed (challengeId : String)

/-- The effect records an accepted second factor. -/
def Accepts : Effect → Prop
  | .external (.observe (.totpAccepted _ _ _)) => True
  | .external (.observe (.backupCodeAccepted _ _)) => True
  | _ => False

/-- The effect changes no challenge. -/
abbrev Quiet (op : Effect) : Prop := .redisWrite .challenge∉accesses op

/-- What a request may do with challenges. -/
def moves (s : Phase) : (op : Effect) → op.Reply → Phase → Prop
  | .external .draw,n,s' => s'=s ∨ s'=.drew n
  | .external (.redisSet (.loginChallenge challengeId) _ _),_,s' =>
    ∃ n, s=.drew n ∧ challengeId=(UUID.mk n).str ∧ s'=.idle
  | .external (.redisDelete [.loginChallenge challengeId]),_,s' =>
    (s=.accepted ∧ s'=.redeemed challengeId) ∨ (s=.idle ∧ s'=.idle)
  | op,_,s' => Quiet op ∧ (s'=s ∨ (Accepts op ∧ s=.idle ∧ s'=.accepted))

/-- The protocol of login challenges. -/
def protocol : Protocol authSignature Phase := ⟨moves,fun _ _ _ => True⟩

/-- Quiet effects leave the phase alone. -/
theorem moves_quiet (s : Phase) {op : Effect} (r : op.Reply) (h : Quiet op) : moves s op r s := by
  unfold moves
  split
  · exact .inl rfl
  · exact absurd (by simp [accesses,area]) h
  · exact absurd (by simp [accesses,area]) h
  · exact ⟨h,.inl rfl⟩

/-- A part that writes no challenge leaves the phase. -/
theorem bind_quiet {α β : Type} {p : Action α} {f : α → Action β} {s : Phase}
    {R : Phase → Except Failure β → Prop} {fp : List Access} (hp : Inside p fp)
    (hfp : .redisWrite .challenge∉fp) (hok : ∀ a, (f a).Follows protocol s R)
    (herror : ∀ e, R s (.error e)) : (p.bind f).Follows protocol s R :=
  Program.Follows.bind_of_within hp
    (fun _ r hop => moves_quiet s r fun hm => hfp (hop _ hm)) hok herror

/-- A program that writes no challenge leaves the phase. -/
theorem follows_quiet {α : Type} {p : Action α} {s : Phase} {fp : List Access}
    (hp : Inside p fp) (hfp : .redisWrite .challenge∉fp) :
    p.Follows protocol s fun s' _ => s'=s :=
  Program.Follows.of_within hp fun _ r hop => moves_quiet s r fun hm => hfp (hop _ hm)

end Protocol

section Invariant

/-- An identifier that no request will use for a new challenge. -/
def Used (draws : ℕ) (states : ℕ → Phase) (challengeId : String) : Prop :=
  ∃ n<draws, challengeId=(UUID.mk n).str ∧ ∀ j, states j≠.drew n

/-- The invariant of the challenges, the draws and the phases. -/
structure Challenges (env : Environment) (history : List (Event authSignature))
    (states : ℕ → Phase) : Prop where
  /-- Stored challenges have used identifiers. -/
  stored : ∀ id, env.redis (.loginChallenge id)≠none → Used env.draws states id
  /-- Drawn identifiers have been drawn. -/
  drawn : ∀ i n, states i=.drew n → n<env.draws
  /-- Requests draw different identifiers. -/
  apart : ∀ i j n, states i=.drew n → states j=.drew n → i=j
  /-- Accepted factors are recorded. -/
  accepted : ∀ i, states i=.accepted → ∃ e∈history, e.pid=i ∧ Accepts e.op
  /-- A redeemed challenge never comes back. -/
  gone : ∀ i id, states i=.redeemed id →
    env.redis (.loginChallenge id)=none ∧ Used env.draws states id
  /-- A challenge is redeemed once. -/
  once : ∀ i j id, states i=.redeemed id → states j=.redeemed id → i=j

variable {env env' : Environment} {history : List (Event authSignature)} {states : ℕ → Phase}
  {e : Event authSignature} {i : ℕ}

/-- Another draw or more history loses nothing. -/
theorem Challenges.mono (h : Challenges env history states) {history' : List (Event authSignature)}
    (hredis : ∀ id, env'.redis (.loginChallenge id)=env.redis (.loginChallenge id))
    (hdraws : env.draws≤env'.draws) (hhistory : history⊆history') :
    Challenges env' history' states := by
  have hused : ∀ id, Used env.draws states id → Used env'.draws states id :=
    fun id ⟨n,hn,hrest⟩ => ⟨n,hn.trans_le hdraws,hrest⟩
  constructor
  · exact fun id hid => hused id (h.stored id (hredis id ▸ hid))
  · exact fun j n hj => (h.drawn j n hj).trans_le hdraws
  · exact h.apart
  · intro j hj
    obtain ⟨e,he,hrest⟩ := h.accepted j hj
    exact ⟨e,hhistory he,hrest⟩
  · intro j id hj
    obtain ⟨hnone,hu⟩ := h.gone j id hj
    exact ⟨(hredis id).trans hnone,hused id hu⟩
  · exact h.once

/-- A request draws the identifier of a new challenge. -/
theorem Challenges.draw (h : Challenges env history states) (i : ℕ) :
    Challenges {env with draws := env.draws+1} history
      (Function.update states i (.drew env.draws)) := by
  have hused : ∀ id, Used env.draws states id →
      Used (env.draws+1) (Function.update states i (.drew env.draws)) id := by
    rintro id ⟨n,hn,hid,hnot⟩
    refine ⟨n,Nat.lt_succ_of_lt hn,hid,fun j hj => ?_⟩
    exact hnot j (of_update hj fun he => absurd (Phase.drew.inj he) (Nat.ne_of_lt hn)).2
  have hdrew : ∀ j n, Function.update states i (.drew env.draws) j=.drew n →
      (j=i ∧ n=env.draws) ∨ (j≠i ∧ states j=.drew n ∧ n<env.draws) := by
    intro j n hj
    by_cases hji : j=i
    · subst hji
      rw [Function.update_self] at hj
      exact .inl ⟨rfl,(Phase.drew.inj hj).symm⟩
    · rw [Function.update_of_ne hji] at hj
      exact .inr ⟨hji,hj,h.drawn j n hj⟩
  constructor
  · exact fun id hid => hused id (h.stored id hid)
  · intro j n hj
    obtain ⟨_,rfl⟩|⟨_,_,hn⟩ := hdrew j n hj
    · exact Nat.lt_succ_self _
    · exact Nat.lt_succ_of_lt hn
  · intro j k n hj hk
    obtain ⟨rfl,hn⟩|⟨_,hj,hn⟩ := hdrew j n hj
    · obtain ⟨rfl,_⟩|⟨_,_,hn'⟩ := hdrew k n hk
      · rfl
      · exact absurd hn (Nat.ne_of_lt hn')
    · obtain ⟨_,hn'⟩|⟨_,hk,_⟩ := hdrew k n hk
      · exact absurd hn' (Nat.ne_of_lt hn)
      · exact h.apart j k n hj hk
  · exact fun j hj => h.accepted j (of_update hj nofun).2
  · intro j id hj
    obtain ⟨hnone,hu⟩ := h.gone j id (of_update hj nofun).2
    exact ⟨hnone,hused id hu⟩
  · exact fun j k id hj hk => h.once j k id (of_update hj nofun).2 (of_update hk nofun).2

/-- A request creates the challenge whose identifier it has drawn. -/
theorem Challenges.create (h : Challenges env history states) {n : ℕ} {value : RedisValue}
    {expiresAt : Option ℕ} (hi : states i=.drew n)
    (hredis : env'.redis=env.redis.assign (.loginChallenge (UUID.mk n).str) value expiresAt)
    (hdraws : env'.draws=env.draws) :
    Challenges env' history (Function.update states i .idle) := by
  have hused : ∀ id, Used env.draws states id →
      Used env'.draws (Function.update states i .idle) id := by
    rintro id ⟨m,hm,hid,hnot⟩
    exact ⟨m,hdraws ▸ hm,hid,fun j hj => hnot j (of_update hj nofun).2⟩
  have hnew : Used env'.draws (Function.update states i .idle) (UUID.mk n).str := by
    refine ⟨n,hdraws ▸ h.drawn i n hi,rfl,fun j hj => ?_⟩
    have hji : j=i := h.apart j i n (of_update hj nofun).2 hi
    subst hji
    rw [Function.update_self] at hj
    cases hj
  constructor
  · intro id hid
    by_cases he : id=(UUID.mk n).str
    · exact he ▸ hnew
    · rw [hredis,Store.assign_of_ne _ _ _ (fun hk => he (RedisKey.loginChallenge.inj hk))] at hid
      exact hused id (h.stored id hid)
  · exact fun j m hj => hdraws ▸ h.drawn j m (of_update hj nofun).2
  · exact fun j k m hj hk => h.apart j k m (of_update hj nofun).2 (of_update hk nofun).2
  · exact fun j hj => h.accepted j (of_update hj nofun).2
  · intro j id hj
    obtain ⟨hnone,hu⟩ := h.gone j id (of_update hj nofun).2
    refine ⟨?_,hused id hu⟩
    obtain ⟨m,_,hid,hnot⟩ := hu
    have hne : id≠(UUID.mk n).str := by
      intro he
      have hmn : m=n := UUID.mk.inj (UUID.str_injective (hid.symm.trans he))
      exact hnot i (hmn ▸ hi)
    rw [hredis,Store.assign_of_ne _ _ _ (fun hk => hne (RedisKey.loginChallenge.inj hk)),hnone]
  · exact fun j k id hj hk => h.once j k id (of_update hj nofun).2 (of_update hk nofun).2

/-- A request deletes a challenge: it redeems it, if it was still there. -/
theorem Challenges.delete (h : Challenges env history states) {id : String} {s : Phase}
    (hs : s=states i ∨ (s=.redeemed id ∧ env.redis (.loginChallenge id)≠none))
    (hredis : env'.redis=env.redis.remove (.loginChallenge id)) (hdraws : env'.draws=env.draws) :
    Challenges env' history (Function.update states i s) := by
  have hnone : ∀ id', env.redis (.loginChallenge id')=none →
      env'.redis (.loginChallenge id')=none := by
    intro id' h'
    rw [hredis]
    exact Store.removeAll_eq_none _ [_] h'
  have hself : env'.redis (.loginChallenge id)=none := by
    rw [hredis]
    exact Store.remove_self _ _
  obtain rfl|⟨rfl,hsome⟩ := hs
  · rw [Function.update_eq_self]
    refine ⟨?_,?_,h.apart,h.accepted,?_,h.once⟩
    · intro id' h'
      exact hdraws ▸ h.stored id' (fun hn => h' (hnone id' hn))
    · exact fun j n hj => hdraws ▸ h.drawn j n hj
    · intro j id' hj
      obtain ⟨hn,hu⟩ := h.gone j id' hj
      exact ⟨hnone id' hn,hdraws ▸ hu⟩
  · have hused : ∀ id', Used env.draws states id' →
        Used env'.draws (Function.update states i (.redeemed id)) id' := by
      rintro id' ⟨m,hm,hid,hnot⟩
      exact ⟨m,hdraws ▸ hm,hid,fun j hj => hnot j (of_update hj nofun).2⟩
    have hmine : ∀ j id', Function.update states i (.redeemed id) j=.redeemed id' →
        (j=i ∧ id'=id) ∨ (states j=.redeemed id' ∧ id'≠id) := by
      intro j id' hj
      by_cases hji : j=i
      · subst hji
        rw [Function.update_self] at hj
        exact .inl ⟨rfl,(Phase.redeemed.inj hj).symm⟩
      · rw [Function.update_of_ne hji] at hj
        exact .inr ⟨hj,fun he => hsome (he ▸ (h.gone j id' hj).1)⟩
    refine ⟨?_,?_,?_,?_,?_,?_⟩
    · intro id' h'
      exact hused id' (h.stored id' fun hn => h' (hnone id' hn))
    · exact fun j n hj => hdraws ▸ h.drawn j n (of_update hj nofun).2
    · exact fun j k n hj hk => h.apart j k n (of_update hj nofun).2 (of_update hk nofun).2
    · exact fun j hj => h.accepted j (of_update hj nofun).2
    · intro j id' hj
      obtain ⟨_,rfl⟩|⟨hj,_⟩ := hmine j id' hj
      · exact ⟨hself,hused id' (h.stored id' hsome)⟩
      · obtain ⟨hn,hu⟩ := h.gone j id' hj
        exact ⟨hnone id' hn,hused id' hu⟩
    · intro j k id' hj hk
      obtain ⟨rfl,he⟩|⟨hj,hne⟩ := hmine j id' hj
      · obtain ⟨rfl,_⟩|⟨_,hne⟩ := hmine k id' hk
        · rfl
        · exact absurd he hne
      · obtain ⟨_,he⟩|⟨hk,_⟩ := hmine k id' hk
        · exact absurd he hne
        · exact h.once j k id' hj hk

/-- A second factor is accepted. -/
theorem Challenges.accept (h : Challenges env history states) (he : Accepts e.op)
    (hi : e.pid=i) :
    Challenges env (e::history) (Function.update states i .accepted) := by
  have hused : ∀ id, Used env.draws states id →
      Used env.draws (Function.update states i .accepted) id :=
    fun id ⟨n,hn,hid,hnot⟩ => ⟨n,hn,hid,fun j hj => hnot j (of_update hj nofun).2⟩
  refine ⟨?_,?_,?_,?_,?_,?_⟩
  · exact fun id hid => hused id (h.stored id hid)
  · exact fun j n hj => h.drawn j n (of_update hj nofun).2
  · exact fun j k n hj hk => h.apart j k n (of_update hj nofun).2 (of_update hk nofun).2
  · intro j hj
    by_cases hji : j=i
    · exact ⟨e,List.mem_cons_self,hi.trans hji.symm,he⟩
    · rw [Function.update_of_ne hji] at hj
      obtain ⟨e',he',hrest⟩ := h.accepted j hj
      exact ⟨e',List.mem_cons_of_mem _ he',hrest⟩
  · intro j id hj
    obtain ⟨hnone,hu⟩ := h.gone j id (of_update hj nofun).2
    exact ⟨hnone,hused id hu⟩
  · exact fun j k id hj hk => h.once j k id (of_update hj nofun).2 (of_update hk nofun).2

end Invariant

section Requests

open AuthService BruteForceProtectionService RefreshTokenService

/-- Refusing always ends with the failure. -/
theorem follows_refuse {α : Type} (d : Deployment) (userId : Option UUID)
    (ip ua : Option String) (payload : List (String×PyValue)) (failure : Failure) (s : Phase) :
    (refuse d userId ip ua payload failure : Action α).Follows protocol s
      fun _ o => ∃ e, o=.error e :=
  bind_quiet (inside_logEvent _ _ _ _ _ _ _ _) (by decide)
    (fun _ => bind_quiet inside_commit (by decide) (fun _ => ⟨_,rfl⟩) fun _ => ⟨_,rfl⟩)
    fun _ => ⟨_,rfl⟩

/-- A recorded acceptance. -/
theorem bind_accepted {β : Type} {observation : Observation} {f : Unit → Action β}
    {R : Phase → Except Failure β → Prop} (h : Accepts (.external (.observe observation)))
    (hok : (f ()).Follows protocol .accepted R) :
    ((observe observation).bind f).Follows protocol .idle R :=
  fun _ _ => ⟨.accepted,⟨by simp [Quiet,accesses],.inr ⟨h,rfl,rfl⟩⟩,hok⟩

/-- The deletion of a challenge after its second factor. -/
theorem bind_redeem {β : Type} (challengeId : String) {f : Unit → Action β}
    {R : Phase → Except Failure β → Prop}
    (hok : (f ()).Follows protocol (.redeemed challengeId) R) :
    ((deleteLoginChallenge challengeId).bind f).Follows protocol .accepted R :=
  fun _ _ => ⟨.redeemed challengeId,.inl ⟨rfl,rfl⟩,hok⟩

/-- The deletion of a challenge before any second factor. -/
theorem bind_discard {β : Type} (challengeId : String) {f : Unit → Action β}
    {R : Phase → Except Failure β → Prop} (hok : (f ()).Follows protocol .idle R) :
    ((deleteLoginChallenge challengeId).bind f).Follows protocol .idle R :=
  fun _ _ => ⟨.idle,.inr ⟨rfl,rfl⟩,hok⟩

/-- A returned factor has been accepted. -/
def Factored {α : Type} (s : Phase) (o : Except Failure α) : Prop := ∀ a, o=.ok a → s=.accepted

/-- A rejected code ends the request. -/
theorem follows_rejectCode {α : Type} (user : LoadedUser) (s : Phase) :
    (TwoFactorService.rejectCode user : Action α).Follows protocol s Factored :=
  bind_quiet (inside_observe _) (by decide) (fun _ _ => nofun) fun _ _ => nofun

/-- A TOTP check ends with the factor or a failure. -/
theorem follows_verifyTotp (d : Deployment) (user : LoadedUser) (code : String) :
    (TwoFactorService.verifyTotp d user code).Follows protocol .idle Factored := by
  refine bind_quiet (inside_getSecret user) (by decide) (fun found => ?_) fun _ _ => nofun
  cases found with
  | none => exact fun _ => nofun
  | some record =>
    simp only [Program.monad_throw,Program.monad_bind]
    split
    · exact fun _ => nofun
    · refine bind_quiet (inside_verifyTotpCode d _ code) (by decide) (fun result => ?_)
        fun _ _ => nofun
      split
      · exact follows_rejectCode user _
      · split
        · exact follows_rejectCode user _
        · exact bind_accepted trivial fun _ _ => rfl

/-- A backup code check ends with the factor or a failure. -/
theorem follows_verifyBackupCode (user : LoadedUser) (code : String) :
    (TwoFactorService.verifyBackupCode user code).Follows protocol .idle Factored := by
  refine bind_quiet (inside_listBackupCodesForUpdate user) (by decide) (fun codes => ?_)
    fun _ _ => nofun
  split
  · exact follows_rejectCode user _
  · refine bind_accepted trivial ?_
    exact bind_quiet inside_utcNow (by decide) (fun _ _ _ => rfl) fun _ _ => nofun

/-- The factor check ends with the factor or a failure. -/
theorem follows_verifyForLogin (d : Deployment) (user : LoadedUser) (totp backup : Option String) :
    (TwoFactorService.verifyForLogin d user totp backup).Follows protocol .idle Factored := by
  simp only [TwoFactorService.verifyForLogin,Program.monad_throw,Program.monad_bind]
  split
  · rintro _ ⟨⟩
  · split
    · exact follows_verifyTotp d user _
    · exact follows_verifyBackupCode user _
    · rintro _ ⟨⟩

/-- Returned tokens have redeemed the challenge. -/
def Redeems {α : Type} (challengeId : String) (s : Phase) (o : Except Failure α) : Prop :=
  ∀ a, o=.ok a → s=.redeemed challengeId

/-- The challenge is deleted before the tokens are issued. -/
theorem follows_redeemChallenge (d : Deployment) (user : LoadedUser)
    (factor : TwoFactorService.PendingFactor) (challengeId identifier : String)
    (ip ua : Option String) :
    (redeemChallenge d user factor challengeId identifier ip ua).Follows protocol .accepted
      (Redeems challengeId) := by
  refine bind_quiet (inside_clearFailures _ _ _) (by decide) (fun _ => ?_) fun _ _ => nofun
  refine bind_redeem challengeId ?_
  refine bind_quiet (inside_flushFactor factor) (by decide) (fun _ => ?_) fun _ _ => nofun
  refine bind_quiet (inside_issueForUser d _ ip ua) (by decide) (fun _ => ?_) fun _ _ => nofun
  refine bind_quiet (inside_logEvent _ _ _ _ _ _ _ _) (by decide) (fun _ => ?_) fun _ _ => nofun
  exact bind_quiet inside_commit (by decide) (fun _ _ _ => rfl) fun _ _ => nofun

/-- Tokens for an answered challenge follow its deletion. -/
theorem follows_answerChallenge (d : Deployment) (user : LoadedUser)
    (challengeId identifier : String) (totp backup ip ua : Option String) :
    (answerChallenge d user challengeId identifier totp backup ip ua).Follows protocol .idle
      (Redeems challengeId) := by
  have hfactor : (Program.handle (TwoFactorService.verifyForLogin d user totp backup)
      fun failure => if failure=.invalidTwoFactorCode then do
          let _ ← recordFailure d .twoFactor identifier
          refuse d (some user.row.id) ip ua [("reason",.str "invalid_2fa")] .invalidTwoFactorCode
        else throw failure).Follows protocol .idle Factored := by
    refine (follows_verifyForLogin d user totp backup).handle (fun _ _ h => h) fun s e _ => ?_
    split
    · refine bind_quiet (inside_recordFailure _ _ _) (by decide) (fun _ => ?_) fun _ _ => nofun
      refine (follows_refuse d _ ip ua _ _ s).mono fun _ o ho a ha => ?_
      obtain ⟨e',rfl⟩ := ho
      cases ha
    · exact fun _ => nofun
  refine hfactor.bind (fun s factor hs => ?_) fun _ _ _ _ => nofun
  obtain rfl := hs factor rfl
  exact follows_redeemChallenge d user factor challengeId identifier ip ua

/-- Tokens of the second step follow the deletion of its challenge. -/
theorem follows_verifyLoginChallenge (d : Deployment) (challengeId : String)
    (totp backup ip ua : Option String) :
    (verifyLoginChallenge d challengeId totp backup ip ua).Follows protocol .idle
      (Redeems challengeId) := by
  have hrefuse : ∀ userId payload failure,
      ((deleteLoginChallenge challengeId).bind fun _ =>
        (refuse d userId ip ua payload failure : Action TokenPair)).Follows protocol .idle
          (Redeems challengeId) := by
    intro userId payload failure
    refine bind_discard challengeId ?_
    refine (follows_refuse d userId ip ua payload failure .idle).mono fun _ o ho a ha => ?_
    obtain ⟨e',rfl⟩ := ho
    cases ha
  refine bind_quiet (inside_assertNotLocked _ _ _) (by decide) (fun _ => ?_) fun _ _ => nofun
  refine bind_quiet (inside_getLoginChallenge _) (by decide) (fun found => ?_) fun _ _ => nofun
  cases found with
  | none => exact fun _ => nofun
  | some challenge =>
    simp only [Program.monad_throw,Program.monad_bind]
    split
    · exact bind_quiet (inside_recordFailure _ _ _) (by decide) (fun _ => hrefuse _ _ _)
        fun _ _ => nofun
    · split
      · exact fun _ => nofun
      · refine bind_quiet (inside_load _) (by decide) (fun found => ?_) fun _ _ => nofun
        cases found with
        | none => exact fun _ => nofun
        | some user =>
          dsimp only
          split
          · exact hrefuse _ _ _
          · exact follows_answerChallenge d user challengeId _ totp backup ip ua

/-- Creating a challenge uses the identifier just drawn. -/
theorem follows_createLoginChallenge (d : Deployment) (userId : UUID) (ip : Option String) :
    (createLoginChallenge d userId ip).Follows protocol .idle fun _ _ => True := by
  intro n _
  refine ⟨.drew n,.inr rfl,?_⟩
  show Program.Follows protocol (Program.bind (redisSet _ _ _) _) _ _
  unfold redisSet
  split
  · trivial
  · exact fun _ _ => ⟨.idle,⟨n,rfl,rfl,rfl⟩,trivial⟩

/-- Granting access redeems no challenge. -/
theorem follows_grantAccess (d : Deployment) (user : LoadedUser) (email identifier : String)
    (ip ua : Option String) :
    (grantAccess d user email identifier ip ua).Follows protocol .idle fun _ _ => True := by
  refine bind_quiet (inside_clearFailures _ _ _) (by decide) (fun _ => ?_) fun _ => trivial
  refine bind_quiet (inside_clearFailures _ _ _) (by decide) (fun _ => ?_) fun _ => trivial
  simp only [Program.monad_bind,Program.monad_pure]
  split
  · exact (follows_createLoginChallenge d _ ip).bind (fun _ _ _ => trivial) fun _ _ _ => trivial
  · refine bind_quiet (inside_issueForUser d _ ip ua) (by decide) (fun _ => ?_) fun _ => trivial
    refine bind_quiet (inside_logEvent _ _ _ _ _ _ _ _) (by decide) (fun _ => ?_) fun _ => trivial
    exact bind_quiet inside_commit (by decide) (fun _ => trivial) fun _ => trivial

/-- A login redeems no challenge. -/
theorem follows_login (d : Deployment) (email password : String) (ip ua : Option String) :
    (login d email password ip ua).Follows protocol .idle fun _ _ => True := by
  have hreject : ∀ user, (rejectPassword d user (d.lower email)
      (d.lower email++":"++orUnknown ip) ip ua).Follows protocol .idle fun _ _ => True :=
    fun user => (follows_quiet (inside_rejectPassword d user _ _ ip ua) (by decide)).mono
      fun _ _ _ => trivial
  refine bind_quiet (inside_load _) (by decide) (fun found => ?_) fun _ => trivial
  cases found with
  | none =>
    exact bind_quiet (inside_assertNotLocked _ _ _) (by decide) (fun _ => hreject none)
      fun _ => trivial
  | some user =>
    simp only [Program.monad_throw,Program.monad_bind]
    split
    · trivial
    · refine bind_quiet (inside_assertNotLocked _ _ _) (by decide) (fun _ => ?_) fun _ => trivial
      refine bind_quiet (inside_assertNotLocked _ _ _) (by decide) (fun _ => ?_) fun _ => trivial
      split
      · exact hreject (some user)
      · split
        · exact (follows_refuse d _ ip ua _ _ _).mono fun _ _ _ => trivial
        · exact follows_grantAccess d user _ _ ip ua

end Requests

section Runs

/-- Tokens for an answered challenge are justified by its redemption. -/
def Ends (s : Phase) (o : Except Failure Served) : Prop :=
  ∀ c pair id totp backup, o=.ok ⟨c,.tokens pair⟩ → c.request=.verifyLoginChallenge id totp backup →
    s=.redeemed id

/-- A request that answers no challenge needs no justification. -/
theorem ends_of_ne {d : Deployment} {client : ClientRequest}
    (h : (respond d client).Follows protocol .idle fun _ _ => True)
    (hne : ∀ id totp backup, client.request≠.verifyLoginChallenge id totp backup) :
    (served d client).Follows protocol .idle Ends := by
  refine h.bind ?_ ?_
  · intro s response _ c pair id totp backup ho hc
    cases ho
    exact absurd hc (hne id totp backup)
  · intro s e _ c pair id totp backup ho
    cases ho

/-- Every request follows the protocol of login challenges. -/
theorem follows_served (d : Deployment) (client : ClientRequest) :
    (served d client).Follows protocol .idle Ends := by
  obtain ⟨request,ip,ua⟩ := client
  have quiet : ∀ request fp, footprint request=fp →
      (∀ id totp backup, request≠.verifyLoginChallenge id totp backup) →
      .redisWrite .challenge∉fp → (served d ⟨request,ip,ua⟩).Follows protocol .idle Ends := by
    intro request fp he hne hfp
    have h : (respond d ⟨request,ip,ua⟩).Follows protocol .idle fun s' _ => s'=.idle :=
      follows_quiet (inside_respond d ⟨request,ip,ua⟩) (he.symm ▸ hfp)
    exact ends_of_ne (h.mono fun _ _ _ => trivial) hne
  cases request with
  | verifyLoginChallenge challengeId totp backup =>
    have h : (respond d ⟨.verifyLoginChallenge challengeId totp backup,ip,ua⟩).Follows protocol
        .idle (Redeems challengeId) :=
      (follows_verifyLoginChallenge d challengeId totp backup ip ua).bind
        (fun s pair hs _ _ => hs pair rfl) fun _ _ _ _ => nofun
    refine h.bind ?_ ?_
    · intro s response hs c pair id totp' backup' ho hc
      cases ho
      cases hc
      exact hs _ rfl
    · intro s e _ c pair id totp' backup' ho
      cases ho
  | login email password =>
    refine ends_of_ne ?_ fun _ _ _ => nofun
    exact (follows_login d email password ip ua).bind (fun _ _ _ => trivial) fun _ _ _ => trivial
  | refreshTokens => exact quiet _ refresh rfl (fun _ _ _ => nofun) (by decide)
  | revokeRefreshToken => exact quiet _ refresh rfl (fun _ _ _ => nofun) (by decide)
  | resetPassword => exact quiet _ reset rfl (fun _ _ _ => nofun) (by decide)
  | register => exact quiet _ registration rfl (fun _ _ _ => nofun) (by decide)
  | requestReset => exact quiet _ resetRequest rfl (fun _ _ _ => nofun) (by decide)
  | currentSession => exact quiet _ authentication rfl (fun _ _ _ => nofun) (by decide)
  | setupTwoFactor => exact quiet _ factorEndpoint rfl (fun _ _ _ => nofun) (by decide)
  | enableTwoFactor => exact quiet _ factorEndpoint rfl (fun _ _ _ => nofun) (by decide)
  | disableTwoFactor => exact quiet _ factorEndpoint rfl (fun _ _ _ => nofun) (by decide)
  | regenerateBackupCodes => exact quiet _ factorEndpoint rfl (fun _ _ _ => nofun) (by decide)

/-- The invariant of the shared state. -/
def Inv (s : Shared) (history : List (Event authSignature)) (states : ℕ → Phase) : Prop :=
  Challenges s.env history states

/-- When a request whose second factor was accepted is about to delete a
challenge, the challenge has not been deleted. -/
def RedeemsPresent (sys : AuthSystem) : AuthMove → Prop
  | .effect i _ => ∀ id k,
    sys.procs[i]?=some (some (.call (.external (.redisDelete [.loginChallenge id])) k)) →
    (∃ e∈sys.history, e.pid=i ∧ Accepts e.op) → sys.shared.env.redis (.loginChallenge id)≠none
  | _ => True

/-- Quiet effects change no challenge. -/
theorem redis_quiet {op : External} (choice : ℕ) (env : Environment)
    (h : Quiet (.external op)) (id : String) :
    (env.perform op choice).2.redis (.loginChallenge id)=env.redis (.loginChallenge id) := by
  have hne : ∀ key, .redisWrite .challenge∉[Access.redisWrite (area key)] →
      RedisKey.loginChallenge id≠key := by
    intro key hk he
    exact hk (by simp [←he,area])
  cases op with
  | redisSet key value expiry => exact Store.assign_of_ne _ _ _ (hne key h)
  | redisDelete keys =>
    refine Store.removeAll_of_notMem _ fun hm => h ?_
    exact List.mem_map.mpr ⟨_,hm,rfl⟩
  | redisIncr key => exact (env.tick choice).increment_of_ne (hne key h)
  | redisExpire key expiry => exact Store.retime_of_ne _ _ _ (hne key h)
  | _ => rfl

/-- What every kind of move has to keep. -/
theorem obligations (d : Deployment) :
    Obligations authMachine protocol .idle Ends Inv
      (fun sys mv => Starts d sys mv ∧ RedeemsPresent sys mv) id := by
  constructor
  · rintro sys p ⟨⟨client,rfl⟩,_⟩
    exact follows_served d client
  · exact fun _ _ h => h
  · intro sys states i op c s ht hf
    unfold Inv
    rw [(fire_progress hf).2]
    exact ht.inv
  · exact fun _ _ _ _ _ _ _ _ _ _ => trivial
  · intro sys states i op k c r s t ht hc hp hm hf
    have hinv : Challenges sys.shared.env sys.history states := ht.inv
    have hquiet : Quiet op → (t=states i ∨ (Accepts op ∧ states i=.idle ∧ t=.accepted)) →
        (∀ id, s.env.redis (.loginChallenge id)=sys.shared.env.redis (.loginChallenge id)) →
        sys.shared.env.draws ≤ s.env.draws →
        Challenges s.env (⟨i,op,r⟩::sys.history) (Function.update states i t) := by
      rintro _ (rfl|⟨hacc,_,rfl⟩) hredis hdraws
      · rw [Function.update_eq_self]
        exact hinv.mono hredis hdraws (List.subset_cons_self _ _)
      · exact (hinv.accept hacc rfl).mono hredis hdraws (List.Subset.refl _)
    cases op with
    | sql stmt =>
      obtain ⟨_,henv⟩ := fire_sql hf
      have hm' : Quiet (.sql stmt) ∧ (t=states i ∨ (Accepts (.sql stmt) ∧ _)) := hm
      exact hquiet hm'.1 hm'.2 (fun _ => by rw [henv]) (by rw [henv])
    | external op =>
      obtain ⟨hr,rfl⟩ := fire_external hf
      have hdraws := Environment.draws_le_perform op c sys.shared.env
      have hother : Quiet (.external op) →
          (t=states i ∨ (Accepts (.external op) ∧ states i=.idle ∧ t=.accepted)) →
          Challenges (sys.shared.env.perform op c).2 (⟨i,.external op,r⟩::sys.history)
            (Function.update states i t) :=
        fun hq ht' => hquiet hq ht' (redis_quiet c sys.shared.env hq) hdraws
      have hmove : moves (states i) (.external op) r t := hm
      unfold moves at hmove
      split at hmove
      · cases ‹Effect.external op=_›
        obtain rfl := Option.some.inj hr
        obtain rfl|rfl := eq_of_heq ‹_› ▸ hmove
        · exact hother (by simp [Quiet,accesses]) (.inl rfl)
        · exact (hinv.draw i).mono (fun _ => rfl) (Nat.le_refl _) (List.subset_cons_self _ _)
      · cases ‹Effect.external op=_›
        obtain ⟨n,hi,rfl,rfl⟩ := hmove
        exact (hinv.mono (fun _ => rfl) (Nat.le_refl _) (List.subset_cons_self _ _)).create hi
          rfl rfl
      · cases ‹Effect.external op=_›
        refine (hinv.mono (fun _ => rfl) (Nat.le_refl _) (List.subset_cons_self _ _)).delete ?_
          rfl rfl
        obtain ⟨hi,rfl⟩|⟨hi,rfl⟩ := hmove
        · exact .inr ⟨rfl,hc.2 _ k hp (hinv.accepted i hi)⟩
        · exact .inl hi.symm
      · exact hother hmove.1 hmove.2
  · intro sys states i ht _
    show Challenges _ _ (Function.update states i (states i))
    rw [Function.update_eq_self]
    exact ht.inv

/-- Requests that returned tokens for the same challenge are the same. -/
def AtMostOneSession (sys : AuthSystem) : Prop :=
  ∀ i j c c' pair pair' id totp totp' backup backup',
    sys.outcome i=some (.ok ⟨c,.tokens pair⟩) → sys.outcome j=some (.ok ⟨c',.tokens pair'⟩) →
    c.request=.verifyLoginChallenge id totp backup →
    c'.request=.verifyLoginChallenge id totp' backup' → i=j

/-- A challenge buys at most one session in every run in which no request
redeems a challenge that has already been deleted. -/
theorem challenge_buys_one_session {d : Deployment} {env : Environment}
    {db : Database authSchema} {sys : AuthSystem}
    (hredis : ∀ id, env.redis (.loginChallenge id)=none)
    (h : authMachine.Reaches (fun sys mv => Starts d sys mv ∧ RedeemsPresent sys mv)
      (idleSystem env db) sys) : AtMostOneSession sys := by
  have hstart : Tracks protocol .idle Ends Inv (idleSystem env db) fun _ => .idle := by
    refine ⟨⟨?_,?_,?_,?_,?_,?_⟩,?_,fun _ _ => rfl⟩
    · exact fun id hid => absurd (hredis id) hid
    · exact fun _ _ => nofun
    · exact fun _ _ _ => nofun
    · exact fun _ => nofun
    · exact fun _ _ => nofun
    · exact fun _ _ _ => nofun
    · intro i p hp
      simp [idleSystem] at hp
  obtain ⟨states,ht⟩ := hstart.reaches (obligations d) h
  have hinv : Challenges sys.shared.env sys.history states := ht.inv
  intro i j c c' pair pair' id totp totp' backup backup' hi hj hc hc'
  exact hinv.once i j id (ht.outcome hi c pair id totp backup rfl hc)
    (ht.outcome hj c' pair' id totp' backup' rfl hc')

/-- The outcome of a request that has redeemed a challenge. -/
def redeemed (challengeId : String) : Option (Except Failure Served) → Bool
  | some (.ok ⟨⟨.verifyLoginChallenge id _ _,_,_⟩,.tokens _⟩) => id=challengeId
  | _ => false

/-- The decidable check finds the tokens that answered the challenge. -/
theorem exists_of_redeemed {challengeId : String} {o : Option (Except Failure Served)}
    (h : redeemed challengeId o=true) : ∃ c pair totp backup,
      o=some (.ok ⟨c,.tokens pair⟩) ∧ c.request=.verifyLoginChallenge challengeId totp backup := by
  unfold redeemed at h
  split at h
  · rename_i id totp backup ip ua pair
    obtain rfl := of_decide_eq_true h
    exact ⟨_,pair,totp,backup,rfl,rfl⟩
  · cases h

/-- A sign-in of the sample account with a second factor, and two requests that
answer its challenge with a code and with a backup code. Both read the
challenge before either deletes it. -/
def sampleOverlap : List Directive :=
  [.start (fromClient (.login "c@d" "password1")),.steps 0 9,.finish 0,
    .start (fromClient (.verifyLoginChallenge "10" (some "4100") none)),
    .start (fromClient (.verifyLoginChallenge "10" none (some "ABCD-EFGH"))),
    .steps 1 2,.steps 2 2,.steps 1 22,.finish 1,.steps 2 23,.finish 2]

/-- Two answers overlap between the look-up and the deletion: both get a
session. -/
theorem challenge_buys_two_sessions : ∃ sys,
    Reached sampleDeployment sampleEnvironment
      (sampleDatabase [sampleUser2fa] [sampleSecret] [sampleCode]) sys ∧
      ¬AtMostOneSession sys := by
  have hrun : (follow sampleDeployment (fun _ _ => true) sampleEnvironment
      (sampleDatabase [sampleUser2fa] [sampleSecret] [sampleCode]) sampleOverlap).any
      (fun sys => redeemed "10" (sys.outcome 1) && redeemed "10" (sys.outcome 2))=true := by
    decide +kernel
  obtain ⟨sys,hsys,hboth⟩ := (Option.any_eq_true _ _).mp hrun
  simp only [Bool.and_eq_true] at hboth
  obtain ⟨c,pair,totp,backup,hi,hc⟩ := exists_of_redeemed hboth.1
  obtain ⟨c',pair',totp',backup',hj,hc'⟩ := exists_of_redeemed hboth.2
  refine ⟨sys,reached_of_follow hsys,fun h => ?_⟩
  exact absurd (h 1 2 c c' pair pair' "10" totp totp' backup backup' hi hj hc hc') (by decide)

/-- The check that implies the condition: a deleted challenge is there. -/
def deletesPresent (sys : AuthSystem) : AuthMove → Bool
  | .effect i _ =>
    match sys.procs[i]? with
    | some (some (.call (.external (.redisDelete [.loginChallenge id])) _)) =>
      (sys.shared.env.redis (.loginChallenge id)).isSome
    | _ => true
  | _ => true

/-- The decidable check of a move gives the condition on it. -/
theorem redeemsPresent_of_check (sys : AuthSystem) (mv : AuthMove)
    (h : deletesPresent sys mv=true) : RedeemsPresent sys mv := by
  cases mv with
  | effect i c =>
    intro id k hp _
    simp only [deletesPresent,hp] at h
    exact Option.isSome_iff_ne_none.mp h
  | _ => trivial

/-- The same two requests, one after the other. -/
def sampleSequence : List Directive :=
  [.start (fromClient (.login "c@d" "password1")),.steps 0 9,.finish 0,
    .start (fromClient (.verifyLoginChallenge "10" (some "4100") none)),
    .start (fromClient (.verifyLoginChallenge "10" none (some "ABCD-EFGH"))),
    .steps 1 24,.finish 1,.steps 2 2,.finish 2]

/-- Two answers in turn: the second one finds no challenge. -/
theorem challenge_buys_one_session_sequence : ∃ sys,
    redeemed "10" (sys.outcome 1)=true ∧ AtMostOneSession sys := by
  have hrun : (follow sampleDeployment deletesPresent sampleEnvironment
      (sampleDatabase [sampleUser2fa] [sampleSecret] [sampleCode]) sampleSequence).any
      (fun sys => redeemed "10" (sys.outcome 1))=true := by
    decide +kernel
  obtain ⟨sys,hsys,hone⟩ := (Option.any_eq_true _ _).mp hrun
  exact ⟨sys,hone,challenge_buys_one_session (fun _ => rfl)
    (reaches_of_follow redeemsPresent_of_check hsys)⟩

end Runs

end BackendPlatform.LoginChallenges
