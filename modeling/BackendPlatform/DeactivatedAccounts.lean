import BackendPlatform.ServerRuns

/-!
# Tokens and deactivated accounts

Signing in and answering a challenge look at the account before they issue
tokens. Refreshing does not: a refresh token of a deactivated account is
exchanged like any other.
-/

set_option autoImplicit false

namespace BackendPlatform.DeactivatedAccounts

open ProgramTrees TransactionalTables AuthRecords AuthEffects AuthRepositories AuthServices
open AuthFlows AuthFootprints ServerRuns AuthService RefreshTokenService JWTService

section Subjects

/-- The user a token names. -/
def subject : RawToken → Option UUID
  | .signed payload _ => UUID.parse payload.sub
  | .garbage _ => none

/-- Both tokens of a pair name the user. -/
def IssuedFor (userId : UUID) (pair : TokenPair) : Prop :=
  subject pair.accessToken=some userId ∧ subject pair.refreshToken=some userId

/-- Returned pairs name the user. -/
def Names (userId : UUID) (o : Except Failure TokenPair) (_ : World) : Prop :=
  ∀ pair, o=.ok pair → IssuedFor userId pair

/-- A refresh token names the user it is issued for. -/
theorem yields_issueRefreshToken (d : Deployment) (userId sessionId familyId jti : UUID)
    (w : World) : Yields (issueRefreshToken d userId sessionId familyId jti) w
      fun o _ => ∀ r, o=.ok r → subject r.1=some userId := by
  intro r hr
  cases hr
  exact UUID.parse_str userId

/-- An access token names the user it is issued for. -/
theorem yields_issueAccessToken (d : Deployment) (userId sessionId : UUID) (w : World) :
    Yields (issueAccessToken d userId sessionId) w
      fun o _ => ∀ r, o=.ok r → subject r.1=some userId := by
  intro r hr
  cases hr
  exact UUID.parse_str userId

/-- Both tokens of a sign-in name its user. -/
theorem yields_issueForUser (d : Deployment) (userId : UUID) (ip ua : Option String)
    (w : World) : Yields (issueForUser d userId ip ua) w (Names userId) := by
  refine yields_skip (fun _ _ => ?_) fun _ _ _ => nofun
  refine yields_skip (fun _ _ => ?_) fun _ _ _ => nofun
  refine yields_skip (fun _ _ => ?_) fun _ _ _ => nofun
  refine (yields_issueRefreshToken d userId _ _ _ _).bind (fun refresh _ hrefresh => ?_)
    fun _ _ _ _ => nofun
  refine yields_skip (fun _ _ => ?_) fun _ _ _ => nofun
  refine (yields_issueAccessToken d userId _ _).bind (fun access _ haccess => ?_)
    fun _ _ _ _ => nofun
  intro pair hpair
  cases hpair
  exact ⟨haccess access rfl,hrefresh refresh rfl⟩

/-- Both tokens of a renewal name the user of the old one. -/
theorem yields_exchange (d : Deployment) (record : RefreshToken) (ids : RefreshIds)
    (ip ua : Option String) (w : World) :
    Yields (exchange d record ids ip ua) w (Names ids.userId) := by
  refine yields_skip (fun _ _ => ?_) fun _ _ _ => nofun
  refine (yields_issueRefreshToken d ids.userId _ _ _ _).bind (fun refresh _ hrefresh => ?_)
    fun _ _ _ _ => nofun
  refine yields_skip (fun _ _ => ?_) fun _ _ _ => nofun
  refine yields_skip (fun _ _ => ?_) fun _ _ _ => nofun
  refine yields_skip (fun _ _ => ?_) fun _ _ _ => nofun
  refine (yields_issueAccessToken d ids.userId _ _).bind (fun access _ haccess => ?_)
    fun _ _ _ _ => nofun
  intro pair hpair
  cases hpair
  exact ⟨haccess access rfl,hrefresh refresh rfl⟩

end Subjects

section Requests

/-- No stored row of the user is active. -/
def Inactive (db : Database authSchema) (userId : UUID) : Prop :=
  ∀ row∈db .users, row.id=userId → row.isActive=false

/-- The token pair of a response. -/
def pairOf : Response → Option TokenPair
  | .tokens pair => some pair
  | .login result => result.tokens
  | _ => none

/-- The outcome returns no pair that names the user. -/
def Withholds (userId : UUID) (o : Except Failure Response) : Prop :=
  ∀ response pair, o=.ok response → pairOf response=some pair →
    subject pair.accessToken≠some userId ∧ subject pair.refreshToken≠some userId

/-- A pair for one user is no pair for another. -/
theorem withholds_of_names {userId other : UUID} {pair : TokenPair} (h : IssuedFor other pair)
    (hne : other≠userId) :
    subject pair.accessToken≠some userId ∧ subject pair.refreshToken≠some userId :=
  ⟨fun he => hne (Option.some.inj (h.1.symm.trans he)),
    fun he => hne (Option.some.inj (h.2.symm.trans he))⟩

variable {w : World} {userId : UUID}

/-- A sign-in returns tokens only for the active account it has loaded. -/
theorem yields_login (d : Deployment) (email password : String) (ip ua : Option String)
    (w : World) : Yields (login d email password ip ua) w fun o _ =>
      ∀ result pair, o=.ok result → result.tokens=some pair →
        ∃ row∈w.data.work .users, row.isActive=true ∧ IssuedFor row.id pair := by
  have hreject : ∀ user w', Yields (rejectPassword d user (d.lower email)
      (d.lower email++":"++orUnknown ip) ip ua) w' fun o _ => ∃ e, o=.error e := by
    intro user w'
    refine yields_skip (fun _ _ => ?_) fun e _ => ⟨e,rfl⟩
    refine yields_skip (fun blocked _ => ?_) fun e _ => ⟨e,rfl⟩
    refine yields_skip (fun _ _ => ?_) fun e _ => ⟨e,rfl⟩
    refine yields_skip (fun _ _ => ?_) fun e _ => ⟨e,rfl⟩
    cases blocked <;> exact ⟨_,rfl⟩
  have hfailed : ∀ {p : Action LoginStepResult} {w'}, (Yields p w' fun o _ => ∃ e, o=.error e) →
      Yields p w' fun o _ => ∀ result pair, o=.ok result → result.tokens=some pair →
        ∃ row∈w.data.work .users, row.isActive=true ∧ IssuedFor row.id pair := by
    intro p w' h
    refine h.mono ?_
    rintro _ _ ⟨e,rfl⟩ result pair hr
    cases hr
  refine (yields_load _ w).bind (fun found w' hload => ?_) fun _ _ _ _ _ => nofun
  cases found with
  | none => exact yields_skip (fun _ _ => hfailed (hreject none _)) fun _ _ _ _ => nofun
  | some user =>
    have hrow := (hload.2 user rfl).1
    simp only [Program.monad_throw,Program.monad_bind]
    split
    · exact fun _ _ => nofun
    · refine yields_skip (fun _ _ => ?_) fun _ _ _ _ => nofun
      refine yields_skip (fun _ _ => ?_) fun _ _ _ _ => nofun
      split
      · exact hfailed (hreject (some user) _)
      · split
        · refine hfailed (yields_skip (fun _ _ => ?_) fun e _ => ⟨e,rfl⟩)
          exact yields_skip (fun _ _ => ⟨_,rfl⟩) fun e _ => ⟨e,rfl⟩
        · rename_i hactive
          have hactive : user.row.isActive=true := by simpa using hactive
          refine yields_skip (fun _ _ => ?_) fun _ _ _ _ => nofun
          refine yields_skip (fun _ _ => ?_) fun _ _ _ _ => nofun
          simp only [Program.monad_bind,Program.monad_pure]
          split
          · refine yields_skip (fun _ _ => ?_) fun _ _ _ _ => nofun
            intro result pair hr hp
            cases hr
            cases hp
          · refine (yields_issueForUser d user.row.id ip ua _).bind (fun pair _ hpair => ?_)
              fun _ _ _ _ _ => nofun
            refine yields_skip (fun _ _ => ?_) fun _ _ _ _ => nofun
            refine yields_skip (fun _ _ => ?_) fun _ _ _ _ => nofun
            intro result pair' hr hp
            cases hr
            cases hp
            exact ⟨user.row,hrow,hactive,hpair pair rfl⟩

/-- The tokens of the second step name the challenged user. -/
theorem yields_redeemChallenge (d : Deployment) (user : LoadedUser)
    (factor : TwoFactorService.PendingFactor) (challengeId identifier : String)
    (ip ua : Option String) (w : World) :
    Yields (redeemChallenge d user factor challengeId identifier ip ua) w (Names user.row.id) := by
  refine yields_skip (fun _ _ => ?_) fun _ _ _ => nofun
  refine yields_skip (fun _ _ => ?_) fun _ _ _ => nofun
  refine yields_skip (fun _ _ => ?_) fun _ _ _ => nofun
  refine (yields_issueForUser d user.row.id ip ua _).bind (fun pair _ hpair => ?_)
    fun _ _ _ _ => nofun
  refine yields_skip (fun _ _ => ?_) fun _ _ _ => nofun
  refine yields_skip (fun _ _ => ?_) fun _ _ _ => nofun
  intro pair' hp
  cases hp
  exact hpair pair rfl

/-- An answered challenge returns tokens only for the active account it has
loaded. -/
theorem yields_verifyLoginChallenge (d : Deployment) (challengeId : String)
    (totp backup ip ua : Option String) (w : World) :
    Yields (verifyLoginChallenge d challengeId totp backup ip ua) w fun o _ =>
      ∀ pair, o=.ok pair → ∃ row∈w.data.work .users, row.isActive=true ∧
        IssuedFor row.id pair := by
  have hrefuse : ∀ userId payload failure w',
      Yields (refuse d userId ip ua payload failure : Action TokenPair) w' fun o _ =>
        ∀ pair, o=.ok pair → ∃ row∈w.data.work .users, row.isActive=true ∧
          IssuedFor row.id pair := by
    intro userId payload failure w'
    refine yields_skip (fun _ _ => ?_) fun _ _ _ => nofun
    exact yields_skip (fun _ _ _ => nofun) fun _ _ _ => nofun
  refine (yields_work .users (inside_assertNotLocked _ _ _) (by decide) w).bind (fun _ w₁ h₁ => ?_)
    fun _ _ _ _ => nofun
  refine (yields_work .users (inside_getLoginChallenge _) (by decide) w₁).bind
    (fun found w₂ h₂ => ?_) fun _ _ _ _ => nofun
  cases found with
  | none => exact fun _ => nofun
  | some challenge =>
    simp only [Program.monad_throw,Program.monad_bind]
    split
    · refine yields_skip (fun _ _ => ?_) fun _ _ _ => nofun
      exact yields_skip (fun _ _ => hrefuse _ _ _ _) fun _ _ _ => nofun
    · split
      · exact fun _ => nofun
      · refine (yields_load _ w₂).bind (fun found w₃ hload => ?_) fun _ _ _ _ => nofun
        cases found with
        | none => exact fun _ => nofun
        | some user =>
          have hrow : user.row∈w.data.work .users := by
            rw [←h₁,←h₂]
            exact (hload.2 user rfl).1
          dsimp only
          split
          · exact yields_skip (fun _ _ => hrefuse _ _ _ _) fun _ _ _ => nofun
          · rename_i hactive
            have hactive : user.row.isActive=true := by simpa using hactive
            refine yields_skip (fun factor w₄ => ?_) fun _ _ _ => nofun
            refine (yields_redeemChallenge d user factor _ _ ip ua w₄).mono ?_
            exact fun o _ ho pair hp => ⟨user.row,hrow,hactive,ho pair hp⟩

/-- A refresh returns tokens for the user its own token names. -/
theorem yields_refreshTokens (d : Deployment) (token : RawToken) (ip ua : Option String)
    (w : World) : Yields (refreshTokens d token ip ua) w fun o _ =>
      ∀ pair, o=.ok pair → ∃ userId, subject token=some userId ∧ IssuedFor userId pair := by
  have hrotate : Yields (rotate d token ip ua) w fun o _ =>
      ∀ pair, o=.ok pair → ∃ userId, subject token=some userId ∧ IssuedFor userId pair := by
    have hclaims : Yields (decodeAndValidate d token .refresh) w fun o _ =>
        ∀ claims, o=.ok claims → UUID.parse claims.sub=subject token := by
      cases token with
      | garbage text => exact fun _ => nofun
      | signed payload encoding =>
        refine yields_skip (fun now _ => ?_) fun _ _ _ => nofun
        cases refusal d payload .refresh now with
        | some failure => exact fun _ => nofun
        | none =>
          intro claims h
          cases h
          rfl
    refine hclaims.bind (fun claims w₁ hsub => ?_) fun _ _ _ _ => nofun
    have hids : Yields (refreshIds claims) w₁ fun o _ =>
        ∀ ids, o=.ok ids → subject token=some ids.userId := by
      unfold refreshIds
      split
      · split
        · rename_i sessionId familyId _ _ ids hparse
          intro ids' hi
          cases hi
          rw [←hsub claims rfl]
          simp only [parseIds,Option.bind_eq_bind,Option.bind_eq_some_iff,Option.pure_def]
            at hparse
          obtain ⟨jti,_,family,_,session,_,user,huser,he⟩ := hparse
          cases he
          exact huser
        · exact fun _ => nofun
      · exact fun _ => nofun
    refine hids.bind (fun ids w₂ hsubject => ?_) fun _ _ _ _ => nofun
    refine yields_skip (fun found w₃ => ?_) fun _ _ _ => nofun
    cases found with
    | none => exact fun _ => nofun
    | some record =>
      simp only [Program.monad_throw,Program.monad_bind]
      split
      · exact fun _ => nofun
      · split
        · exact fun _ => nofun
        · refine yields_skip (fun active _ => ?_) fun _ _ _ => nofun
          split
          · exact fun _ => nofun
          · refine yields_skip (fun now _ => ?_) fun _ _ _ => nofun
            split
            · exact fun _ => nofun
            · split
              · refine yields_skip (fun _ _ => ?_) fun _ _ _ => nofun
                exact yields_skip (fun _ _ _ => nofun) fun _ _ _ => nofun
              · refine (yields_exchange d record ids ip ua _).mono ?_
                exact fun o _ ho pair hp => ⟨ids.userId,hsubject ids rfl,ho pair hp⟩
  have hfailed : ∀ e w', Yields (refreshFailed d ip ua e) w' fun o _ => ∃ e', o=.error e' := by
    intro e w'
    unfold refreshFailed
    split
    · refine yields_skip (fun _ _ => ?_) fun e _ => ⟨e,rfl⟩
      refine yields_skip (fun _ _ => ?_) fun e _ => ⟨e,rfl⟩
      exact yields_skip (fun _ _ => ⟨_,rfl⟩) fun e _ => ⟨e,rfl⟩
    · refine yields_skip (fun _ _ => ?_) fun e _ => ⟨e,rfl⟩
      exact yields_skip (fun _ _ => ⟨_,rfl⟩) fun e _ => ⟨e,rfl⟩
    · exact ⟨_,rfl⟩
  have hhandled : Yields ((rotate d token ip ua).handle (refreshFailed d ip ua)) w fun o _ =>
      ∀ pair, o=.ok pair → ∃ userId, subject token=some userId ∧ IssuedFor userId pair := by
    refine hrotate.handle (fun _ _ h => h) fun e w' _ => ?_
    refine (hfailed e w').mono ?_
    rintro _ _ ⟨e',rfl⟩ pair hp
    cases hp
  refine hhandled.bind (fun pair _ hpair => ?_) fun _ _ _ _ => nofun
  refine yields_skip (fun _ _ => ?_) fun _ _ _ => nofun
  refine yields_skip (fun _ _ => ?_) fun _ _ _ => nofun
  intro pair' hp
  cases hp
  exact hpair pair rfl

end Requests

section Runs

/-- A refresh is only asked for with a token of an account that is active. -/
def RefreshesActive (_ : Trace) (s : ServerState) : Input → Prop
  | .call client _ => ∀ token userId, client.request=.refreshTokens token →
    subject token=some userId → ¬Inactive s.db userId
  | _ => True

/-- No request that was made while an account was inactive returned tokens of
the account. -/
def InactiveGetNoTokens (d : Deployment) (trace : Trace) : Prop :=
  ∀ s client choices userId, (s,Input.call client choices)∈trace → Inactive s.db userId →
    Withholds userId (s.serve d client choices).1

/-- A request withholds the tokens of inactive accounts, refreshes with a token
of such an account apart. -/
theorem serve_withholds (d : Deployment) (client : ClientRequest) (choices : List ℕ)
    (s : ServerState) {userId : UUID} (hinactive : Inactive s.db userId)
    (hrefresh : ∀ token userId, client.request=.refreshTokens token →
      subject token=some userId → ¬Inactive s.db userId) :
    Withholds userId (s.serve d client choices).1 := by
  obtain ⟨request,ip,ua⟩ := client
  have hstored : ∀ pair, (∃ row∈s.db .users, row.isActive=true ∧ IssuedFor row.id pair) →
      subject pair.accessToken≠some userId ∧ subject pair.refreshToken≠some userId := by
    rintro pair ⟨row,hrow,hactive,hpair⟩
    refine withholds_of_names hpair fun he => ?_
    rw [hinactive row hrow he] at hactive
    cases hactive
  have hother : ∀ {α : Type} (p : Action α) (f : α → Response), (∀ a, pairOf (f a)=none) →
      Yields (p.bind fun a => .pure (f a)) (s.world choices) fun o _ => Withholds userId o := by
    intro α p f hf
    refine yields_skip (fun a _ => ?_) fun _ _ _ _ => nofun
    intro response pair hr hp
    cases hr
    rw [hf a] at hp
    cases hp
  show Yields (respond d ⟨request,ip,ua⟩) (s.world choices) fun o _ => Withholds userId o
  cases request with
  | login email password =>
    refine (yields_login d email password ip ua _).bind (fun result _ h => ?_)
      fun _ _ _ _ _ => nofun
    intro response pair hr hp
    cases hr
    exact hstored pair (h result pair rfl hp)
  | verifyLoginChallenge challengeId totp backup =>
    refine (yields_verifyLoginChallenge d challengeId totp backup ip ua _).bind
      (fun result _ h => ?_) fun _ _ _ _ _ => nofun
    intro response pair hr hp
    cases hr
    cases hp
    exact hstored result (h result rfl)
  | refreshTokens token =>
    refine (yields_refreshTokens d token ip ua _).bind (fun result _ h => ?_)
      fun _ _ _ _ _ => nofun
    intro response pair hr hp
    cases hr
    cases hp
    obtain ⟨other,hsubject,hpair⟩ := h result rfl
    exact withholds_of_names hpair fun he =>
      hrefresh token other rfl hsubject (he ▸ hinactive)
  | register email password => exact hother _ _ fun _ => rfl
  | revokeRefreshToken token revokeFamily => exact hother _ _ fun _ => rfl
  | requestReset email => exact hother _ _ fun _ => rfl
  | resetPassword email code newPassword => exact hother _ _ fun _ => rfl
  | currentSession authorization => exact hother _ _ fun _ => rfl
  | setupTwoFactor authorization => exact hother _ _ fun _ => rfl
  | enableTwoFactor authorization totpCode => exact hother _ _ fun _ => rfl
  | disableTwoFactor authorization password totp backup => exact hother _ _ fun _ => rfl
  | regenerateBackupCodes authorization totp backup => exact hother _ _ fun _ => rfl

/-- Deactivated accounts get no tokens in every run in which refreshes are only
asked for with tokens of active accounts. -/
theorem inactive_get_no_tokens {d : Deployment} {start s : ServerState} {trace : Trace}
    (h : Runs d RefreshesActive start trace s) : InactiveGetNoTokens d trace := by
  refine h.invariant (fun trace _ => InactiveGetNoTokens d trace) ?_ ?_
  · intro _ _ _ _ hm
    cases hm
  · intro trace s input ih hc s' client choices userId hm hinactive
    obtain he|hm := List.mem_cons.mp hm
    · cases he
      exact serve_withholds d client choices s hinactive hc
    · exact ih s' client choices userId hm hinactive

/-- A call that returned tokens of an inactive account. -/
def violates (d : Deployment) (s : ServerState) : Input → Bool
  | .call client choices =>
    match (s.serve d client choices).1 with
    | .ok response =>
      match (pairOf response).bind (subject ·.accessToken) with
      | some userId => (s.db .users).all fun (row : User) => row.id≠userId || !row.isActive
      | none => false
    | .error _ => false
  | _ => false

/-- The decidable check finds an inactive account with tokens. -/
theorem not_inactiveGetNoTokens {d : Deployment} {trace : Trace}
    (h : trace.any (fun entry => violates d entry.1 entry.2)=true) :
    ¬InactiveGetNoTokens d trace := by
  obtain ⟨⟨s,input⟩,hm,hv⟩ := List.any_eq_true.mp h
  intro hall
  cases input with
  | call client choices =>
    simp only [violates] at hv
    split at hv
    · rename_i response hresponse
      split at hv
      · rename_i userId hsubject
        obtain ⟨pair,hpair,hsub⟩ := Option.bind_eq_some_iff.mp hsubject
        refine (hall s client choices userId hm ?_ response pair hresponse hpair).1 hsub
        intro row hrow hid
        have hrow' := List.all_eq_true.mp hv row hrow
        simpa [hid] using hrow'
      · cases hv
    · cases hv
  | setActive => cases hv
  | elapse => cases hv

/-- The sample account signs in, is switched off and refreshes. -/
def sampleDeactivation : List Input :=
  [.call (fromClient (.login "a@b" "password1")) [],.setActive ⟨1⟩ false,
    .call (fromClient (.refreshTokens sampleRefreshToken)) []]

/-- An account deactivated after its sign-in still renews its tokens. -/
theorem deactivated_account_refreshes : ∃ trace s,
    Runs sampleDeployment (fun _ _ _ => True) (sampleState [sampleUser] [] []) trace s ∧
      ¬InactiveGetNoTokens sampleDeployment trace := by
  have hrun : (performAll sampleDeployment (fun _ _ _ => true) sampleDeactivation []
      (sampleState [sampleUser] [] [])).any (fun result =>
        result.1.any fun entry => violates sampleDeployment entry.1 entry.2)=true := by
    decide +kernel
  obtain ⟨⟨trace,s⟩,hperform,hany⟩ := (Option.any_eq_true _ _).mp hrun
  exact ⟨trace,s,runs_of_performAll (fun _ _ _ _ => trivial) .refl hperform,
    not_inactiveGetNoTokens hany⟩

/-- An account is switched off. -/
def sampleOff : ServerState :=
  (sampleState [sampleUser,sampleUser2fa] [] []).next sampleDeployment (.setActive ⟨2⟩ false)

/-- A sign-in of an account that was switched off is refused, and one of
another account is not. -/
theorem inactive_get_no_tokens_login :
    InactiveGetNoTokens sampleDeployment
        [(sampleOff.next sampleDeployment (.call (fromClient (.login "c@d" "password1")) []),
          .call (fromClient (.login "a@b" "password1")) []),
        (sampleOff,.call (fromClient (.login "c@d" "password1")) []),
        (sampleState [sampleUser,sampleUser2fa] [] [],.setActive ⟨2⟩ false)] ∧
      (sampleOff.serve sampleDeployment (fromClient (.login "c@d" "password1")) []).1=
        .error .invalidCredentials ∧
      ∃ response pair,((sampleOff.next sampleDeployment
          (.call (fromClient (.login "c@d" "password1")) [])).serve sampleDeployment
          (fromClient (.login "a@b" "password1")) []).1=.ok response ∧
        pairOf response=some pair :=
  ⟨inactive_get_no_tokens (.step _ (.step _ (.step _ .refl trivial) (fun _ _ => nofun))
    (fun _ _ => nofun)),rfl,_,_,rfl,rfl⟩

end Runs

end BackendPlatform.DeactivatedAccounts
