import BackendPlatform.PasswordResets

/-!
# Reset messages that are not sent

A request for a reset code whose message is not sent rolls back, and then
reads the attributes of the user that the rollback has expired. Nothing is
committed, but the request ends with the error of that read and not with the
error it was about to raise.
-/

set_option autoImplicit false

namespace BackendPlatform.ResetMails

open ProgramTrees TransactionalTables
open AuthRecords AuthEffects AuthRepositories AuthServices AuthFlows AuthFootprints
open ServerRuns FailedSignIns AccountRecovery PasswordResetService

section Sendings

variable {α β : Type} {p : Action α} {w : World} {fp : List Access}

/-- The outcome of a delivery among the answered effects. -/
def outcome : (op : Effect)×op.Reply → Option Delivery
  | ⟨.external (.sendEmail _ _ _),delivery⟩ => some delivery
  | _ => none

/-- The outcomes of the deliveries that a run asks for, in order. -/
def outcomes (p : Action α) (w : World) : List Delivery :=
  (p.record World.perform w).filterMap outcome

/-- A program outside whose footprint the mail server stays sends nothing. -/
theorem outcomes_silent (hp : Inside p fp) (hmail : .mail∉fp) : ∀ w,outcomes p w=[] := by
  induction p with
  | pure a => exact fun _ => rfl
  | raise e => exact fun _ => rfl
  | call op k ih =>
    intro w
    have hrest := ih (World.perform op w).1 (hp.2 _) (World.perform op w).2
    have hop : outcome ⟨op,(World.perform op w).1⟩=none := by
      cases op with
      | sql stmt => rfl
      | external op =>
        cases op with
        | sendEmail toEmail subject body => exact (hmail (hp.1 .mail (by simp [accesses]))).elim
        | _ => rfl
    unfold outcomes at hrest ⊢
    rw [Program.record,List.filterMap_cons_none hop]
    exact hrest

/-- A sequence sends what its parts send. -/
theorem outcomes_bind (p : Action α) (f : α → Action β) (w : World) :
    outcomes (p.bind f) w=outcomes p w++
      match p.run World.perform w with
      | (.ok a,w') => outcomes (f a) w'
      | (.error _,_) => [] := by
  unfold outcomes
  rw [Program.record_bind,List.filterMap_append]
  congr 1
  generalize p.run World.perform w=r
  obtain ⟨o,w'⟩ := r
  cases o <;> rfl

/-- What a request raises when its message is not sent. -/
def raised : Delivery → Failure
  | .interrupted => .cancelled
  | _ => .missingGreenlet

/-- Every delivery that does not return true ends the run with an error of its
own, and nothing is committed. -/
def FailsUnsent (p : Action α) : Prop :=
  ∀ w,∀ delivery∈outcomes p w,delivery≠.returned (some true) →
    (p.run World.perform w).1=.error (raised delivery) ∧
      (p.run World.perform w).2.data.committed=w.data.committed

theorem failsUnsent_pure (a : α) : FailsUnsent (.pure a : Action α) :=
  fun _ _ h => (List.not_mem_nil h).elim

theorem failsUnsent_raise (e : Failure) : FailsUnsent (.raise e : Action α) :=
  fun _ _ h => (List.not_mem_nil h).elim

/-- Parts that send nothing and commit nothing may come first. -/
theorem FailsUnsent.bind {f : α → Action β} (hp : Inside p fp) (hmail : .mail∉fp)
    (hcommit : .commit∉fp) (hf : ∀ a,FailsUnsent (f a)) : FailsUnsent (p.bind f) := by
  intro w delivery h hfailed
  have hkept : (p.run World.perform w).2.data.committed=w.data.committed :=
    yields_committed hp hcommit w
  rw [outcomes_bind,outcomes_silent hp hmail,List.nil_append] at h
  rw [Program.run_bind]
  revert hkept h
  generalize p.run World.perform w=r
  obtain ⟨o,w'⟩ := r
  cases o with
  | ok a =>
    intro h hkept
    obtain ⟨hraised,hsame⟩ := hf a w' delivery h hfailed
    exact ⟨hraised,hsame.trans hkept⟩
  | error e => exact fun h _ => (List.not_mem_nil h).elim

end Sendings

variable {d : Deployment} {w : World}

/-- The promised ending of a request whose message is not sent. -/
structure CleanFailure (w : World) (o : Except Failure Bool) (w' : World) : Prop where
  /-- The service reports that it is unavailable. -/
  unavailable : ∃ message,o=.error (.serviceUnavailable message)
  /-- Nothing is committed. -/
  unchanged : w'.data.committed=w.data.committed

/-- The part of a request from the delivery on. -/
theorem failsUnsent_send (address subject body : String) {f : Delivery → Action Bool}
    (hsilent : ∀ delivery w,outcomes (f delivery) w=[])
    (hfails : ∀ delivery,delivery≠.returned (some true) → ∀ w,
      ((f delivery).run World.perform w).1=.error (raised delivery) ∧
        ((f delivery).run World.perform w).2.data.committed=w.data.committed) :
    FailsUnsent ((external (.sendEmail address subject body)).bind f) := by
  intro w delivery h hfailed
  have hsplit : outcomes ((external (.sendEmail address subject body)).bind f) w=
      (World.perform (.external (.sendEmail address subject body)) w).1::
        outcomes (f (World.perform (.external (.sendEmail address subject body)) w).1)
          (World.perform (.external (.sendEmail address subject body)) w).2 := rfl
  rw [hsplit,hsilent,List.mem_singleton] at h
  subst h
  exact hfails _ hfailed _

theorem inside_generateCode : Inside generateCode [.random] := by
  simp [generateCode,external,Uses,accesses]

theorem inside_markActiveForUserUsed (userId : UUID) (now : Instant) :
    Inside (PasswordResetRepository.markActiveForUserUsed userId now)
      [.update .passwordResetTokens] := by
  simp [PasswordResetRepository.markActiveForUserUsed,updateRows,sql,Uses,accesses]

theorem inside_createToken (userId : UUID) (tokenHash : Hmac String) (expiresAt : Instant)
    (requestedIp requestedUserAgent : String) :
    Inside (PasswordResetRepository.create userId tokenHash expiresAt requestedIp
      requestedUserAgent) [.draw,.insert .passwordResetTokens] :=
  inside_bind (by simp [uuid4,draw,external,Uses,accesses]) fun _ => (inside_insertRow _ _).widen rfl

/-- Every handler rolls back and fails at the expired attribute. -/
theorem run_failDelivery (user : Instance LoadedUser) (w : World) :
    ((failDelivery user).run World.perform w).1=.error .missingGreenlet ∧
      ((failDelivery user).run World.perform w).2.data.committed=w.data.committed := by
  rw [failDelivery_eq]
  exact ⟨rfl,rfl⟩

/-- A request whose message is not sent commits nothing and raises another
error. -/
theorem failsUnsent_requestReset (email : String) (ip ua : Option String) :
    FailsUnsent (requestReset d email ip ua) := by
  refine FailsUnsent.bind (inside_load _) (by decide) (by decide) fun found => ?_
  cases found with
  | none => exact failsUnsent_raise _
  | some user =>
    simp only [Program.monad_throw,Program.monad_bind,Program.monad_pure]
    split
    · exact failsUnsent_raise _
    · split
      · split
        · exact failsUnsent_pure _
        · exact failsUnsent_raise _
      · refine FailsUnsent.bind inside_generateCode (by decide) (by decide) fun code => ?_
        refine FailsUnsent.bind inside_utcNow (by decide) (by decide) fun now => ?_
        refine FailsUnsent.bind (inside_markActiveForUserUsed _ _) (by decide) (by decide)
          fun _ => ?_
        refine FailsUnsent.bind (inside_createToken _ _ _ _ _) (by decide) (by decide)
          fun _ => ?_
        refine failsUnsent_send _ _ _ (fun delivery w => ?_) fun delivery hfailed w => ?_
        · split
          · refine @outcomes_silent _ _ [.insert .auditEvents,.commit] ?_ (by decide) w
            exact inside_bind ((inside_logEvent _ _ _ _ _ _ _ _).widen rfl) fun _ => by
              simp [commit,sql,Uses,accesses]
          all_goals rfl
        · split
          · exact absurd rfl hfailed
          · exact run_failDelivery (Instance.loaded user).expire (World.perform (.sql .rollback) w).2
          · exact run_failDelivery _ w
          · exact run_failDelivery _ w
          · exact ⟨rfl,rfl⟩

/-- No request whose message is not sent fails cleanly: whatever else the
delivery ends with, nothing is committed, but the error is another one. -/
theorem unsent_fails (d : Deployment) (w : World) (email : String) (ip ua : Option String)
    (delivery : Delivery) (hsent : delivery∈outcomes (requestReset d email ip ua) w)
    (hfailed : delivery≠.returned (some true)) :
    ¬CleanFailure w ((requestReset d email ip ua).run World.perform w).1
        ((requestReset d email ip ua).run World.perform w).2 ∧
      ((requestReset d email ip ua).run World.perform w).2.data.committed=w.data.committed := by
  obtain ⟨hraised,hkept⟩ := failsUnsent_requestReset email ip ua w delivery hsent hfailed
  refine ⟨fun hclean => ?_,hkept⟩
  obtain ⟨message,hmessage⟩ := hclean.unavailable
  rw [hraised] at hmessage
  cases delivery <;> cases hmessage

/-- The mail server refuses the message of the first request. -/
theorem unsent_fails_refused :
    ¬CleanFailure (registeredServer.world [0,0,0,1])
      ((requestReset sampleDeployment "a@b" none none).run World.perform
        (registeredServer.world [0,0,0,1])).1
      ((requestReset sampleDeployment "a@b" none none).run World.perform
        (registeredServer.world [0,0,0,1])).2 :=
  (unsent_fails sampleDeployment (registeredServer.world [0,0,0,1]) "a@b" none none
    (.returned (some false)) (by decide +kernel) (by decide)).1

/-- Without a mail server the first request ends with the error of the expired
attribute. -/
theorem unreachable_mail_server :
    Delivery.expectedError∈outcomes (requestReset sampleDeployment "a@b" none none)
        (registeredServer.world [0,0,0,3]) ∧
      ((requestReset sampleDeployment "a@b" none none).run World.perform
        (registeredServer.world [0,0,0,3])).1=.error .missingGreenlet :=
  ⟨by decide +kernel,by decide +kernel⟩

end BackendPlatform.ResetMails
