import BackendPlatform.TwoFactorStates

/-!
# Acceptance of TOTP codes

`_verify_totp` takes the earliest timecode of the window whose code is the
submitted one, compared after NFKC normalization, and then asks whether that
timecode is later than the last used one. It is compared with a specification
that asks for any later timecode of the window with that code.
-/

set_option autoImplicit false

namespace BackendPlatform.TotpAcceptance

open ProgramTrees TransactionalTables
open AuthRecords AuthEffects AuthRepositories AuthServices AuthFlows
open ServerRuns TwoFactorStates TwoFactorService TwoFactorRepository

/-- A six-digit code. -/
def SixDigits (code : String) : Prop :=
  code.toList.length=6 ∧ ∀ c∈code.toList,c.isDigit=true

/-- The timecodes next to the current one. -/
def InWindow (current timecode : ℕ) : Prop :=
  timecode+1=current ∨ timecode=current ∨ timecode=current+1

/-- A timecode that has been used, or an earlier one. -/
def Spent (last : Option ℕ) (timecode : ℕ) : Prop := ∃ l,last=some l ∧ timecode≤l

/-- A timecode of the window for which a code is to be accepted. -/
structure Fresh (f : ℕ → String) (current : ℕ) (last : Option ℕ) (code : String)
    (timecode : ℕ) : Prop where
  /-- It is in the window. -/
  inWindow : InWindow current timecode
  /-- It has this code. -/
  hasCode : f timecode=code
  /-- It is later than the last used one. -/
  unspent : ¬Spent last timecode

/-- The submitted text after normalization is the code of no spent timecode of
the window. -/
def NoSpentCode (f : ℕ → String) (current : ℕ) (last : Option ℕ) (code : String) : Prop :=
  ∀ timecode,InWindow current timecode → f timecode=code → ¬Spent last timecode

/-- The timecode of the clock reading that `verify_totp_code` makes. -/
def currentTimecode (d : Deployment) (w : World) : ℕ :=
  (w.env.clock+w.choices.headD 0)/1000000/d.settings.totpIntervalSeconds

/-- `_verify_totp` with the flush of its result. -/
def attempt (d : Deployment) (user : LoadedUser) (totpCode : String) : Action Unit :=
  (verifyTotp d user totpCode).bind flushFactor

/-- The window is searched from its earliest timecode. -/
theorem mem_candidateTimecodes (current timecode : ℕ) :
    timecode∈candidateTimecodes current ↔ InWindow current timecode := by
  unfold candidateTimecodes InWindow
  by_cases h : current=0
  · simp only [if_pos h,List.nil_append,List.mem_cons,List.not_mem_nil,or_false]
    omega
  · simp only [if_neg h,List.singleton_append,List.mem_cons,List.not_mem_nil,or_false]
    omega

/-- The timecode that `_verify_totp` settles on. -/
def accepted (d : Deployment) (secret : TotpSecret) (current : ℕ) (last : Option ℕ)
    (code : String) : Option ℕ :=
  ((candidateTimecodes current).find? fun timecode =>
    d.normalize code=d.normalize (d.totpAt secret timecode)).filter fun timecode =>
      !last.any (timecode≤·)

section Search

variable {d : Deployment} {secret : TotpSecret} {current : ℕ} {last : Option ℕ} {code : String}

/-- The replay check. -/
theorem any_le_iff (timecode : ℕ) : last.any (timecode≤·)=true ↔ Spent last timecode := by
  cases last with
  | none => simp [Spent]
  | some l => simp [Spent]

/-- An accepted timecode is fresh. -/
theorem fresh_of_accepted (hcodes : ∀ t,d.normalize (d.totpAt secret t)=d.totpAt secret t)
    {timecode : ℕ} (h : accepted d secret current last code=some timecode) :
    Fresh (d.totpAt secret) current last (d.normalize code) timecode := by
  obtain ⟨hfind,hlater⟩ := Option.filter_eq_some_iff.mp h
  have hmem := List.mem_of_find?_eq_some hfind
  have hcode := List.find?_some hfind
  rw [decide_eq_true_eq,hcodes] at hcode
  refine ⟨(mem_candidateTimecodes current timecode).mp hmem,hcode.symm,fun hspent => ?_⟩
  rw [(any_le_iff timecode).mpr hspent] at hlater
  cases hlater

/-- A fresh timecode is accepted unless a spent one has the same code. -/
theorem accepted_of_fresh (hcodes : ∀ t,d.normalize (d.totpAt secret t)=d.totpAt secret t)
    (hspent : NoSpentCode (d.totpAt secret) current last (d.normalize code)) {timecode : ℕ}
    (h : Fresh (d.totpAt secret) current last (d.normalize code) timecode) :
    ∃ t,accepted d secret current last code=some t := by
  have hmem := (mem_candidateTimecodes current timecode).mpr h.inWindow
  cases hfind : (candidateTimecodes current).find? fun t =>
      d.normalize code=d.normalize (d.totpAt secret t) with
  | none =>
    have hno := List.find?_eq_none.mp hfind timecode hmem
    rw [decide_eq_true_eq,hcodes] at hno
    exact (hno h.hasCode.symm).elim
  | some t =>
    have hin := (mem_candidateTimecodes current t).mp (List.mem_of_find?_eq_some hfind)
    have hcode := List.find?_some hfind
    rw [decide_eq_true_eq,hcodes] at hcode
    have hunspent := hspent t hin hcode.symm
    refine ⟨t,Option.filter_eq_some_iff.mpr ⟨hfind,?_⟩⟩
    rw [Bool.not_eq_true',←Bool.not_eq_true,any_le_iff]
    exact hunspent

end Search

section Attempt

variable {d : Deployment} {user : LoadedUser} {w : World} {record : TwoFactorSecret}

/-- `verify_totp_code` is a search with the clock it reads. -/
theorem run_verifyTotpCode (hinterval : 0 < d.settings.totpIntervalSeconds)
    (secret : TotpSecret) (code : String) : ∃ w',w'.data=w.data ∧
    (verifyTotpCode d secret code).run World.perform w=
      (.ok (match (candidateTimecodes (currentTimecode d w)).find? fun timecode =>
          d.normalize code=d.normalize (d.totpAt secret timecode) with
        | some timecode => (true,timecode)
        | none => (false,currentTimecode d w)),w') := by
  refine ⟨{w with env := w.env.tick (w.choices.headD 0), choices := w.choices.tail},rfl,?_⟩
  have hne : d.settings.totpIntervalSeconds≠0 := by omega
  simp only [verifyTotpCode,utcNow,external,Program.monad_bind,Program.call_bind,
    Program.pure_bind,if_neg hne,Program.run,World.perform,Environment.perform]
  rw [currentTimecode]
  generalize (candidateTimecodes _).find? _=found
  cases found <;> rfl

/-- A rejected code is recorded and raises. -/
theorem run_rejectCode {α : Type} (user : LoadedUser) (w : World) : ∃ w',w'.data=w.data ∧
    (rejectCode user : Action α).run World.perform w=(.error .invalidTwoFactorCode,w') :=
  ⟨(World.perform (.external (.observe (.codeRejected user.row.id))) w).2,rfl,rfl⟩

/-- With a confirmed secret `_verify_totp` either settles on a timecode or
rejects the code. -/
theorem run_verifyTotp (hinterval : 0 < d.settings.totpIntervalSeconds)
    (hrecord : (getSecret user).run World.perform w=(.ok (some record),w))
    (hconfirmed : record.confirmedAt.isSome=true) (code : String) : ∃ w',w'.data=w.data ∧
    (verifyTotp d user code).run World.perform w=
      (match accepted d record.encryptedSecret.secret (currentTimecode d w)
          record.lastUsedTimecode code with
        | some timecode => .ok (.lastUsedTimecode record.id timecode)
        | none => .error .invalidTwoFactorCode,w') := by
  obtain ⟨w₁,hdata,hcode⟩ := run_verifyTotpCode (w := w) hinterval record.encryptedSecret.secret code
  have hnot : record.confirmedAt.isNone=false := by
    rw [←Option.not_isSome,hconfirmed]
    rfl
  unfold verifyTotp accepted
  rw [Program.monad_bind,Program.run_bind,hrecord]
  simp only [hnot,Program.monad_bind,Bool.false_eq_true,if_false]
  rw [Program.run_bind,hcode,←hdata]
  generalize (candidateTimecodes _).find? _=found
  cases found with
  | none => exact run_rejectCode user w₁
  | some timecode =>
    by_cases hlater : record.lastUsedTimecode.any (timecode≤·)=true
    · simp only [Bool.not_true,Bool.false_eq_true,if_false,Option.filter_some,hlater]
      exact run_rejectCode user w₁
    · rw [Bool.not_eq_true] at hlater
      simp only [Bool.not_true,Bool.false_eq_true,if_false,Option.filter_some,hlater,
        Bool.not_false,if_true]
      exact ⟨(World.perform (.external (.observe (.totpAccepted user.row.id
        record.encryptedSecret.secret timecode))) w₁).2,rfl,rfl⟩

/-- The row of the record is the only one with its id. -/
theorem one_row (hkeyed : Keyed w.data.work)
    (hrecord : (getSecret user).run World.perform w=(.ok (some record),w)) :
    ((w.data.work .twoFactorSecrets).filter fun s => s.id==record.id).length=1 := by
  change ((scalarOneOrNone (secretsOf w.data.work user.row.id)).bind fun found =>
    (.pure (known user found) : Action _)).run World.perform w=_ at hrecord
  cases hrows : secretsOf w.data.work user.row.id with
  | nil =>
    rw [hrows] at hrecord
    cases hrecord
  | cons row rest =>
    rw [hrows] at hrecord
    cases rest with
    | cons _ _ => cases hrecord
    | nil =>
      have hknown : known user (some row)=some record :=
        Except.ok.inj (congrArg Prod.fst hrecord)
      have hid : row.id=record.id := by
        simp only [known,identityMap,Option.map_some,Option.some.injEq] at hknown
        cases hloaded : user.twoFactorSecret.toList.find? fun b => row.id==b.id with
        | none =>
          rw [hloaded] at hknown
          exact congrArg TwoFactorSecret.id hknown
        | some other =>
          rw [hloaded] at hknown
          have hsame := List.find?_some hloaded
          rw [←hknown]
          exact beq_iff_eq.mp hsame
      have hrow : row∈w.data.work .twoFactorSecrets :=
        (List.mem_filter.mp (hrows ▸ List.mem_singleton_self row)).1
      refine ReachableStates.filter_length_eq_one (hkeyed .twoFactorSecrets) hrow
        (beq_iff_eq.mpr hid) fun a b ha hb => ?_
      have hab : a.id=b.id := (beq_iff_eq.mp ha).trans (beq_iff_eq.mp hb).symm
      show (a.id==b.id || a.userId==b.userId)=true
      simp [hab]

/-- The database after the last used timecode of a secret has been set. -/
def withLastUsed (w : World) (secretId : UUID) (timecode : ℕ) : Transaction authSchema :=
  w.data.write .twoFactorSecrets ((w.data.work .twoFactorSecrets).map fun s =>
    if s.id==secretId then {s with lastUsedTimecode := some timecode} else s)

/-- An attempt with a confirmed secret sets the timecode it settles on, or
raises and changes nothing. -/
theorem run_attempt (hkeyed : Keyed w.data.work) (hinterval : 0 < d.settings.totpIntervalSeconds)
    (hrecord : (getSecret user).run World.perform w=(.ok (some record),w))
    (hconfirmed : record.confirmedAt.isSome=true) (code : String) :
    ∃ w',(attempt d user code).run World.perform w=
      (match accepted d record.encryptedSecret.secret (currentTimecode d w)
          record.lastUsedTimecode code with
        | some _ => .ok ()
        | none => .error .invalidTwoFactorCode,w') ∧
      w'.data=match accepted d record.encryptedSecret.secret (currentTimecode d w)
          record.lastUsedTimecode code with
        | some timecode => withLastUsed w record.id timecode
        | none => w.data := by
  obtain ⟨w₁,hdata,hrun⟩ := run_verifyTotp hinterval hrecord hconfirmed code
  unfold attempt
  rw [Program.run_bind,hrun]
  cases accepted d record.encryptedSecret.secret (currentTimecode d w)
      record.lastUsedTimecode code with
  | none => exact ⟨w₁,rfl,hdata⟩
  | some timecode =>
    have hone := one_row hkeyed hrecord
    rw [←hdata] at hone
    refine ⟨_,run_flushUpdate hone,?_⟩
    simp only [World.rewrite,withLastUsed,hdata]

/-- `_verify_totp` with a confirmed secret: an accepted code is the code of a
timecode of the window later than the last used one, which becomes the last
used one; a rejected code changes nothing; and unless a spent timecode of the
window has the submitted code, it is accepted exactly when there is such a
timecode. -/
theorem attempt_decides (hkeyed : Keyed w.data.work)
    (hinterval : 0 < d.settings.totpIntervalSeconds)
    (hrecord : (getSecret user).run World.perform w=(.ok (some record),w))
    (hconfirmed : record.confirmedAt.isSome=true)
    (hdigits : ∀ t,SixDigits (d.totpAt record.encryptedSecret.secret t))
    (hnormalize : ∀ text,SixDigits text → d.normalize text=text) (code : String) :
    let fresh := Fresh (d.totpAt record.encryptedSecret.secret) (currentTimecode d w)
      record.lastUsedTimecode (d.normalize code)
    ∃ o w',(attempt d user code).run World.perform w=(o,w') ∧
      ((∃ t,o=.ok () ∧ fresh t ∧ w'.data=withLastUsed w record.id t) ∨
        o=.error .invalidTwoFactorCode ∧ w'.data=w.data) ∧
      (NoSpentCode (d.totpAt record.encryptedSecret.secret) (currentTimecode d w)
          record.lastUsedTimecode (d.normalize code) → (o=.ok () ↔ ∃ t,fresh t)) := by
  intro fresh
  have hcodes : ∀ t,d.normalize (d.totpAt record.encryptedSecret.secret t)=
      d.totpAt record.encryptedSecret.secret t := fun t => hnormalize _ (hdigits t)
  obtain ⟨w',hrun,hdata⟩ := run_attempt hkeyed hinterval hrecord hconfirmed code
  refine ⟨_,w',hrun,?_⟩
  cases haccepted : accepted d record.encryptedSecret.secret (currentTimecode d w)
      record.lastUsedTimecode code with
  | none =>
    rw [haccepted] at hdata
    refine ⟨.inr ⟨rfl,hdata⟩,fun hspent => ⟨nofun,fun ⟨t,ht⟩ => ?_⟩⟩
    obtain ⟨other,hother⟩ := accepted_of_fresh hcodes hspent ht
    rw [haccepted] at hother
    cases hother
  | some t =>
    rw [haccepted] at hdata
    have ht : fresh t := fresh_of_accepted hcodes haccepted
    exact ⟨.inl ⟨t,rfl,ht,hdata⟩,fun _ => ⟨fun _ => ⟨t,ht⟩,fun _ => rfl⟩⟩

end Attempt

section Samples

/-- A decimal digit. -/
def digit (n : ℕ) : Char := Char.ofNat (48+n%10)

/-- Fullwidth digits become ASCII digits, as under NFKC. -/
def narrow (c : Char) : Char :=
  if 65296≤c.toNat ∧ c.toNat≤65305 then Char.ofNat (c.toNat-65248) else c

/-- A deployment whose codes are the last six digits of the timecode. -/
def digitDeployment : Deployment :=
  {sampleDeployment with
    normalize := fun text => String.ofList (text.toList.map narrow)
    totpAt := fun _ t => String.ofList
      [digit (t/100000),digit (t/10000),digit (t/1000),digit (t/100),digit (t/10),digit t]}

/-- An account with a second factor and nothing else. -/
def digitWorld : World :=
  (sampleState [sampleUser2fa] [sampleSecret] []).world []

/-- That account, loaded. -/
def digitUser : LoadedUser := ⟨sampleUser2fa,some sampleSecret,[]⟩

theorem isDigit_digit (n : ℕ) : (digit n).isDigit=true := by
  have h : ∀ k < 10,(Char.ofNat (48+k)).isDigit=true := by decide
  exact h (n%10) (Nat.mod_lt _ (by decide))

theorem sixDigits_totpAt (secret : TotpSecret) (t : ℕ) :
    SixDigits (digitDeployment.totpAt secret t) := by
  constructor
  · simp [digitDeployment]
  · simp [digitDeployment,isDigit_digit]

theorem narrow_isDigit {c : Char} (h : c.isDigit=true) : narrow c=c := by
  have hle : c.toNat≤57 := by
    simp only [Char.isDigit,Bool.and_eq_true,decide_eq_true_eq] at h
    exact h.2
  exact if_neg (by omega)

theorem normalize_sixDigits (text : String) (h : SixDigits text) :
    digitDeployment.normalize text=text := by
  have hmap : text.toList.map narrow=text.toList := by
    rw [List.map_congr_left fun c hc => narrow_isDigit (h.2 c hc)]
    exact List.map_id _
  show String.ofList (text.toList.map narrow)=text
  rw [hmap,String.ofList_toList]

theorem keyed_digitWorld : Keyed digitWorld.data.work := by
  intro t
  cases t <;> first | exact List.Pairwise.nil | exact List.pairwise_singleton _ _

/-- A code in fullwidth digits is accepted although no timecode has it. -/
theorem fullwidth_accepted :
    ((attempt digitDeployment digitUser "０００１００").run World.perform digitWorld).1=.ok () ∧
      ¬∃ t,Fresh (digitDeployment.totpAt sampleSecret.encryptedSecret.secret)
        (currentTimecode digitDeployment digitWorld) sampleSecret.lastUsedTimecode "０００１００" t := by
  refine ⟨by decide,fun ⟨t,ht⟩ => ?_⟩
  have hdigits := sixDigits_totpAt sampleSecret.encryptedSecret.secret t
  rw [ht.hasCode] at hdigits
  have hall := List.all_eq_true.mpr hdigits.2
  exact absurd hall (by decide)

/-- The code of the current timecode is accepted. -/
theorem attempt_decides_current :
    ∃ o w',(attempt digitDeployment digitUser "000100").run World.perform digitWorld=(o,w') ∧
      o=.ok () ∧ ∃ t,w'.data=withLastUsed digitWorld sampleSecret.id t := by
  have hnow : currentTimecode digitDeployment digitWorld=100 := by decide
  have hcode : digitDeployment.normalize "000100"="000100" := by decide
  obtain ⟨o,w',hrun,hdone,hiff⟩ := @attempt_decides digitDeployment digitUser _ sampleSecret
    keyed_digitWorld (by decide) rfl rfl (sixDigits_totpAt _)
    normalize_sixDigits "000100"
  have hok : o=.ok () := by
    refine (hiff fun t hin _ hspent => ?_).mpr ⟨100,.inr (.inl hnow.symm),?_,?_⟩
    · obtain ⟨l,hl,hle⟩ := hspent
      obtain rfl : 5=l := Option.some.inj hl
      rw [hnow] at hin
      unfold InWindow at hin
      omega
    · rw [hcode]
      decide
    · rintro ⟨l,hl,hle⟩
      obtain rfl : 5=l := Option.some.inj hl
      omega
  refine ⟨o,w',hrun,hok,?_⟩
  rcases hdone with ⟨t,_,_,hdata⟩|⟨herror,_⟩
  · exact ⟨t,hdata⟩
  · rw [hok] at herror
    cases herror

end Samples

end BackendPlatform.TotpAcceptance
