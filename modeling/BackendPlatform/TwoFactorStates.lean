import BackendPlatform.ReachableStates

/-!
# States of the second factor

Setup, activation, removal, regeneration and verification change a flag, a
secret and the backup codes of one account. The flag agrees with a confirmed
secret, the stored codes are those of the last batch handed out, and a code is
accepted as often as it occurs in the batch.
-/

set_option autoImplicit false

namespace BackendPlatform.TwoFactorStates

open ProgramTrees TransactionalTables
open AuthRecords AuthEffects AuthRepositories AuthServices AuthFlows AuthFootprints
open ServerRuns ReachableStates TwoFactorService TwoFactorRepository

section Edits

variable {α β : Type} {p : Action α} {db : Database authSchema}

/-- Replace the rows of a table. -/
def put (db : Database authSchema) (t : Table) (rows : List (Row t)) : Database authSchema :=
  Function.update db t rows

/-- The replaced table reads as the new rows. -/
@[simp] theorem put_self (db : Database authSchema) (t : Table) (rows : List (Row t)) :
    put db t rows t=rows := Function.update_self _ _ _

/-- The other tables read as before. -/
@[simp] theorem put_of_ne {t other : Table} (rows : List (Row t)) (h : other≠t) :
    put db t rows other=db other := Function.update_of_ne h _ _

/-- An action that turns the working copy into another one if it succeeds, and
commits nothing. -/
def Edits (p : Action α) (db : Database authSchema) (Q : α → Database authSchema → Prop) : Prop :=
  ∀ w,w.data.work=db → Yields p w fun o w' =>
    (∀ a,o=.ok a → Q a w'.data.work) ∧ w'.data.committed=w.data.committed

/-- A weaker postcondition follows. -/
theorem Edits.mono {Q R : α → Database authSchema → Prop} (h : Edits p db Q)
    (hqr : ∀ a db',Q a db' → R a db') : Edits p db R :=
  fun w hw => (h w hw).mono fun _ _ h' => ⟨fun a ha => hqr a _ (h'.1 a ha),h'.2⟩

/-- The rule of sequencing. -/
theorem Edits.bind {f : α → Action β} {Q : α → Database authSchema → Prop}
    {R : β → Database authSchema → Prop} (hp : Edits p db Q)
    (hf : ∀ a db',Q a db' → Edits (f a) db' R) : Edits (p.bind f) db R := by
  intro w hw
  refine (hp w hw).bind (fun a w' h' => ?_) fun e w' h' => ⟨nofun,h'.2⟩
  refine (hf a _ (h'.1 a rfl) w' rfl).mono fun o w'' h'' => ⟨h''.1,h''.2.trans h'.2⟩

/-- A returned value leaves the database as it is. -/
theorem edits_pure {a : α} {Q : α → Database authSchema → Prop} (h : Q a db) :
    Edits (.pure a : Action α) db Q := by
  rintro w rfl
  refine ⟨fun b hb => ?_,rfl⟩
  obtain rfl := Except.ok.inj hb
  exact h

/-- A failure is rolled back, so nothing is promised of its database. -/
theorem edits_raise (e : Failure) (Q : α → Database authSchema → Prop) :
    Edits (.raise e : Action α) db Q := fun _ _ => ⟨nofun,rfl⟩

/-- Readers change nothing. -/
theorem edits_reads {fp : List Access} {Q : α → Prop} (hp : Inside p fp) (hfp : ∀ a∈fp,Reads a)
    (hq : ∀ w,Yields p w fun o _ => ∀ a,o=.ok a → Q a) :
    Edits p db fun a db' => db'=db ∧ Q a := by
  rintro w rfl
  refine ((yields_data hp hfp w).and (hq w)).mono fun o w' h => ?_
  rw [h.1]
  exact ⟨fun a ha => ⟨rfl,h.2 a ha⟩,rfl⟩

/-- A part of a request that only reads leaves the database as it is. -/
theorem edits_same {fp : List Access} (hp : Inside p fp) (hfp : ∀ a∈fp,Reads a) :
    Edits p db fun _ db' => db'=db :=
  (edits_reads (Q := fun _ => True) hp hfp fun _ _ _ => trivial).mono fun _ _ h => h.1

/-- An INSERT appends its row. -/
theorem edits_insertRow (t : Table) (row : Row t) :
    Edits (insertRow t row) db fun _ db' => db'=put db t (db t++[row]) := by
  rintro w rfl
  cases hvalid : valid t row with
  | false =>
    unfold Yields Program.Ensures
    rw [run_insertRow_invalid hvalid]
    exact ⟨by rintro _ ⟨⟩,rfl⟩
  | true =>
    unfold Yields Program.Ensures
    cases hconflict : (w.data.work t).any (conflict t row) with
    | false =>
      rw [run_insertRow hvalid hconflict]
      exact ⟨fun _ _ => rfl,rfl⟩
    | true =>
      have hperform : Transaction.perform (.insert t row) w.data=(.duplicateKey,w.data) := by
        simp only [Transaction.perform,Transaction.insertRow]
        rw [if_pos hvalid,if_pos hconflict]
      simp only [insertRow,sql,Program.monad_bind,Program.call_bind,Program.pure_bind,Program.run,
        World.perform,hperform]
      exact ⟨by rintro _ ⟨⟩,rfl⟩

/-- A flushed object has exactly one row. -/
theorem edits_flushUpdate (t : Table) (q : Row t → Bool) (f : Row t → Row t) :
    Edits (flushUpdate t q f) db fun _ db' => ((db t).filter q).length=1 ∧
      db'=put db t ((db t).map fun r => if q r then f r else r) := by
  rintro w rfl
  have hupdate : Yields (updateRows t q f) w fun o w' => o=.ok ((w.data.work t).filter q).length ∧
      w'=World.rewrite w t ((w.data.work t).map fun r => if q r then f r else r) := ⟨rfl,rfl⟩
  refine hupdate.bind (fun n w' h => ?_) fun _ _ h => absurd h.1 nofun
  obtain ⟨hn,rfl⟩ := h
  obtain rfl := Except.ok.inj hn
  show Yields (if ((w.data.work t).filter q).length=1 then .pure () else .raise .staleData) _ _
  split
  · rename_i hone
    exact ⟨fun _ _ => ⟨hone,rfl⟩,rfl⟩
  · exact ⟨nofun,rfl⟩

/-- A DELETE keeps the rows outside its condition. -/
theorem edits_deleteRows (t : Table) (q : Row t → Bool) :
    Edits (deleteRows t q) db fun _ db' => db'=put db t ((db t).filter fun r => !q r) := by
  rintro w rfl
  exact ⟨fun _ _ => rfl,rfl⟩

/-- Drawing an identifier leaves the database as it is. -/
theorem edits_draw : Edits draw db fun _ db' => db'=db := by
  rintro w rfl
  exact ⟨fun _ _ => rfl,rfl⟩

end Edits

section Views

/-- The secret rows of an account. -/
abbrev secretsOf (db : Database authSchema) (userId : UUID) : List TwoFactorSecret :=
  (db .twoFactorSecrets).filter fun s => s.userId==userId

/-- The backup code rows of an account. -/
abbrev codesOf (db : Database authSchema) (userId : UUID) : List BackupCode :=
  (db .backupCodes).filter fun c => c.userId==userId

/-- The account has `two_factor_enabled`. -/
def Enabled (db : Database authSchema) (userId : UUID) : Prop :=
  ∃ row∈db .users,row.id=userId ∧ row.twoFactorEnabled=true

/-- The account has a secret with `confirmed_at`. -/
def Confirmed (db : Database authSchema) (userId : UUID) : Prop :=
  ∃ s∈db .twoFactorSecrets,s.userId=userId ∧ s.confirmedAt≠none

/-- No unique constraint is violated. -/
def Keyed (db : Database authSchema) : Prop :=
  ∀ t,(db t).Pairwise fun a b => conflict t a b=false

/-- Two accounts with one id are the same row. -/
theorem Keyed.users {db : Database authSchema} (h : Keyed db) {a b : User} (ha : a∈db .users)
    (hb : b∈db .users) (hid : a.id=b.id) : a=b :=
  eq_of_conflict (h .users) ha hb (by simp [conflict,hid])

/-- Two secrets with one id are the same row. -/
theorem Keyed.secrets {db : Database authSchema} (h : Keyed db) :
    ∀ a∈db .twoFactorSecrets,∀ b∈db .twoFactorSecrets,a.id=b.id → a=b :=
  fun a ha b hb hid => eq_of_conflict (h .twoFactorSecrets) ha hb
    (show (a.id==b.id || a.userId==b.userId)=true by simp [hid])

/-- Two backup codes with one id are the same row. -/
theorem Keyed.codes {db : Database authSchema} (h : Keyed db) :
    ∀ a∈db .backupCodes,∀ b∈db .backupCodes,a.id=b.id → a=b :=
  fun _ ha _ hb hid => eq_of_conflict (h .backupCodes) ha hb (beq_iff_eq.mpr hid)

/-- The backup codes of one user carry pairwise different ids. -/
theorem Keyed.apart {db : Database authSchema} (h : Keyed db) (userId : UUID) :
    (codesOf db userId).Pairwise fun a b => a.id≠b.id :=
  ((h .backupCodes).imp fun {a b} hab hid =>
    absurd (hab.symm.trans (beq_iff_eq.mpr hid)) (by decide)).filter _

/-- The user was loaded from this database. -/
structure Loaded (db : Database authSchema) (user : LoadedUser) : Prop where
  /-- Its row. -/
  row : user.row∈db .users
  /-- Its secret. -/
  secret : user.twoFactorSecret=(secretsOf db user.row.id).head?
  /-- Its backup codes. -/
  codes : user.backupCodes=codesOf db user.row.id

variable {db : Database authSchema} {user : LoadedUser}

/-- The flag of a loaded user is the stored one. -/
theorem Loaded.enabled_iff (h : Loaded db user) (hkeyed : Keyed db) :
    Enabled db user.row.id ↔ user.row.twoFactorEnabled=true := by
  constructor
  · rintro ⟨row,hrow,hid,hset⟩
    obtain rfl := hkeyed.users hrow h.row hid
    exact hset
  · exact fun hset => ⟨user.row,h.row,rfl,hset⟩

/-- The account looked up by id is loaded with the rows of the database. -/
theorem edits_getById (userId : UUID) :
    Edits (UserRepository.getById userId) db fun found db' => db'=db ∧
      ∀ user,found=some user → Loaded db user ∧ user.row.id=userId := by
  rintro w rfl
  unfold Yields Program.Ensures UserRepository.getById
  rw [load_run]
  split
  · refine ⟨fun found hok => ⟨rfl,fun user hu => ?_⟩,rfl⟩
    obtain rfl := Except.ok.inj hok
    cases hu
  · rename_i row hrow
    refine ⟨fun found hok => ⟨rfl,fun user hu => ?_⟩,rfl⟩
    obtain rfl := Except.ok.inj hok
    obtain rfl := Option.some.inj hu
    have hmem : row∈(w.data.work .users).filter fun u => u.id==userId := by
      rw [hrow]
      exact List.mem_singleton_self _
    obtain ⟨hstored,hid⟩ := List.mem_filter.mp hmem
    exact ⟨⟨hstored,rfl,rfl⟩,beq_iff_eq.mp hid⟩
  · exact ⟨nofun,rfl⟩

/-- An object fetched again is the loaded one. -/
theorem identityMap_self {α : Type} {loaded : List α} {same : α → α → Bool} {row : α}
    (hrow : row∈loaded) (hself : same row row=true)
    (hunique : ∀ other∈loaded,same row other=true → other=row) :
    identityMap loaded same row=row := by
  unfold identityMap
  cases hfound : loaded.find? (same row) with
  | none =>
    have hno := List.find?_eq_none.mp hfound row hrow
    exact absurd hself hno
  | some other =>
    have hsame := List.find?_some hfound
    exact hunique other (List.mem_of_find?_eq_some hfound) hsame

/-- The fetched secret of a loaded user is its row. -/
theorem edits_known (h : Loaded db user) :
    Edits ((scalarOneOrNone (secretsOf db user.row.id)).bind fun found => .pure (known user found))
      db fun found db' => db'=db ∧ (found=none → secretsOf db user.row.id=[]) ∧
        ∀ record,found=some record → secretsOf db user.row.id=[record] := by
  rintro w rfl
  have hsecret := h.secret
  generalize secretsOf w.data.work user.row.id=rows at hsecret ⊢
  match rows with
  | [] =>
    refine ⟨fun found hok => ?_,rfl⟩
    obtain rfl := Except.ok.inj hok
    exact ⟨rfl,fun _ => rfl,fun _ => nofun⟩
  | [record] =>
    refine ⟨fun found hok => ?_,rfl⟩
    obtain rfl := Except.ok.inj hok
    have hknown : known user (some record)=some record := by
      simp [known,identityMap,hsecret]
    refine ⟨rfl,fun hn => ?_,fun other ho => ?_⟩
    · rw [hknown] at hn
      cases hn
    · rw [hknown] at ho
      rw [Option.some.inj ho]
  | _::_::_ => exact ⟨nofun,rfl⟩

/-- The secret that is found is the only one of the user; none means that there
is none. -/
theorem edits_getSecret (h : Loaded db user) :
    Edits (getSecret user) db fun found db' => db'=db ∧ (found=none → secretsOf db user.row.id=[]) ∧
      ∀ record,found=some record → secretsOf db user.row.id=[record] := by
  rintro w rfl
  exact edits_known h w rfl

/-- The locking look-up finds the same secret. -/
theorem edits_getSecretForUpdate (h : Loaded db user) :
    Edits (getSecretForUpdate user) db fun found db' => db'=db ∧
      (found=none → secretsOf db user.row.id=[]) ∧
      ∀ record,found=some record → secretsOf db user.row.id=[record] := by
  rintro w rfl
  exact edits_known h w rfl

end Views

section Shapes

/-- Flag, confirmation and codes of one account. -/
structure Shape (db : Database authSchema) (userId : UUID) (enabled confirmed : Prop)
    (codes : List BackupCode) : Prop where
  /-- Its flag. -/
  enabled : Enabled db userId ↔ enabled
  /-- Its secret. -/
  confirmed : Confirmed db userId ↔ confirmed
  /-- Its rows. -/
  codes : codesOf db userId=codes

/-- The other accounts keep their second factors. -/
structure Apart (db db' : Database authSchema) (userId : UUID) : Prop where
  /-- Their flags. -/
  enabled : ∀ other≠userId,(Enabled db' other ↔ Enabled db other)
  /-- Their secrets. -/
  confirmed : ∀ other≠userId,(Confirmed db' other ↔ Confirmed db other)
  /-- Their codes. -/
  codes : ∀ other≠userId,codesOf db' other=codesOf db other

variable {db db' db'' : Database authSchema} {userId : UUID} {enabled confirmed : Prop}
  {codes : List BackupCode}

/-- An unchanged database is the same for everybody else. -/
theorem Apart.refl (db : Database authSchema) (userId : UUID) : Apart db db userId :=
  ⟨fun _ _ => Iff.rfl,fun _ _ => Iff.rfl,fun _ _ => rfl⟩

/-- Two steps that touch one user's rows compose. -/
theorem Apart.trans (h : Apart db db' userId) (h' : Apart db' db'' userId) :
    Apart db db'' userId :=
  ⟨fun v hv => (h'.enabled v hv).trans (h.enabled v hv),
    fun v hv => (h'.confirmed v hv).trans (h.confirmed v hv),
    fun v hv => (h'.codes v hv).trans (h.codes v hv)⟩

/-- The flag is read from the account table alone. -/
theorem enabled_congr (h : db' .users=db .users) (v : UUID) : Enabled db' v ↔ Enabled db v := by
  unfold Enabled
  rw [h]

/-- The confirmation is read from the table of secrets alone. -/
theorem confirmed_congr (h : db' .twoFactorSecrets=db .twoFactorSecrets) (v : UUID) :
    Confirmed db' v ↔ Confirmed db v := by
  unfold Confirmed
  rw [h]

/-- The backup codes are read from their table alone. -/
theorem codesOf_congr (h : db' .backupCodes=db .backupCodes) (v : UUID) :
    codesOf db' v=codesOf db v := by
  unfold codesOf
  rw [h]

/-- The flag of an account is set. -/
theorem flag_written {flag : Bool} {row : User} (hrow : row∈db .users) (hid : row.id=userId)
    (h : Shape db userId enabled confirmed codes) :
    let db' := put db .users ((db .users).map fun u : User =>
      if u.id==userId then {u with twoFactorEnabled := flag} else u)
    Apart db db' userId ∧ Shape db' userId (flag=true) confirmed codes := by
  intro db'
  have hsecrets : db' .twoFactorSecrets=db .twoFactorSecrets := put_of_ne _ (by decide)
  have hcodes : db' .backupCodes=db .backupCodes := put_of_ne _ (by decide)
  have husers : db' .users=(db .users).map fun u : User =>
    if u.id==userId then {u with twoFactorEnabled := flag} else u := put_self _ _ _
  refine ⟨⟨fun v hv => ?_,fun v _ => confirmed_congr hsecrets v,
    fun v _ => codesOf_congr hcodes v⟩,⟨?_,(confirmed_congr hsecrets _).trans h.confirmed,
    (codesOf_congr hcodes _).trans h.codes⟩⟩
  · unfold Enabled
    rw [husers]
    constructor
    · rintro ⟨u,hu,hid,hflag⟩
      obtain ⟨u₀,hu₀,rfl⟩ := List.mem_map.mp hu
      by_cases hown : (u₀.id==userId)=true
      · rw [if_pos hown] at hid
        exact absurd (hid.symm.trans (beq_iff_eq.mp hown)) hv
      · rw [if_neg hown] at hid hflag
        exact ⟨u₀,hu₀,hid,hflag⟩
    · rintro ⟨u,hu,rfl,hflag⟩
      refine ⟨u,List.mem_map.mpr ⟨u,hu,?_⟩,rfl,hflag⟩
      rw [if_neg (by simpa using hv)]
  · unfold Enabled
    rw [husers]
    constructor
    · rintro ⟨u,hu,hu',hflag⟩
      obtain ⟨u₀,hu₀,rfl⟩ := List.mem_map.mp hu
      by_cases hown : (u₀.id==userId)=true
      · rw [if_pos hown] at hflag
        exact hflag
      · rw [if_neg hown] at hu'
        exact absurd (beq_iff_eq.mpr hu') hown
    · intro hflag
      refine ⟨{row with twoFactorEnabled := flag},List.mem_map.mpr ⟨row,hrow,?_⟩,hid,hflag⟩
      rw [if_pos (beq_iff_eq.mpr hid)]

/-- The secret of an account is written. -/
theorem secret_written {record : TwoFactorSecret} {f : TwoFactorSecret → TwoFactorSecret}
    {proved : Prop} (hsecrets : secretsOf db userId=[record])
    (hunique : ∀ a∈db .twoFactorSecrets,∀ b∈db .twoFactorSecrets,a.id=b.id → a=b)
    (hf : ∀ s,(f s).userId=s.userId) (hproved : (f record).confirmedAt≠none ↔ proved)
    (h : Shape db userId enabled confirmed codes) :
    let db' := put db .twoFactorSecrets ((db .twoFactorSecrets).map fun s : TwoFactorSecret =>
      if s.id==record.id then f s else s)
    Apart db db' userId ∧ Shape db' userId enabled proved codes := by
  intro db'
  have hmem : record∈secretsOf db userId := by
    rw [hsecrets]
    exact List.mem_singleton_self _
  obtain ⟨hrecord,howner⟩ := List.mem_filter.mp hmem
  have howner : record.userId=userId := beq_iff_eq.mp howner
  have husers : db' .users=db .users := put_of_ne _ (by decide)
  have hcodes : db' .backupCodes=db .backupCodes := put_of_ne _ (by decide)
  have hrows : db' .twoFactorSecrets=(db .twoFactorSecrets).map fun s : TwoFactorSecret =>
      if s.id==record.id then f s else s := put_self _ _ _
  refine ⟨⟨fun v _ => enabled_congr husers v,fun v hv => ?_,fun v _ => codesOf_congr hcodes v⟩,
    ⟨(enabled_congr husers _).trans h.enabled,?_,(codesOf_congr hcodes _).trans h.codes⟩⟩
  · unfold Confirmed
    rw [hrows]
    constructor
    · rintro ⟨s,hs,hsv,hconfirmed⟩
      obtain ⟨s₀,hs₀,rfl⟩ := List.mem_map.mp hs
      by_cases hid : (s₀.id==record.id)=true
      · have heq : s₀=record := hunique _ hs₀ _ hrecord (beq_iff_eq.mp hid)
        rw [if_pos hid,hf,heq,howner] at hsv
        exact absurd hsv.symm hv
      · rw [if_neg hid] at hsv hconfirmed
        exact ⟨s₀,hs₀,hsv,hconfirmed⟩
    · rintro ⟨s,hs,hsv,hconfirmed⟩
      refine ⟨s,List.mem_map.mpr ⟨s,hs,?_⟩,hsv,hconfirmed⟩
      refine if_neg fun hid => ?_
      have heq : s=record := hunique _ hs _ hrecord (beq_iff_eq.mp hid)
      rw [heq,howner] at hsv
      exact hv hsv.symm
  · rw [← hproved]
    unfold Confirmed
    rw [hrows]
    constructor
    · rintro ⟨s,hs,hsv,hconfirmed⟩
      obtain ⟨s₀,hs₀,rfl⟩ := List.mem_map.mp hs
      have hown : s₀.userId=userId := by
        split at hsv
        · rw [hf] at hsv
          exact hsv
        · exact hsv
      have hin : s₀∈secretsOf db userId := List.mem_filter.mpr ⟨hs₀,beq_iff_eq.mpr hown⟩
      rw [hsecrets] at hin
      obtain rfl := List.mem_singleton.mp hin
      rw [if_pos (beq_self_eq_true _)] at hconfirmed
      exact hconfirmed
    · intro hconfirmed
      refine ⟨f record,List.mem_map.mpr ⟨record,hrecord,?_⟩,(hf record).trans howner,hconfirmed⟩
      rw [if_pos (beq_self_eq_true _)]

/-- The first secret of an account is not confirmed. -/
theorem secret_added {row : TwoFactorSecret} (hsecrets : secretsOf db userId=[])
    (howner : row.userId=userId) (hrow : row.confirmedAt=none)
    (h : Shape db userId enabled confirmed codes) :
    let db' := put db .twoFactorSecrets (db .twoFactorSecrets++[row])
    Apart db db' userId ∧ Shape db' userId enabled False codes := by
  intro db'
  have husers : db' .users=db .users := put_of_ne _ (by decide)
  have hcodes : db' .backupCodes=db .backupCodes := put_of_ne _ (by decide)
  have hrows : db' .twoFactorSecrets=db .twoFactorSecrets++[row] := put_self _ _ _
  refine ⟨⟨fun v _ => enabled_congr husers v,fun v hv => ?_,fun v _ => codesOf_congr hcodes v⟩,
    ⟨(enabled_congr husers _).trans h.enabled,?_,(codesOf_congr hcodes _).trans h.codes⟩⟩
  · unfold Confirmed
    rw [hrows]
    constructor
    · rintro ⟨s,hs,hsv,hconfirmed⟩
      rcases List.mem_append.mp hs with hs|hs
      · exact ⟨s,hs,hsv,hconfirmed⟩
      · obtain rfl := List.mem_singleton.mp hs
        exact absurd (hsv.symm.trans howner) hv
    · rintro ⟨s,hs,hsv,hconfirmed⟩
      exact ⟨s,List.mem_append_left _ hs,hsv,hconfirmed⟩
  · refine iff_false_intro ?_
    rintro ⟨s,hs,hsv,hconfirmed⟩
    rw [hrows] at hs
    rcases List.mem_append.mp hs with hs|hs
    · have hin : s∈secretsOf db userId := List.mem_filter.mpr ⟨hs,beq_iff_eq.mpr hsv⟩
      rw [hsecrets] at hin
      cases hin
    · obtain rfl := List.mem_singleton.mp hs
      exact hconfirmed hrow

/-- The secret of an account is deleted. -/
theorem secret_deleted (h : Shape db userId enabled confirmed codes) :
    let db' := put db .twoFactorSecrets ((db .twoFactorSecrets).filter fun s : TwoFactorSecret =>
      !(s.userId==userId))
    Apart db db' userId ∧ Shape db' userId enabled False codes := by
  intro db'
  have husers : db' .users=db .users := put_of_ne _ (by decide)
  have hcodes : db' .backupCodes=db .backupCodes := put_of_ne _ (by decide)
  have hrows : db' .twoFactorSecrets=(db .twoFactorSecrets).filter fun s : TwoFactorSecret =>
      !(s.userId==userId) := put_self _ _ _
  refine ⟨⟨fun v _ => enabled_congr husers v,fun v hv => ?_,fun v _ => codesOf_congr hcodes v⟩,
    ⟨(enabled_congr husers _).trans h.enabled,?_,(codesOf_congr hcodes _).trans h.codes⟩⟩
  · unfold Confirmed
    rw [hrows]
    constructor
    · rintro ⟨s,hs,hsv,hconfirmed⟩
      exact ⟨s,(List.mem_filter.mp hs).1,hsv,hconfirmed⟩
    · rintro ⟨s,hs,rfl,hconfirmed⟩
      exact ⟨s,List.mem_filter.mpr ⟨hs,by simpa using hv⟩,rfl,hconfirmed⟩
  · refine iff_false_intro ?_
    rintro ⟨s,hs,hsv,_⟩
    rw [hrows] at hs
    simpa [hsv] using (List.mem_filter.mp hs).2

/-- The codes of an account are replaced. -/
theorem codes_replaced {rows : List BackupCode} (hrows : ∀ r∈rows,r.userId=userId)
    (h : Shape db userId enabled confirmed codes) :
    let db' := put db .backupCodes
      (((db .backupCodes).filter fun c : BackupCode => !(c.userId==userId))++rows)
    Apart db db' userId ∧ Shape db' userId enabled confirmed rows := by
  intro db'
  have husers : db' .users=db .users := put_of_ne _ (by decide)
  have hsecrets : db' .twoFactorSecrets=db .twoFactorSecrets := put_of_ne _ (by decide)
  have hcodes : ∀ v,codesOf db' v=(((db .backupCodes).filter fun c : BackupCode =>
      !(c.userId==userId)).filter fun c => c.userId==v)++rows.filter fun c => c.userId==v := by
    intro v
    show ((put db .backupCodes _) .backupCodes).filter _=_
    rw [put_self,List.filter_append]
  refine ⟨⟨fun v _ => enabled_congr husers v,fun v _ => confirmed_congr hsecrets v,fun v hv => ?_⟩,
    ⟨(enabled_congr husers _).trans h.enabled,(confirmed_congr hsecrets _).trans h.confirmed,?_⟩⟩
  · have hnone : (rows.filter fun c => c.userId==v)=[] := by
      refine List.filter_eq_nil_iff.mpr fun r hr => ?_
      rw [hrows r hr]
      simpa using fun heq : userId=v => hv heq.symm
    rw [hcodes,hnone,List.append_nil,List.filter_filter]
    refine List.filter_congr fun c _ => ?_
    by_cases hc : c.userId=v
    · simp [hc,hv]
    · simp [hc]
  · have hall : (rows.filter fun c => c.userId==userId)=rows :=
      List.filter_eq_self.mpr fun r hr => beq_iff_eq.mpr (hrows r hr)
    have hnone : (((db .backupCodes).filter fun c : BackupCode => !(c.userId==userId)).filter
        fun c => c.userId==userId)=[] := by
      simp [List.filter_filter]
    rw [hcodes,hall,hnone,List.nil_append]

/-- A code of an account is used. -/
theorem code_used {code : BackupCode} (now : Instant) (hcode : code∈codesOf db userId)
    (hunique : ∀ a∈db .backupCodes,∀ b∈db .backupCodes,a.id=b.id → a=b)
    (h : Shape db userId enabled confirmed codes) :
    let use := fun c : BackupCode => if c.id==code.id then {c with usedAt := some now} else c
    let db' := put db .backupCodes ((db .backupCodes).map use)
    Apart db db' userId ∧ Shape db' userId enabled confirmed (codes.map use) := by
  intro use db'
  obtain ⟨hstored,howner⟩ := List.mem_filter.mp hcode
  have howner : code.userId=userId := beq_iff_eq.mp howner
  have husers : db' .users=db .users := put_of_ne _ (by decide)
  have hsecrets : db' .twoFactorSecrets=db .twoFactorSecrets := put_of_ne _ (by decide)
  have hcodes : ∀ v,codesOf db' v=(codesOf db v).map use := by
    intro v
    show ((put db .backupCodes _) .backupCodes).filter _=_
    rw [put_self,List.filter_map]
    have hsame : ((fun c : BackupCode => c.userId==v) ∘ use)=fun c => c.userId==v := by
      funext c
      show ((if c.id==code.id then {c with usedAt := some now} else c).userId==v)=_
      split <;> rfl
    rw [hsame]
  refine ⟨⟨fun v _ => enabled_congr husers v,fun v _ => confirmed_congr hsecrets v,fun v hv => ?_⟩,
    ⟨(enabled_congr husers _).trans h.enabled,(confirmed_congr hsecrets _).trans h.confirmed,?_⟩⟩
  · rw [hcodes]
    refine (List.map_congr_left fun c hc => ?_).trans (List.map_id _)
    obtain ⟨hc,hv'⟩ := List.mem_filter.mp hc
    refine if_neg fun hid => ?_
    have heq : c=code := hunique _ hc _ hstored (beq_iff_eq.mp hid)
    rw [heq,howner] at hv'
    exact hv (beq_iff_eq.mp hv').symm
  · rw [hcodes,h.codes]

end Shapes

section Batches

/-- Codes handed out together and the ones accepted since then. -/
structure Batch where
  /-- The codes. -/
  codes : List String
  /-- The accepted codes, latest first. -/
  accepted : List String

/-- How many rows of a code are used. -/
def usedCount (rows : List BackupCode) (code : String) : ℕ :=
  rows.countP fun r => r.usedAt.isSome && r.codeHash.text==code

/-- The rows are hashes of new codes. -/
structure Issued (plain : List String) (rows : List BackupCode) : Prop where
  /-- Ten codes. -/
  ten : plain.length=10
  /-- None of them is empty. -/
  worded : ∀ code∈plain,code≠""
  /-- One hash a code. -/
  hashes : rows.map (·.codeHash.text)=plain
  /-- None of them is used. -/
  unused : ∀ r∈rows,r.usedAt=none

/-- The rows are the hashes of a batch, and a code is used as often as it has
been accepted. -/
def Stored (rows : List BackupCode) : Option Batch → Prop
  | none => rows=[]
  | some batch => batch.codes.length=10 ∧ (∀ code∈batch.codes,code≠"") ∧
    rows.map (·.codeHash.text)=batch.codes ∧ ∀ code,usedCount rows code=batch.accepted.count code

/-- A new batch is stored. -/
theorem Issued.stored {plain : List String} {rows : List BackupCode} (h : Issued plain rows) :
    Stored rows (some ⟨plain,[]⟩) := by
  refine ⟨h.ten,h.worded,h.hashes,fun code => ?_⟩
  show usedCount rows code=0
  refine List.countP_eq_zero.mpr fun r hr => ?_
  simp [h.unused r hr]

/-- Using a code adds one to its count. -/
theorem usedCount_map {rows : List BackupCode} {row : BackupCode} {now : Instant}
    (hunique : rows.Pairwise fun a b => a.id≠b.id) (hrow : row∈rows) (hunused : row.usedAt=none)
    (code : String) :
    usedCount (rows.map fun c => if c.id==row.id then {c with usedAt := some now} else c) code=
      usedCount rows code+if row.codeHash.text=code then 1 else 0 := by
  induction rows with
  | nil => cases hrow
  | cons head tail ih =>
    obtain ⟨hhead,htail⟩ := List.pairwise_cons.mp hunique
    unfold usedCount at ih ⊢
    rw [List.map_cons,List.countP_cons,List.countP_cons]
    rcases List.mem_cons.mp hrow with rfl|hin
    · have hsame : (tail.map fun c : BackupCode =>
          if c.id==row.id then {c with usedAt := some now} else c)=tail := by
        refine (List.map_congr_left fun c hc => ?_).trans (List.map_id _)
        exact if_neg fun hid => hhead c hc (beq_iff_eq.mp hid).symm
      rw [hsame]
      simp [hunused]
    · have hne : ¬(head.id==row.id)=true := fun hid => hhead row hin (beq_iff_eq.mp hid)
      rw [if_neg hne,ih htail hin]
      omega

/-- A code that is stored unused more often than it is used can be found. -/
theorem unused_iff (rows : List BackupCode) (code : String) :
    (∃ row∈rows,row.usedAt=none ∧ row.codeHash.text=code) ↔
      usedCount rows code<(rows.map (·.codeHash.text)).count code := by
  induction rows with
  | nil => simp [usedCount]
  | cons head tail ih =>
    have hle : usedCount tail code≤(tail.map (·.codeHash.text)).count code := by
      rw [List.count,List.countP_map]
      exact List.countP_mono_left fun r _ hr => (Bool.and_eq_true _ _ ▸ hr).2
    have hcons : usedCount (head::tail) code=usedCount tail code+
        if (head.usedAt.isSome && head.codeHash.text==code)=true then 1 else 0 :=
      List.countP_cons
    rw [hcons,List.map_cons,List.count_cons]
    simp only [List.mem_cons,exists_eq_or_imp,ih]
    cases hused : head.usedAt with
    | none =>
      by_cases htext : head.codeHash.text=code
      · simp [htext]
        omega
      · simp [htext]
    | some now =>
      by_cases htext : head.codeHash.text=code
      · simp [htext]
      · simp [htext]

end Batches

section Services

variable {db : Database authSchema} {user : LoadedUser} {enabled confirmed : Prop}
  {codes : List BackupCode}

/-- The backup code an operation presents, if it presents only that. -/
def presented (totpCode backupCode : Option String) : Option String :=
  match given totpCode,given backupCode with
  | none,some code => some code
  | _,_ => none

/-- The factor found in the database: a secret of the account, or an unused
row of the presented code. -/
def Found (db : Database authSchema) (userId : UUID) (code : Option String) :
    PendingFactor → Prop
  | .lastUsedTimecode id _ => code=none ∧ ∃ record,secretsOf db userId=[record] ∧ record.id=id
  | .backupCodeUsed id _ => ∃ row∈codesOf db userId,row.id=id ∧ row.usedAt=none ∧
    code=some row.codeHash.text

/-- Drawing a UUID leaves the database as it is. -/
theorem edits_uuid4 : Edits uuid4 db fun _ db' => db'=db :=
  edits_draw.bind fun _ _ h => edits_pure h

/-- Storing a secret, new or replaced, leaves the user with one unconfirmed
secret. -/
theorem edits_upsertSecret (encryptedSecret : EncryptedSecret) (hloaded : Loaded db user)
    (hkeyed : Keyed db) (h : Shape db user.row.id enabled confirmed codes) :
    Edits (upsertSecret user encryptedSecret) db fun _ db' =>
      Apart db db' user.row.id ∧ Shape db' user.row.id enabled False codes := by
  refine (edits_getSecret hloaded).bind fun found db₁ h₁ => ?_
  obtain ⟨rfl,hnone,hsome⟩ := h₁
  cases found with
  | none =>
    refine edits_uuid4.bind fun id db₂ h₂ => ?_
    subst h₂
    refine (edits_insertRow _ _).mono fun _ db₃ h₃ => ?_
    subst h₃
    exact secret_added (hnone rfl) rfl rfl h
  | some record =>
    refine (edits_flushUpdate _ _ _).mono fun _ db₃ h₃ => ?_
    obtain ⟨-,rfl⟩ := h₃
    refine secret_written (hsome record rfl) hkeyed.secrets (fun _ => rfl) ?_ h
    show changed record.confirmedAt none record.confirmedAt≠none ↔ False
    unfold changed
    split <;> simp_all

/-- Random characters are drawn without touching the database. -/
theorem edits_randomCharacters (n : ℕ) : Edits (randomCharacters n) db fun _ db' => db'=db :=
  edits_same (inside_randomCharacters n) (by decide)

/-- The drawn codes are as many as asked for, and none is empty. -/
theorem edits_generatePlainBackupCodes (n : ℕ) :
    Edits (generatePlainBackupCodes n) db fun plain db' =>
      db'=db ∧ plain.length=n ∧ ∀ code∈plain,code≠"" := by
  induction n with
  | zero => exact edits_pure ⟨rfl,rfl,fun _ => nofun⟩
  | succ n ih =>
    refine (edits_randomCharacters 4).bind fun left db₁ h₁ => ?_
    subst h₁
    refine (edits_randomCharacters 4).bind fun right db₂ h₂ => ?_
    subst h₂
    refine ih.bind fun rest db₃ h₃ => ?_
    obtain ⟨rfl,hlength,hworded⟩ := h₃
    refine edits_pure ⟨rfl,by simp [hlength],fun code hcode => ?_⟩
    rcases List.mem_cons.mp hcode with rfl|hin
    · intro hempty
      simpa using congrArg String.toList hempty
    · exact hworded code hin

/-- Each stored hash is the hash of the code at its place. -/
theorem edits_hashBackupCodes (plain : List String) :
    Edits (hashBackupCodes plain) db fun hashes db' => db'=db ∧ hashes.map (·.text)=plain := by
  induction plain with
  | nil => exact edits_pure ⟨rfl,rfl⟩
  | cons code rest ih =>
    have hhash : Edits (PasswordService.hash code) db fun codeHash db' =>
        db'=db ∧ codeHash.text=code := edits_draw.bind fun _ _ h => edits_pure ⟨h,rfl⟩
    refine hhash.bind fun codeHash db₁ h₁ => ?_
    obtain ⟨rfl,hcode⟩ := h₁
    refine ih.bind fun hashes db₂ h₂ => ?_
    obtain ⟨rfl,hrest⟩ := h₂
    exact edits_pure ⟨rfl,by rw [List.map_cons,hcode,hrest]⟩

/-- The new rows carry the hashes in order and are all unused. -/
theorem edits_insertBackupCodes (userId : UUID) (hashes : List PasswordHash) :
    Edits (insertBackupCodes userId hashes) db fun _ db' => ∃ rows : List BackupCode,
      db'=put db .backupCodes (db .backupCodes++rows) ∧ rows.map (·.codeHash)=hashes ∧
      ∀ r∈rows,r.userId=userId ∧ r.usedAt=none := by
  induction hashes generalizing db with
  | nil =>
    refine edits_pure ⟨[],?_,rfl,fun _ => nofun⟩
    rw [List.append_nil]
    exact (Function.update_eq_self _ _).symm
  | cons codeHash rest ih =>
    refine edits_uuid4.bind fun id db₁ h₁ => ?_
    subst h₁
    refine (edits_insertRow _ _).bind fun _ db₂ h₂ => ?_
    subst h₂
    refine ih.mono fun _ db₃ h₃ => ?_
    obtain ⟨rows,rfl,hhashes,hrows⟩ := h₃
    refine ⟨⟨id,userId,codeHash,none⟩::rows,?_,by rw [List.map_cons,hhashes],?_⟩
    · rw [put_self,List.append_assoc]
      exact Function.update_idem _ _ _
    · intro r hr
      rcases List.mem_cons.mp hr with rfl|hin
      · exact ⟨rfl,rfl⟩
      · exact hrows r hin

/-- After a replacement the user's codes are exactly the new batch, unused. -/
theorem edits_replaceBackupCodes {plain : List String} {hashes : List PasswordHash}
    (hten : plain.length=10) (hworded : ∀ code∈plain,code≠"") (hhashes : hashes.map (·.text)=plain)
    (h : Shape db user.row.id enabled confirmed codes) :
    Edits (replaceBackupCodes user.row.id hashes) db fun _ db' => Apart db db' user.row.id ∧
      ∃ rows,Shape db' user.row.id enabled confirmed rows ∧ Issued plain rows := by
  refine (edits_deleteRows _ _).bind fun _ db₁ h₁ => ?_
  subst h₁
  refine (edits_insertBackupCodes _ hashes).mono fun _ db₂ h₂ => ?_
  obtain ⟨rows,rfl,hrows,hnew⟩ := h₂
  have hput : ∀ rows',put (put db .backupCodes rows') .backupCodes
      (put db .backupCodes rows' .backupCodes++rows)=put db .backupCodes (rows'++rows) := by
    intro rows'
    rw [put_self]
    exact Function.update_idem _ _ _
  rw [hput]
  obtain ⟨hapart,hshape⟩ := codes_replaced (fun r hr => (hnew r hr).1) h
  refine ⟨hapart,rows,hshape,hten,hworded,?_,fun r hr => (hnew r hr).2⟩
  rw [← hhashes,← hrows,List.map_map]
  rfl

/-- Setup runs for a user without the factor and leaves a pending secret with a
fresh batch. -/
theorem edits_createSetup (d : Deployment) (hloaded : Loaded db user) (hkeyed : Keyed db)
    (h : Shape db user.row.id enabled confirmed codes) :
    Edits (createSetup d user) db fun data db' => user.row.twoFactorEnabled=false ∧
      Apart db db' user.row.id ∧ ∃ rows,Shape db' user.row.id enabled False rows ∧
        Issued data.backupCodes rows := by
  simp only [createSetup,Program.monad_throw,Program.monad_bind,Program.raise_bind]
  split
  · exact edits_raise _ _
  · rename_i hflag
    refine edits_draw.bind fun secret db₁ h₁ => ?_
    subst h₁
    refine (edits_upsertSecret _ hloaded hkeyed h).bind fun _ db₂ h₂ => ?_
    obtain ⟨hapart,h₂⟩ := h₂
    refine (edits_generatePlainBackupCodes 10).bind fun plain db₃ h₃ => ?_
    obtain ⟨rfl,hten,hworded⟩ := h₃
    refine (edits_hashBackupCodes plain).bind fun hashes db₄ h₄ => ?_
    obtain ⟨rfl,hhashes⟩ := h₄
    refine (edits_replaceBackupCodes hten hworded hhashes h₂).bind fun _ db₅ h₅ => ?_
    exact edits_pure ⟨by simpa using hflag,hapart.trans h₅.1,h₅.2⟩

/-- Writing the flag changes this user's flag alone. -/
theorem edits_flushTwoFactorEnabled (flag : Bool)
    (h : Shape db user.row.id enabled confirmed codes) :
    Edits (UserRepository.flushTwoFactorEnabled user flag) db fun _ db' =>
      Apart db db' user.row.id ∧ Shape db' user.row.id (flag=true) confirmed codes ∧
      db' .twoFactorSecrets=db .twoFactorSecrets := by
  refine (edits_flushUpdate _ _ _).mono fun _ db₁ h₁ => ?_
  obtain ⟨hone,rfl⟩ := h₁
  obtain ⟨row,hrow⟩ := List.length_eq_one_iff.mp hone
  have hmem : row∈(db .users).filter fun u : User => u.id==user.row.id := by
    rw [hrow]
    exact List.mem_singleton_self _
  obtain ⟨hstored,hid⟩ := List.mem_filter.mp hmem
  obtain ⟨hapart,hshape⟩ := flag_written hstored (beq_iff_eq.mp hid) h
  exact ⟨hapart,hshape,put_of_ne _ (by decide)⟩

/-- Enabling confirms the pending secret and raises the flag. -/
theorem edits_enable (d : Deployment) (totpCode : String) (hloaded : Loaded db user)
    (hkeyed : Keyed db) (h : Shape db user.row.id enabled confirmed codes) :
    Edits (enable d user totpCode) db fun _ db' =>
      Apart db db' user.row.id ∧ Shape db' user.row.id True True codes := by
  simp only [enable,Program.monad_throw,Program.monad_bind,Program.raise_bind]
  split
  · exact edits_raise _ _
  · refine (edits_getSecretForUpdate hloaded).bind fun found db₁ h₁ => ?_
    obtain ⟨rfl,-,hsome⟩ := h₁
    cases found with
    | none => exact edits_raise _ _
    | some record =>
      refine (edits_same (inside_verifyTotpCode d _ totpCode) (by decide)).bind
        fun result db₂ h₂ => ?_
      subst h₂
      split
      · exact edits_raise _ _
      · refine (edits_same (inside_observe _) (by decide)).bind fun _ db₃ h₃ => ?_
        subst h₃
        refine (edits_same inside_utcNow (by decide)).bind fun now db₄ h₄ => ?_
        subst h₄
        refine (edits_flushTwoFactorEnabled true h).bind fun _ db₅ h₅ => ?_
        obtain ⟨hapart,hshape,hsecrets⟩ := h₅
        refine (edits_flushUpdate _ _ _).mono fun _ db₆ h₆ => ?_
        obtain ⟨-,rfl⟩ := h₆
        have hone : secretsOf db₅ user.row.id=[record] := by
          unfold secretsOf
          rw [hsecrets]
          exact hsome record rfl
        have hunique : ∀ a∈db₅ .twoFactorSecrets,∀ b∈db₅ .twoFactorSecrets,a.id=b.id → a=b := by
          rw [hsecrets]
          exact hkeyed.secrets
        have hproved : (some now : Option Instant)≠none ↔ True := by simp
        obtain ⟨hapart',hshape'⟩ := secret_written (f := fun s => {s with
          confirmedAt := some now
          lastUsedTimecode := changed record.lastUsedTimecode (some result.2) s.lastUsedTimecode})
          hone hunique (fun _ => rfl) hproved hshape
        exact ⟨hapart.trans hapart',⟨hshape'.enabled.trans (by simp),hshape'.confirmed,
          hshape'.codes⟩⟩

/-- The fetched codes of a loaded user are its rows. -/
theorem edits_listBackupCodes (hloaded : Loaded db user) (hkeyed : Keyed db) :
    Edits (listBackupCodesForUpdate user) db fun rows db' =>
      db'=db ∧ rows=codesOf db user.row.id := by
  rintro w rfl
  refine ⟨fun rows hok => ⟨rfl,?_⟩,rfl⟩
  obtain rfl := Except.ok.inj hok
  refine (List.map_congr_left fun c hc => ?_).trans (List.map_id _)
  refine identityMap_self (by rw [hloaded.codes]; exact hc) (beq_self_eq_true _)
    fun other hother hid => ?_
  rw [hloaded.codes] at hother
  exact hkeyed.codes _ (List.mem_filter.mp hother).1 _ (List.mem_filter.mp hc).1
    (beq_iff_eq.mp hid).symm

/-- A rejected code returns nothing. -/
theorem edits_rejectCode {α : Type} (Q : α → Database authSchema → Prop) :
    Edits (rejectCode user : Action α) db Q :=
  (edits_same (inside_observe _) (by decide)).bind fun _ _ _ => edits_raise _ _

/-- A TOTP code that passes belongs to the user's confirmed secret. -/
theorem edits_verifyTotp (d : Deployment) (totpCode : String) (hloaded : Loaded db user) :
    Edits (verifyTotp d user totpCode) db fun factor db' =>
      db'=db ∧ Found db user.row.id none factor := by
  refine (edits_getSecret hloaded).bind fun found db₁ h₁ => ?_
  obtain ⟨rfl,-,hsome⟩ := h₁
  cases found with
  | none => exact edits_raise _ _
  | some record =>
    simp only [Program.monad_throw,Program.monad_bind,Program.raise_bind]
    split
    · exact edits_raise _ _
    · refine (edits_same (inside_verifyTotpCode d _ totpCode) (by decide)).bind
        fun result db₂ h₂ => ?_
      subst h₂
      split
      · exact edits_rejectCode _
      · split
        · exact edits_rejectCode _
        · refine (edits_same (inside_observe _) (by decide)).bind fun _ db₃ h₃ => ?_
          subst h₃
          exact edits_pure ⟨rfl,rfl,record,hsome record rfl,rfl⟩

/-- A backup code that passes is one of the user's unused ones. -/
theorem edits_verifyBackupCode (code : String) (hloaded : Loaded db user) (hkeyed : Keyed db) :
    Edits (verifyBackupCode user code) db fun factor db' =>
      db'=db ∧ Found db user.row.id (some code) factor := by
  refine (edits_listBackupCodes hloaded hkeyed).bind fun rows db₁ h₁ => ?_
  obtain ⟨rfl,rfl⟩ := h₁
  cases hfind : (codesOf db₁ user.row.id).find? fun candidate => candidate.usedAt.isNone &&
      PasswordService.verifyPassword code candidate.codeHash with
  | none =>
    simp only
    exact edits_rejectCode _
  | some candidate =>
    simp only
    have hcandidate := List.find?_some hfind
    obtain ⟨hunused,htext⟩ := Bool.and_eq_true_iff.mp hcandidate
    refine (edits_same (inside_observe _) (by decide)).bind fun _ db₂ h₂ => ?_
    subst h₂
    refine (edits_same inside_utcNow (by decide)).bind fun now db₃ h₃ => ?_
    subst h₃
    exact edits_pure ⟨rfl,candidate,List.mem_of_find?_eq_some hfind,rfl,
      Option.isNone_iff_eq_none.mp hunused,congrArg some (beq_iff_eq.mp htext).symm⟩

/-- What is pending after the check is a factor of the user that was found. -/
theorem edits_verifyForLogin (d : Deployment) (totpCode backupCode : Option String)
    (hloaded : Loaded db user) (hkeyed : Keyed db) :
    Edits (verifyForLogin d user totpCode backupCode) db fun factor db' =>
      db'=db ∧ Found db user.row.id (presented totpCode backupCode) factor := by
  simp only [verifyForLogin,presented,Program.monad_throw,Program.monad_bind,Program.raise_bind]
  split
  · exact edits_raise _ _
  · cases given totpCode with
    | none =>
      cases given backupCode with
      | none => exact edits_raise _ _
      | some code => exact edits_verifyBackupCode code hloaded hkeyed
    | some totp =>
      cases given backupCode with
      | none => exact edits_verifyTotp d totp hloaded
      | some code => exact edits_raise _ _

/-- The rows after a factor has been accepted: the presented code, if any, is
used once more. -/
structure Spent (before after : List BackupCode) (code : Option String) : Prop where
  /-- The hashes stay. -/
  hashes : after.map (·.codeHash.text)=before.map (·.codeHash.text)
  /-- One more use. -/
  used : ∀ other,usedCount after other=usedCount before other+if code=some other then 1 else 0

/-- With one secret, confirmed means that this secret has its date. -/
theorem confirmed_iff {record : TwoFactorSecret} (h : secretsOf db user.row.id=[record]) :
    Confirmed db user.row.id ↔ record.confirmedAt≠none := by
  have hmem : ∀ s,s∈secretsOf db user.row.id ↔ s=record := by
    intro s
    rw [h]
    exact List.mem_singleton
  constructor
  · rintro ⟨s,hs,hown,hconfirmed⟩
    obtain rfl := (hmem s).mp (List.mem_filter.mpr ⟨hs,beq_iff_eq.mpr hown⟩)
    exact hconfirmed
  · intro hconfirmed
    obtain ⟨hs,hown⟩ := List.mem_filter.mp ((hmem record).mpr rfl)
    exact ⟨record,hs,beq_iff_eq.mp hown,hconfirmed⟩

/-- Spending the factor marks at most the one backup code that was used. -/
theorem edits_flushFactor {factor : PendingFactor} {code : Option String} (hkeyed : Keyed db)
    (hfound : Found db user.row.id code factor)
    (h : Shape db user.row.id enabled confirmed codes) :
    Edits (flushFactor factor) db fun _ db' => Apart db db' user.row.id ∧
      ∃ after,Shape db' user.row.id enabled confirmed after ∧ Spent codes after code := by
  cases factor with
  | lastUsedTimecode id timecode =>
    obtain ⟨rfl,record,hrecord,rfl⟩ := hfound
    refine (edits_flushUpdate _ _ _).mono fun _ db₁ h₁ => ?_
    obtain ⟨-,rfl⟩ := h₁
    have hproved : record.confirmedAt≠none ↔ confirmed :=
      (confirmed_iff hrecord).symm.trans h.confirmed
    obtain ⟨hapart,hshape⟩ := secret_written (f := fun s => {s with
      lastUsedTimecode := some timecode}) hrecord hkeyed.secrets (fun _ => rfl) hproved h
    exact ⟨hapart,codes,hshape,rfl,fun _ => by simp⟩
  | backupCodeUsed id now =>
    obtain ⟨row,hrow,rfl,hunused,rfl⟩ := hfound
    refine (edits_flushUpdate _ _ _).mono fun _ db₁ h₁ => ?_
    obtain ⟨-,rfl⟩ := h₁
    obtain ⟨hapart,hshape⟩ := code_used now hrow hkeyed.codes h
    refine ⟨hapart,_,hshape,?_,fun other => ?_⟩
    · rw [List.map_map]
      refine List.map_congr_left fun c _ => ?_
      show (if c.id==row.id then {c with usedAt := some now} else c).codeHash.text=_
      split <;> rfl
    · have hunique := hkeyed.apart user.row.id
      rw [h.codes] at hunique hrow
      rw [usedCount_map hunique hrow hunused]
      simp

/-- Disabling removes the secret and the codes and lowers the flag. -/
theorem edits_disable (d : Deployment) (totpCode backupCode : Option String)
    (hloaded : Loaded db user) (hkeyed : Keyed db)
    (h : Shape db user.row.id enabled confirmed codes) :
    Edits (disable d user totpCode backupCode) db fun _ db' =>
      Apart db db' user.row.id ∧ Shape db' user.row.id False False [] := by
  refine (edits_verifyForLogin d totpCode backupCode hloaded hkeyed).bind fun factor db₁ h₁ => ?_
  obtain ⟨rfl,hfound⟩ := h₁
  refine (edits_flushFactor hkeyed hfound h).bind fun _ db₂ h₂ => ?_
  obtain ⟨hapart₂,after,hshape₂,-⟩ := h₂
  have hdelete : Edits (deleteTwoFactorData user.row.id) db₂ fun _ db' =>
      Apart db₂ db' user.row.id ∧ Shape db' user.row.id enabled False [] := by
    refine (edits_deleteRows _ _).bind fun _ db₃ h₃ => ?_
    subst h₃
    obtain ⟨hapart₃,hshape₃⟩ := codes_replaced (show ∀ r∈([] : List BackupCode),
      r.userId=user.row.id from fun _ => nofun) hshape₂
    rw [List.append_nil] at hapart₃ hshape₃
    refine (edits_deleteRows _ _).bind fun _ db₄ h₄ => ?_
    subst h₄
    obtain ⟨hapart₄,hshape₄⟩ := secret_deleted hshape₃
    exact edits_pure ⟨hapart₃.trans hapart₄,hshape₄⟩
  refine hdelete.bind fun _ db₅ h₅ => ?_
  refine (edits_flushTwoFactorEnabled false h₅.2).mono fun _ db₆ h₆ => ?_
  exact ⟨(hapart₂.trans h₅.1).trans h₆.1,⟨h₆.2.1.enabled.trans (by simp),h₆.2.1.confirmed,
    h₆.2.1.codes⟩⟩

/-- Regenerating replaces the batch and keeps the factor enabled. -/
theorem edits_regenerateBackupCodes (d : Deployment) (totpCode backupCode : Option String)
    (hloaded : Loaded db user) (hkeyed : Keyed db)
    (h : Shape db user.row.id enabled confirmed codes) :
    Edits (regenerateBackupCodes d user totpCode backupCode) db fun plain db' =>
      Apart db db' user.row.id ∧ ∃ rows,Shape db' user.row.id enabled confirmed rows ∧
        Issued plain rows := by
  refine (edits_verifyForLogin d totpCode backupCode hloaded hkeyed).bind fun factor db₁ h₁ => ?_
  obtain ⟨rfl,hfound⟩ := h₁
  refine (edits_generatePlainBackupCodes 10).bind fun plain db₂ h₂ => ?_
  obtain ⟨rfl,hten,hworded⟩ := h₂
  refine (edits_hashBackupCodes plain).bind fun hashes db₃ h₃ => ?_
  obtain ⟨rfl,hhashes⟩ := h₃
  refine (edits_flushFactor hkeyed hfound h).bind fun _ db₄ h₄ => ?_
  obtain ⟨hapart₄,after,hshape₄,-⟩ := h₄
  refine (edits_replaceBackupCodes hten hworded hhashes hshape₄).bind fun _ db₅ h₅ => ?_
  exact edits_pure ⟨hapart₄.trans h₅.1,h₅.2⟩

end Services

section Operations

/-- The operations on second factors, each for the user of an identifier. -/
inductive Operation where
  /-- `create_setup`. -/
  | setup (userId : UUID)
  /-- `enable`. -/
  | enable (userId : UUID) (totpCode : String)
  /-- `disable`. -/
  | disable (userId : UUID) (totpCode backupCode : Option String)
  /-- `regenerate_backup_codes`. -/
  | regenerate (userId : UUID) (totpCode backupCode : Option String)
  /-- `verify_for_login`. -/
  | verify (userId : UUID) (totpCode backupCode : Option String)

namespace Operation

/-- Whose second factor it is about. -/
def userId : Operation → UUID
  | .setup userId => userId
  | .enable userId _ => userId
  | .disable userId _ _ => userId
  | .regenerate userId _ _ => userId
  | .verify userId _ _ => userId

/-- The call of the service; new backup codes are returned. -/
def act (d : Deployment) (user : LoadedUser) : Operation → Action (List String)
  | .setup _ => do return (←createSetup d user).backupCodes
  | .enable _ totpCode => do
    TwoFactorService.enable d user totpCode
    return []
  | .disable _ totpCode backupCode => do
    TwoFactorService.disable d user totpCode backupCode
    return []
  | .regenerate _ totpCode backupCode => regenerateBackupCodes d user totpCode backupCode
  | .verify _ totpCode backupCode => do
    let factor ← verifyForLogin d user totpCode backupCode
    flushFactor factor
    return []

/-- The operation in a session of its own: load the user, call the service and
commit. -/
def perform (d : Deployment) (op : Operation) : Action (List String) := do
  match ←UserRepository.getById op.userId with
  | none => throw (.unauthorized "User not found")
  | some user =>
    let plain ← op.act d user
    commit
    return plain

/-- The batch after the operation has succeeded. -/
def batch (plain : List String) : Operation → Option Batch → Option Batch
  | .setup _,_ => some ⟨plain,[]⟩
  | .enable _ _,current => current
  | .disable _ _ _,_ => none
  | .regenerate _ _ _,_ => some ⟨plain,[]⟩
  | .verify _ totpCode backupCode,current =>
    current.map fun b => ⟨b.codes,(presented totpCode backupCode).toList++b.accepted⟩

end Operation

/-- Operations with their outcomes, latest first. -/
abbrev History := List (Operation×Except Failure (List String))

/-- The batch of an account after its operations; a failed one changes
nothing. -/
def batchOf (userId : UUID) : History → Option Batch
  | [] => none
  | (op,.ok plain)::rest =>
    if op.userId=userId then op.batch plain (batchOf userId rest) else batchOf userId rest
  | (_,.error _)::rest => batchOf userId rest

/-- The run of one operation. -/
def serve (d : Deployment) (op : Operation) (choices : List ℕ) (s : ServerState) :
    Except Failure (List String)×World := (op.perform d).run World.perform (s.world choices)

/-- One operation after another; what an operation has not committed is lost. -/
inductive Sequence (d : Deployment) (start : ServerState) : History → ServerState → Prop
  /-- Nothing has happened. -/
  | refl : Sequence d start [] start
  /-- One more operation. -/
  | step {history : History} {s : ServerState} (op : Operation) (choices : List ℕ) :
    Sequence d start history s →
      Sequence d start ((op,(serve d op choices s).1)::history)
        ⟨(serve d op choices s).2.env,(serve d op choices s).2.data.committed⟩

/-- Flag and secret agree, and the codes are those of the batch. -/
def Consistent (db : Database authSchema) (userId : UUID) (batch : Option Batch) : Prop :=
  ∃ enabled codes,Shape db userId enabled enabled codes ∧ Stored codes batch

variable {d : Deployment} {db : Database authSchema} {user : LoadedUser} {b : Option Batch}

/-- Successful calls of the service keep the account consistent. -/
theorem edits_act (op : Operation) (hloaded : Loaded db user) (hkeyed : Keyed db)
    (h : Consistent db user.row.id b) :
    Edits (op.act d user) db fun plain db' =>
      Apart db db' user.row.id ∧ Consistent db' user.row.id (op.batch plain b) := by
  obtain ⟨enabled,codes,hshape,hstored⟩ := h
  cases op with
  | setup userId =>
    refine (edits_createSetup d hloaded hkeyed hshape).bind fun data db₁ h₁ => ?_
    obtain ⟨hflag,hapart,rows,hshape',hissued⟩ := h₁
    refine edits_pure ⟨hapart,False,rows,⟨?_,hshape'.confirmed,hshape'.codes⟩,hissued.stored⟩
    -- the flag of the loaded user is the stored one
    have hoff : ¬enabled := fun hon => by
      have hset := (hloaded.enabled_iff hkeyed).mp (hshape.enabled.mpr hon)
      exact absurd (hflag.symm.trans hset) (by decide)
    exact hshape'.enabled.trans (iff_false_intro hoff)
  | enable userId totpCode =>
    refine (edits_enable d totpCode hloaded hkeyed hshape).bind fun _ db₁ h₁ => ?_
    exact edits_pure ⟨h₁.1,True,codes,h₁.2,hstored⟩
  | disable userId totpCode backupCode =>
    refine (edits_disable d totpCode backupCode hloaded hkeyed hshape).bind fun _ db₁ h₁ => ?_
    exact edits_pure ⟨h₁.1,False,[],h₁.2,rfl⟩
  | regenerate userId totpCode backupCode =>
    refine (edits_regenerateBackupCodes d totpCode backupCode hloaded hkeyed hshape).mono
      fun plain db₁ h₁ => ?_
    obtain ⟨hapart,rows,hshape',hissued⟩ := h₁
    exact ⟨hapart,enabled,rows,hshape',hissued.stored⟩
  | verify userId totpCode backupCode =>
    refine (edits_verifyForLogin d totpCode backupCode hloaded hkeyed).bind fun factor db₁ h₁ => ?_
    obtain ⟨rfl,hfound⟩ := h₁
    refine (edits_flushFactor hkeyed hfound hshape).bind fun _ db₂ h₂ => ?_
    obtain ⟨hapart,after,hshape',hspent⟩ := h₂
    refine edits_pure ⟨hapart,enabled,after,hshape',?_⟩
    cases b with
    | none =>
      have hnil : after.map (·.codeHash.text)=[] := by rw [hspent.hashes,show codes=[] from hstored]; rfl
      exact List.map_eq_nil_iff.mp hnil
    | some batch =>
      obtain ⟨hten,hworded,hhashes,hused⟩ := hstored
      refine ⟨hten,hworded,hspent.hashes.trans hhashes,fun other => ?_⟩
      rw [hspent.used,hused]
      show _=((presented totpCode backupCode).toList++batch.accepted).count other
      rw [List.count_append,Nat.add_comm]
      congr 1
      cases presented totpCode backupCode with
      | none => rfl
      | some code =>
        by_cases hcode : code=other
        · simp [hcode]
        · simp [hcode]

/-- Every operation keeps identities and types of what it rewrites. -/
theorem tidy_perform (op : Operation) : Tidy (op.perform d) := by
  refine tidy_bind (tidy_load _) fun found => ?_
  cases found with
  | none => exact tidy_raise _
  | some user =>
    refine tidy_bind ?_ fun plain => tidy_bind tidy_commit fun _ => tidy_pure _
    cases op with
    | setup => exact tidy_bind (tidy_createSetup d user) fun _ => tidy_pure _
    | enable _ totpCode => exact tidy_bind (tidy_enable d user totpCode) fun _ => tidy_pure _
    | disable _ totp backup =>
      exact tidy_bind (tidy_disable d user totp backup) fun _ => tidy_pure _
    | regenerate _ totp backup => exact tidy_regenerateBackupCodes d user totp backup
    | verify _ totp backup =>
      exact tidy_bind (tidy_verifyForLogin d user totp backup) fun factor =>
        tidy_bind (tidy_flushFactor factor) fun _ => tidy_pure _

/-- A failed operation changes no table; a successful one keeps every account
consistent. -/
theorem yields_perform (op : Operation) {w : World} (hkeyed : Keyed w.data.work)
    (hclean : w.data.committed=w.data.work) (batches : UUID → Option Batch)
    (h : ∀ v,Consistent w.data.work v (batches v)) :
    Yields (op.perform d) w fun o w' => (∀ e,o=.error e → w'.data.committed=w.data.work) ∧
      ∀ plain,o=.ok plain → ∀ v,Consistent w'.data.committed v
        (if op.userId=v then op.batch plain (batches v) else batches v) := by
  refine (edits_getById op.userId w rfl).bind (fun found w₁ h₁ => ?_) fun e w₁ h₁ =>
    ⟨fun _ _ => h₁.2.trans hclean,fun _ => nofun⟩
  obtain ⟨hfound,hcommitted⟩ := h₁
  obtain ⟨hwork,hloaded⟩ := hfound found rfl
  cases found with
  | none => exact ⟨fun _ _ => hcommitted.trans hclean,fun _ => nofun⟩
  | some user =>
    obtain ⟨hloaded,hid⟩ := hloaded user rfl
    have hact := edits_act (d := d) op hloaded hkeyed (h user.row.id) w₁ hwork
    refine hact.bind (fun plain w₂ h₂ => ?_) fun e w₂ h₂ =>
      ⟨fun _ _ => (h₂.2.trans hcommitted).trans hclean,fun _ => nofun⟩
    obtain ⟨hafter,-⟩ := h₂
    obtain ⟨hapart,hconsistent⟩ := hafter plain rfl
    refine ⟨fun _ => nofun,fun plain' hok v => ?_⟩
    obtain rfl := Except.ok.inj hok
    show Consistent w₂.data.work v _
    split
    · rename_i hown
      obtain rfl := hown
      rw [← hid]
      exact hconsistent
    · rename_i hother
      obtain ⟨enabled,codes,hshape,hstored⟩ := h v
      have hne : v≠user.row.id := fun heq => hother (hid.symm.trans heq.symm)
      exact ⟨enabled,codes,⟨(hapart.enabled v hne).trans hshape.enabled,
        (hapart.confirmed v hne).trans hshape.confirmed,
        (hapart.codes v hne).trans hshape.codes⟩,hstored⟩

end Operations

section Acceptance

variable {d : Deployment} {w : World} {user : LoadedUser} {b : Option Batch} {userId : UUID}

/-- Identifiers are unique, so loading a user by its identifier succeeds. -/
theorem yields_getById (userId : UUID) (hkeyed : Keyed w.data.work) :
    Yields (UserRepository.getById userId) w fun o w' => w'=w ∧ ∃ found,o=.ok found ∧
      (found=none → ¬Enabled w.data.work userId) ∧
      ∀ user,found=some user → Loaded w.data.work user ∧ user.row.id=userId := by
  have hrows : ((w.data.work .users).filter fun u => u.id==userId)=[] ∨
      ∃ row,((w.data.work .users).filter fun u => u.id==userId)=[row] := by
    cases hfilter : (w.data.work .users).filter fun u => u.id==userId with
    | nil => exact .inl rfl
    | cons row rest =>
      have hmem : row∈(w.data.work .users).filter fun u => u.id==userId := by
        rw [hfilter]
        exact List.mem_cons_self
      obtain ⟨hrow,hid⟩ := List.mem_filter.mp hmem
      have hone : ((w.data.work .users).filter fun u => u.id==userId).length=1 := by
        refine filter_length_eq_one (hkeyed .users) hrow hid fun a c ha hc => ?_
        show (a.id==c.id || a.email==c.email)=true
        rw [beq_iff_eq.mp ha,beq_iff_eq.mp hc]
        simp
      rw [hfilter] at hone
      obtain rfl : rest=[] := by simpa using hone
      exact .inr ⟨row,rfl⟩
  have hloaded := (edits_getById userId w rfl).1
  have hrun := load_run (fun u => u.id==userId) w
  show ((UserRepository.load fun u => u.id==userId).run World.perform w).2=w ∧ _
  unfold UserRepository.getById at hloaded ⊢
  rcases hrows with hnone|⟨row,hone⟩
  · rw [hnone] at hrun
    rw [hrun] at hloaded ⊢
    refine ⟨rfl,none,rfl,fun _ => ?_,(hloaded none rfl).2⟩
    rintro ⟨row,hrow,hid,-⟩
    exact List.filter_eq_nil_iff.mp hnone row hrow (beq_iff_eq.mpr hid)
  · rw [hone] at hrun
    rw [hrun] at hloaded ⊢
    exact ⟨rfl,_,rfl,nofun,(hloaded _ rfl).2⟩

/-- A code is found if some unused row is its hash. -/
theorem yields_verifyBackupCode (code : String) (hloaded : Loaded w.data.work user)
    (hkeyed : Keyed w.data.work)
    (hcode : ∃ row∈codesOf w.data.work user.row.id,row.usedAt=none ∧ row.codeHash.text=code) :
    Yields (verifyBackupCode user code) w fun o _ => ∃ factor,o=.ok factor := by
  have hlist : Yields (listBackupCodesForUpdate user) w fun o w' => w'=w ∧
      o=.ok (codesOf w.data.work user.row.id) := by
    refine ⟨rfl,congrArg Except.ok ?_⟩
    exact ((edits_listBackupCodes hloaded hkeyed w rfl).1 _ rfl).2
  refine hlist.bind (fun rows w₁ h₁ => ?_) fun _ _ h₁ => absurd h₁.2 nofun
  obtain ⟨rfl,hrows⟩ := h₁
  obtain rfl := Except.ok.inj hrows
  cases hfind : (codesOf w₁.data.work user.row.id).find? fun candidate =>
      candidate.usedAt.isNone && PasswordService.verifyPassword code candidate.codeHash with
  | none =>
    obtain ⟨row,hrow,hunused,rfl⟩ := hcode
    refine absurd ?_ (List.find?_eq_none.mp hfind row hrow)
    simp [hunused,PasswordService.verifyPassword]
  | some candidate => exact ⟨_,rfl⟩

/-- A presented code is accepted if the flag is set and some unused row is its
hash, and never otherwise. -/
theorem yields_verifyForLogin (code : String) (hloaded : Loaded w.data.work user)
    (hkeyed : Keyed w.data.work) :
    Yields (verifyForLogin d user none (some code)) w fun o _ => (∃ factor,o=.ok factor) ↔
      user.row.twoFactorEnabled=true ∧ code≠"" ∧
      ∃ row∈codesOf w.data.work user.row.id,row.usedAt=none ∧ row.codeHash.text=code := by
  simp only [verifyForLogin,Program.monad_throw,Program.monad_bind,Program.raise_bind]
  split
  · rename_i hflag
    refine ⟨by rintro ⟨_,⟨⟩⟩,fun h => ?_⟩
    rw [h.1] at hflag
    exact absurd hflag (by decide)
  · rename_i hflag
    have hflag : user.row.twoFactorEnabled=true := by simpa using hflag
    by_cases hempty : code=""
    · have hgiven : given (some code)=none := by simp [given,hempty]
      rw [hgiven]
      exact ⟨by rintro ⟨_,⟨⟩⟩,fun h => absurd hempty h.2.1⟩
    · have hgiven : given (some code)=some code := by simp [given,hempty]
      rw [hgiven]
      show Yields (verifyBackupCode user code) w _
      have hfound := edits_verifyBackupCode code hloaded hkeyed w rfl
      by_cases hcode : ∃ row∈codesOf w.data.work user.row.id,
          row.usedAt=none ∧ row.codeHash.text=code
      · exact (yields_verifyBackupCode code hloaded hkeyed hcode).mono fun o _ h =>
          ⟨fun _ => ⟨hflag,hempty,hcode⟩,fun _ => h⟩
      · refine hfound.mono fun o w' h => ⟨fun hsome => ?_,fun h' => absurd h'.2.2 hcode⟩
        obtain ⟨factor,hok⟩ := hsome
        refine ⟨hflag,hempty,?_⟩
        have hfactor := (h.1 factor hok).2
        cases factor with
        | lastUsedTimecode => cases hfactor.1
        | backupCodeUsed =>
          obtain ⟨row,hrow,-,hunused,htext⟩ := hfactor
          exact ⟨row,hrow,hunused,(Option.some.inj htext).symm⟩

/-- The batch has a code more often than it has been accepted. -/
def Available (b : Option Batch) (code : String) : Prop :=
  ∃ batch,b=some batch ∧ batch.accepted.count code < batch.codes.count code

/-- Stored rows have an unused hash of a code if and only if it is available. -/
theorem Stored.available_iff {rows : List BackupCode} (h : Stored rows b) (code : String) :
    (code≠"" ∧ ∃ row∈rows,row.usedAt=none ∧ row.codeHash.text=code) ↔ Available b code := by
  rw [unused_iff]
  cases b with
  | none =>
    obtain rfl : rows=[] := h
    refine ⟨fun h => absurd h.2 (Nat.not_lt_zero _),?_⟩
    rintro ⟨_,h,_⟩
    cases h
  | some batch =>
    obtain ⟨-,hworded,hhashes,hused⟩ := h
    rw [hhashes,hused]
    refine ⟨fun h => ⟨batch,rfl,h.2⟩,?_⟩
    rintro ⟨_,hsome,hlt⟩
    obtain rfl := Option.some.inj hsome
    have hmem : code∈batch.codes := List.count_pos_iff.mp (Nat.zero_lt_of_lt hlt)
    exact ⟨hworded code hmem,hlt⟩

/-- The flush of a found backup code matches its row. -/
theorem yields_flushFound {factor : PendingFactor} {code : String} (hkeyed : Keyed w.data.work)
    (hfound : Found w.data.work user.row.id (some code) factor) :
    Yields (flushFactor factor) w fun o _ => o=.ok () := by
  cases factor with
  | lastUsedTimecode => exact absurd hfound.1 nofun
  | backupCodeUsed id now =>
    obtain ⟨row,hrow,rfl,-⟩ := hfound
    have hone : ((w.data.work .backupCodes).filter fun c => c.id==row.id).length=1 :=
      filter_length_eq_one (hkeyed .backupCodes) (List.mem_filter.mp hrow).1
        (beq_self_eq_true _) fun a c ha hc =>
          beq_iff_eq.mpr ((beq_iff_eq.mp ha).trans (beq_iff_eq.mp hc).symm)
    exact congrArg Prod.fst (run_flushUpdate hone)

/-- Verification accepts a backup code exactly if the second factor is enabled
and the code is available. -/
theorem yields_verify (code : String) (hkeyed : Keyed w.data.work)
    (h : Consistent w.data.work userId b) :
    Yields ((Operation.verify userId none (some code)).perform d) w fun o _ =>
      (∃ plain,o=.ok plain) ↔ Enabled w.data.work userId ∧ Available b code := by
  refine (yields_getById userId hkeyed).bind (fun found w₁ h₁ => ?_) fun e _ h₁ => ?_
  · obtain ⟨rfl,_,hok,hnone,hsome⟩ := h₁
    obtain rfl := Except.ok.inj hok
    cases found with
    | none => exact ⟨fun ⟨_,h⟩ => absurd h nofun,fun h => absurd h.1 (hnone rfl)⟩
    | some user =>
      obtain ⟨hloaded,rfl⟩ := hsome user rfl
      obtain ⟨_,codes,hshape,hstored⟩ := h
      have havailable := hstored.available_iff code
      rw [← hshape.codes] at havailable
      rw [← havailable,hloaded.enabled_iff hkeyed]
      have hverify : Yields (verifyForLogin d user none (some code)) w₁ _ :=
        (yields_verifyForLogin code hloaded hkeyed).and
          (edits_verifyForLogin d none (some code) hloaded hkeyed w₁ rfl)
      have hact : Yields ((Operation.verify user.row.id none (some code)).act d user) w₁
          fun o _ => (∃ plain,o=.ok plain) ↔ user.row.twoFactorEnabled=true ∧ code≠"" ∧
            ∃ row∈codesOf w₁.data.work user.row.id,row.usedAt=none ∧ row.codeHash.text=code := by
        refine hverify.bind (fun factor w₂ h₂ => ?_) fun e w₂ h₂ => ?_
        · obtain ⟨hiff,hfound,-⟩ := h₂
          obtain ⟨hwork,hfound⟩ := hfound factor rfl
          have hp := hiff.mp ⟨factor,rfl⟩
          have hgiven : given (some code)=some code := by simp [given,hp.2.1]
          have hpresented : presented none (some code)=some code := by
            unfold presented
            rw [hgiven]
            rfl
          rw [hpresented,← hwork] at hfound
          rw [← hwork] at hkeyed
          refine (yields_flushFound hkeyed hfound).bind (fun _ w₃ _ => ?_) fun _ _ h₃ =>
            absurd h₃ nofun
          exact ⟨fun _ => hp,fun _ => ⟨[],rfl⟩⟩
        · refine ⟨fun ⟨_,h⟩ => absurd h nofun,fun hp => ?_⟩
          obtain ⟨_,hok⟩ := h₂.1.mpr hp
          exact absurd hok nofun
      refine hact.bind (fun plain w₃ h₃ => ?_) fun e w₃ h₃ => ?_
      · exact ⟨fun _ => h₃.mp ⟨plain,rfl⟩,fun _ => ⟨plain,rfl⟩⟩
      · refine ⟨fun ⟨_,h⟩ => absurd h nofun,fun hp => ?_⟩
        obtain ⟨_,hok⟩ := h₃.mpr hp
        exact absurd hok nofun
  · obtain ⟨-,_,hok,-⟩ := h₁
    exact absurd hok nofun

end Acceptance

section States

variable {d : Deployment} {start s : ServerState} {history : History}

/-- No account has a second factor yet. -/
structure Untouched (db : Database authSchema) : Prop where
  /-- No flag is set. -/
  flags : ∀ row∈db .users,row.twoFactorEnabled=false
  /-- There is no secret. -/
  secrets : db .twoFactorSecrets=[]
  /-- There is no backup code. -/
  codes : db .backupCodes=[]

/-- A user without any two-factor data is consistent without a batch. -/
theorem Untouched.consistent {db : Database authSchema} (h : Untouched db) (userId : UUID) :
    Consistent db userId none := by
  refine ⟨False,[],⟨iff_false_intro ?_,iff_false_intro ?_,?_⟩,rfl⟩
  · rintro ⟨row,hrow,-,hset⟩
    exact absurd ((h.flags row hrow).symm.trans hset) (by decide)
  · rintro ⟨secret,hsecret,-⟩
    rw [h.secrets] at hsecret
    cases hsecret
  · unfold codesOf
    rw [h.codes]
    rfl

/-- One operation keeps the state sound and every account consistent with its
batch. -/
theorem serve_keeps (op : Operation) (choices : List ℕ) (hsound : Sound s.env s.db)
    (h : ∀ v,Consistent s.db v (batchOf v history)) :
    Sound (serve d op choices s).2.env (serve d op choices s).2.data.committed ∧
      ∀ v,Consistent (serve d op choices s).2.data.committed v
        (batchOf v ((op,(serve d op choices s).1)::history)) := by
  have hworld : SoundWorld (s.world choices) 0 := ⟨Nat.zero_le _,hsound,hsound⟩
  obtain ⟨_,hrun⟩ := soundWorld_run (tidy_perform (d := d) op) hworld
  refine ⟨hrun.committed,fun v => ?_⟩
  have hperform := yields_perform (d := d) op (w := s.world choices) hsound.unique rfl
    (fun v => batchOf v history) h
  unfold Yields Program.Ensures at hperform
  unfold serve
  generalize (op.perform d).run World.perform (s.world choices)=result at hperform ⊢
  obtain ⟨outcome,w⟩ := result
  cases outcome with
  | error e =>
    have hlost : w.data.committed=s.db := hperform.1 e rfl
    rw [hlost]
    exact h v
  | ok plain => exact hperform.2 plain rfl v

/-- In every state of a run of the operations on second factors and for every
account: the flag is set if and only if there is a confirmed secret; the codes
are those of the last batch, ten or none; and a backup code is accepted if and
only if the flag is set and the last batch has it more often than it has been
accepted since. -/
theorem two_factor_states (hsound : Sound start.env start.db) (hstart : Untouched start.db)
    (h : Sequence d start history s) (userId : UUID) :
    (Enabled s.db userId ↔ Confirmed s.db userId) ∧
    Stored (codesOf s.db userId) (batchOf userId history) ∧
    ∀ code choices,(∃ plain,(serve d (.verify userId none (some code)) choices s).1=.ok plain) ↔
      Enabled s.db userId ∧ Available (batchOf userId history) code := by
  have hinv : Sound s.env s.db ∧ ∀ v,Consistent s.db v (batchOf v history) := by
    induction h with
    | refl => exact ⟨hsound,hstart.consistent⟩
    | step op choices _ ih => exact serve_keeps op choices ih.1 ih.2
  obtain ⟨hsound,hconsistent⟩ := hinv
  have haccepts := fun code choices =>
    yields_verify (d := d) (w := s.world choices) code hsound.unique (hconsistent userId)
  obtain ⟨enabled,codes,hshape,hstored⟩ := hconsistent userId
  refine ⟨hshape.enabled.trans hshape.confirmed.symm,?_,haccepts⟩
  rw [hshape.codes]
  exact hstored

/-- A server with one account. -/
def sampleStart : ServerState := sampleState [sampleUser] [] []

/-- The sample start meets the constraints of its tables. -/
theorem sound_sampleStart : Sound sampleStart.env sampleStart.db := by
  refine ⟨fun t r hr => ?_,fun t => ?_,fun _ _ => nofun⟩
  · cases t with
    | users =>
      obtain rfl := List.mem_singleton.mp hr
      show 1<10
      omega
    | _ => cases hr
  · cases t with
    | users => exact List.pairwise_singleton _ _
    | _ => exact .nil

/-- The sample account starts without a second factor. -/
theorem untouched_sampleStart : Untouched sampleStart.db :=
  ⟨fun row hrow => by rw [List.mem_singleton.mp hrow]; rfl,rfl,rfl⟩

/-- Operations one after another, the latest first. -/
def serveAll (d : Deployment) (start : ServerState) : List (Operation×List ℕ) → History×ServerState
  | [] => ([],start)
  | (op,choices)::rest =>
    let (history,s) := serveAll d start rest
    ((op,(serve d op choices s).1)::history,
      ⟨(serve d op choices s).2.env,(serve d op choices s).2.data.committed⟩)

/-- Serving a list of operations is a sequence. -/
theorem sequence_serveAll (d : Deployment) (start : ServerState) :
    ∀ ops,Sequence d start (serveAll d start ops).1 (serveAll d start ops).2
  | [] => .refl
  | (op,choices)::rest => .step op choices (sequence_serveAll d start rest)

/-- The account sets its second factor up, turns it on and signs in with a
backup code. -/
def sampleOperations : List (Operation×List ℕ) :=
  [(.verify ⟨1⟩ none (some "BAAA-AAAA"),[]),(.enable ⟨1⟩ "10100",[]),(.setup ⟨1⟩,[0,0,1])]

/-- Then it turns it off with another code. -/
def sampleRemoval : List (Operation×List ℕ) :=
  (.disable ⟨1⟩ none (some "AAAA-AAAA"),[])::sampleOperations

/-- The batch of the sample run after one code of it was used. -/
theorem batchOf_sampleOperations :
    batchOf ⟨1⟩ (serveAll sampleDeployment sampleStart sampleOperations).1=
      some ⟨"BAAA-AAAA"::List.replicate 9 "AAAA-AAAA",["BAAA-AAAA"]⟩ := by
  rfl

/-- A run with setup, enable, accepted codes and disable. -/
theorem two_factor_states_setup : ∃ history s s',
    Sequence sampleDeployment sampleStart history s ∧ Enabled s.db ⟨1⟩ ∧ Confirmed s.db ⟨1⟩ ∧
    Stored (codesOf s.db ⟨1⟩)
      (some ⟨"BAAA-AAAA"::List.replicate 9 "AAAA-AAAA",["BAAA-AAAA"]⟩) ∧
    (∀ choices,¬∃ plain,(serve sampleDeployment (.verify ⟨1⟩ none (some "BAAA-AAAA")) choices
      s).1=.ok plain) ∧
    (∀ choices,∃ plain,(serve sampleDeployment (.verify ⟨1⟩ none (some "AAAA-AAAA")) choices
      s).1=.ok plain) ∧
    Sequence sampleDeployment sampleStart
      ((.disable ⟨1⟩ none (some "AAAA-AAAA"),.ok [])::history) s' ∧
    ¬Enabled s'.db ⟨1⟩ ∧ ¬Confirmed s'.db ⟨1⟩ ∧ codesOf s'.db ⟨1⟩=[] := by
  have hrun := sequence_serveAll sampleDeployment sampleStart sampleOperations
  have hremoved := sequence_serveAll sampleDeployment sampleStart sampleRemoval
  have hdisabled : (serveAll sampleDeployment sampleStart sampleRemoval).1=
      (.disable ⟨1⟩ none (some "AAAA-AAAA"),.ok [])::
        (serveAll sampleDeployment sampleStart sampleOperations).1 := rfl
  rw [hdisabled] at hremoved
  obtain ⟨hflag,hstored,haccepts⟩ :=
    two_factor_states sound_sampleStart untouched_sampleStart hrun ⟨1⟩
  obtain ⟨hflag',hstored',-⟩ :=
    two_factor_states sound_sampleStart untouched_sampleStart hremoved ⟨1⟩
  rw [batchOf_sampleOperations] at hstored haccepts
  have henabled : Enabled (serveAll sampleDeployment sampleStart sampleOperations).2.db ⟨1⟩ :=
    ⟨_,List.mem_singleton_self _,rfl,rfl⟩
  have hdropped : ¬Enabled (serveAll sampleDeployment sampleStart sampleRemoval).2.db ⟨1⟩ := by
    rintro ⟨row,hrow,-,hset⟩
    obtain rfl := List.mem_singleton.mp hrow
    exact absurd hset (by decide)
  refine ⟨_,_,_,hrun,henabled,hflag.mp henabled,hstored,fun choices => ?_,fun choices => ?_,
    hremoved,hdropped,fun h => hdropped (hflag'.mpr h),hstored'⟩
  · rw [haccepts]
    rintro ⟨-,batch,hbatch,hcount⟩
    obtain rfl := Option.some.inj hbatch
    exact absurd hcount (by decide)
  · exact (haccepts "AAAA-AAAA" choices).mpr ⟨henabled,_,rfl,by decide⟩

end States

end BackendPlatform.TwoFactorStates
