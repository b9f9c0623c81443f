import BackendPlatform.LastingRecords

/-!
# One live reset code

A request for a reset code retires the codes it sees and inserts a new one; the
mail is sent before the commit. As long as no two requests of one user overlap
between the look at the old codes and the end of the transaction, every user
has at most one unused code in every committed state. Two that overlap see
neither the new code nor the locks of each other.
-/

set_option autoImplicit false

namespace BackendPlatform.LiveCodes

open ProgramTrees InterleavedRuns TransactionalTables RowLocking
open AuthRecords AuthEffects AuthRepositories AuthServices AuthFlows AuthFootprints
open ConcurrentRequests LastingRecords PasswordResetService

section Protocol

/-- How far a request has come with the codes of a user. -/
inductive Stage where
  /-- Its transaction holds no code. -/
  | idle
  /-- It may hold codes and inserts none. -/
  | holding
  /-- Its next effect retires the codes of a user. -/
  | deciding (userId : UUID)
  /-- It has retired them. -/
  | retired (userId : UUID)
  /-- It has inserted a new one. -/
  | inserted (userId : UUID)

/-- An unused code of the user. -/
def live (userId : UUID) (r : PasswordResetToken) : Bool := r.userId==userId && r.usedAt.isNone

/-- The effect of `mark_active_for_user_used`. -/
def Retires (userId : UUID) (op : Effect) : Prop :=
  ∃ now,op=.sql (.update .passwordResetTokens (live userId) fun r => {r with usedAt := some now})

/-- The codes a statement changes keep their owner, and used ones stay used. -/
def Keeps (q : PasswordResetToken → Bool) (f : PasswordResetToken → PasswordResetToken) : Prop :=
  ∀ r,q r=true → (f r).userId=r.userId ∧ (r.usedAt≠none → (f r).usedAt≠none)

/-- The request is not on the way to a new code. -/
def Loose (s : Stage) : Prop := s=.idle ∨ s=.holding

/-- What a request may do with reset codes. -/
def moves (s : Stage) : (op : Effect) → op.Reply → Stage → Prop
  | .sql (.selectForUpdate .passwordResetTokens _),_,s' => Loose s ∧ s'=.holding
  | .sql (.insert .passwordResetTokens row),reply,s' => s=.retired row.userId ∧
    (((reply : Insertion)=.inserted ∧ s'=.inserted row.userId) ∨
      ((reply : Insertion)≠.inserted ∧ s'=.holding))
  | .sql (.update .passwordResetTokens q f),_,s' => (Loose s ∧ Keeps q f ∧ s'=.holding) ∨
    ∃ userId,s=.deciding userId ∧ Retires userId (.sql (.update .passwordResetTokens q f)) ∧
      s'=.retired userId
  | .sql (.delete .passwordResetTokens _),_,_ => False
  | .sql .commit,_,s' => (∀ userId,s≠.deciding userId) ∧ s'=.idle
  | .sql .rollback,_,s' => (∀ userId,s≠.deciding userId) ∧ s'=.idle
  | .external .now,_,s' => (∀ userId,s≠.deciding userId) ∧
    (s'=s ∨ s=.idle ∧ ∃ userId,s'=.deciding userId)
  | _,_,s' => (∀ userId,s≠.deciding userId) ∧ s'=s

/-- The protocol of reset codes. -/
def protocol : Protocol authSignature Stage := ⟨moves,fun _ _ _ => True⟩

/-- No request ends between the retirement and the insertion. -/
def Settled (s : Stage) : Prop := ∀ userId,s≠.deciding userId ∧ s≠.retired userId

/-- The effect inserts and deletes no code. -/
def Mild : Effect → Prop
  | .sql (.insert .passwordResetTokens _) => False
  | .sql (.delete .passwordResetTokens _) => False
  | .sql (.update .passwordResetTokens q f) => Keeps q f
  | _ => True

/-- A request that is loose decides for no user. -/
theorem Loose.ne_deciding {s : Stage} (h : Loose s) (userId : UUID) : s≠.deciding userId := by
  rcases h with rfl|rfl
  · rintro ⟨⟩
  · rintro ⟨⟩

/-- Mild effects leave a loose request loose. -/
theorem moves_mild {s : Stage} (hs : Loose s) {op : Effect} (hop : Mild op) (r : op.Reply) :
    ∃ s',moves s op r s' ∧ Loose s' := by
  have hstay : ∃ s',((∀ userId,s≠.deciding userId) ∧ s'=s) ∧ Loose s' :=
    ⟨s,⟨hs.ne_deciding,rfl⟩,hs⟩
  have hend : ∃ s',((∀ userId,s≠.deciding userId) ∧ s'=.idle) ∧ Loose s' :=
    ⟨.idle,⟨hs.ne_deciding,rfl⟩,.inl rfl⟩
  cases op with
  | external op =>
    cases op with
    | now => exact ⟨s,⟨hs.ne_deciding,.inl rfl⟩,hs⟩
    | _ => exact hstay
  | sql stmt =>
    cases stmt with
    | select t q => exact hstay
    | selectForUpdate t q =>
      cases t with
      | passwordResetTokens => exact ⟨.holding,⟨hs,rfl⟩,.inr rfl⟩
      | _ => exact hstay
    | insert t row =>
      cases t with
      | passwordResetTokens => exact hop.elim
      | _ => exact hstay
    | update t q f =>
      cases t with
      | passwordResetTokens => exact ⟨.holding,.inl ⟨hs,hop,rfl⟩,.inr rfl⟩
      | _ => exact hstay
    | delete t q =>
      cases t with
      | passwordResetTokens => exact hop.elim
      | _ => exact hstay
    | commit => exact hend
    | rollback => exact hend

variable {α β : Type} {p : Action α} {s : Stage}

/-- A part with mild effects only keeps a request loose. -/
theorem follows_loose (hp : p.Within Mild) (hs : Loose s) :
    p.Follows protocol s fun s' _ => Loose s' := by
  induction p generalizing s with
  | pure a => exact hs
  | raise e => exact hs
  | call op k ih =>
    intro r _
    obtain ⟨s',hmoves,hs'⟩ := moves_mild hs hp.1 r
    exact ⟨s',hmoves,ih r (hp.2 r) hs'⟩

/-- Accesses that lock or write codes or end the transaction. -/
def codeAccesses : List Access :=
  [.lock .passwordResetTokens,.insert .passwordResetTokens,.update .passwordResetTokens,
    .delete .passwordResetTokens,.commit,.rollback]

/-- An effect that leaves every code and the transaction alone. -/
def Elsewhere (op : Effect) : Prop := ∀ a∈accesses op,a∉codeAccesses

/-- Such an effect leaves every request where it is. -/
theorem moves_elsewhere {op : Effect} (hop : Elsewhere op) (r : op.Reply)
    (hs : ∀ userId,s≠.deciding userId) : moves s op r s := by
  have hstay : (∀ userId,s≠.deciding userId) ∧ s=s := ⟨hs,rfl⟩
  have hnot : ∀ {a : Access},a∈accesses op → a∈codeAccesses → False :=
    fun ha hmem => hop _ ha hmem
  cases op with
  | external op =>
    cases op with
    | now => exact ⟨hs,.inl rfl⟩
    | _ => exact hstay
  | sql stmt =>
    cases stmt with
    | select t q => exact hstay
    | selectForUpdate t q =>
      cases t with
      | passwordResetTokens => exact (hnot (List.mem_singleton_self _) (by decide)).elim
      | _ => exact hstay
    | insert t row =>
      cases t with
      | passwordResetTokens => exact (hnot (List.mem_singleton_self _) (by decide)).elim
      | _ => exact hstay
    | update t q f =>
      cases t with
      | passwordResetTokens => exact (hnot (List.mem_singleton_self _) (by decide)).elim
      | _ => exact hstay
    | delete t q =>
      cases t with
      | passwordResetTokens => exact (hnot (List.mem_singleton_self _) (by decide)).elim
      | _ => exact hstay
    | commit => exact (hnot (List.mem_singleton_self _) (by decide)).elim
    | rollback => exact (hnot (List.mem_singleton_self _) (by decide)).elim

/-- A part that keeps elsewhere comes first. -/
theorem bind_elsewhere {f : α → Action β} {fp : List Access}
    {Q : Stage → Except Failure β → Prop} (hp : Inside p fp)
    (hfp : ∀ a∈fp,a∉codeAccesses)
    (hs : ∀ userId,s≠.deciding userId) (hok : ∀ a,(f a).Follows protocol s Q)
    (herror : ∀ e,Q s (.error e)) : (p.bind f).Follows protocol s Q :=
  Program.Follows.bind_of_within
    (Program.within_mono (fun _ hop => show Elsewhere _ from fun a ha => hfp a (hop a ha)) hp)
    (fun _ r hop => moves_elsewhere hop r hs) hok herror

end Protocol

section Requests

variable {d : Deployment} {client : ClientRequest}

/-- Statements that make codes older and insert none are mild. -/
theorem mild_of_respects {op : Effect} (h : Respects op)
    (hinsert : Access.insert .passwordResetTokens∉accesses op) : Mild op := by
  cases op with
  | external op => trivial
  | sql stmt =>
    cases stmt with
    | insert t row =>
      cases t with
      | passwordResetTokens => exact absurd (List.mem_singleton_self _) hinsert
      | _ => trivial
    | update t q f =>
      cases t with
      | passwordResetTokens =>
        intro r hq
        have hlater : Later .passwordResetTokens r (f r) :=
          h (show Lasting .passwordResetTokens by decide) r hq
        have howner : (asRequested (f r)).userId=(asRequested r).userId := by rw [hlater.1]
        exact ⟨howner,hlater.2⟩
      | _ => trivial
    | delete t q =>
      cases t with
      | passwordResetTokens => exact absurd (show Lasting .passwordResetTokens by decide) h
      | _ => trivial
    | _ => trivial

/-- Every request but the one for a code is mild. -/
theorem mild_respond (hrequest : ∀ email,client.request≠.requestReset email) :
    (respond d client).Within Mild := by
  have hinserts : Access.insert .passwordResetTokens∉footprint client.request := by
    obtain ⟨request,ip,ua⟩ := client
    cases request with
    | requestReset email => exact absurd rfl (hrequest email)
    | _ => exact of_decide_eq_true rfl
  exact Program.within_mono (fun op hop => mild_of_respects hop.1 fun ha => hinserts (hop.2 _ ha))
    (Program.within_and (ageless_respond d client) (inside_respond d client))

/-- Retiring the codes of a user takes a deciding request to the retired stage.
-/
theorem follows_markActiveForUserUsed (userId : UUID) (now : Instant) :
    (PasswordResetRepository.markActiveForUserUsed userId now).Follows protocol (.deciding userId)
      fun s o => s=.retired userId ∧ o=.ok () :=
  fun _ _ => ⟨.retired userId,.inr ⟨userId,rfl,⟨now,rfl⟩,rfl⟩,rfl,rfl⟩

/-- The new code is inserted after the others were retired. -/
theorem follows_create (userId : UUID) (tokenHash : Hmac String) (expiresAt : Instant)
    (requestedIp requestedUserAgent : String) :
    (PasswordResetRepository.create userId tokenHash expiresAt requestedIp
      requestedUserAgent).Follows protocol (.retired userId)
      fun s o => (s=.inserted userId ∧ o=.ok ()) ∨ (s=.holding ∧ o≠.ok ()) := by
  intro n _
  refine ⟨.retired userId,⟨by rintro _ ⟨⟩,rfl⟩,fun reply _ => ?_⟩
  cases reply with
  | inserted => exact ⟨.inserted userId,⟨rfl,.inl ⟨rfl,rfl⟩⟩,.inl ⟨rfl,rfl⟩⟩
  | duplicateKey => exact ⟨.holding,⟨rfl,.inr ⟨by rintro ⟨⟩,rfl⟩⟩,.inr ⟨rfl,by rintro ⟨⟩⟩⟩
  | invalidValue => exact ⟨.holding,⟨rfl,.inr ⟨by rintro ⟨⟩,rfl⟩⟩,.inr ⟨rfl,by rintro ⟨⟩⟩⟩

/-- A requested reset goes through the stages in order. -/
theorem follows_requestReset (d : Deployment) (email : String) (ip ua : Option String) :
    (requestReset d email ip ua).Follows protocol .idle fun s _ => Settled s := by
  have hidle : Settled .idle := fun _ => ⟨by rintro ⟨⟩,by rintro ⟨⟩⟩
  have hinserted : ∀ id,Settled (.inserted id) := fun _ _ => ⟨by rintro ⟨⟩,by rintro ⟨⟩⟩
  refine bind_elsewhere (inside_load _) (by decide) (fun id => (hidle id).1) (fun found => ?_)
    fun _ => hidle
  cases found with
  | none => exact hidle
  | some user =>
    simp only [Program.monad_throw,Program.monad_bind,Program.monad_pure]
    split
    · exact hidle
    · split
      · split
        · exact hidle
        · exact hidle
      · have hcode : Inside generateCode [.random] := by
          simp [generateCode,external,Uses,accesses]
        refine bind_elsewhere hcode (by decide) (fun id => (hidle id).1) (fun code => ?_)
          fun _ => hidle
        -- The old codes are retired right after the clock is read.
        intro now _
        refine ⟨.deciding user.row.id,⟨fun id => (hidle id).1,.inr ⟨rfl,_,rfl⟩⟩,?_⟩
        refine (follows_markActiveForUserUsed _ _).bind ?_ ?_
        · rintro s _ ⟨rfl,_⟩
          refine (follows_create _ _ _ _ _).bind ?_ ?_
          · rintro s _ (⟨rfl,_⟩|⟨_,hfailed⟩)
            · have hmail : Inside (external (.sendEmail user.row.email "Password reset code"
                  ("Your 6-digit password reset code is: "++code++"\n"))) [.mail] := by
                simp [external,Uses,accesses]
              refine bind_elsewhere hmail (by decide) (fun id => (hinserted _ id).1)
                (fun delivery => ?_) fun _ => hinserted _
              have hfail : ∀ user {s : Stage},(∀ id,s≠.deciding id) →
                  (failDelivery user).Follows protocol s fun s _ => Settled s :=
                fun _ _ hs _ _ => ⟨.idle,⟨hs,rfl⟩,hidle⟩
              split
              · refine bind_elsewhere (inside_logEvent _ _ _ _ _ _ _ _) (by decide)
                  (fun id => (hinserted _ id).1) (fun _ => ?_) fun _ => hinserted _
                exact fun _ _ => ⟨.idle,⟨fun id => (hinserted _ id).1,rfl⟩,hidle⟩
              · exact fun _ _ => ⟨.idle,⟨fun id => (hinserted _ id).1,rfl⟩,
                  hfail _ fun id => (hidle id).1⟩
              · exact hfail _ fun id => (hinserted _ id).1
              · exact hfail _ fun id => (hinserted _ id).1
              · exact hinserted _
            · exact absurd rfl hfailed
          · rintro s _ (⟨_,⟨⟩⟩|⟨rfl,_⟩)
            exact fun _ => ⟨by rintro ⟨⟩,by rintro ⟨⟩⟩
        · rintro s _ ⟨_,⟨⟩⟩

/-- Every request keeps to the protocol. -/
theorem follows_served (d : Deployment) (client : ClientRequest) :
    (served d client).Follows protocol .idle fun s _ => Settled s := by
  refine Program.Follows.bind (Q := fun s _ => Settled s) ?_ (fun _ _ hs => hs) fun _ _ hs => hs
  obtain ⟨request,ip,ua⟩ := client
  by_cases hreset : ∃ email,request=.requestReset email
  · obtain ⟨email,rfl⟩ := hreset
    exact (follows_requestReset d email ip ua).bind (fun _ _ hs => hs) fun _ _ hs => hs
  · refine (follows_loose (mild_respond fun email he => hreset ⟨email,he⟩) (.inl rfl)).mono ?_
    rintro s _ (rfl|rfl)
    · exact fun _ => ⟨by rintro ⟨⟩,by rintro ⟨⟩⟩
    · exact fun _ => ⟨by rintro ⟨⟩,by rintro ⟨⟩⟩

end Requests

section Cells

/-- Every user has at most one unused code. -/
def OneLiveCode (rows : List PasswordResetToken) : Prop :=
  ∀ userId,(rows.filter (live userId)).length≤1

/-- The codes of the database. -/
abbrev CodeCells := List (Cell PasswordResetToken)

/-- A code that would be unused next to a new one: committed as unused and not
locked by the transaction, or unused in the version of its holder. -/
def competes (i : ℕ) (userId : UUID) (c : Cell PasswordResetToken) : Bool :=
  (c.holder≠some i && c.committed.any (live userId)) || c.working.any (live userId)

/-- A cell competes with no new code where its holder's version is not live,
nor its committed one unless the transaction holds the cell. -/
theorem competes_eq_false_iff {i : ℕ} {userId : UUID} {c : Cell PasswordResetToken} :
    competes i userId c=false ↔ (c.holder≠some i → ¬c.committed.any (live userId)=true) ∧
      ¬c.working.any (live userId)=true := by
  simp only [competes,Bool.or_eq_false_iff,Bool.and_eq_false_iff,decide_eq_false_iff_not,
    Bool.not_eq_true,ne_eq]
  tauto

/-- No reading of the tables has two unused codes of one user. -/
def OneLive (cells : CodeCells) : Prop :=
  ∀ S n m a b userId, mergedAt S cells n=some a → mergedAt S cells m=some b →
    live userId a=true → live userId b=true → n=m

/-- What a statement leaves of the codes it locks. -/
def Leaves (q : PasswordResetToken → Bool) (g : PasswordResetToken → Option PasswordResetToken) :
    Prop :=
  ∀ r,q r=true → ∃ r',g r=some r' ∧ r'.userId=r.userId ∧ (r.usedAt≠none → r'.usedAt≠none)

/-- Leaving every row brings no code back to life. -/
theorem leaves_some (q : PasswordResetToken → Bool) : Leaves q some :=
  fun r _ => ⟨r,rfl,rfl,id⟩

/-- An UPDATE that keeps used codes used brings none back to life. -/
theorem Keeps.leaves {q : PasswordResetToken → Bool} {f : PasswordResetToken → PasswordResetToken}
    (h : Keeps q f) : Leaves q fun r => some (f r) :=
  fun r hq => ⟨f r,rfl,(h r hq).1,(h r hq).2⟩

/-- Retiring leaves the codes to their owner. -/
theorem keeps_retire (q : PasswordResetToken → Bool) (now : Instant) :
    Keeps q fun r => {r with usedAt := some now} := fun _ _ => ⟨rfl,fun _ => by rintro ⟨⟩⟩

variable {cells : CodeCells} {i : ℕ} {rows : List ℕ} {userId : UUID}
  {q : PasswordResetToken → Bool} {g : PasswordResetToken → Option PasswordResetToken}

/-- An unused version comes from an unused one. -/
theorem live_before {a b : PasswordResetToken} (huser : b.userId=a.userId)
    (hused : a.usedAt≠none → b.usedAt≠none) (h : live userId b=true) : live userId a=true := by
  simp only [live,Bool.and_eq_true,beq_iff_eq,Option.isNone_iff_eq_none] at h ⊢
  exact ⟨huser.symm.trans h.1,by_contra fun hne => hused hne h.2⟩

/-- A statement that brings no code back keeps one live code. -/
theorem OneLive.lockRows (h : OneLive cells) (hg : Leaves q g) (hr : ready i rows cells=true) :
    OneLive (lockRows i rows q g cells) := by
  have hbefore : ∀ S n a userId,mergedAt S (RowLocking.lockRows i rows q g cells) n=some a →
      live userId a=true → ∃ b,mergedAt S cells n=some b ∧ live userId b=true := by
    intro S n a userId ha hlive
    by_cases hi : i∈S
    · rw [mergedAt_lockRows_of_mem hr hi] at ha
      by_cases hn : n∈rows
      · rw [if_pos hn] at ha
        obtain ⟨b,hb,hba⟩ := Option.bind_eq_some_iff.mp ha
        by_cases hq : q b=true
        · obtain ⟨b',hb',huser,hused⟩ := hg b hq
          rw [if_pos hq,hb'] at hba
          obtain rfl : b'=a := Option.some.inj hba
          exact ⟨b,hb,live_before huser hused hlive⟩
        · rw [if_neg hq] at hba
          obtain rfl : b=a := Option.some.inj hba
          exact ⟨b,hb,hlive⟩
      · rw [if_neg hn] at ha
        exact ⟨a,ha,hlive⟩
    · rw [mergedAt_lockRows_of_notMem hr hi] at ha
      exact ⟨a,ha,hlive⟩
  intro S n m a b userId ha hb hla hlb
  obtain ⟨a',ha',hla'⟩ := hbefore S n a userId ha hla
  obtain ⟨b',hb',hlb'⟩ := hbefore S m b userId hb hlb
  exact h S n m a' b' userId ha' hb' hla' hlb'

/-- A code inserted alone is the only unused code of its user in every reading
that contains its transaction. -/
theorem OneLive.append (h : OneLive cells) {row : PasswordResetToken}
    (halone : ∀ c∈cells,competes i row.userId c=false) :
    OneLive (cells++[⟨none,some i,some row⟩]) := by
  have hother : ∀ S n a userId, i∈S → mergedAt S cells n=some a → live userId a=true →
      userId≠row.userId := by
    rintro S n a userId hi ha hla rfl
    obtain ⟨c,hc,hca⟩ := Option.bind_eq_some_iff.mp ha
    have hfree := halone c (List.mem_of_getElem? hc)
    simp only [competes,Bool.or_eq_false_iff,Bool.and_eq_false_iff,ne_eq,decide_eq_false_iff_not,
      not_not] at hfree
    unfold Cell.merged at hca
    split at hca
    · rename_i p hp
      split at hca
      · rw [hca,Option.any_some,hla] at hfree
        exact absurd hfree.2 (by decide)
      · rcases hfree.1 with hholder | hcommitted
        · rw [hp] at hholder
          obtain rfl : p=i := Option.some.inj hholder
          contradiction
        · rw [hca,Option.any_some,hla] at hcommitted
          exact absurd hcommitted (by decide)
    · rename_i hnone
      rcases hfree.1 with hholder | hcommitted
      · exact absurd (hnone.symm.trans hholder) (Option.some_ne_none _).symm
      · rw [hca,Option.any_some,hla] at hcommitted
        exact absurd hcommitted (by decide)
  have hnew : ∀ S n a userId, mergedAt S (cells++[⟨none,some i,some row⟩]) n=some a →
      live userId a=true → (n=cells.length ∧ i∈S ∧ userId=row.userId) ∨ mergedAt S cells n=some a := by
    intro S n a userId ha hla
    rw [mergedAt_append] at ha
    by_cases hn : n=cells.length
    · rw [if_pos hn] at ha
      by_cases hi : i∈S
      · rw [Cell.merged_of_holder rfl hi] at ha
        obtain rfl : row=a := Option.some.inj ha
        simp only [live,Bool.and_eq_true,beq_iff_eq] at hla
        exact .inl ⟨hn,hi,hla.1.symm⟩
      · simp [Cell.merged,hi] at ha
    · rw [if_neg hn] at ha
      exact .inr ha
  intro S n m a b userId ha hb hla hlb
  rcases hnew S n a userId ha hla with ⟨hn,hi,hu⟩ | ha' <;>
    rcases hnew S m b userId hb hlb with ⟨hm,hi',hu'⟩ | hb'
  · omega
  · exact absurd hu (hother S m b userId hi hb' hlb)
  · exact absurd hu' (hother S n a userId hi' ha' hla)
  · exact h S n m a b userId ha' hb' hla hlb

/-- A COMMIT keeps one live code. -/
theorem OneLive.settle (h : OneLive cells) (i : ℕ) : OneLive (cells.map (·.settle i)) := by
  intro S n m a b userId ha hb
  rw [mergedAt_settle] at ha hb
  exact h _ n m a b userId ha hb

/-- A ROLLBACK keeps one live code. -/
theorem OneLive.release (h : OneLive cells) (i : ℕ) : OneLive (cells.map (·.release i)) := by
  intro S n m a b userId ha hb
  rw [mergedAt_release] at ha hb
  exact h _ n m a b userId ha hb

/-- A cell after a locking statement: as it was, or locked with what the
statement leaves of the version its transaction saw. -/
theorem lockRows_cases (hr : ready i rows cells=true) {n : ℕ} {c' : Cell PasswordResetToken}
    (h : (lockRows i rows q g cells)[n]?=some c') : ∃ c,cells[n]?=some c ∧
      ((c'=c ∧ (n∈rows → ∀ r,c.view i=some r → q r=false)) ∨
        (n∈rows ∧ c.free i=true ∧ ∃ r,c.view i=some r ∧ q r=true ∧
          c'=⟨c.committed,some i,g r⟩)) := by
  rw [getElem?_lockRows] at h
  obtain ⟨c,hc,rfl⟩ := Option.map_eq_some_iff.mp h
  refine ⟨c,hc,?_⟩
  by_cases hn : n∈rows
  · rw [if_pos hn]
    unfold Cell.lock
    cases hview : c.view i with
    | none => exact .inl ⟨rfl,fun _ r hr => by cases hr⟩
    | some r =>
      by_cases hq : q r=true
      · simp only [hq,if_true]
        exact .inr ⟨hn,free_of_ready hr hn hc,r,rfl,hq,rfl⟩
      · simp only [hq]
        refine .inl ⟨rfl,fun _ r' hr' => ?_⟩
        obtain rfl := Option.some.inj hr'
        exact Bool.eq_false_iff.mpr hq
  · rw [if_neg hn]
    exact .inl ⟨rfl,fun hmem => absurd hmem hn⟩

/-- A code that another transaction locks unused was committed unused. -/
theorem free_view {c : Cell PasswordResetToken} {r : PasswordResetToken} (hfree : c.free i=true)
    (hview : c.view i=some r) : (c.holder=none ∧ c.committed=some r) ∨
      (c.holder=some i ∧ c.working=some r) := by
  unfold Cell.free at hfree
  unfold Cell.view at hview
  cases hholder : c.holder with
  | none =>
    rw [hholder,if_neg (Option.some_ne_none i).symm] at hview
    exact .inl ⟨rfl,hview⟩
  | some j =>
    rw [hholder,Option.all_some,beq_iff_eq] at hfree
    rw [hholder,hfree,if_pos rfl] at hview
    exact .inr ⟨by rw [hfree],hview⟩

end Cells

section Invariants

/-- A request has retired codes of the user and has not ended its transaction
since. -/
def Unended (history : List (Event authSignature)) (i : ℕ) (userId : UUID) : Prop :=
  ∃ newer e older,history=newer++e::older ∧ e.pid=i ∧ Retires userId e.op ∧
    ∀ e'∈newer,e'.pid=i → e'.op≠.sql .commit ∧ e'.op≠.sql .rollback

/-- A request is between its look at the old codes of a user and the end of its
transaction. -/
def Opened (noted : ℕ → Option (List ℕ)) (states : ℕ → Stage) (i : ℕ) (userId : UUID) : Prop :=
  (states i=.deciding userId ∧ noted i≠none) ∨ states i=.retired userId ∨
    states i=.inserted userId

/-- The invariant of runs in which no two requests of one user overlap. -/
structure Apart (cells : CodeCells) (noted : ℕ → Option (List ℕ))
    (history : List (Event authSignature)) (states : ℕ → Stage) : Prop where
  /-- No reading has two unused codes of one user. -/
  one : OneLive cells
  /-- Only a holder has a version of its own. -/
  free : ∀ c∈cells,c.holder=none → c.working=none
  /-- A request that has not begun holds no code. -/
  fresh : ∀ i,(states i=.idle ∨ ∃ userId,states i=.deciding userId) → ∀ c∈cells,c.holder≠some i
  /-- A held unused code was committed as unused or has just been inserted. -/
  source : ∀ c∈cells,∀ i userId,c.holder=some i → c.working.any (live userId)=true →
    c.committed.any (live userId)=true ∨ states i=.inserted userId
  /-- A request that waits has noted every committed unused code of the user. -/
  complete : ∀ i userId rows,states i=.deciding userId → noted i=some rows →
    ∀ n c,cells[n]?=some c → c.committed.any (live userId)=true → n∈rows
  /-- Requests of one user do not overlap. -/
  alone : ∀ i j userId,i≠j → Opened noted states i userId → ¬Opened noted states j userId
  /-- The new code will be the only one. -/
  retired : ∀ i userId,states i=.retired userId → ∀ c∈cells,competes i userId c=false
  /-- The retirement is in the history. -/
  told : ∀ i userId,states i=.retired userId ∨ states i=.inserted userId →
    Unended history i userId
  /-- The new code is held until the transaction ends. -/
  holds : ∀ i userId,states i=.inserted userId → ∃ c∈cells,c.holder=some i

variable {cells : CodeCells} {noted noted' : ℕ → Option (List ℕ)}
  {history history' : List (Event authSignature)} {states : ℕ → Stage} {i : ℕ} {userId : UUID}
  {rows : List ℕ} {q : PasswordResetToken → Bool} {g : PasswordResetToken → Option PasswordResetToken}

/-- A transaction stays open until its own COMMIT or ROLLBACK. -/
theorem Unended.cons (h : Unended history i userId) {e : Event authSignature}
    (he : e.pid=i → e.op≠.sql .commit ∧ e.op≠.sql .rollback) : Unended (e::history) i userId := by
  obtain ⟨newer,r,older,rfl,hpid,hretires,hnewer⟩ := h
  refine ⟨e::newer,r,older,rfl,hpid,hretires,fun e' he' => ?_⟩
  rcases List.mem_cons.mp he' with rfl|hold
  · exact he
  · exact hnewer e' hold

/-- Another control state than that of the moving request. -/
theorem Opened.of_update {s : Stage} {j : ℕ} (hj : j≠i) (hnoted : noted' j=noted j)
    (h : Opened noted' (Function.update states i s) j userId) : Opened noted states j userId := by
  unfold Opened at h ⊢
  rwa [Function.update_of_ne hj,hnoted] at h

/-- Nothing happens to the codes, and no request moves on. -/
theorem Apart.stay (h : Apart cells noted history states)
    (hnoted : ∀ j userId,states j=.deciding userId → noted' j=noted j)
    (htold : ∀ j userId,states j=.retired userId ∨ states j=.inserted userId →
      Unended history j userId → Unended history' j userId) :
    Apart cells noted' history' states := by
  have hopened : ∀ j userId,Opened noted' states j userId → Opened noted states j userId := by
    rintro j userId (⟨hdeciding,hnone⟩|hlater)
    · exact .inl ⟨hdeciding,hnoted j userId hdeciding ▸ hnone⟩
    · exact .inr hlater
  exact ⟨h.one,h.free,h.fresh,h.source,
    fun j userId rows hd hr => h.complete j userId rows hd (hnoted j userId hd ▸ hr),
    fun j k userId hne hj hk => h.alone j k userId hne (hopened j userId hj) (hopened k userId hk),
    h.retired,fun j userId hs => htold j userId hs (h.told j userId hs),h.holds⟩

/-- The control state of a request changes and the codes do not: the new state
is closed, or opens nothing yet. -/
theorem Apart.turn (h : Apart cells noted history states) {s : Stage}
    (hnoted : ∀ j,j≠i → noted' j=noted j) (hself : noted' i=none)
    (hs : s=.holding ∨ ∃ userId,states i=.idle ∧ s=.deciding userId)
    (hi : ∀ userId,states i≠.inserted userId)
    (htold : ∀ j userId,j≠i → Unended history j userId → Unended history' j userId) :
    Apart cells noted' history' (Function.update states i s) := by
  have hother : ∀ {j t},Function.update states i s j=t → j≠i → states j=t := by
    intro j t ht hj
    rwa [Function.update_of_ne hj] at ht
  have hnever : ∀ userId,¬Opened noted' (Function.update states i s) i userId := by
    rintro userId (⟨_,hnone⟩|hlater)
    · exact hnone hself
    · rw [Function.update_self] at hlater
      rcases hs with rfl|⟨id,_,rfl⟩
      · rcases hlater with hlater|hlater <;> cases hlater
      · rcases hlater with hlater|hlater <;> cases hlater
  have hnot : ∀ {j userId},Function.update states i s j=.retired userId ∨
      Function.update states i s j=.inserted userId → j≠i := by
    rintro j userId hlater rfl
    exact hnever userId (.inr hlater)
  refine ⟨h.one,h.free,fun j hj => ?_,fun c hc j userId hholder hlive => ?_,
    fun j userId rows hd hr => ?_,fun j k userId hne hj hk => ?_,fun j userId hd => ?_,
    fun j userId hd => ?_,fun j userId hd => ?_⟩
  · by_cases hji : j=i
    · subst hji
      rw [Function.update_self] at hj
      rcases hs with rfl|⟨id,hidle,rfl⟩
      · rcases hj with hj|⟨_,hj⟩ <;> cases hj
      · exact h.fresh j (.inl hidle)
    · rw [Function.update_of_ne hji] at hj
      exact h.fresh j hj
  · rcases h.source c hc j userId hholder hlive with hcommitted|hinserted
    · exact .inl hcommitted
    · refine .inr ?_
      rwa [Function.update_of_ne]
      rintro rfl
      exact hi userId hinserted
  · by_cases hji : j=i
    · rw [hji,hself] at hr
      cases hr
    · exact h.complete j userId rows (hother hd hji) (hnoted j hji ▸ hr)
  · have hji : j≠i := by
      rintro rfl
      exact hnever userId hj
    have hki : k≠i := by
      rintro rfl
      exact hnever userId hk
    exact h.alone j k userId hne (hj.of_update hji (hnoted j hji)) (hk.of_update hki (hnoted k hki))
  · exact h.retired j userId (hother hd (hnot (.inl hd)))
  · have hji := hnot hd
    rw [Function.update_of_ne hji] at hd
    exact htold j userId hji (h.told j userId hd)
  · exact h.holds j userId (hother hd (hnot (.inr hd)))

/-- A request looks at the codes while no other request of the user is open. -/
theorem Apart.look (h : Apart cells noted history states) (hs : states i=.deciding userId)
    (hnoted : noted'=Function.update noted i (some (candidates i (live userId) cells)))
    (halone : ∀ j,j≠i → ¬Opened noted states j userId) : Apart cells noted' history states := by
  subst hnoted
  have hopened : ∀ j id,Opened (Function.update noted i (some (candidates i (live userId) cells)))
      states j id → Opened noted states j id ∨ (j=i ∧ id=userId) := by
    intro j id hj
    by_cases hji : j=i
    · subst hji
      rcases hj with ⟨hd,_⟩|hlater
      · rw [hs] at hd
        cases hd
        exact .inr ⟨rfl,rfl⟩
      · exact .inl (.inr hlater)
    · refine .inl ?_
      unfold Opened at hj ⊢
      rwa [Function.update_of_ne hji] at hj
  refine ⟨h.one,h.free,h.fresh,h.source,fun j id rows hd hr n c hc hlive => ?_,
    fun j k id hne hj hk => ?_,h.retired,h.told,h.holds⟩
  · by_cases hji : j=i
    · subst hji
      rw [hs] at hd
      cases hd
      rw [Function.update_self] at hr
      obtain rfl := Option.some.inj hr
      have hlt : n<cells.length := (List.getElem?_eq_some_iff.mp hc).1
      have hfree : c.holder≠some j := h.fresh j (.inr ⟨_,hs⟩) c (List.mem_of_getElem? hc)
      refine List.mem_filter.mpr ⟨List.mem_range.mpr hlt,?_⟩
      rw [hc,Option.bind_some,Cell.view,if_neg hfree]
      exact hlive
    · rw [Function.update_of_ne hji] at hr
      exact h.complete j id rows hd hr n c hc hlive
  · rcases hopened j id hj with hbefore|⟨hji,hid⟩
    · rcases hopened k id hk with hbefore'|⟨hki,hid⟩
      · exact h.alone j k id hne hbefore hbefore'
      · exact halone j (hki ▸ hne) (hid ▸ hbefore)
    · rcases hopened k id hk with hbefore'|⟨hki,_⟩
      · exact halone k (hji ▸ Ne.symm hne) (hid ▸ hbefore')
      · exact hne (hji.trans hki.symm)

/-- Locking codes keeps the invariant when the next control state is justified. -/
theorem Apart.lockRows (h : Apart cells noted history states) (hg : Leaves q g)
    (hr : ready i rows cells=true) {s : Stage} (hnoted : ∀ j,j≠i → noted' j=noted j)
    (hi : ∀ userId,states i≠.inserted userId)
    (hs : s=.holding ∨ ∃ userId,s=.retired userId ∧ Opened noted states i userId ∧
      (∀ c∈lockRows i rows q g cells,competes i userId c=false) ∧ Unended history' i userId)
    (htold : ∀ j userId,j≠i → Unended history j userId → Unended history' j userId) :
    Apart (lockRows i rows q g cells) noted' history' (Function.update states i s) := by
  have hother : ∀ {j t},Function.update states i s j=t → j≠i → states j=t := by
    intro j t ht hj
    rwa [Function.update_of_ne hj] at ht
  have hidle : s≠.idle := by
    rcases hs with rfl|⟨_,rfl,_⟩
    · rintro ⟨⟩
    · rintro ⟨⟩
  have hnext : ∀ {userId},s≠.deciding userId ∧ s≠.inserted userId := by
    intro userId
    rcases hs with rfl|⟨_,rfl,_⟩
    · exact ⟨by rintro ⟨⟩,by rintro ⟨⟩⟩
    · exact ⟨by rintro ⟨⟩,by rintro ⟨⟩⟩
  have hopened : ∀ j id,Opened noted' (Function.update states i s) j id →
      Opened noted states j id := by
    intro j id hj
    by_cases hji : j=i
    · subst hji
      unfold Opened at hj
      rw [Function.update_self] at hj
      rcases hj with ⟨hd,_⟩|hd|hd
      · exact absurd hd hnext.1
      · rcases hs with rfl|⟨id',rfl,hopen,_⟩
        · cases hd
        · cases hd
          exact hopen
      · exact absurd hd hnext.2
    · exact hj.of_update hji (hnoted j hji)
  -- an unused version that the statement leaves was unused before
  have hversion : ∀ {c : Cell PasswordResetToken} {r userId},c.view i=some r → q r=true →
      (g r).any (live userId)=true → c.free i=true →
      (c.holder=none ∧ c.committed.any (live userId)=true) ∨
        (c.holder=some i ∧ c.working.any (live userId)=true) := by
    intro c r userId hview hq hlive hfree
    obtain ⟨r',hr',huser,hused⟩ := hg r hq
    rw [hr',Option.any_some] at hlive
    have hbefore := live_before huser hused hlive
    rcases free_view hfree hview with ⟨hnone,hcommitted⟩|⟨hheld,hworking⟩
    · exact .inl ⟨hnone,by rw [hcommitted,Option.any_some,hbefore]⟩
    · exact .inr ⟨hheld,by rw [hworking,Option.any_some,hbefore]⟩
  refine ⟨h.one.lockRows hg hr,fun c' hc' hnone => ?_,fun j hj c' hc' => ?_,
    fun c' hc' j id hholder hlive => ?_,fun j id noteds hd hn n c' hc' hlive => ?_,
    fun j k id hne hj hk => h.alone j k id hne (hopened j id hj) (hopened k id hk),
    fun j id hd c' hc' => ?_,fun j id hd => ?_,fun j id hd => ?_⟩
  · obtain ⟨n,hn⟩ := List.mem_iff_getElem?.mp hc'
    obtain ⟨c,hc,⟨rfl,_⟩|⟨_,_,r,_,_,rfl⟩⟩ := lockRows_cases hr hn
    · exact h.free c' (List.mem_of_getElem? hc) hnone
    · cases hnone
  · have hji : j≠i := by
      rintro rfl
      rw [Function.update_self] at hj
      rcases hj with hj|⟨id,hj⟩
      · exact hidle hj
      · exact hnext.1 hj
    rw [Function.update_of_ne hji] at hj
    obtain ⟨n,hn⟩ := List.mem_iff_getElem?.mp hc'
    obtain ⟨c,hc,⟨rfl,_⟩|⟨_,_,r,_,_,rfl⟩⟩ := lockRows_cases hr hn
    · exact h.fresh j hj c' (List.mem_of_getElem? hc)
    · exact fun hsame => hji (Option.some.inj hsame).symm
  · obtain ⟨n,hn⟩ := List.mem_iff_getElem?.mp hc'
    obtain ⟨c,hc,⟨rfl,_⟩|⟨_,hfree,r,hview,hq,rfl⟩⟩ := lockRows_cases hr hn
    · rcases h.source c' (List.mem_of_getElem? hc) j id hholder hlive with hcommitted|hinserted
      · exact .inl hcommitted
      · refine .inr ?_
        rwa [Function.update_of_ne]
        rintro rfl
        exact hi id hinserted
    · refine .inl ?_
      rcases hversion hview hq hlive hfree with ⟨_,hcommitted⟩|⟨hheld,hworking⟩
      · exact hcommitted
      · exact (h.source c (List.mem_of_getElem? hc) i id hheld hworking).resolve_right (hi id)
  · have hji : j≠i := by
      rintro rfl
      rw [Function.update_self] at hd
      exact hnext.1 hd
    have hcommitted : ∃ c,cells[n]?=some c ∧ c.committed=c'.committed := by
      obtain ⟨c,hc,⟨rfl,_⟩|⟨_,_,r,_,_,rfl⟩⟩ := lockRows_cases hr hc'
      · exact ⟨c',hc,rfl⟩
      · exact ⟨c,hc,rfl⟩
    obtain ⟨c,hc,hsame⟩ := hcommitted
    exact h.complete j id noteds (hother hd hji) (hnoted j hji ▸ hn) n c hc (hsame ▸ hlive)
  · by_cases hji : j=i
    · subst hji
      rw [Function.update_self] at hd
      rcases hs with rfl|⟨id',rfl,_,hcompetes,_⟩
      · cases hd
      · cases hd
        exact hcompetes c' hc'
    · have hbefore := h.retired j id (hother hd hji)
      obtain ⟨n,hn⟩ := List.mem_iff_getElem?.mp hc'
      obtain ⟨c,hc,⟨rfl,_⟩|⟨_,hfree,r,hview,hq,rfl⟩⟩ := lockRows_cases hr hn
      · exact hbefore c' (List.mem_of_getElem? hc)
      · obtain ⟨hcommitted,hworking⟩ := competes_eq_false_iff.mp
          (hbefore c (List.mem_of_getElem? hc))
        have hholder : c.holder≠some j := by
          rcases free_view hfree hview with ⟨hnone,_⟩|⟨hheld,_⟩
          · rw [hnone]
            exact (Option.some_ne_none j).symm
          · rw [hheld]
            exact fun hsame => hji (Option.some.inj hsame).symm
        refine competes_eq_false_iff.mpr ⟨fun _ => hcommitted hholder,fun hlive => ?_⟩
        rcases hversion hview hq hlive hfree with ⟨_,hlive⟩|⟨_,hlive⟩
        · exact hcommitted hholder hlive
        · exact hworking hlive
  · by_cases hji : j=i
    · subst hji
      rw [Function.update_self] at hd
      rcases hs with rfl|⟨id',rfl,_,_,hunended⟩
      · rcases hd with hd|hd <;> cases hd
      · rcases hd with hd|hd
        · cases hd
          exact hunended
        · cases hd
    · rw [Function.update_of_ne hji] at hd
      exact htold j id hji (h.told j id hd)
  · have hji : j≠i := by
      rintro rfl
      rw [Function.update_self] at hd
      exact hnext.2 hd
    obtain ⟨c,hc,hheld⟩ := h.holds j id (hother hd hji)
    obtain ⟨n,hn⟩ := List.mem_iff_getElem?.mp hc
    refine ⟨c,List.mem_of_getElem? (i := n) ?_,hheld⟩
    rw [getElem?_lockRows,hn,Option.map_some]
    by_cases hmem : n∈rows
    · have hfree := free_of_ready hr hmem hn
      rw [Cell.free,hheld,Option.all_some,beq_iff_eq] at hfree
      exact absurd hfree hji
    · rw [if_neg hmem]

/-- The retirement takes every committed unused code of the user, and no other
request holds one. -/
theorem Apart.retire (h : Apart cells noted history states) (hs : states i=.deciding userId)
    (hrows : noted i=some rows) (hr : ready i rows cells=true) {now : Instant}
    (hnoted : ∀ j,j≠i → noted' j=noted j) (htold : Unended history' i userId)
    (hothers : ∀ j id,j≠i → Unended history j id → Unended history' j id) :
    Apart (RowLocking.lockRows i rows (live userId)
        (fun r => some ({r with usedAt := some now} : PasswordResetToken)) cells) noted' history'
      (Function.update states i (.retired userId)) := by
  have hopen : Opened noted states i userId := .inl ⟨hs,by rw [hrows]; rintro ⟨⟩⟩
  have hunheld : ∀ c∈cells,c.holder≠some i := h.fresh i (.inr ⟨userId,hs⟩)
  refine h.lockRows (keeps_retire _ now).leaves hr hnoted (fun id hid => ?_)
    (.inr ⟨userId,rfl,hopen,fun c' hc' => ?_,htold⟩) hothers
  · rw [hs] at hid
    cases hid
  obtain ⟨n,hn⟩ := List.mem_iff_getElem?.mp hc'
  obtain ⟨c,hc,⟨rfl,hkept⟩|⟨_,_,r,_,_,rfl⟩⟩ := lockRows_cases hr hn
  · -- a code that was left alone was not unused
    have hmem : c'∈cells := List.mem_of_getElem? hc
    have hcommitted : ¬c'.committed.any (live userId)=true := by
      intro hlive
      have hnoted := h.complete i userId rows hs hrows n c' hc hlive
      obtain ⟨r,hr,hq⟩ := (Option.any_eq_true _ _).mp hlive
      have hview : c'.view i=some r := by
        rw [Cell.view,if_neg (hunheld c' hmem)]
        exact hr
      exact absurd hq (Bool.eq_false_iff.mp (hkept hnoted r hview))
    refine competes_eq_false_iff.mpr ⟨fun _ => hcommitted,fun hlive => ?_⟩
    cases hholder : c'.holder with
    | none =>
      rw [h.free c' hmem hholder] at hlive
      exact Bool.false_ne_true hlive
    | some j =>
      rcases h.source c' hmem j userId hholder hlive with hcommitted'|hinserted
      · exact hcommitted hcommitted'
      · have hij : i≠j := by
          rintro rfl
          exact hunheld c' hmem hholder
        exact h.alone i j userId hij hopen (.inr (.inr hinserted))
  · refine competes_eq_false_iff.mpr ⟨fun hne => absurd rfl hne,?_⟩
    simp [live]

/-- The new code is inserted where nothing competes with it. -/
theorem Apart.insert (h : Apart cells noted history states) {row : PasswordResetToken}
    (hs : states i=.retired row.userId)
    (htold : ∀ j id,Unended history j id → Unended history' j id) :
    Apart (cells++[⟨none,some i,some row⟩]) noted history'
      (Function.update states i (.inserted row.userId)) := by
  have hopened : ∀ j id,Opened noted (Function.update states i (.inserted row.userId)) j id →
      Opened noted states j id := by
    intro j id hj
    by_cases hji : j=i
    · subst hji
      unfold Opened at hj
      rw [Function.update_self] at hj
      rcases hj with ⟨hd,_⟩|hd|hd
      · cases hd
      · cases hd
      · cases hd
        exact .inr (.inl hs)
    · exact hj.of_update hji rfl
  have hopen : Opened noted states i row.userId := .inr (.inl hs)
  have hmem : ∀ {c : Cell PasswordResetToken},c∈cells++[⟨none,some i,some row⟩] →
      c∈cells ∨ c=⟨none,some i,some row⟩ := fun hc =>
    (List.mem_append.mp hc).imp_right List.mem_singleton.mp
  refine ⟨h.one.append (h.retired i row.userId hs),fun c hc hnone => ?_,fun j hj c hc => ?_,
    fun c hc j id hholder hlive => ?_,fun j id rows hd hn n c hc hlive => ?_,
    fun j k id hne hj hk => h.alone j k id hne (hopened j id hj) (hopened k id hk),
    fun j id hd c hc => ?_,fun j id hd => ?_,fun j id hd => ?_⟩
  · rcases hmem hc with hc|rfl
    · exact h.free c hc hnone
    · cases hnone
  · have hji : j≠i := by
      rintro rfl
      rw [Function.update_self] at hj
      rcases hj with hj|⟨_,hj⟩ <;> cases hj
    rw [Function.update_of_ne hji] at hj
    rcases hmem hc with hc|rfl
    · exact h.fresh j hj c hc
    · exact fun hsame => hji (Option.some.inj hsame).symm
  · rcases hmem hc with hc|rfl
    · rcases h.source c hc j id hholder hlive with hcommitted|hinserted
      · exact .inl hcommitted
      · refine .inr ?_
        rwa [Function.update_of_ne]
        rintro rfl
        rw [hs] at hinserted
        cases hinserted
    · obtain rfl : i=j := Option.some.inj hholder
      simp only [live,Option.any_some,Bool.and_eq_true,beq_iff_eq] at hlive
      exact .inr (by rw [Function.update_self,hlive.1])
  · obtain ⟨hji,hd⟩ := of_update hd (by rintro ⟨⟩)
    rcases Nat.lt_or_ge n cells.length with hlt|hge
    · rw [List.getElem?_append_left hlt] at hc
      exact h.complete j id rows hd hn n c hc hlive
    · rw [List.getElem?_append_right hge] at hc
      obtain rfl := List.mem_singleton.mp (List.mem_of_getElem? hc)
      exact absurd hlive Bool.false_ne_true
  · obtain ⟨hji,hd⟩ := of_update hd (by rintro ⟨⟩)
    rcases hmem hc with hc|rfl
    · exact h.retired j id hd c hc
    · refine competes_eq_false_iff.mpr ⟨fun _ => Bool.false_ne_true,fun hlive => ?_⟩
      simp only [live,Option.any_some,Bool.and_eq_true,beq_iff_eq] at hlive
      exact h.alone i j row.userId (Ne.symm hji) hopen (.inr (.inl (hlive.1 ▸ hd)))
  · refine htold j id (h.told j id ?_)
    by_cases hji : j=i
    · subst hji
      rw [Function.update_self] at hd
      rcases hd with hd|hd
      · cases hd
      · cases hd
        exact .inl hs
    · rwa [Function.update_of_ne hji] at hd
  · by_cases hji : j=i
    · subst hji
      exact ⟨_,List.mem_append_right _ (List.mem_singleton_self _),rfl⟩
    · rw [Function.update_of_ne hji] at hd
      obtain ⟨c,hc,hheld⟩ := h.holds j id hd
      exact ⟨c,List.mem_append_left _ hc,hheld⟩

/-- A transaction ends: the codes it held are left in their committed version
or in its own. -/
theorem Apart.close (h : Apart cells noted history states)
    {f : Cell PasswordResetToken → Cell PasswordResetToken} (hone : OneLive (cells.map f))
    (hkept : ∀ c,c.holder≠some i → f c=c)
    (hended : ∀ c,c.holder=some i → (f c).holder=none ∧ (f c).working=none ∧
      ((f c).committed=c.committed ∨ (f c).committed=c.working))
    (hnoted : ∀ j,j≠i → noted' j=noted j)
    (htold : ∀ j id,j≠i → Unended history j id → Unended history' j id) :
    Apart (cells.map f) noted' history' (Function.update states i .idle) := by
  have hopened : ∀ {j id},Opened noted' (Function.update states i .idle) j id →
      j≠i ∧ Opened noted states j id := by
    intro j id hj
    have hji : j≠i := by
      rintro rfl
      unfold Opened at hj
      rw [Function.update_self] at hj
      rcases hj with ⟨hd,_⟩|hd|hd <;> cases hd
    exact ⟨hji,hj.of_update hji (hnoted j hji)⟩
  have hheld : ∀ {c : Cell PasswordResetToken} {j},(f c).holder=some j →
      j≠i ∧ f c=c ∧ c.holder=some j := by
    intro c j hj
    by_cases hc : c.holder=some i
    · rw [(hended c hc).1] at hj
      cases hj
    · rw [hkept c hc] at hj
      refine ⟨?_,hkept c hc,hj⟩
      rintro rfl
      exact hc hj
  refine ⟨hone,fun c' hc' hnone => ?_,fun j hj c' hc' hholder => ?_,
    fun c' hc' j id hholder hlive => ?_,fun j id rows hd hn n c' hc' hlive => ?_,
    fun j k id hne hj hk => h.alone j k id hne (hopened hj).2 (hopened hk).2,
    fun j id hd c' hc' => ?_,fun j id hd => ?_,fun j id hd => ?_⟩
  · obtain ⟨c,hc,rfl⟩ := List.mem_map.mp hc'
    by_cases hi : c.holder=some i
    · exact (hended c hi).2.1
    · rw [hkept c hi] at hnone ⊢
      exact h.free c hc hnone
  · obtain ⟨c,hc,rfl⟩ := List.mem_map.mp hc'
    obtain ⟨hji,_,hbefore⟩ := hheld hholder
    rw [Function.update_of_ne hji] at hj
    exact h.fresh j hj c hc hbefore
  · obtain ⟨c,hc,rfl⟩ := List.mem_map.mp hc'
    obtain ⟨hji,hsame,hbefore⟩ := hheld hholder
    rw [hsame] at hlive ⊢
    rw [Function.update_of_ne hji]
    exact h.source c hc j id hbefore hlive
  · obtain ⟨hji,hd⟩ := of_update hd (by rintro ⟨⟩)
    rw [hnoted j hji] at hn
    rw [List.getElem?_map] at hc'
    obtain ⟨c,hc,rfl⟩ := Option.map_eq_some_iff.mp hc'
    refine h.complete j id rows hd hn n c hc ?_
    by_cases hi : c.holder=some i
    · rcases (hended c hi).2.2 with hcommitted|hworking
      · rwa [hcommitted] at hlive
      · rw [hworking] at hlive
        rcases h.source c (List.mem_of_getElem? hc) i id hi hlive with hcommitted|hinserted
        · exact hcommitted
        · -- the committed code would be one of a request that overlaps
          refine absurd (.inr (.inr hinserted)) (h.alone j i id hji (.inl ⟨hd,?_⟩))
          rw [hn]
          rintro ⟨⟩
    · rwa [hkept c hi] at hlive
  · obtain ⟨hji,hd⟩ := of_update hd (by rintro ⟨⟩)
    obtain ⟨c,hc,rfl⟩ := List.mem_map.mp hc'
    have hbefore := h.retired j id hd c hc
    by_cases hi : c.holder=some i
    · obtain ⟨hcommitted,hworking⟩ := competes_eq_false_iff.mp hbefore
      have hij : c.holder≠some j := fun hj => hji (Option.some.inj (hj.symm.trans hi))
      obtain ⟨_,hnone,hleft⟩ := hended c hi
      refine competes_eq_false_iff.mpr ⟨fun _ => ?_,?_⟩
      · rcases hleft with hleft|hleft
        · rw [hleft]
          exact hcommitted hij
        · rw [hleft]
          exact hworking
      · rw [hnone]
        exact Bool.false_ne_true
    · rw [hkept c hi]
      exact hbefore
  · have hji : j≠i := by
      rintro rfl
      rw [Function.update_self] at hd
      rcases hd with hd|hd <;> cases hd
    rw [Function.update_of_ne hji] at hd
    exact htold j id hji (h.told j id hd)
  · obtain ⟨hji,hd⟩ := of_update hd (by rintro ⟨⟩)
    obtain ⟨c,hc,hheld⟩ := h.holds j id hd
    refine ⟨c,List.mem_map.mpr ⟨c,hc,hkept c ?_⟩,hheld⟩
    exact fun hi => hji (Option.some.inj (hheld.symm.trans hi))

/-- The requests of one user stay apart over a COMMIT. -/
theorem Apart.settle (h : Apart cells noted history states)
    (hnoted : ∀ j,j≠i → noted' j=noted j)
    (htold : ∀ j id,j≠i → Unended history j id → Unended history' j id) :
    Apart (cells.map (·.settle i)) noted' history' (Function.update states i .idle) := by
  refine h.close (h.one.settle i) (fun c hc => if_neg hc) (fun c hc => ?_) hnoted htold
  rw [Cell.settle,if_pos hc]
  exact ⟨rfl,rfl,.inr rfl⟩

/-- The requests of one user stay apart over a ROLLBACK. -/
theorem Apart.release (h : Apart cells noted history states)
    (hnoted : ∀ j,j≠i → noted' j=noted j)
    (htold : ∀ j id,j≠i → Unended history j id → Unended history' j id) :
    Apart (cells.map (·.release i)) noted' history' (Function.update states i .idle) := by
  refine h.close (h.one.release i) (fun c hc => if_neg hc) (fun c hc => ?_) hnoted htold
  rw [Cell.release,if_pos hc]
  exact ⟨rfl,rfl,.inl rfl⟩

end Invariants

section Waiting

/-- Requests wait for rows in statements that lock them. -/
def Waiting (sys : AuthSystem) : Prop :=
  ∀ i,sys.shared.tables.noted i≠none →
    ∃ stmt k,sys.procs[i]?=some (some (.call (.sql stmt) k)) ∧ Tables.Locks stmt

variable {sys next : AuthSystem} {mv : AuthMove}

/-- What a move leaves noted for other requests. -/
theorem Waiting.of_others (h : Waiting sys) {i : ℕ}
    (hnoted : ∀ j,j≠i → next.shared.tables.noted j=sys.shared.tables.noted j)
    (hself : next.shared.tables.noted i=none)
    (hprocs : ∀ j,j≠i → next.procs[j]?=sys.procs[j]?) : Waiting next := by
  intro j hj
  have hji : j≠i := by
    rintro rfl
    exact hj hself
  obtain ⟨stmt,k,hp,hlocks⟩ := h j (hnoted j hji ▸ hj)
  exact ⟨stmt,k,(hprocs j hji).trans hp,hlocks⟩

/-- A request that asks for anything else has noted nothing. -/
theorem Waiting.unnoted (h : Waiting sys) {i : ℕ} {op : Effect} {k : op.Reply → Action Served}
    (hp : sys.procs[i]?=some (some (.call op k)))
    (hop : ∀ stmt,op=.sql stmt → ¬Tables.Locks stmt) : sys.shared.tables.noted i=none := by
  by_contra hnoted
  obtain ⟨stmt,k',hp',hlocks⟩ := h i hnoted
  rw [hp] at hp'
  cases hp'
  exact hop stmt rfl hlocks

/-- A step lets requests wait in statements that lock rows only. -/
theorem Waiting.step (h : Waiting sys) (hs : authMachine.step sys mv=some next) :
    Waiting next := by
  have hrelease : ∀ (sys : AuthSystem) (i : ℕ),Waiting sys → ∀ procs,
      (∀ j,j≠i → procs[j]?=sys.procs[j]?) →
      Waiting {sys with shared := authMachine.close i sys.shared,procs := procs} :=
    fun sys i hsys procs hprocs =>
      hsys.of_others (fun j hj => Function.update_of_ne hj _ _) (Function.update_self _ _ _) hprocs
  cases mv with
  | effect i c =>
    obtain ⟨op,k,hp,⟨s,hf,rfl⟩|⟨r,s,hf,rfl⟩⟩ := Machine.step_effect hs
    · cases op with
      | external op => cases (fire_external hf).1
      | sql stmt =>
        obtain ⟨hothers,hlocks,_⟩ := Tables.fire_noted (fire_sql hf).1
        intro j hj
        by_cases hji : j=i
        · subst hji
          exact ⟨stmt,k,hp,hlocks rfl⟩
        · exact h j (hothers j hji ▸ hj)
    · have hprocs : ∀ j,j≠i → (sys.procs.set i (some (k r)))[j]?=sys.procs[j]? :=
        fun j hj => List.getElem?_set_ne (Ne.symm hj)
      cases op with
      | external op =>
        obtain ⟨_,rfl⟩ := fire_external hf
        exact h.of_others (fun _ _ => rfl) (h.unnoted hp (by rintro _ ⟨⟩)) hprocs
      | sql stmt =>
        obtain ⟨hothers,_,hself⟩ := Tables.fire_noted (fire_sql hf).1
        refine h.of_others hothers (hself (by rintro ⟨⟩) ?_) hprocs
        by_cases hlocks : Tables.Locks stmt
        · exact .inl hlocks
        · refine .inr (h.unnoted hp ?_)
          rintro _ ⟨⟩
          exact hlocks
  | finish i =>
    simp only [Machine.step] at hs
    split at hs
    · cases hs
      exact hrelease sys i h sys.procs fun _ _ => rfl
    · cases hs
  | kill i =>
    simp only [Machine.step] at hs
    split at hs
    · cases hs
      exact hrelease sys i h _ fun j hj => List.getElem?_set_ne (Ne.symm hj)
    · cases hs
  | spawn p =>
    cases hs
    intro j hj
    obtain ⟨stmt,k,hp,hlocks⟩ := h j hj
    exact ⟨stmt,k,(List.getElem?_append_left (List.getElem?_eq_some_iff.mp hp).1).trans hp,hlocks⟩

/-- In a run from idle tables the condition may count on it before every move. -/
theorem reaches_waiting {C : AuthSystem → AuthMove → Prop} {env : Environment}
    {db : Database authSchema} (h : authMachine.Reaches C (idleSystem env db) sys) :
    authMachine.Reaches (fun sys mv => C sys mv ∧ Waiting sys) (idleSystem env db) sys ∧
      Waiting sys := by
  induction h with
  | refl => exact ⟨.refl,fun _ hnoted => absurd rfl hnoted⟩
  | step mv _ hc hs ih => exact ⟨.step mv ih.1 ⟨hc,ih.2⟩ hs,ih.2.step hs⟩

end Waiting

section Overlaps

/-- The request is on its way from the look at the old codes of the user to the
end of its transaction: it waits in the retirement, or has retired them and
still runs or holds a code. -/
def Overlaps (sys : AuthSystem) (j : ℕ) (userId : UUID) : Prop :=
  (sys.shared.tables.noted j≠none ∧
      ∃ op k,sys.procs[j]?=some (some (.call op k)) ∧ Retires userId op) ∨
    (Unended sys.history j userId ∧ ((∃ op k,sys.procs[j]?=some (some (.call op k))) ∨
      ∃ c∈sys.shared.tables.cells .passwordResetTokens,c.holder=some j))

/-- When a request looks at the old codes of a user, no other request of the
user is between its own look and the end of its transaction. -/
def RetiresApart (sys : AuthSystem) : AuthMove → Prop
  | .effect i _ => sys.shared.tables.noted i=none → ∀ userId op k,
    sys.procs[i]?=some (some (.call op k)) → Retires userId op →
    ∀ j,j≠i → ¬Overlaps sys j userId
  | _ => True

/-- Every effect has some reply. -/
theorem exists_reply (op : Effect) : Nonempty op.Reply := by
  cases op with
  | external op => exact ⟨((⟨fun _ => none,0,0,[],[]⟩ : Environment).perform op 0).1⟩
  | sql stmt => exact ⟨(Transaction.perform stmt ⟨fun _ => [],fun _ => []⟩).1⟩

/-- A request that decides asks for the retirement. -/
theorem retires_of_moves {s : Stage} {userId : UUID} {op : Effect} {r : op.Reply}
    (h : moves (.deciding userId) op r s) : Retires userId op ∧ s=.retired userId := by
  have hnot : ∀ {P : Prop},(∀ id,Stage.deciding userId≠.deciding id) ∧ P → False :=
    fun hmoves => hmoves.1 userId rfl
  have hloose : ¬Loose (.deciding userId) := fun hl => hl.ne_deciding userId rfl
  cases op with
  | external op =>
    cases op with
    | _ => exact (hnot h).elim
  | sql stmt =>
    cases stmt with
    | select t q => exact (hnot h).elim
    | selectForUpdate t q =>
      cases t with
      | passwordResetTokens => exact absurd h.1 hloose
      | _ => exact (hnot h).elim
    | insert t row =>
      cases t with
      | passwordResetTokens => exact Stage.noConfusion h.1
      | _ => exact (hnot h).elim
    | update t q f =>
      cases t with
      | passwordResetTokens =>
        rcases h with ⟨hl,_⟩|⟨id,hid,hretires,hs⟩
        · exact absurd hl hloose
        · cases hid
          exact ⟨hretires,hs⟩
      | _ => exact (hnot h).elim
    | delete t q =>
      cases t with
      | passwordResetTokens => exact h.elim
      | _ => exact (hnot h).elim
    | commit => exact (hnot h).elim
    | rollback => exact (hnot h).elim

variable {p : Action Served} {s : Stage}

/-- A request that is not settled still runs. -/
theorem call_of_follows (h : p.Follows protocol s fun s _ => Settled s) (hs : ¬Settled s) :
    ∃ op k,p=.call op k := by
  cases p with
  | pure a => exact absurd h hs
  | raise e => exact absurd h hs
  | call op k => exact ⟨op,k,rfl⟩

/-- The processes of a run with their control states. -/
abbrev Tracked (sys : AuthSystem) (states : ℕ → Stage) : Prop :=
  Tracks protocol .idle (fun s _ => Settled s)
    (fun s history states => Apart (s.tables.cells .passwordResetTokens) s.tables.noted history
      states) sys states

variable {sys : AuthSystem} {states : ℕ → Stage} {userId : UUID} {j : ℕ}

/-- A request that has begun is there and runs. -/
theorem Tracked.call (ht : Tracked sys states) (hb : Buried (·=.idle) sys states)
    (hs : ¬Settled (states j)) : ∃ op k,sys.procs[j]?=some (some (.call op k)) := by
  have hidle : Settled .idle := fun _ => ⟨by rintro ⟨⟩,by rintro ⟨⟩⟩
  cases hj : sys.procs[j]? with
  | none => exact absurd (ht.unborn j (List.getElem?_eq_none_iff.mp hj) ▸ hidle) hs
  | some o =>
    cases o with
    | none => exact absurd ((hb j hj).symm ▸ hidle) hs
    | some p =>
      obtain ⟨op,k,rfl⟩ := call_of_follows (ht.follows j p hj) hs
      exact ⟨op,k,rfl⟩

/-- A request that decides is about to retire the codes of the user. -/
theorem Tracked.retires (ht : Tracked sys states) (hs : states j=.deciding userId) {op : Effect}
    {k : op.Reply → Action Served} (hp : sys.procs[j]?=some (some (.call op k))) :
    Retires userId op := by
  obtain ⟨r⟩ := exists_reply op
  obtain ⟨s',hmoves,_⟩ := ht.follows j _ hp r trivial
  rw [hs] at hmoves
  exact (retires_of_moves hmoves).1

/-- Open requests of a user overlap. -/
theorem Tracked.overlaps (ht : Tracked sys states) (hb : Buried (·=.idle) sys states)
    (h : Opened sys.shared.tables.noted states j userId) : Overlaps sys j userId := by
  rcases h with ⟨hs,hnoted⟩|hs|hs
  · obtain ⟨op,k,hp⟩ := ht.call hb fun hsettled => (hsettled userId).1 hs
    exact .inl ⟨hnoted,op,k,hp,ht.retires hs hp⟩
  · exact .inr ⟨ht.inv.told j userId (.inl hs),
      .inl (ht.call hb fun hsettled => (hsettled userId).2 hs)⟩
  · exact .inr ⟨ht.inv.told j userId (.inr hs),.inr (ht.inv.holds j userId hs)⟩

end Overlaps

section Runs

variable {i : ℕ} {s s' : Tables authSchema} {noted : ℕ → Option (List ℕ)}
  {history : List (Event authSignature)} {states : ℕ → Stage} {t : Stage}

/-- An answered update had noted the rows it changes. -/
theorem update_noted {u : Table} {q : authSchema.Row u → Bool}
    {f : authSchema.Row u → authSchema.Row u} {n : ℕ}
    (h : s.fire i (.update u q f)=some (some n,s')) : ∃ rows,s.noted i=some rows ∧
      ready i rows (s.cells u)=true ∧
      s'.cells=(s.write u (lockRows i rows q (fun r => some (f r)) (s.cells u))).cells := by
  obtain ⟨⟨reply,s₁⟩,hl,hr⟩ := Option.map_eq_some_iff.mp h
  cases reply with
  | none => cases hr
  | some found =>
    cases hr
    rcases Tables.locking_noted hl with ⟨⟨⟩,_⟩|⟨rows,hrows,hready,_,hcells,_⟩
    exact ⟨rows,hrows,hready,hcells⟩

/-- What an answered statement does to the codes and to the requests. -/
theorem apart_statement {stmt : Statement authSchema} {reply : stmt.Reply}
    (h : Apart (s.cells .passwordResetTokens) s.noted history states)
    (hm : moves (states i) (.sql stmt) reply t) (hf : s.fire i stmt=some (some reply,s'))
    (hunnoted : ¬Tables.Locks stmt → s.noted i=none) :
    Apart (s'.cells .passwordResetTokens) s'.noted (⟨i,.sql stmt,reply⟩::history)
      (Function.update states i t) := by
  obtain ⟨hothers,_,hself⟩ := Tables.fire_noted hf
  have hforgotten : s'.noted i=none := hself (by rintro ⟨⟩) (by
    by_cases hlocks : Tables.Locks stmt
    · exact .inl hlocks
    · exact .inr (hunnoted hlocks))
  have htold : ∀ j id,j≠i → Unended history j id →
      Unended (⟨i,.sql stmt,reply⟩::history) j id :=
    fun j id hj hold => hold.cons fun hpid => absurd hpid.symm hj
  have hcells : ∀ {cells : CodeCells},s'.cells .passwordResetTokens=cells →
      Apart cells s'.noted (⟨i,.sql stmt,reply⟩::history) (Function.update states i t) →
      Apart (s'.cells .passwordResetTokens) s'.noted (⟨i,.sql stmt,reply⟩::history)
        (Function.update states i t) := fun hsame hcells => hsame ▸ hcells
  -- a statement elsewhere leaves its request where it is
  have hstay : stmt≠.commit → stmt≠.rollback →
      s'.cells .passwordResetTokens=s.cells .passwordResetTokens →
      ((∀ id,states i≠.deciding id) ∧ t=states i) →
      Apart (s'.cells .passwordResetTokens) s'.noted (⟨i,.sql stmt,reply⟩::history)
        (Function.update states i t) := by
    rintro hcommit hrollback hsame ⟨hdeciding,rfl⟩
    rw [Function.update_eq_self,hsame]
    refine h.stay (fun j id hj => hothers j ?_) fun j id _ hold => hold.cons fun _ => ⟨?_,?_⟩
    · rintro rfl
      exact hdeciding id hj
    · exact fun he => hcommit (Effect.sql.inj he)
    · exact fun he => hrollback (Effect.sql.inj he)
  have hloose : Loose (states i) → ∀ id,states i≠.inserted id := by
    rintro (hs|hs) id hid
    · cases hs.symm.trans hid
    · cases hs.symm.trans hid
  cases stmt with
  | select u q =>
    cases hf
    exact hstay (by rintro ⟨⟩) (by rintro ⟨⟩) rfl hm
  | selectForUpdate u q =>
    obtain ⟨rows,hr,rfl,hs⟩ := Tables.locking_answer hf
    cases u with
    | passwordResetTokens =>
      have hsame := congrFun hs .passwordResetTokens
      rw [Tables.write_cells_self (_ : Tables authSchema)] at hsame
      obtain ⟨hstates,rfl⟩ := hm
      exact hcells hsame (h.lockRows (leaves_some q) hr hothers (hloose hstates) (.inl rfl) htold)
    | _ =>
      exact hstay (by rintro ⟨⟩) (by rintro ⟨⟩)
        ((congrFun hs _).trans (Tables.write_cells_of_ne s _ (by rintro ⟨⟩))) hm
  | insert u row =>
    cases u with
    | passwordResetTokens =>
      obtain ⟨hstates,⟨hinserted,rfl⟩|⟨hrefused,rfl⟩⟩ := hm
      · rcases Tables.fire_insert_answer hf with ⟨hne,_⟩|⟨_,_,_,rfl⟩
        · exact absurd hinserted hne
        · rw [Tables.write_cells_self (_ : Tables authSchema)]
          exact h.insert hstates fun j id hold => hold.cons fun _ => ⟨by rintro ⟨⟩,by rintro ⟨⟩⟩
      · rcases Tables.fire_insert_answer hf with ⟨_,rfl⟩|⟨heq,_⟩
        · refine h.turn hothers hforgotten (.inl rfl) (fun id hid => ?_) htold
          cases hstates.symm.trans hid
        · exact absurd heq hrefused
    | _ =>
      rcases Tables.fire_insert_answer hf with ⟨_,rfl⟩|⟨_,_,_,rfl⟩
      · exact hstay (by rintro ⟨⟩) (by rintro ⟨⟩) rfl hm
      · exact hstay (by rintro ⟨⟩) (by rintro ⟨⟩)
          (Tables.write_cells_of_ne s _ (by rintro ⟨⟩)) hm
  | update u q f =>
    obtain ⟨rows,hrows,hr,hs⟩ := update_noted hf
    cases u with
    | passwordResetTokens =>
      have hsame := congrFun hs .passwordResetTokens
      rw [Tables.write_cells_self (_ : Tables authSchema)] at hsame
      rcases hm with ⟨hstates,hkeeps,rfl⟩|⟨userId,hstates,⟨now,hretires⟩,rfl⟩
      · exact hcells hsame
          (h.lockRows hkeeps.leaves hr hothers (hloose hstates) (.inl rfl) htold)
      · cases hretires
        exact hcells hsame (h.retire hstates hrows hr hothers
          ⟨[],_,history,rfl,rfl,⟨now,rfl⟩,by rintro _ ⟨⟩⟩ htold)
    | _ =>
      exact hstay (by rintro ⟨⟩) (by rintro ⟨⟩)
        ((congrFun hs _).trans (Tables.write_cells_of_ne s _ (by rintro ⟨⟩))) hm
  | delete u q =>
    obtain ⟨rows,hr,rfl,hs⟩ := Tables.fire_delete_answer hf
    cases u with
    | passwordResetTokens => exact hm.elim
    | _ =>
      exact hstay (by rintro ⟨⟩) (by rintro ⟨⟩)
        ((congrFun hs _).trans (Tables.write_cells_of_ne s _ (by rintro ⟨⟩))) hm
  | commit =>
    cases hf
    obtain ⟨_,rfl⟩ := hm
    exact h.settle hothers htold
  | rollback =>
    cases hf
    obtain ⟨_,rfl⟩ := hm
    exact h.release hothers htold

variable {d : Deployment} {sys : AuthSystem} {states : ℕ → Stage}

/-- A request begins to wait. -/
theorem apart_progress (ht : Tracked sys states) (hb : Buried (·=.idle) sys states) {c : ℕ}
    (hapart : RetiresApart sys (.effect i c)) {op : Effect} {k : op.Reply → Action Served}
    (hp : sys.procs[i]?=some (some (.call op k))) {s : Shared}
    (hf : authMachine.fire i op c sys.shared=some (none,s)) :
    Apart (s.tables.cells .passwordResetTokens) s.tables.noted sys.history states := by
  rw [(fire_progress hf).1]
  cases op with
  | external op => cases (fire_external hf).1
  | sql stmt =>
    have htables := (fire_sql hf).1
    by_cases hstates : ∃ userId,states i=.deciding userId
    · obtain ⟨userId,hs⟩ := hstates
      have hretires := ht.retires hs hp
      obtain ⟨now,hop⟩ := hretires
      cases hop
      obtain ⟨⟨reply,s₁⟩,hl,hr⟩ := Option.map_eq_some_iff.mp htables
      rcases Tables.locking_noted hl with ⟨rfl,hnone,hnoted⟩|⟨rows,_,_,rfl,_⟩
      · cases hr
        refine ht.inv.look hs hnoted fun j hj hopen => ?_
        exact hapart hnone userId _ k hp ⟨now,rfl⟩ j hj (ht.overlaps hb hopen)
      · cases hr
    · refine ht.inv.stay (fun j userId hj => (Tables.fire_noted htables).1 j ?_) fun _ _ _ h => h
      rintro rfl
      exact hstates ⟨userId,hj⟩

/-- What every kind of move has to keep for the unused codes. -/
theorem duties (d : Deployment) :
    MortalDuties authMachine protocol .idle (fun s _ => Settled s)
      (fun s history states => Apart (s.tables.cells .passwordResetTokens) s.tables.noted history
        states)
      (fun sys mv => (Starts d sys mv ∧ RetiresApart sys mv) ∧ Waiting sys) (fun _ => .idle)
      (·=.idle) := by
  constructor
  · rintro sys p ⟨⟨⟨client,rfl⟩,_⟩,_⟩
    exact follows_served d client
  · exact fun _ _ _ _ => ⟨by rintro ⟨⟩,by rintro ⟨⟩⟩
  · exact fun _ => rfl
  · exact fun sys states i op k c s ht hb hc hp hf => apart_progress ht hb hc.1.2 hp hf
  · exact fun _ _ _ _ _ _ _ _ _ _ _ _ _ => trivial
  · intro sys states i op k c r s t ht hb hc hp hm hf
    cases op with
    | external op =>
      obtain ⟨_,rfl⟩ := fire_external hf
      have hunnoted := hc.2.unnoted hp (by rintro _ ⟨⟩)
      have hcons : ∀ j id,Unended sys.history j id →
          Unended (⟨i,.external op,r⟩::sys.history) j id :=
        fun j id hold => hold.cons fun _ => ⟨by rintro ⟨⟩,by rintro ⟨⟩⟩
      have hstay : Apart (sys.shared.tables.cells .passwordResetTokens) sys.shared.tables.noted
          (⟨i,.external op,r⟩::sys.history) states :=
        ht.inv.stay (fun _ _ _ => rfl) fun j id _ => hcons j id
      cases op with
      | now =>
        obtain ⟨_,rfl|⟨hidle,userId,rfl⟩⟩ := hm
        · rw [Function.update_eq_self]
          exact hstay
        · refine ht.inv.turn (fun _ _ => rfl) hunnoted (.inr ⟨userId,hidle,rfl⟩) (fun id hid => ?_)
            fun j id _ => hcons j id
          cases hidle.symm.trans hid
      | _ =>
        obtain ⟨_,rfl⟩ := hm
        rw [Function.update_eq_self]
        exact hstay
    | sql stmt =>
      refine apart_statement ht.inv hm (fire_sql hf).1 fun hlocks => hc.2.unnoted hp ?_
      rintro _ ⟨⟩
      exact hlocks
  · exact fun sys states i ht _ _ =>
      ht.inv.release (fun j hj => Function.update_of_ne hj _ _) fun _ _ _ h => h

/-- Two rows of a list that passes a filter at most once are the same. -/
theorem eq_of_filter_length_le_one {α : Type} {P : α → Bool} {l : List α}
    (h : (l.filter P).length≤1) {n m : ℕ} {a b : α} (ha : l[n]?=some a) (hb : l[m]?=some b)
    (hpa : P a=true) (hpb : P b=true) : n=m := by
  induction l generalizing n m with
  | nil => simp at ha
  | cons x tail ih =>
    have hnone : P x=true → ∀ (j : ℕ) y, tail[j]?=some y → P y=true → False := by
      intro hx j y hy hpy
      have hmem : y∈tail.filter P := List.mem_filter.mpr ⟨List.mem_of_getElem? hy,hpy⟩
      have hpos := List.length_pos_of_mem hmem
      rw [List.filter_cons_of_pos hx,List.length_cons] at h
      omega
    have htail : (tail.filter P).length≤1 := by
      by_cases hx : P x=true
      · rw [List.filter_cons_of_pos hx,List.length_cons] at h
        omega
      · rwa [List.filter_cons_of_neg hx] at h
    cases n with
    | zero =>
      cases m with
      | zero => rfl
      | succ m =>
        obtain rfl : x=a := by simpa using ha
        exact (hnone hpa m b (by simpa using hb) hpb).elim
    | succ n =>
      cases m with
      | zero =>
        obtain rfl : x=b := by simpa using hb
        exact (hnone hpb n a (by simpa using ha) hpa).elim
      | succ m =>
        have hnm : n=m := ih htail (by simpa using ha) (by simpa using hb)
        omega

/-- Nothing is held before the first request. -/
theorem apart_idle {db : Database authSchema} (hdb : OneLiveCode (db .passwordResetTokens)) :
    Apart ((idleTables db).cells .passwordResetTokens) (idleTables db).noted [] fun _ => .idle := by
  have hidle : ∀ c∈(idleTables db).cells .passwordResetTokens,c.holder=none ∧ c.working=none := by
    intro c hc
    obtain ⟨_,_,rfl⟩ := List.mem_map.mp hc
    exact ⟨rfl,rfl⟩
  have hnone : ∀ c∈(idleTables db).cells .passwordResetTokens,∀ i,c.holder≠some i := by
    intro c hc i
    rw [(hidle c hc).1]
    exact (Option.some_ne_none i).symm
  constructor
  · intro S n m a b userId ha hb hla hlb
    have ha' := (mergedAt_idleTables S db .passwordResetTokens n).symm.trans ha
    have hb' := (mergedAt_idleTables S db .passwordResetTokens m).symm.trans hb
    exact eq_of_filter_length_le_one (hdb userId) ha' hb' hla hlb
  · exact fun c hc _ => (hidle c hc).2
  · exact fun i _ c hc => hnone c hc i
  · exact fun c hc i _ hi => absurd hi (hnone c hc i)
  · rintro _ _ _ ⟨⟩
  · rintro _ _ _ _ (⟨⟨⟩,_⟩|⟨⟨⟩⟩|⟨⟨⟩⟩)
  · rintro _ _ ⟨⟩
  · rintro _ _ (⟨⟨⟩⟩|⟨⟨⟩⟩)
  · rintro _ _ ⟨⟩

/-- Every user has at most one unused code in every committed state of every run
in which the requests of one user for a code do not overlap. -/
theorem one_live_code {d : Deployment} {env : Environment} {db : Database authSchema}
    {sys : AuthSystem} (hdb : OneLiveCode (db .passwordResetTokens))
    (h : authMachine.Reaches (fun sys mv => Starts d sys mv ∧ RetiresApart sys mv)
      (idleSystem env db) sys) :
    OneLiveCode (sys.shared.tables.committed .passwordResetTokens) := by
  have hstart : Tracked (idleSystem env db) fun _ => .idle := by
    refine ⟨apart_idle hdb,?_,fun _ _ => rfl⟩
    intro i p hp
    simp [idleSystem] at hp
  obtain ⟨states,ht,_⟩ := (duties d).reaches hstart (fun _ _ => rfl) (reaches_waiting h).1
  intro userId
  exact committed_filter_length_le_one sys.shared.tables .passwordResetTokens (live userId)
    fun i j a b ha hb hla hlb => ht.inv.one ∅ i j a b userId ha hb hla hlb

/-- Two requests for a code of the sample account; the second one retires the
codes it sees while the first one waits for the mail server. -/
def sampleOverlap : List Directive :=
  [.start (fromClient (.requestReset "a@b")),.start (fromClient (.requestReset "a@b")),.steps 0 9,
    .steps 1 3,.choose 1 1,.steps 1 8,.finish 1,.steps 0 3,.finish 0]

/-- Two overlapping requests of one user leave two live codes. -/
theorem two_live_codes : ∃ sys,
    Reached sampleDeployment sampleEnvironment (sampleDatabase [sampleUser] [] []) sys ∧
      ¬OneLiveCode (sys.shared.tables.committed .passwordResetTokens) := by
  have hrun : (follow sampleDeployment (fun _ _ => true) sampleEnvironment
      (sampleDatabase [sampleUser] [] []) sampleOverlap).any (fun sys =>
        ((sys.shared.tables.committed .passwordResetTokens).filter (live ⟨1⟩)).length=2)=true := by
    decide +kernel
  obtain ⟨sys,hsys,htwo⟩ := (Option.any_eq_true _ _).mp hrun
  refine ⟨sys,reached_of_follow hsys,fun h => ?_⟩
  have hone := h ⟨1⟩
  rw [of_decide_eq_true htwo] at hone
  exact absurd hone (by decide)

/-- The request has changed codes and has neither committed nor rolled back
since. -/
def unended (j : ℕ) : List (Event authSignature) → Bool
  | [] => false
  | e::older =>
    if e.pid=j then
      match e.op with
      | .sql .commit | .sql .rollback => false
      | .sql (.update .passwordResetTokens _ _) => true
      | _ => unended j older
    else unended j older

/-- The decidable check finds an open transaction. -/
theorem Unended.unended {history : List (Event authSignature)} {j : ℕ} {userId : UUID}
    (h : Unended history j userId) : LiveCodes.unended j history=true := by
  obtain ⟨newer,e,older,rfl,hpid,⟨now,hretires⟩,hnewer⟩ := h
  induction newer with
  | nil => simp [LiveCodes.unended,hpid,hretires]
  | cons e' newer ih =>
    have hrest := ih fun e'' he'' => hnewer e'' (List.mem_cons_of_mem _ he'')
    rw [List.cons_append,LiveCodes.unended]
    split
    · rename_i hj
      obtain ⟨hcommit,hrollback⟩ := hnewer e' List.mem_cons_self hj
      split
      · contradiction
      · contradiction
      · rfl
      · exact hrest
    · exact hrest

/-- The check that implies the condition. -/
def retiresApart (sys : AuthSystem) : AuthMove → Bool
  | .effect i _ =>
    match sys.procs[i]? with
    | some (some (.call (.sql (.update .passwordResetTokens _ _)) _)) =>
      ((List.range sys.procs.length).all fun j => j==i || (sys.shared.tables.noted j).isNone) &&
        sys.history.all fun e => e.pid==i || !unended e.pid sys.history
    | _ => true
  | _ => true

/-- The decidable check of a move gives the condition on it. -/
theorem retiresApart_of_check (sys : AuthSystem) (mv : AuthMove)
    (h : retiresApart sys mv=true) : RetiresApart sys mv := by
  cases mv with
  | effect i c =>
    rintro _ userId op k hp ⟨now,rfl⟩ j hj
    simp only [retiresApart,hp,Bool.and_eq_true,List.all_eq_true,Bool.or_eq_true,beq_iff_eq,
      Bool.not_eq_true',List.mem_range,Option.isNone_iff_eq_none] at h
    rintro (⟨hnoted,_,_,hcall,_⟩|⟨hunended,_⟩)
    · have hlt := (List.getElem?_eq_some_iff.mp hcall).1
      exact hnoted ((h.1 j hlt).resolve_left hj)
    · have htrue := hunended.unended
      obtain ⟨newer,e,older,hhistory,hpid,_⟩ := hunended
      have hmem : e∈sys.history := by
        rw [hhistory]
        exact List.mem_append_right _ List.mem_cons_self
      have hfalse := (h.2 e hmem).resolve_left (hpid ▸ hj)
      rw [hpid,htrue] at hfalse
      cases hfalse
  | _ => trivial

/-- Two requests for a code of the sample account; the second one has loaded the
account and drawn its code when the first one commits, and retires the code of
the first one. -/
def sampleTurns : List Directive :=
  [.start (fromClient (.requestReset "a@b")),.start (fromClient (.requestReset "a@b")),.steps 0 9,
    .steps 1 3,.choose 1 1,.steps 0 3,.finish 0,.steps 1 8,.finish 1]

/-- Two requests of one user in turn: two rows, one live code. -/
theorem one_live_code_turns : ∃ sys : AuthSystem,
    (sys.shared.tables.committed .passwordResetTokens).length=2 ∧
      OneLiveCode (sys.shared.tables.committed .passwordResetTokens) := by
  have hrun : (follow sampleDeployment retiresApart sampleEnvironment
      (sampleDatabase [sampleUser] [] []) sampleTurns).any (fun sys =>
        (sys.shared.tables.committed .passwordResetTokens).length=2)=true := by
    decide +kernel
  obtain ⟨sys,hsys,htwo⟩ := (Option.any_eq_true _ _).mp hrun
  have hdb : OneLiveCode (sampleDatabase [sampleUser] [] [] .passwordResetTokens) :=
    fun _ => Nat.zero_le 1
  exact ⟨sys,of_decide_eq_true htwo,one_live_code hdb
    (reaches_of_follow retiresApart_of_check hsys)⟩

end Runs

end BackendPlatform.LiveCodes
