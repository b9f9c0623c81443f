import BackendPlatform.ConcurrentRequests

/-!
# Refresh families under concurrency

A family is a chain: one root, at most one child for each token and at most
one unrevoked token, in every merged reading of the table. The proof follows
each request through a small protocol. Between the update that retires a
token and the insertion of its child a request knows that its family has no
unrevoked token and that the token has no child; the row lock of the token
keeps this true. A committed exchange owns its child, so two requests cannot
exchange the same token.
-/

set_option autoImplicit false

namespace BackendPlatform.RefreshFamilies

open ProgramTrees InterleavedRuns TransactionalTables RowLocking
open AuthRecords AuthEffects AuthRepositories AuthServices AuthFlows AuthFootprints
open ConcurrentRequests

/-- A reading of the token table: the rows by their index. -/
abbrev Reading := ℕ → Option RefreshToken

section Chains

/-- The chain laws of a reading. -/
structure Chained (m : Reading) : Prop where
  /-- Token ids are unique. -/
  jtiUnique : ∀ i j a b, m i=some a → m j=some b → a.jti=b.jti → i=j
  /-- A token has at most one child. -/
  childUnique : ∀ i j a b x, m i=some a → m j=some b → a.parentJti=some x →
    b.parentJti=some x → i=j
  /-- A family has at most one root. -/
  rootUnique : ∀ i j a b, m i=some a → m j=some b → a.parentJti=none → b.parentJti=none →
    a.familyId=b.familyId → i=j
  /-- A family has at most one unrevoked token. -/
  liveUnique : ∀ i j a b, m i=some a → m j=some b → a.revokedAt=none → b.revokedAt=none →
    a.familyId=b.familyId → i=j
  /-- The parent of a child is a retired token of the same family and user. -/
  parent : ∀ i a x, m i=some a → a.parentJti=some x → ∃ j b, m j=some b ∧ b.jti=x ∧
    b.familyId=a.familyId ∧ b.userId=a.userId ∧ b.rotatedAt.isSome ∧ b.revokedAt.isSome
  /-- A family has a root. -/
  root : ∀ i a, m i=some a → ∃ j b, m j=some b ∧ b.familyId=a.familyId ∧ b.parentJti=none

/-- Identity of a token and how far it has been revoked. -/
structure Revised (a b : RefreshToken) : Prop where
  /-- Same token. -/
  jti : b.jti=a.jti
  /-- Same family. -/
  familyId : b.familyId=a.familyId
  /-- Same user. -/
  userId : b.userId=a.userId
  /-- Same parent. -/
  parentJti : b.parentJti=a.parentJti
  /-- A revocation stays. -/
  revoked : a.revokedAt.isSome → b.revokedAt.isSome
  /-- An exchange stays. -/
  rotated : a.rotatedAt.isSome → b.rotatedAt.isSome

/-- Every token is a revision of itself. -/
theorem Revised.refl (a : RefreshToken) : Revised a a := ⟨rfl,rfl,rfl,rfl,id,id⟩

/-- A live revision is a revision of a live token. -/
theorem Revised.live {a b : RefreshToken} (h : Revised a b) (hb : b.revokedAt=none) :
    a.revokedAt=none := by
  cases ha : a.revokedAt with
  | none => rfl
  | some instant => simpa [ha,hb] using h.revoked

/-- The rows of a reading have all been revised. -/
def RevisedReading (m m' : Reading) : Prop :=
  ∀ i, (m i=none ∧ m' i=none) ∨ ∃ a b, m i=some a ∧ m' i=some b ∧ Revised a b

/-- Every row of the later reading revises one of the earlier. -/
theorem RevisedReading.back {m m' : Reading} (h : RevisedReading m m') {i : ℕ}
    {b : RefreshToken} (hb : m' i=some b) : ∃ a, m i=some a ∧ Revised a b := by
  obtain ⟨_,hn⟩|⟨a,b',ha,hb',hr⟩ := h i
  · simp [hn] at hb
  · rw [hb'] at hb
    cases hb
    exact ⟨a,ha,hr⟩

/-- Every row of the earlier reading has a revision in the later. -/
theorem RevisedReading.forth {m m' : Reading} (h : RevisedReading m m') {i : ℕ}
    {a : RefreshToken} (ha : m i=some a) : ∃ b, m' i=some b ∧ Revised a b := by
  obtain ⟨hn,_⟩|⟨a',b,ha',hb,hr⟩ := h i
  · simp [hn] at ha
  · rw [ha'] at ha
    cases ha
    exact ⟨b,hb,hr⟩

/-- Revocations keep the chain laws. -/
theorem Chained.revise {m m' : Reading} (h : Chained m) (hr : RevisedReading m m') :
    Chained m' := by
  constructor
  · intro i j a b ha hb hj
    obtain ⟨a₀,ha₀,ra⟩ := hr.back ha
    obtain ⟨b₀,hb₀,rb⟩ := hr.back hb
    exact h.jtiUnique i j a₀ b₀ ha₀ hb₀ (by rw [←ra.jti,←rb.jti,hj])
  · intro i j a b x ha hb hx hy
    obtain ⟨a₀,ha₀,ra⟩ := hr.back ha
    obtain ⟨b₀,hb₀,rb⟩ := hr.back hb
    exact h.childUnique i j a₀ b₀ x ha₀ hb₀ (by rw [←ra.parentJti,hx]) (by rw [←rb.parentJti,hy])
  · intro i j a b ha hb hx hy hf
    obtain ⟨a₀,ha₀,ra⟩ := hr.back ha
    obtain ⟨b₀,hb₀,rb⟩ := hr.back hb
    exact h.rootUnique i j a₀ b₀ ha₀ hb₀ (by rw [←ra.parentJti,hx]) (by rw [←rb.parentJti,hy])
      (by rw [←ra.familyId,←rb.familyId,hf])
  · intro i j a b ha hb hx hy hf
    obtain ⟨a₀,ha₀,ra⟩ := hr.back ha
    obtain ⟨b₀,hb₀,rb⟩ := hr.back hb
    exact h.liveUnique i j a₀ b₀ ha₀ hb₀ (ra.live hx) (rb.live hy)
      (by rw [←ra.familyId,←rb.familyId,hf])
  · intro i a x ha hx
    obtain ⟨a₀,ha₀,ra⟩ := hr.back ha
    obtain ⟨j,b₀,hb₀,hj,hf,hu,hro,hre⟩ := h.parent i a₀ x ha₀ (by rw [←ra.parentJti,hx])
    obtain ⟨b,hb,rb⟩ := hr.forth hb₀
    exact ⟨j,b,hb,by rw [rb.jti,hj],by rw [rb.familyId,ra.familyId,hf],
      by rw [rb.userId,ra.userId,hu],rb.rotated hro,rb.revoked hre⟩
  · intro i a ha
    obtain ⟨a₀,ha₀,ra⟩ := hr.back ha
    obtain ⟨j,b₀,hb₀,hf,hp⟩ := h.root i a₀ ha₀
    obtain ⟨b,hb,rb⟩ := hr.forth hb₀
    exact ⟨j,b,hb,by rw [rb.familyId,ra.familyId,hf],by rw [rb.parentJti,hp]⟩

/-- A reading extended by one row at an unused index. -/
def Extended (m m' : Reading) (k : ℕ) (row : RefreshToken) : Prop :=
  m k=none ∧ ∀ i, m' i=if i=k then some row else m i

/-- A row of the extended reading is the new one or was there. -/
theorem Extended.cases {m m' : Reading} {k : ℕ} {row : RefreshToken} (h : Extended m m' k row)
    {i : ℕ} {a : RefreshToken} (ha : m' i=some a) : (i=k ∧ a=row) ∨ m i=some a := by
  rw [h.2] at ha
  split at ha
  · rename_i hi
    cases ha
    exact .inl ⟨hi,rfl⟩
  · exact .inr ha

/-- The rows that were there stay. -/
theorem Extended.old {m m' : Reading} {k : ℕ} {row : RefreshToken} (h : Extended m m' k row)
    {i : ℕ} {a : RefreshToken} (ha : m i=some a) : m' i=some a := by
  rw [h.2]
  split
  · rename_i hi
    rw [hi,h.1] at ha
    cases ha
  · exact ha

/-- The new row is at its position. -/
theorem Extended.new {m m' : Reading} {k : ℕ} {row : RefreshToken} (h : Extended m m' k row) :
    m' k=some row := by
  rw [h.2,if_pos rfl]

/-- A new root of a new family keeps the chain laws. -/
theorem Chained.addRoot {m m' : Reading} {k : ℕ} {row : RefreshToken} (h : Chained m)
    (he : Extended m m' k row) (hp : row.parentJti=none)
    (hjti : ∀ i a, m i=some a → a.jti≠row.jti)
    (hfam : ∀ i a, m i=some a → a.familyId≠row.familyId) : Chained m' := by
  constructor
  · intro i j a b ha hb hj
    obtain ⟨rfl,rfl⟩|ha := he.cases ha
    · obtain ⟨rfl,rfl⟩|hb := he.cases hb
      · rfl
      · exact absurd hj.symm (hjti _ _ hb)
    · obtain ⟨rfl,rfl⟩|hb := he.cases hb
      · exact absurd hj (hjti _ _ ha)
      · exact h.jtiUnique i j a b ha hb hj
  · intro i j a b x ha hb hx hy
    obtain ⟨rfl,rfl⟩|ha := he.cases ha
    · simp [hp] at hx
    · obtain ⟨rfl,rfl⟩|hb := he.cases hb
      · simp [hp] at hy
      · exact h.childUnique i j a b x ha hb hx hy
  · intro i j a b ha hb hx hy hf
    obtain ⟨rfl,rfl⟩|ha := he.cases ha
    · obtain ⟨rfl,rfl⟩|hb := he.cases hb
      · rfl
      · exact absurd hf.symm (hfam _ _ hb)
    · obtain ⟨rfl,rfl⟩|hb := he.cases hb
      · exact absurd hf (hfam _ _ ha)
      · exact h.rootUnique i j a b ha hb hx hy hf
  · intro i j a b ha hb hx hy hf
    obtain ⟨rfl,rfl⟩|ha := he.cases ha
    · obtain ⟨rfl,rfl⟩|hb := he.cases hb
      · rfl
      · exact absurd hf.symm (hfam _ _ hb)
    · obtain ⟨rfl,rfl⟩|hb := he.cases hb
      · exact absurd hf (hfam _ _ ha)
      · exact h.liveUnique i j a b ha hb hx hy hf
  · intro i a x ha hx
    obtain ⟨rfl,rfl⟩|ha := he.cases ha
    · simp [hp] at hx
    · obtain ⟨j,b,hb,hrest⟩ := h.parent i a x ha hx
      exact ⟨j,b,he.old hb,hrest⟩
  · intro i a ha
    obtain ⟨rfl,rfl⟩|ha := he.cases ha
    · exact ⟨_,_,he.new,rfl,hp⟩
    · obtain ⟨j,b,hb,hrest⟩ := h.root i a ha
      exact ⟨j,b,he.old hb,hrest⟩

/-- A child of a retired token keeps the chain laws if the token has no child
and its family no unrevoked token. -/
theorem Chained.addChild {m m' : Reading} {k i₀ : ℕ} {row r : RefreshToken} (h : Chained m)
    (he : Extended m m' k row) (hr : m i₀=some r) (hp : row.parentJti=some r.jti)
    (hf : row.familyId=r.familyId) (hu : row.userId=r.userId) (hro : r.rotatedAt.isSome)
    (hre : r.revokedAt.isSome) (hjti : ∀ i a, m i=some a → a.jti≠row.jti)
    (hlive : ∀ i a, m i=some a → a.familyId=r.familyId → a.revokedAt≠none)
    (hchild : ∀ i a, m i=some a → a.parentJti≠some r.jti) : Chained m' := by
  constructor
  · intro i j a b ha hb hj
    obtain ⟨rfl,rfl⟩|ha := he.cases ha
    · obtain ⟨rfl,rfl⟩|hb := he.cases hb
      · rfl
      · exact absurd hj.symm (hjti _ _ hb)
    · obtain ⟨rfl,rfl⟩|hb := he.cases hb
      · exact absurd hj (hjti _ _ ha)
      · exact h.jtiUnique i j a b ha hb hj
  · intro i j a b x ha hb hx hy
    obtain ⟨rfl,rfl⟩|ha := he.cases ha
    · obtain ⟨rfl,rfl⟩|hb := he.cases hb
      · rfl
      · exact absurd (by rw [hy,←hx,hp]) (hchild _ _ hb)
    · obtain ⟨rfl,rfl⟩|hb := he.cases hb
      · exact absurd (by rw [hx,←hy,hp]) (hchild _ _ ha)
      · exact h.childUnique i j a b x ha hb hx hy
  · intro i j a b ha hb hx hy hfam
    obtain ⟨rfl,rfl⟩|ha := he.cases ha
    · simp [hp] at hx
    · obtain ⟨rfl,rfl⟩|hb := he.cases hb
      · simp [hp] at hy
      · exact h.rootUnique i j a b ha hb hx hy hfam
  · intro i j a b ha hb hx hy hfam
    obtain ⟨rfl,rfl⟩|ha := he.cases ha
    · obtain ⟨rfl,rfl⟩|hb := he.cases hb
      · rfl
      · exact absurd hy (hlive _ _ hb (by rw [←hfam,hf]))
    · obtain ⟨rfl,rfl⟩|hb := he.cases hb
      · exact absurd hx (hlive _ _ ha (by rw [hfam,hf]))
      · exact h.liveUnique i j a b ha hb hx hy hfam
  · intro i a x ha hx
    obtain ⟨rfl,rfl⟩|ha := he.cases ha
    · rw [hp] at hx
      cases hx
      exact ⟨i₀,r,he.old hr,rfl,hf.symm,hu.symm,hro,hre⟩
    · obtain ⟨j,b,hb,hrest⟩ := h.parent i a x ha hx
      exact ⟨j,b,he.old hb,hrest⟩
  · intro i a ha
    obtain ⟨rfl,rfl⟩|ha := he.cases ha
    · obtain ⟨j,b,hb,hfb,hpb⟩ := h.root i₀ r hr
      exact ⟨j,b,he.old hb,by rw [hfb,hf],hpb⟩
    · obtain ⟨j,b,hb,hrest⟩ := h.root i a ha
      exact ⟨j,b,he.old hb,hrest⟩

end Chains

section Protocol

/-- How far a request has come in an exchange. -/
inductive Phase where
  /-- It holds no token that matters. -/
  | idle
  /-- It holds the lock of a token it has read. -/
  | holds (r : RefreshToken)
  /-- It has retired the token and not yet inserted the child. -/
  | retired (r : RefreshToken)
  /-- It has inserted the child and not yet committed. -/
  | inserted (parent : UUID) (child : ℕ)
  /-- It has committed the child. -/
  | exchanged (parent : UUID) (child : ℕ)

/-- A request: its unused draws and its phase. -/
structure Control where
  /-- Draws it has not used for a row. -/
  drawn : List ℕ
  /-- How far it has come. -/
  phase : Phase

/-- The child a request has inserted. -/
def Phase.child : Phase → List ℕ
  | .inserted _ n => [n]
  | .exchanged _ n => [n]
  | _ => []

/-- The phase after a commit. -/
def Phase.committed : Phase → Phase
  | .inserted parent child => .exchanged parent child
  | .exchanged parent child => .exchanged parent child
  | _ => .idle

/-- The phase after a rollback. -/
def Phase.dropped : Phase → Phase
  | .exchanged parent child => .exchanged parent child
  | _ => .idle

/-- Everything a request has drawn and not given away. -/
def Control.owned (s : Control) : List ℕ := s.phase.child++s.drawn

/-- Before its first effect a request owns nothing. -/
def Control.start : Control := ⟨[],.idle⟩

/-- An update that only revokes. -/
def Revokes (f : RefreshToken → RefreshToken) : Prop :=
  ∀ a, Revised a (f a) ∧ (f a).revokedAt.isSome

/-- The update that retires exactly the held token. -/
def Retires (r : RefreshToken) (q : RefreshToken → Bool) (f : RefreshToken → RefreshToken) :
    Prop :=
  r.revokedAt=none ∧ (∀ a, q a=true ↔ a.jti=r.jti) ∧ ∀ a, (f a).rotatedAt.isSome

/-- The insertion of a root of a new family. -/
def InsertsRoot (s : Control) (row : RefreshToken) (s' : Control) : Prop :=
  ∃ n m, row.jti=⟨n⟩ ∧ row.familyId=⟨m⟩ ∧ n≠m ∧ n∈s.drawn ∧ m∈s.drawn ∧
    row.parentJti=none ∧ s'=⟨(s.drawn.erase n).erase m,.idle⟩

/-- The insertion of the child of the retired token. -/
def InsertsChild (s : Control) (row : RefreshToken) (s' : Control) : Prop :=
  ∃ n r, s.phase=.retired r ∧ row.jti=⟨n⟩ ∧ n∈s.drawn ∧ row.parentJti=some r.jti ∧
    row.familyId=r.familyId ∧ row.userId=r.userId ∧ s'=⟨s.drawn.erase n,.inserted r.jti n⟩

/-- What a request may do with the token table. -/
def moves (s : Control) : (op : Effect) → op.Reply → Control → Prop
  | .external .draw,n,s' => s'=s ∨ s'={s with drawn := n::s.drawn}
  | .sql (.selectForUpdate .refreshTokens _),rows,s' =>
    s.phase=.idle ∧ (s'=s ∨ ∃ r, rows=[r] ∧ s'={s with phase := .holds r})
  | .sql (.update .refreshTokens q f),n,s' =>
    Revokes f ∧ ((s.phase.child=[] ∧ s'={s with phase := .idle}) ∨
      ∃ r, s.phase=.holds r ∧ Retires r q f ∧ n=1 ∧ s'={s with phase := .retired r})
  | .sql (.insert .refreshTokens row),outcome,s' =>
    (outcome≠.inserted ∧ s.phase.child=[] ∧ s'={s with phase := .idle}) ∨
      (outcome=.inserted ∧ s.phase.child=[] ∧ (InsertsRoot s row s' ∨ InsertsChild s row s'))
  | .sql (.delete .refreshTokens _),_,_ => False
  | .sql .commit,_,s' => s'={s with phase := s.phase.committed}
  | .sql .rollback,_,s' => s'={s with phase := s.phase.dropped}
  | _,_,s' => s'=s

/-- What a request can be told: draws are new and locked rows satisfy the
condition. -/
def offers (s : Control) : (op : Effect) → op.Reply → Prop
  | .external .draw,n => n∉s.owned
  | .sql (.selectForUpdate .refreshTokens q),rows => ∀ r∈rows,q r=true
  | _,_ => True

/-- The protocol of the token table. -/
def protocol : Protocol authSignature Control := ⟨moves,offers⟩

/-- Accesses that leave the token table alone, commits apart. -/
abbrev elsewhere (a : Access) : Prop :=
  a∉[Access.lock .refreshTokens,.insert .refreshTokens,.update .refreshTokens,
    .delete .refreshTokens,.commit,.rollback]

/-- Effects elsewhere leave the control state alone. -/
theorem moves_elsewhere (s : Control) {op : Effect} (r : op.Reply)
    (h : ∀ a∈accesses op,elsewhere a) : moves s op r s := by
  cases op with
  | external op => cases op <;> first | exact rfl | exact .inl rfl
  | sql stmt =>
    cases stmt with
    | select t q => cases t <;> exact rfl
    | selectForUpdate t q =>
      cases t with
      | refreshTokens =>
        exact absurd (h (.lock .refreshTokens) (by simp [accesses])) (by simp [elsewhere])
      | _ => exact rfl
    | insert t row =>
      cases t with
      | refreshTokens =>
        exact absurd (h (.insert .refreshTokens) (by simp [accesses])) (by simp [elsewhere])
      | _ => exact rfl
    | update t q f =>
      cases t with
      | refreshTokens =>
        exact absurd (h (.update .refreshTokens) (by simp [accesses])) (by simp [elsewhere])
      | _ => exact rfl
    | delete t q =>
      cases t with
      | refreshTokens =>
        exact absurd (h (.delete .refreshTokens) (by simp [accesses])) (by simp [elsewhere])
      | _ => exact rfl
    | commit => exact absurd (h .commit (by simp [accesses])) (by simp [elsewhere])
    | rollback => exact absurd (h .rollback (by simp [accesses])) (by simp [elsewhere])

end Protocol

section Invariant

/-- What a phase knows about the table. -/
def PhaseHolds (cells : List (Cell RefreshToken)) (pid : ℕ) : Phase → Prop
  | .idle => True
  | .holds r => ∃ k, Held pid cells k r
  | .retired r =>
    (∃ k r', Held pid cells k r' ∧ r'.jti=r.jti ∧ r'.familyId=r.familyId ∧
      r'.userId=r.userId ∧ r'.rotatedAt.isSome ∧ r'.revokedAt.isSome) ∧
    (∀ S : Set ℕ, pid∈S → ∀ k a, mergedAt S cells k=some a → a.familyId=r.familyId →
      a.revokedAt≠none) ∧
    (∀ S : Set ℕ, pid∈S → ∀ k a, mergedAt S cells k=some a → a.parentJti≠some r.jti)
  | .inserted parent n =>
    ∃ k row, Held pid cells k row ∧ row.parentJti=some parent ∧ row.jti=⟨n⟩
  | .exchanged parent n =>
    ∃ k, ∀ S : Set ℕ, ∃ row, mergedAt S cells k=some row ∧ row.parentJti=some parent ∧
      row.jti=⟨n⟩

/-- The invariant of the token table, the draws and the control states. -/
structure Families (cells : List (Cell RefreshToken)) (draws : ℕ) (states : ℕ → Control) :
    Prop where
  /-- Every merged reading is chained. -/
  chained : ∀ S : Set ℕ, Chained fun i => mergedAt S cells i
  /-- Identifiers of rows have been drawn. -/
  used : ∀ (S : Set ℕ) k a, mergedAt S cells k=some a → a.jti.int<draws ∧ a.familyId.int<draws
  /-- Unused draws name no row. -/
  unused : ∀ (S : Set ℕ) k a, mergedAt S cells k=some a → ∀ i,∀ n∈(states i).drawn,
    a.jti≠⟨n⟩ ∧ a.familyId≠⟨n⟩
  /-- Owned draws have been drawn. -/
  ownedDrawn : ∀ i,∀ n∈(states i).owned,n<draws
  /-- A request owns every draw once. -/
  ownedOnce : ∀ i, (states i).owned.Nodup
  /-- Requests own different draws. -/
  ownedApart : ∀ i j, i≠j → ∀ n∈(states i).owned,n∉(states j).owned
  /-- Every phase holds. -/
  phases : ∀ i, PhaseHolds cells i (states i).phase
  /-- Retired tokens of different requests are in different families. -/
  retiredApart : ∀ i j r r', i≠j → (states i).phase=.retired r → (states j).phase=.retired r' →
    r.familyId≠r'.familyId

variable {cells cells' : List (Cell RefreshToken)} {draws : ℕ} {states : ℕ → Control} {i : ℕ}

/-- Every row of the later table is a row of the earlier one, revised. -/
def Descends (cells cells' : List (Cell RefreshToken)) : Prop :=
  ∀ (S : Set ℕ) k b, mergedAt S cells' k=some b → ∃ (T : Set ℕ) (a : RefreshToken),
    mergedAt T cells k=some a ∧ a.jti=b.jti ∧ a.familyId=b.familyId

/-- Changes that bring no new row and no new draw keep the invariant, given
the phases and the chain laws of the later table. -/
theorem Families.change (F : Families cells draws states) {t : Control}
    (hd : Descends cells cells') (hc : ∀ S : Set ℕ, Chained fun k => mergedAt S cells' k)
    (howned : t.owned.Sublist (states i).owned) (hdrawn : t.drawn⊆(states i).drawn)
    (hothers : ∀ j, j≠i → PhaseHolds cells' j (states j).phase)
    (hown : PhaseHolds cells' i t.phase)
    (hapart : ∀ j r r', j≠i → t.phase=.retired r → (states j).phase=.retired r' →
      r.familyId≠r'.familyId) :
    Families cells' draws (Function.update states i t) := by
  have hsub : ∀ j, (Function.update states i t j).owned.Sublist (states j).owned := by
    intro j
    by_cases hj : j=i
    · subst hj
      rwa [Function.update_self]
    · rw [Function.update_of_ne hj]
  have hdr : ∀ j, (Function.update states i t j).drawn⊆(states j).drawn := by
    intro j
    by_cases hj : j=i
    · subst hj
      rwa [Function.update_self]
    · rw [Function.update_of_ne hj]
      exact List.Subset.refl _
  constructor
  · exact hc
  · intro S k b hb
    obtain ⟨T,a,ha,hj,hf⟩ := hd S k b hb
    have hu := F.used T k a ha
    rwa [hj,hf] at hu
  · intro S k b hb j n hn
    obtain ⟨T,a,ha,hj,hf⟩ := hd S k b hb
    have hu := F.unused T k a ha j n (hdr j hn)
    rwa [hj,hf] at hu
  · exact fun j n hn => F.ownedDrawn j n ((hsub j).subset hn)
  · exact fun j => (F.ownedOnce j).sublist (hsub j)
  · exact fun j k hjk n hn hn' =>
      F.ownedApart j k hjk n ((hsub j).subset hn) ((hsub k).subset hn')
  · intro j
    by_cases hj : j=i
    · subst hj
      rwa [Function.update_self]
    · rw [Function.update_of_ne hj]
      exact hothers j hj
  · intro j k r r' hjk hj hk
    by_cases hji : j=i
    · subst hji
      rw [Function.update_self] at hj
      rw [Function.update_of_ne (Ne.symm hjk)] at hk
      exact hapart k r r' (Ne.symm hjk) hj hk
    · rw [Function.update_of_ne hji] at hj
      by_cases hki : k=i
      · subst hki
        rw [Function.update_self] at hk
        exact Ne.symm (hapart j r' r hji hk hj)
      · rw [Function.update_of_ne hki] at hk
        exact F.retiredApart j k r r' hjk hj hk

section Locking

variable {rows : List ℕ} {q : RefreshToken → Bool} {f : RefreshToken → RefreshToken}

/-- A locking statement revises every merged reading. -/
theorem revised_lockRows (q : RefreshToken → Bool) (hr : ready i rows cells=true)
    (hf : ∀ a, Revised a (f a)) (S : Set ℕ) : RevisedReading (fun k => mergedAt S cells k)
      (fun k => mergedAt S (lockRows i rows q (fun a => some (f a)) cells) k) := by
  intro k
  have hsame : (mergedAt S cells k=none ∧ mergedAt S cells k=none) ∨
      ∃ a b, mergedAt S cells k=some a ∧ mergedAt S cells k=some b ∧ Revised a b := by
    cases h : mergedAt S cells k with
    | none => exact .inl ⟨rfl,rfl⟩
    | some a => exact .inr ⟨a,a,rfl,rfl,.refl a⟩
  by_cases hS : i∈S
  · simp only [mergedAt_lockRows_of_mem hr hS]
    by_cases hk : k∈rows
    · simp only [hk,if_true]
      cases h : mergedAt S cells k with
      | none => exact .inl ⟨rfl,rfl⟩
      | some a =>
        by_cases hq : q a=true
        · exact .inr ⟨a,f a,rfl,by simp [hq],hf a⟩
        · exact .inr ⟨a,a,rfl,by simp [hq],.refl a⟩
    · simpa only [hk,if_false] using hsame
  · simpa only [mergedAt_lockRows_of_notMem hr hS] using hsame

/-- Readings that are only revised keep the descent of the families. -/
theorem descends_of_revised
    (h : ∀ S : Set ℕ, RevisedReading (fun k => mergedAt S cells k) fun k => mergedAt S cells' k) :
    Descends cells cells' := by
  intro S k b hb
  obtain ⟨a,ha,hr⟩ := (h S).back hb
  exact ⟨S,a,ha,hr.jti.symm,hr.familyId.symm⟩

/-- The phases of the other requests survive a locking statement. -/
theorem phaseHolds_lockRows (hr : ready i rows cells=true) (hf : ∀ a, Revised a (f a)) {j : ℕ}
    (hj : j≠i) {phase : Phase} (h : PhaseHolds cells j phase) :
    PhaseHolds (lockRows i rows q (fun a => some (f a)) cells) j phase := by
  have hrev := fun S => revised_lockRows q hr hf S
  cases phase with
  | idle => trivial
  | holds r =>
    obtain ⟨k,hk⟩ := h
    exact ⟨k,hk.lockRows_of_ne (Ne.symm hj) hr⟩
  | retired r =>
    obtain ⟨⟨k,r',hk,hrest⟩,hlive,hchild⟩ := h
    refine ⟨⟨k,r',hk.lockRows_of_ne (Ne.symm hj) hr,hrest⟩,?_,?_⟩
    · intro S hS k b hb hfam hnone
      obtain ⟨a,ha,ra⟩ := (hrev S).back hb
      exact hlive S hS k a ha (by rw [←ra.familyId,hfam]) (ra.live hnone)
    · intro S hS k b hb hpar
      obtain ⟨a,ha,ra⟩ := (hrev S).back hb
      exact hchild S hS k a ha (by rw [←ra.parentJti,hpar])
  | inserted parent n =>
    obtain ⟨k,row,hk,hrest⟩ := h
    exact ⟨k,row,hk.lockRows_of_ne (Ne.symm hj) hr,hrest⟩
  | exchanged parent n =>
    obtain ⟨k,hk⟩ := h
    refine ⟨k,fun S => ?_⟩
    obtain ⟨a,ha,hpar,hjti⟩ := hk S
    obtain ⟨b,hb,rb⟩ := (hrev S).forth ha
    exact ⟨b,hb,by rw [rb.parentJti,hpar],by rw [rb.jti,hjti]⟩

/-- A locking statement keeps the invariant, given the new phase. -/
theorem Families.lock (F : Families cells draws states) (hr : ready i rows cells=true)
    (hf : ∀ a, Revised a (f a)) {phase : Phase} (hnew : phase.child=[])
    (hold : (states i).phase.child=[])
    (hown : PhaseHolds (lockRows i rows q (fun a => some (f a)) cells) i phase)
    (hapart : ∀ j r r', j≠i → phase=.retired r → (states j).phase=.retired r' →
      r.familyId≠r'.familyId) :
    Families (lockRows i rows q (fun a => some (f a)) cells) draws
      (Function.update states i {states i with phase := phase}) := by
  have hrev := fun S => revised_lockRows q hr hf S
  refine F.change (descends_of_revised hrev) (fun S => (F.chained S).revise (hrev S)) ?_
    (List.Subset.refl _) (fun j hj => phaseHolds_lockRows hr hf hj (F.phases j)) hown hapart
  simp [Control.owned,hnew,hold]

/-- The update that retires the held token teaches its request that the family
has no unrevoked token and the token no child. -/
theorem Families.phaseHolds_retired (F : Families cells draws states)
    (hr : ready i rows cells=true) (hf : Revokes f) {r : RefreshToken}
    (hphase : (states i).phase=.holds r) (hret : Retires r q f)
    (hn : (matched i rows q cells).length=1) :
    PhaseHolds (lockRows i rows q (fun a => some (f a)) cells) i (.retired r) ∧
      ∀ j r', j≠i → (states j).phase=.retired r' → r.familyId≠r'.familyId := by
  have hholds := F.phases i
  rw [hphase] at hholds
  obtain ⟨k₀,hk₀⟩ := hholds
  obtain ⟨hlive,hq,hrot⟩ := hret
  obtain ⟨a,ha⟩ : ∃ a, a∈matched i rows q cells :=
    List.exists_mem_of_length_pos (by omega)
  obtain ⟨hqa,k,_,hone,hall,hheld⟩ :=
    held_of_matched (fun a => some (f a)) hr ha rfl
  have hkk : k=k₀ := (F.chained {i}).jtiUnique k k₀ a r hone
    (hk₀.mergedAt_eq (Set.mem_singleton i)) ((hq a).mp hqa)
  subst hkk
  have har : a=r := by
    have hr' := hk₀.mergedAt_eq (Set.mem_singleton i)
    rw [hone] at hr'
    exact Option.some.inj hr'
  subst har
  have hrev := fun S => revised_lockRows q hr (fun a => (hf a).1) S
  have hra := (hf a).1
  refine ⟨⟨⟨k,f a,hheld,hra.jti,hra.familyId,hra.userId,hrot a,(hf a).2⟩,?_,?_⟩,?_⟩
  · intro S hS k' b hb hfam hnone
    obtain ⟨a',ha',ra'⟩ := (hrev S).back hb
    have hk' : k'=k := (F.chained S).liveUnique k' k a' a ha' (hall S hS) (ra'.live hnone) hlive
      (by rw [←ra'.familyId,hfam])
    subst hk'
    rw [hheld.mergedAt_eq hS] at hb
    cases hb
    simpa [hnone] using (hf a).2
  · intro S hS k' b hb hpar
    obtain ⟨a',ha',ra'⟩ := (hrev S).back hb
    obtain ⟨j,p,hp,hpj,_,_,_,hprev⟩ := (F.chained S).parent k' a' a.jti ha'
      (by rw [←ra'.parentJti,hpar])
    have hjk : j=k := (F.chained S).jtiUnique j k p a hp (hall S hS) hpj
    subst hjk
    have hpa : p=a := by
      have h1 := hall S hS
      rw [hp] at h1
      exact Option.some.inj h1
    rw [hpa,hlive] at hprev
    cases hprev
  · intro j r' hji hj hfam
    have hjp := F.phases j
    rw [hj] at hjp
    exact hjp.2.1 {i,j} (by simp) k a (hall {i,j} (by simp)) hfam hlive

end Locking

section Inserting

variable {row : RefreshToken}

/-- A reading that counts the process is extended by its insert. -/
theorem mergedAt_insert (S : Set ℕ) (hS : i∈S) (row : RefreshToken) :
    Extended (fun k => mergedAt S cells k)
      (fun k => mergedAt S (cells++[⟨none,some i,some row⟩]) k) cells.length row := by
  refine ⟨?_,fun k => ?_⟩
  · show mergedAt S cells cells.length=none
    cases h : mergedAt S cells cells.length with
    | none => rfl
    | some a => exact absurd (mergedAt_lt h) (Nat.lt_irrefl _)
  · show mergedAt S (cells++[_]) k=_
    rw [mergedAt_append]
    split
    · simp [Cell.merged,hS]
    · rfl

/-- A reading that leaves the process out does not see its insert. -/
theorem mergedAt_insert_of_notMem (S : Set ℕ) (hS : i∉S) (row : RefreshToken) (k : ℕ) :
    mergedAt S (cells++[⟨none,some i,some row⟩]) k=mergedAt S cells k := by
  rw [mergedAt_append]
  split
  · rename_i hk
    cases h : mergedAt S cells k with
    | none => simp [Cell.merged,hS]
    | some a => exact absurd (mergedAt_lt h) (by omega)
  · rfl

/-- The phases of the other requests survive an insertion outside the families
they have retired a token of. -/
theorem phaseHolds_insert {j : ℕ} {phase : Phase} (h : PhaseHolds cells j phase)
    (hout : ∀ r, phase=.retired r → row.familyId≠r.familyId ∧ row.parentJti≠some r.jti) :
    PhaseHolds (cells++[⟨none,some i,some row⟩]) j phase := by
  cases phase with
  | idle => trivial
  | holds r =>
    obtain ⟨k,hk⟩ := h
    exact ⟨k,hk.append _⟩
  | retired r =>
    obtain ⟨⟨k,r',hk,hrest⟩,hlive,hchild⟩ := h
    obtain ⟨hfam,hpar⟩ := hout r rfl
    refine ⟨⟨k,r',hk.append _,hrest⟩,?_,?_⟩
    · intro S hS k' a ha hfa
      by_cases hi : i∈S
      · obtain ⟨_,rfl⟩|ha := (mergedAt_insert S hi row).cases ha
        · exact absurd hfa hfam
        · exact hlive S hS k' a ha hfa
      · rw [mergedAt_insert_of_notMem S hi] at ha
        exact hlive S hS k' a ha hfa
    · intro S hS k' a ha hpa
      by_cases hi : i∈S
      · obtain ⟨_,rfl⟩|ha := (mergedAt_insert S hi row).cases ha
        · exact absurd hpa hpar
        · exact hchild S hS k' a ha hpa
      · rw [mergedAt_insert_of_notMem S hi] at ha
        exact hchild S hS k' a ha hpa
  | inserted parent n =>
    obtain ⟨k,r,hk,hrest⟩ := h
    exact ⟨k,r,hk.append _,hrest⟩
  | exchanged parent n =>
    obtain ⟨k,hk⟩ := h
    refine ⟨k,fun S => ?_⟩
    obtain ⟨r,hr,hrest⟩ := hk S
    by_cases hi : i∈S
    · exact ⟨r,(mergedAt_insert S hi row).old hr,hrest⟩
    · exact ⟨r,by rw [mergedAt_insert_of_notMem S hi,hr],hrest⟩

/-- An insertion keeps the invariant, given the chain laws of the readings
that see it and the ownership of its identifiers. -/
theorem Families.addRow (F : Families cells draws states) {t : Control}
    (hc : ∀ S : Set ℕ, i∈S → Chained fun k => mergedAt S (cells++[⟨none,some i,some row⟩]) k)
    (hjti : row.jti.int<draws) (hfam : row.familyId.int<draws)
    (howned : t.owned⊆(states i).owned) (honce : t.owned.Nodup)
    (hdrawn : t.drawn⊆(states i).drawn)
    (hfresh : ∀ j,∀ n∈(Function.update states i t j).drawn,row.jti≠⟨n⟩ ∧ row.familyId≠⟨n⟩)
    (hout : ∀ j r, j≠i → (states j).phase=.retired r →
      row.familyId≠r.familyId ∧ row.parentJti≠some r.jti)
    (hown : PhaseHolds (cells++[⟨none,some i,some row⟩]) i t.phase)
    (hidle : ∀ r, t.phase≠.retired r) :
    Families (cells++[⟨none,some i,some row⟩]) draws (Function.update states i t) := by
  have hsub : ∀ j, (Function.update states i t j).owned⊆(states j).owned := by
    intro j
    by_cases hj : j=i
    · subst hj
      rwa [Function.update_self]
    · rw [Function.update_of_ne hj]
      exact List.Subset.refl _
  have hrow : ∀ (S : Set ℕ) k a, mergedAt S (cells++[⟨none,some i,some row⟩]) k=some a →
      a=row ∨ mergedAt S cells k=some a := by
    intro S k a ha
    by_cases hS : i∈S
    · exact ((mergedAt_insert S hS row).cases ha).imp_left (·.2)
    · rw [mergedAt_insert_of_notMem S hS] at ha
      exact .inr ha
  constructor
  · intro S
    by_cases hS : i∈S
    · exact hc S hS
    · simp only [mergedAt_insert_of_notMem S hS]
      exact F.chained S
  · intro S k a ha
    obtain rfl|ha := hrow S k a ha
    · exact ⟨hjti,hfam⟩
    · exact F.used S k a ha
  · intro S k a ha j n hn
    obtain rfl|ha' := hrow S k a ha
    · exact hfresh j n hn
    · by_cases hj : j=i
      · subst hj
        rw [Function.update_self] at hn
        exact F.unused S k a ha' j n (hdrawn hn)
      · rw [Function.update_of_ne hj] at hn
        exact F.unused S k a ha' j n hn
  · exact fun j n hn => F.ownedDrawn j n (hsub j hn)
  · intro j
    by_cases hj : j=i
    · subst hj
      rwa [Function.update_self]
    · rw [Function.update_of_ne hj]
      exact F.ownedOnce j
  · exact fun j k hjk n hn hn' => F.ownedApart j k hjk n (hsub j hn) (hsub k hn')
  · intro j
    by_cases hj : j=i
    · subst hj
      rwa [Function.update_self]
    · rw [Function.update_of_ne hj]
      exact phaseHolds_insert (F.phases j) fun r hr => hout j r hj hr
  · intro j k r r' hjk hj hk
    have hne : ∀ l r, (Function.update states i t l).phase=.retired r →
        (states l).phase=.retired r := by
      intro l r hl
      by_cases hli : l=i
      · subst hli
        rw [Function.update_self] at hl
        exact absurd hl (hidle r)
      · rwa [Function.update_of_ne hli] at hl
    exact F.retiredApart j k r r' hjk (hne j r hj) (hne k r' hk)

/-- A token retired by another request is not in the family of a draw. -/
theorem Families.retired_family_ne (F : Families cells draws states) {j m : ℕ}
    {r : RefreshToken} (hj : (states j).phase=.retired r) (hm : m∈(states i).drawn) :
    (⟨m⟩ : UUID)≠r.familyId := by
  have hp := F.phases j
  rw [hj] at hp
  obtain ⟨⟨k,r',hk,_,hfam,_⟩,_⟩ := hp
  have hu := F.unused {j} k r' (hk.mergedAt_eq (Set.mem_singleton j)) i m hm
  rw [←hfam]
  exact Ne.symm hu.2

/-- A sign-in adds the root of a new family. -/
theorem Families.addRoot (F : Families cells draws states) {t : Control}
    (hold : (states i).phase.child=[]) (h : InsertsRoot (states i) row t) :
    Families (cells++[⟨none,some i,some row⟩]) draws (Function.update states i t) := by
  obtain ⟨n,m,hjti,hfam,hnm,hn,hm,hpar,rfl⟩ := h
  have hown : (states i).owned=(states i).drawn := by simp [Control.owned,hold]
  have hnd : (states i).drawn.Nodup := hown ▸ F.ownedOnce i
  have hsub : ((states i).drawn.erase n).erase m⊆(states i).drawn :=
    List.Subset.trans List.erase_subset List.erase_subset
  refine F.addRow ?_ ?_ ?_ ?_ ?_ ?_ ?_ ?_ trivial ?_
  · intro S hS
    refine (F.chained S).addRoot (mergedAt_insert S hS row) hpar ?_ ?_
    · intro k a ha
      rw [hjti]
      exact (F.unused S k a ha i n hn).1
    · intro k a ha
      rw [hfam]
      exact (F.unused S k a ha i m hm).2
  · rw [hjti]
    exact F.ownedDrawn i n (hown ▸ hn)
  · rw [hfam]
    exact F.ownedDrawn i m (hown ▸ hm)
  · rw [hown]
    simpa [Control.owned,Phase.child] using hsub
  · simpa [Control.owned,Phase.child] using (hnd.erase n).erase m
  · exact hsub
  · intro j x hx
    rw [hjti,hfam]
    by_cases hj : j=i
    · subst hj
      rw [Function.update_self] at hx
      have hxm := (List.Nodup.mem_erase_iff (hnd.erase n)).mp hx
      have hxn := (List.Nodup.mem_erase_iff hnd).mp hxm.2
      exact ⟨fun he => hxn.1 (UUID.mk.inj he).symm,fun he => hxm.1 (UUID.mk.inj he).symm⟩
    · rw [Function.update_of_ne hj] at hx
      have hapart := fun y (hy : y∈(states i).drawn) =>
        F.ownedApart i j (Ne.symm hj) y (hown ▸ hy)
      have hxj : x∈(states j).owned := List.mem_append_right _ hx
      exact ⟨fun he => hapart n hn ((UUID.mk.inj he) ▸ hxj),
        fun he => hapart m hm ((UUID.mk.inj he) ▸ hxj)⟩
  · intro j r _ hj
    refine ⟨?_,by simp [hpar]⟩
    rw [hfam]
    exact F.retired_family_ne hj hm
  · exact fun r => Phase.noConfusion

/-- A renewal adds the child of the token that it rotates. -/
theorem Families.addChild (F : Families cells draws states) {t : Control}
    (h : InsertsChild (states i) row t) :
    Families (cells++[⟨none,some i,some row⟩]) draws (Function.update states i t) := by
  obtain ⟨n,r,hphase,hjti,hn,hpar,hfam,huser,rfl⟩ := h
  have hown : (states i).owned=(states i).drawn := by simp [Control.owned,hphase,Phase.child]
  have hnd : (states i).drawn.Nodup := hown ▸ F.ownedOnce i
  have hp := F.phases i
  rw [hphase] at hp
  obtain ⟨⟨k,r',hk,hj',hf',hu',hrot,hrev⟩,hlive,hchild⟩ := hp
  have hr' := hk.mergedAt_eq (Set.mem_singleton i)
  refine F.addRow ?_ ?_ ?_ ?_ ?_ List.erase_subset ?_ ?_ ?_ ?_
  · intro S hS
    refine (F.chained S).addChild (mergedAt_insert S hS row) (hk.mergedAt_eq hS)
      (by rw [hpar,hj']) (by rw [hfam,hf']) (by rw [huser,hu']) hrot hrev ?_ ?_ ?_
    · intro k' a ha
      rw [hjti]
      exact (F.unused S k' a ha i n hn).1
    · intro k' a ha hfa
      exact hlive S hS k' a ha (by rw [hfa,hf'])
    · intro k' a ha
      rw [hj']
      exact hchild S hS k' a ha
  · rw [hjti]
    exact F.ownedDrawn i n (hown ▸ hn)
  · rw [hfam,←hf']
    exact (F.used {i} k r' hr').2
  · rw [hown]
    intro x hx
    obtain rfl|hx := List.mem_cons.mp hx
    · exact hn
    · exact List.erase_subset hx
  · exact List.nodup_cons.mpr
      ⟨fun hm => ((List.Nodup.mem_erase_iff hnd).mp hm).1 rfl,hnd.erase n⟩
  · intro j x hx
    constructor
    · rw [hjti]
      by_cases hj : j=i
      · subst hj
        rw [Function.update_self] at hx
        exact fun he => ((List.Nodup.mem_erase_iff hnd).mp hx).1 (UUID.mk.inj he).symm
      · rw [Function.update_of_ne hj] at hx
        exact fun he => F.ownedApart i j (Ne.symm hj) n (hown ▸ hn)
          ((UUID.mk.inj he) ▸ List.mem_append_right _ hx)
    · rw [hfam,←hf']
      by_cases hj : j=i
      · subst hj
        rw [Function.update_self] at hx
        exact (F.unused {j} k r' hr' j x (List.erase_subset hx)).2
      · rw [Function.update_of_ne hj] at hx
        exact (F.unused {i} k r' hr' j x hx).2
  · intro j r₂ hj hj₂
    refine ⟨by rw [hfam]; exact F.retiredApart i j r r₂ (Ne.symm hj) hphase hj₂,?_⟩
    rw [hpar]
    intro he
    have hp₂ := F.phases j
    rw [hj₂] at hp₂
    obtain ⟨⟨k₂,r₂',hk₂,hjti₂,_⟩,_⟩ := hp₂
    have hkk := (F.chained {i,j}).jtiUnique k k₂ r' r₂' (hk.mergedAt_eq (by simp))
      (hk₂.mergedAt_eq (by simp)) (by rw [hj',hjti₂,Option.some.inj he])
    subst hkk
    exact hj (hk₂.pid_eq hk)
  · refine ⟨cells.length,row,⟨⟨none,some i,some row⟩,?_,rfl,rfl⟩,hpar,hjti⟩
    simp
  · exact fun r => Phase.noConfusion

end Inserting

section Ending

/-- A commit keeps the invariant. -/
theorem Families.settle (F : Families cells draws states) (i : ℕ) :
    Families (cells.map (·.settle i)) draws
      (Function.update states i {states i with phase := (states i).phase.committed}) := by
  refine F.change ?_ ?_ ?_ (List.Subset.refl _) ?_ ?_ ?_
  · intro S k b hb
    rw [mergedAt_settle] at hb
    exact ⟨insert i S,b,hb,rfl,rfl⟩
  · intro S
    simp only [mergedAt_settle]
    exact F.chained (insert i S)
  · cases h : (states i).phase <;> simp [Control.owned,h,Phase.committed,Phase.child]
  · intro j hj
    have hp := F.phases j
    revert hp
    cases (states j).phase with
    | idle => exact id
    | holds r => exact fun ⟨k,hk⟩ => ⟨k,hk.settle_of_ne (Ne.symm hj)⟩
    | retired r =>
      rintro ⟨⟨k,r',hk,hrest⟩,hlive,hchild⟩
      refine ⟨⟨k,r',hk.settle_of_ne (Ne.symm hj),hrest⟩,?_,?_⟩
      · intro S hS k' a ha
        rw [mergedAt_settle] at ha
        exact hlive (insert i S) (Set.mem_insert_of_mem i hS) k' a ha
      · intro S hS k' a ha
        rw [mergedAt_settle] at ha
        exact hchild (insert i S) (Set.mem_insert_of_mem i hS) k' a ha
    | inserted parent n =>
      exact fun ⟨k,row,hk,hrest⟩ => ⟨k,row,hk.settle_of_ne (Ne.symm hj),hrest⟩
    | exchanged parent n =>
      rintro ⟨k,hk⟩
      exact ⟨k,fun S => by rw [mergedAt_settle]; exact hk (insert i S)⟩
  · have hp := F.phases i
    revert hp
    cases (states i).phase with
    | inserted parent n =>
      rintro ⟨k,row,hk,hrest⟩
      exact ⟨k,fun S => ⟨row,by
        rw [mergedAt_settle,hk.mergedAt_eq (Set.mem_insert i S)],hrest⟩⟩
    | exchanged parent n =>
      rintro ⟨k,hk⟩
      exact ⟨k,fun S => by rw [mergedAt_settle]; exact hk (insert i S)⟩
    | _ => exact fun _ => trivial
  · intro j r r' _ hr
    cases h : (states i).phase <;> simp [h,Phase.committed] at hr

/-- A rollback keeps the invariant. -/
theorem Families.release (F : Families cells draws states) (i : ℕ) :
    Families (cells.map (·.release i)) draws
      (Function.update states i {states i with phase := (states i).phase.dropped}) := by
  refine F.change ?_ ?_ ?_ (List.Subset.refl _) ?_ ?_ ?_
  · intro S k b hb
    rw [mergedAt_release] at hb
    exact ⟨S\{i},b,hb,rfl,rfl⟩
  · intro S
    simp only [mergedAt_release]
    exact F.chained (S\{i})
  · cases h : (states i).phase <;> simp [Control.owned,h,Phase.dropped,Phase.child]
  · intro j hj
    have hp := F.phases j
    revert hp
    cases (states j).phase with
    | idle => exact id
    | holds r => exact fun ⟨k,hk⟩ => ⟨k,hk.release_of_ne (Ne.symm hj)⟩
    | retired r =>
      rintro ⟨⟨k,r',hk,hrest⟩,hlive,hchild⟩
      refine ⟨⟨k,r',hk.release_of_ne (Ne.symm hj),hrest⟩,?_,?_⟩
      · intro S hS k' a ha
        rw [mergedAt_release] at ha
        exact hlive (S\{i}) ⟨hS,hj⟩ k' a ha
      · intro S hS k' a ha
        rw [mergedAt_release] at ha
        exact hchild (S\{i}) ⟨hS,hj⟩ k' a ha
    | inserted parent n =>
      exact fun ⟨k,row,hk,hrest⟩ => ⟨k,row,hk.release_of_ne (Ne.symm hj),hrest⟩
    | exchanged parent n =>
      rintro ⟨k,hk⟩
      exact ⟨k,fun S => by rw [mergedAt_release]; exact hk (S\{i})⟩
  · have hp := F.phases i
    revert hp
    cases (states i).phase with
    | exchanged parent n =>
      rintro ⟨k,hk⟩
      exact ⟨k,fun S => by rw [mergedAt_release]; exact hk (S\{i})⟩
    | _ => exact fun _ => trivial
  · intro j r r' _ hr
    cases h : (states i).phase <;> simp [h,Phase.dropped] at hr

/-- A request that forgets what it was doing. -/
theorem Families.idle (F : Families cells draws states) :
    Families cells draws (Function.update states i {states i with phase := .idle}) := by
  refine F.change (fun S k b hb => ⟨S,b,hb,rfl,rfl⟩) F.chained ?_ (List.Subset.refl _)
    (fun j _ => F.phases j) trivial fun _ _ _ _ => nofun
  simp [Control.owned,Phase.child]

/-- Draws that nobody keeps. -/
theorem Families.mono (F : Families cells draws states) {draws' : ℕ} (h : draws≤draws') :
    Families cells draws' states :=
  {F with
    used := fun S k a ha =>
      ⟨(F.used S k a ha).1.trans_le h,(F.used S k a ha).2.trans_le h⟩
    ownedDrawn := fun i n hn => (F.ownedDrawn i n hn).trans_le h}

/-- A draw that a request keeps. -/
theorem Families.draw (F : Families cells draws states) (i : ℕ) :
    Families cells (draws+1)
      (Function.update states i {states i with drawn := draws::(states i).drawn}) := by
  have howned : ∀ j, ∀ n∈(Function.update states i
      {states i with drawn := draws::(states i).drawn} j).owned,
      n∈(states j).owned ∨ (j=i ∧ n=draws) := by
    intro j n hn
    by_cases hj : j=i
    · subst hj
      rw [Function.update_self] at hn
      simp only [Control.owned,List.mem_append,List.mem_cons] at hn ⊢
      tauto
    · rw [Function.update_of_ne hj] at hn
      exact .inl hn
  have hphase : ∀ j, (Function.update states i
      {states i with drawn := draws::(states i).drawn} j).phase=(states j).phase := by
    intro j
    by_cases hj : j=i
    · subst hj
      rw [Function.update_self]
    · rw [Function.update_of_ne hj]
  constructor
  · exact F.chained
  · exact (F.mono (Nat.le_succ draws)).used
  · intro S k a ha j n hn
    by_cases hj : j=i
    · subst hj
      rw [Function.update_self] at hn
      obtain rfl|hn := List.mem_cons.mp hn
      · have hu := F.used S k a ha
        exact ⟨fun he => by rw [he] at hu; exact absurd hu.1 (Nat.lt_irrefl _),
          fun he => by rw [he] at hu; exact absurd hu.2 (Nat.lt_irrefl _)⟩
      · exact F.unused S k a ha j n hn
    · rw [Function.update_of_ne hj] at hn
      exact F.unused S k a ha j n hn
  · intro j n hn
    obtain hn|⟨_,rfl⟩ := howned j n hn
    · exact Nat.lt_succ_of_lt (F.ownedDrawn j n hn)
    · exact Nat.lt_succ_self n
  · intro j
    by_cases hj : j=i
    · subst hj
      rw [Function.update_self]
      have hnot : draws∉(states j).owned := fun hm =>
        absurd (F.ownedDrawn j draws hm) (Nat.lt_irrefl _)
      have hnd := F.ownedOnce j
      simp only [Control.owned,List.mem_append,not_or] at hnot hnd ⊢
      rw [List.nodup_append] at hnd ⊢
      refine ⟨hnd.1,List.nodup_cons.mpr ⟨hnot.2,hnd.2.1⟩,?_⟩
      intro x hx y hy
      obtain rfl|hy := List.mem_cons.mp hy
      · exact fun he => hnot.1 (he ▸ hx)
      · exact hnd.2.2 x hx y hy
    · rw [Function.update_of_ne hj]
      exact F.ownedOnce j
  · intro j k hjk n hn hn'
    obtain hj|⟨hj,he⟩ := howned j n hn
    · obtain hk|⟨_,he⟩ := howned k n hn'
      · exact F.ownedApart j k hjk n hj hk
      · exact absurd (F.ownedDrawn j n hj) (by omega)
    · obtain hk|⟨hk,_⟩ := howned k n hn'
      · exact absurd (F.ownedDrawn k n hk) (by omega)
      · exact hjk (hj.trans hk.symm)
  · intro j
    rw [hphase]
    exact F.phases j
  · intro j k r r' hjk hj hk
    rw [hphase] at hj hk
    exact F.retiredApart j k r r' hjk hj hk

end Ending

end Invariant

section Requests

open AuthService PasswordResetService RefreshTokenService JWTService

/-- The request has no uncommitted or committed child. -/
abbrev Control.free (s : Control) : Prop := s.phase.child=[]

/-- Effects that at most revoke tokens. -/
def Harmless (op : Effect) : Prop :=
  (∀ a∈accesses op,elsewhere a) ∨ op=.sql .commit ∨ op=.sql .rollback ∨
    ∃ q f, op=.sql (.update .refreshTokens q f) ∧ Revokes f

/-- Footprints that avoid the token table are harmless. -/
theorem harmless_of_inside {α : Type} {p : Action α} {fp : List Access} (hp : Inside p fp)
    (hfp : ∀ a∈fp,elsewhere a ∨ a=.commit ∨ a=.rollback) : p.Within Harmless := by
  refine Program.within_mono (fun op hop => ?_) hp
  by_cases hc : op=.sql .commit
  · exact .inr (.inl hc)
  · by_cases hr : op=.sql .rollback
    · exact .inr (.inr (.inl hr))
    · refine .inl fun a ha => ?_
      obtain h|h|h := hfp a (hop a ha)
      · exact h
      · subst h
        exact absurd ha (by revert hc; rcases op with (_|_)|(_|_) <;> simp [accesses])
      · subst h
        exact absurd ha (by revert hr; rcases op with (_|_)|(_|_) <;> simp [accesses])

/-- Harmless actions may run at any time before an exchange. -/
theorem follows_harmless {α : Type} {p : Action α} {s : Control} (hp : p.Within Harmless)
    (hs : s.free) : p.Follows protocol s fun s' _ => s'.free := by
  induction p generalizing s with
  | pure a => exact hs
  | raise e => exact hs
  | call op k ih =>
    intro r _
    obtain h|h|h|⟨q,f,h,hf⟩ := hp.1
    · exact ⟨s,moves_elsewhere s r h,ih r (hp.2 r) hs⟩
    · subst h
      refine ⟨{s with phase := s.phase.committed},rfl,ih r (hp.2 r) ?_⟩
      revert hs
      cases h : s.phase <;> simp [Control.free,h,Phase.child,Phase.committed]
    · subst h
      refine ⟨{s with phase := s.phase.dropped},rfl,ih r (hp.2 r) ?_⟩
      revert hs
      cases h : s.phase <;> simp [Control.free,h,Phase.child,Phase.dropped]
    · subst h
      exact ⟨{s with phase := .idle},⟨hf,.inl ⟨hs,rfl⟩⟩,ih r (hp.2 r) rfl⟩

/-- A part that leaves the tokens alone may run in any free phase. -/
theorem bind_harmless {α β : Type} {p : Action α} {f : α → Action β} {s : Control}
    {R : Control → Except Failure β → Prop} (hp : p.Within Harmless) (hs : s.free)
    (hok : ∀ s' a, s'.free → (f a).Follows protocol s' R)
    (herror : ∀ s' e, s'.free → R s' (.error e)) : (p.bind f).Follows protocol s R :=
  (follows_harmless hp hs).bind hok herror

/-- Actions elsewhere leave the phase of an exchange alone. -/
theorem bind_elsewhere {α β : Type} {p : Action α} {f : α → Action β} {s : Control}
    {R : Control → Except Failure β → Prop} {fp : List Access} (hp : Inside p fp)
    (hfp : ∀ a∈fp,elsewhere a) (hok : ∀ a, (f a).Follows protocol s R)
    (herror : ∀ e, R s (.error e)) : (p.bind f).Follows protocol s R :=
  Program.Follows.bind_of_within hp
    (fun _ r hop => moves_elsewhere s r fun a ha => hfp a (hop a ha)) hok herror

/-- A draw that the request keeps. -/
theorem bind_draw {β : Type} {f : UUID → Action β} {s : Control}
    {R : Control → Except Failure β → Prop}
    (hok : ∀ n, n∉s.owned → (f ⟨n⟩).Follows protocol {s with drawn := n::s.drawn} R) :
    (uuid4.bind f).Follows protocol s R :=
  fun n hn => ⟨{s with drawn := n::s.drawn},.inr rfl,hok n hn⟩

/-- An insertion of a root or of a child. -/
theorem bind_insert {β : Type} {f : Unit → Action β} {s s' : Control} {row : RefreshToken}
    {R : Control → Except Failure β → Prop} (hs : s.free)
    (h : InsertsRoot s row s' ∨ InsertsChild s row s') (hok : (f ()).Follows protocol s' R)
    (herror : ∀ t e, t.free → R t (.error e)) :
    ((insertRow .refreshTokens row).bind f).Follows protocol s R := by
  simp only [insertRow,sql,Program.monad_bind,Program.call_bind,Program.pure_bind]
  intro outcome _
  cases outcome with
  | inserted => exact ⟨s',.inr ⟨rfl,hs,h⟩,hok⟩
  | duplicateKey =>
    exact ⟨{s with phase := .idle},.inl ⟨by simp,hs,rfl⟩,herror _ _ rfl⟩
  | invalidValue =>
    exact ⟨{s with phase := .idle},.inl ⟨by simp,hs,rfl⟩,herror _ _ rfl⟩

/-- Issuing tokens inserts the root of a new family. -/
theorem follows_issueForUser (d : Deployment) (userId : UUID) (ip ua : Option String)
    {s : Control} (hs : s.free) :
    (issueForUser d userId ip ua).Follows protocol s fun s' _ => s'.free := by
  refine bind_draw fun m hm => ?_
  refine bind_elsewhere (inside_createSession _ _ _ _) (by decide) (fun session => ?_) fun _ => hs
  refine bind_draw fun n hn => ?_
  refine bind_elsewhere (inside_issueRefreshToken _ _ _ _ _) (by decide) (fun issued => ?_)
    fun _ => hs
  have hnm : n≠m := by
    rintro rfl
    exact hn (List.mem_append_right _ List.mem_cons_self)
  refine bind_insert hs (.inl ⟨n,m,rfl,rfl,hnm,List.mem_cons_self,
    List.mem_cons_of_mem _ List.mem_cons_self,rfl,rfl⟩) ?_ fun _ _ ht => ht
  exact bind_elsewhere (inside_issueAccessToken _ _ _) (by decide) (fun _ => rfl) fun _ => rfl

/-- Retiring the held token. -/
theorem follows_markRotated {record : RefreshToken} {s : Control} (hs : s.phase=.holds record)
    (hlive : record.revokedAt=none) (newJti : UUID) :
    (RefreshTokenRepository.markRotated record newJti).Follows protocol s fun s' o =>
      o=.ok () → s'={s with phase := .retired record} := by
  have hfree : s.free := by
    show s.phase.child=[]
    rw [hs]
    rfl
  refine bind_elsewhere inside_utcNow (by decide) (fun now => ?_) fun e => by rintro ⟨⟩
  simp only [flushUpdate,updateRows,sql,Program.monad_bind,Program.call_bind,Program.pure_bind]
  intro count _
  have hrev : Revokes fun r : RefreshToken =>
      {r with
        rotatedAt := some now
        revokedAt := some now
        revocationReason := some "rotated"
        replacedByJti := some newJti} :=
    fun a => ⟨⟨rfl,rfl,rfl,rfl,fun _ => rfl,fun _ => rfl⟩,rfl⟩
  by_cases hcount : count=1
  · refine ⟨{s with phase := .retired record},
      ⟨hrev,.inr ⟨record,hs,⟨hlive,fun a => beq_iff_eq,fun _ => rfl⟩,hcount,rfl⟩⟩,?_⟩
    simp only [hcount,if_true]
    exact fun _ => rfl
  · refine ⟨{s with phase := .idle},⟨hrev,.inl ⟨hfree,rfl⟩⟩,?_⟩
    simp only [hcount,if_false]
    rintro ⟨⟩

/-- An exchange retires the held token and inserts its child. -/
theorem follows_exchange (d : Deployment) (record : RefreshToken) (ids : RefreshIds)
    (ip ua : Option String) {s : Control} (hs : s.phase=.holds record)
    (hlive : record.revokedAt=none) (hfamily : ids.familyId=record.familyId)
    (huser : ids.userId=record.userId) :
    (exchange d record ids ip ua).Follows protocol s fun s' o =>
      ∀ pair, o=.ok pair → ∃ n, s'.phase=.inserted record.jti n := by
  refine bind_draw fun n hn => ?_
  refine bind_elsewhere (inside_issueRefreshToken _ _ _ _ _) (by decide) (fun issued => ?_)
    fun e _ => nofun
  refine (follows_markRotated (show (⟨n::s.drawn,s.phase⟩ : Control).phase=.holds record from hs) hlive ⟨n⟩).bind ?_
    fun _ _ _ _ => nofun
  intro s' _ hs'
  obtain rfl := hs' rfl
  refine bind_insert rfl (.inr ⟨n,record,rfl,rfl,List.mem_cons_self,rfl,hfamily,huser,rfl⟩) ?_
    fun _ _ _ _ => nofun
  refine bind_elsewhere (inside_touchFamily _) (by decide) (fun _ => ?_) fun _ _ =>
    nofun
  exact bind_elsewhere (inside_issueAccessToken _ _ _) (by decide) (fun _ pair _ => ⟨n,rfl⟩)
    fun _ _ => nofun

/-- The lock query for a token id. -/
theorem bind_getByJtiForUpdate {β : Type} {jti : UUID} {f : Option RefreshToken → Action β}
    {s : Control} {R : Control → Except Failure β → Prop} (hs : s.phase=.idle)
    (hnone : (f none).Follows protocol s R)
    (hsome : ∀ r, r.jti=jti → (f (some r)).Follows protocol {s with phase := .holds r} R)
    (herror : ∀ e, R s (.error e)) :
    ((RefreshTokenRepository.getByJtiForUpdate jti).bind f).Follows protocol s R := by
  simp only [RefreshTokenRepository.getByJtiForUpdate,selectRowsForUpdate,sql,
    Program.monad_bind,Program.call_bind,Program.pure_bind]
  intro rows hrows
  cases rows with
  | nil => exact ⟨s,⟨hs,.inl rfl⟩,hnone⟩
  | cons r rest =>
    cases rest with
    | nil =>
      exact ⟨{s with phase := .holds r},⟨hs,.inr ⟨r,rfl,rfl⟩⟩,
        hsome r (beq_iff_eq.mp (hrows r List.mem_cons_self))⟩
    | cons r' rest => exact ⟨s,⟨hs,.inl rfl⟩,herror _⟩

/-- Decoding a token returns its own claims. -/
theorem bind_decode {β : Type} {d : Deployment} {token : RawToken} {type : TokenType}
    {f : TokenClaims → Action β} {s : Control} {R : Control → Except Failure β → Prop}
    (hok : ∀ claims payload encoding, token=.signed payload encoding → claims.jti=payload.jti →
      (f claims).Follows protocol s R)
    (herror : ∀ e, R s (.error e)) :
    ((decodeAndValidate d token type).bind f).Follows protocol s R := by
  cases token with
  | garbage text => exact herror _
  | signed payload encoding =>
    unfold decodeAndValidate
    intro now _
    refine ⟨s,rfl,?_⟩
    dsimp only [Program.pure_bind]
    cases refusal d payload type now with
    | some failure => exact herror _
    | none => exact hok _ payload encoding rfl rfl

/-- Parsing the claims of a refresh token. -/
theorem bind_refreshIds {β : Type} {claims : TokenClaims} {f : RefreshIds → Action β}
    {s : Control} {R : Control → Except Failure β → Prop}
    (hok : ∀ ids, UUID.parse claims.jti=some ids.tokenJti → (f ids).Follows protocol s R)
    (herror : ∀ e, R s (.error e)) : ((refreshIds claims).bind f).Follows protocol s R := by
  unfold refreshIds
  split
  · rename_i sessionId familyId _ _
    split
    · rename_i ids hids
      refine hok ids ?_
      simp only [parseIds,Option.bind_eq_bind,Option.bind_eq_some_iff,Option.pure_def] at hids
      obtain ⟨jti,hjti,family,_,session,_,user,_,he⟩ := hids
      cases he
      exact hjti
    · exact herror _
  · exact herror _

/-- Bulk revocations are harmless. -/
theorem harmless_revokeWhere (q : RefreshToken → Bool) (reason : String) :
    (RefreshTokenRepository.revokeWhere q reason).Within Harmless := by
  simp only [RefreshTokenRepository.revokeWhere,utcNow,external,updateRows,sql,
    Program.monad_bind,Program.call_bind,Program.pure_bind,Program.monad_pure]
  exact ⟨.inl (by simp [accesses,elsewhere]),fun now => ⟨.inr (.inr (.inr ⟨_,_,rfl,fun a =>
    ⟨⟨rfl,rfl,rfl,rfl,fun _ => rfl,id⟩,rfl⟩⟩)),fun _ => trivial⟩⟩

/-- The flush of one revoked token is harmless. -/
theorem harmless_flushRevocation (pending : Option PendingRevocation) :
    (flushRevocation pending).Within Harmless := by
  cases pending with
  | none => trivial
  | some pending =>
    simp only [flushRevocation,RefreshTokenRepository.revokeToken,flushUpdate,updateRows,sql,
      Program.monad_bind,Program.call_bind,Program.pure_bind]
    refine ⟨.inr (.inr (.inr ⟨_,_,rfl,fun a => ⟨⟨rfl,rfl,rfl,rfl,fun _ => rfl,id⟩,rfl⟩⟩)),
      fun count => ?_⟩
    simp

/-- A successful rotation has inserted the child of the presented token. -/
theorem follows_rotate (d : Deployment) (token : RawToken) (ip ua : Option String) {s : Control}
    (hs : s.phase=.idle) :
    (rotate d token ip ua).Follows protocol s fun s' o => ∀ pair, o=.ok pair →
      ∃ payload encoding jti n, token=.signed payload encoding ∧
        UUID.parse payload.jti=some jti ∧ s'.phase=.inserted jti n := by
  refine bind_decode (fun claims payload encoding htoken hjti => ?_) fun _ _ => nofun
  refine bind_refreshIds (fun ids hids => ?_) fun _ _ => nofun
  refine bind_getByJtiForUpdate hs (fun _ => nofun) (fun record hrecord => ?_) fun _ _ => nofun
  simp only [Program.monad_throw,Program.monad_bind]
  split
  · exact fun _ => nofun
  · rename_i hclaims
    split
    · exact fun _ => nofun
    · refine bind_elsewhere (inside_isFamilyActive _) (by decide) (fun active => ?_)
        fun _ _ => nofun
      split
      · exact fun _ => nofun
      · refine bind_elsewhere inside_utcNow (by decide) (fun now => ?_) fun _ _ => nofun
        split
        · exact fun _ => nofun
        · split
          · refine bind_harmless (harmless_revokeWhere _ _) rfl (fun s' _ _ => ?_)
              fun _ _ _ _ => nofun
            refine bind_elsewhere (inside_revokeSessionsWhere _) (by decide) (fun _ _ => nofun)
              fun _ _ => nofun
          · rename_i hlive
            simp only [ne_eq,not_or,not_not] at hclaims
            simp only [Bool.or_eq_true,Option.isSome_iff_ne_none,ne_eq,not_or,not_not] at hlive
            refine (follows_exchange d record ids ip ua rfl hlive.1 hclaims.2.symm
              hclaims.1.symm).mono fun s' o ho pair hpair => ?_
            obtain ⟨n,hn⟩ := ho pair hpair
            exact ⟨payload,encoding,record.jti,n,htoken,by rw [←hjti,hids,hrecord],hn⟩

/-- Actions that avoid the token table may run at any time. -/
theorem bind_anywhere {α β : Type} {p : Action α} {f : α → Action β} {s : Control}
    {R : Control → Except Failure β → Prop} {fp : List Access} (hp : Inside p fp)
    (hfp : ∀ a∈fp,elsewhere a ∨ a=.commit ∨ a=.rollback)
    (hok : ∀ s' a, (f a).Follows protocol s' R) (herror : ∀ s' e, R s' (.error e)) :
    (p.bind f).Follows protocol s R := by
  have hh := harmless_of_inside hp hfp
  induction p generalizing s with
  | pure a => exact hok s a
  | raise e => exact herror s e
  | call op k ih =>
    intro r _
    obtain h|h|h|⟨q,g,h,_⟩ := hh.1
    · exact ⟨s,moves_elsewhere s r h,ih r (hp.2 r) (hh.2 r)⟩
    · subst h
      exact ⟨{s with phase := s.phase.committed},rfl,ih r (hp.2 r) (hh.2 r)⟩
    · subst h
      exact ⟨{s with phase := s.phase.dropped},rfl,ih r (hp.2 r) (hh.2 r)⟩
    · subst h
      have := hfp (.update .refreshTokens) (hp.1 _ (by simp [accesses]))
      simp [elsewhere] at this

/-- The error handlers of a refresh never return tokens. -/
theorem follows_refreshFailed (d : Deployment) (ip ua : Option String) (failure : Failure)
    (s : Control) :
    (refreshFailed d ip ua failure).Follows protocol s fun _ o => ∃ e, o=.error e := by
  unfold refreshFailed
  split
  · exact bind_anywhere (inside_markAccessSessionRevoked d _) (by decide) (fun s' _ =>
      bind_anywhere (inside_logEvent _ _ _ _ _ _ _ _) (by decide) (fun s' _ =>
      bind_anywhere inside_commit (by decide) (fun _ _ => ⟨_,rfl⟩) fun _ e => ⟨e,rfl⟩) fun _ e => ⟨e,rfl⟩)
      fun _ e => ⟨e,rfl⟩
  · exact bind_anywhere (inside_logEvent _ _ _ _ _ _ _ _) (by decide) (fun s' _ =>
      bind_anywhere inside_commit (by decide) (fun _ _ => ⟨_,rfl⟩) fun _ e => ⟨e,rfl⟩) fun _ e => ⟨e,rfl⟩
  · exact ⟨_,rfl⟩

/-- A successful refresh has committed the child of the presented token. -/
theorem follows_refreshTokens (d : Deployment) (token : RawToken) (ip ua : Option String)
    {s : Control} (hs : s.phase=.idle) :
    (refreshTokens d token ip ua).Follows protocol s fun s' o => ∀ pair, o=.ok pair →
      ∃ payload encoding jti n, token=.signed payload encoding ∧
        UUID.parse payload.jti=some jti ∧ s'.phase=.exchanged jti n := by
  have hrot : (Program.handle (rotate d token ip ua) (refreshFailed d ip ua)).Follows protocol s
      fun s' o => ∀ pair, o=.ok pair → ∃ payload encoding jti n,
        token=.signed payload encoding ∧ UUID.parse payload.jti=some jti ∧
          s'.phase=.inserted jti n := by
    refine (follows_rotate d token ip ua hs).handle (fun s' pair h => h) fun s' e _ => ?_
    refine (follows_refreshFailed d ip ua e s').mono fun s'' o ho pair hpair => ?_
    obtain ⟨e',rfl⟩ := ho
    cases hpair
  refine hrot.bind (fun s' pair h => ?_) fun _ _ _ _ => nofun
  obtain ⟨payload,encoding,jti,n,htoken,hjti,hphase⟩ := h pair rfl
  refine bind_elsewhere (inside_logEvent _ _ _ _ _ _ _ _) (by decide) (fun _ => ?_) fun _ _ => nofun
  refine fun _ _ => ⟨{s' with phase := s'.phase.committed},rfl,fun _ _ => ?_⟩
  exact ⟨payload,encoding,jti,n,htoken,hjti,by simp [hphase,Phase.committed]⟩

/-- Signing out revokes and exchanges nothing. -/
theorem follows_revokeRefreshToken (d : Deployment) (token : RawToken) (revokeFamily : Bool)
    (ip ua : Option String) {s : Control} (hs : s.phase=.idle) :
    (revokeRefreshToken d token revokeFamily ip ua).Follows protocol s fun s' _ => s'.free := by
  have hfree : s.free := by
    show s.phase.child=[]
    rw [hs]
    rfl
  have hrevoke : (revoke d token revokeFamily "logout").Follows protocol s
      fun s' _ => s'.free := by
    refine bind_decode (fun claims _ _ _ _ => ?_) fun _ => hfree
    refine bind_refreshIds (fun ids _ => ?_) fun _ => hfree
    refine bind_getByJtiForUpdate hs hfree (fun record _ => ?_) fun _ => hfree
    simp only [Program.monad_throw,Program.monad_bind]
    split
    · exact rfl
    · split
      · exact rfl
      · split
        · exact rfl
        · split
          · refine bind_harmless (harmless_revokeWhere _ _) rfl (fun s' _ hs' => ?_)
              fun _ _ h => h
            exact bind_elsewhere (inside_revokeSessionsWhere _) (by decide) (fun _ => hs')
              fun _ => hs'
          · exact fun _ _ => ⟨_,rfl,rfl⟩
  refine hrevoke.bind (fun s' result hs' => ?_) fun _ _ h => h
  cases result with
  | none =>
    refine bind_elsewhere (inside_logEvent _ _ _ _ _ _ _ _) (by decide) (fun _ => ?_)
      fun _ => hs'
    exact follows_harmless (harmless_of_inside inside_commit (by decide)) hs'
  | some result =>
    refine bind_elsewhere (inside_markAccessSessionRevoked d _) (by decide) (fun _ => ?_)
      fun _ => hs'
    refine bind_harmless (harmless_flushRevocation _) hs' (fun s'' _ hs'' => ?_) fun _ _ h => h
    refine bind_elsewhere (inside_logEvent _ _ _ _ _ _ _ _) (by decide) (fun _ => ?_)
      fun _ => hs''
    exact follows_harmless (harmless_of_inside inside_commit (by decide)) hs''

/-- Changing a password revokes and exchanges nothing. -/
theorem harmless_changePassword (d : Deployment) (user : LoadedUser)
    (record : PasswordResetToken) (now : Instant) (newPassword identifier account : String)
    (ip ua : Option String) :
    (changePassword d user record now newPassword identifier account ip ua).Within Harmless := by
  refine Program.within_bind (harmless_of_inside (inside_hashPassword d _) (by decide)) fun _ => ?_
  refine Program.within_bind (harmless_of_inside (inside_flushUpdate _ _ _) (by decide))
    fun _ => ?_
  refine Program.within_bind (harmless_of_inside (inside_flushUpdate _ _ _) (by decide))
    fun _ => ?_
  refine Program.within_bind
    (harmless_of_inside (inside_listActiveSessionIdsForUser _) (by decide)) fun ids => ?_
  refine Program.within_bind (harmless_revokeWhere _ _) fun _ => ?_
  refine Program.within_bind (harmless_of_inside (inside_revokeSessionsWhere _) (by decide))
    fun _ => ?_
  refine Program.within_bind
    (harmless_of_inside (inside_markAccessSessionsRevoked d ids) (by decide)) fun _ => ?_
  refine Program.within_bind (harmless_of_inside (inside_clearFailures _ _ _) (by decide))
    fun _ => ?_
  refine Program.within_bind (harmless_of_inside (inside_clearFailures _ _ _) (by decide))
    fun _ => ?_
  refine Program.within_bind (harmless_of_inside (inside_logEvent _ _ _ _ _ _ _ _) (by decide))
    fun _ => ?_
  exact ⟨.inr (.inl rfl),fun _ => trivial⟩

/-- A password reset revokes and exchanges nothing. -/
theorem harmless_resetPassword (d : Deployment) (email code newPassword : String)
    (ip ua : Option String) :
    (resetPassword d email code newPassword ip ua).Within Harmless := by
  refine Program.within_bind (harmless_of_inside (inside_assertNotLocked _ _ _) (by decide))
    fun _ => ?_
  refine Program.within_bind (harmless_of_inside (inside_assertNotLocked _ _ _) (by decide))
    fun _ => ?_
  refine Program.within_bind (harmless_of_inside (inside_load _) (by decide)) fun found => ?_
  have hrefuse := fun user => harmless_of_inside
    (inside_refuseCode d (d.lower email++":"++orUnknown ip) (d.lower email) user) (by decide)
  cases found with
  | none => exact hrefuse none
  | some user =>
    simp only [Program.monad_throw,Program.monad_bind]
    split
    · trivial
    · refine Program.within_bind
        (harmless_of_inside (inside_getActiveForUserByHash _ _) (by decide)) fun record => ?_
      cases record with
      | none => exact hrefuse _
      | some record =>
        simp only []
        split
        · exact hrefuse _
        · refine Program.within_bind (harmless_of_inside inside_utcNow (by decide)) fun now => ?_
          split
          · exact hrefuse _
          · exact harmless_changePassword _ _ _ _ _ _ _ _ _

/-- The part of a sign-in that may issue tokens. -/
theorem follows_grantAccess (d : Deployment) (user : LoadedUser) (email identifier : String)
    (ip ua : Option String) {s : Control} (hs : s.free) :
    (grantAccess d user email identifier ip ua).Follows protocol s fun s' _ => s'.free := by
  refine bind_harmless (harmless_of_inside (inside_clearFailures _ _ _) (by decide)) hs
    (fun s₁ _ h₁ => ?_) fun _ _ h => h
  refine bind_harmless (harmless_of_inside (inside_clearFailures _ _ _) (by decide)) h₁
    (fun s₂ _ h₂ => ?_) fun _ _ h => h
  simp only [Program.monad_bind,Program.monad_pure]
  split
  · exact bind_harmless (harmless_of_inside (inside_createLoginChallenge _ _ _) (by decide)) h₂
      (fun _ _ h => h) fun _ _ h => h
  · refine (follows_issueForUser d user.row.id ip ua h₂).bind (fun s₃ _ h₃ => ?_) fun _ _ h => h
    refine bind_harmless (harmless_of_inside (inside_logEvent _ _ _ _ _ _ _ _) (by decide)) h₃
      (fun s₄ _ h₄ => ?_) fun _ _ h => h
    exact bind_harmless (harmless_of_inside inside_commit (by decide)) h₄ (fun _ _ h => h)
      fun _ _ h => h

/-- The part of an answered challenge that may issue tokens. -/
theorem follows_redeemChallenge (d : Deployment) (user : LoadedUser)
    (factor : TwoFactorService.PendingFactor) (challengeId identifier : String)
    (ip ua : Option String) {s : Control} (hs : s.free) :
    (redeemChallenge d user factor challengeId identifier ip ua).Follows protocol s
      fun s' _ => s'.free := by
  refine bind_harmless (harmless_of_inside (inside_clearFailures _ _ _) (by decide)) hs
    (fun s₁ _ h₁ => ?_) fun _ _ h => h
  refine bind_harmless (harmless_of_inside (inside_deleteLoginChallenge _) (by decide)) h₁
    (fun s₂ _ h₂ => ?_) fun _ _ h => h
  refine bind_harmless (harmless_of_inside (inside_flushFactor factor) (by decide)) h₂
    (fun s₃ _ h₃ => ?_) fun _ _ h => h
  refine (follows_issueForUser d user.row.id ip ua h₃).bind (fun s₄ _ h₄ => ?_) fun _ _ h => h
  refine bind_harmless (harmless_of_inside (inside_logEvent _ _ _ _ _ _ _ _) (by decide)) h₄
    (fun s₅ _ h₅ => ?_) fun _ _ h => h
  exact bind_harmless (harmless_of_inside inside_commit (by decide)) h₅ (fun _ _ h => h)
    fun _ _ h => h

/-- Checking a second factor and redeeming the challenge. -/
theorem follows_answerChallenge (d : Deployment) (user : LoadedUser)
    (challengeId identifier : String) (totp backup ip ua : Option String) {s : Control}
    (hs : s.free) :
    (answerChallenge d user challengeId identifier totp backup ip ua).Follows protocol s
      fun s' _ => s'.free := by
  refine bind_harmless ?_ hs
    (fun s' factor h => follows_redeemChallenge d user factor _ _ ip ua h) fun _ _ h => h
  refine Program.within_handle
    (harmless_of_inside (inside_verifyForLogin d user totp backup) (by decide)) fun failure => ?_
  simp only [Program.monad_throw,Program.monad_bind]
  split
  · exact Program.within_bind (harmless_of_inside (inside_recordFailure _ _ _) (by decide))
      fun _ => harmless_of_inside (inside_refuse _ _ _ _ _ _) (by decide)
  · trivial

/-- Signing in at most issues tokens of a new family. -/
theorem follows_login (d : Deployment) (email password : String) (ip ua : Option String)
    {s : Control} (hs : s.free) :
    (login d email password ip ua).Follows protocol s fun s' _ => s'.free := by
  have hreject := fun user s (hs : Control.free s) => follows_harmless
    (harmless_of_inside (inside_rejectPassword d user (d.lower email)
      (d.lower email++":"++orUnknown ip) ip ua) (by decide)) hs
  refine bind_harmless (harmless_of_inside (inside_load _) (by decide)) hs
    (fun s₁ found h₁ => ?_) fun _ _ h => h
  cases found with
  | none =>
    exact bind_harmless (harmless_of_inside (inside_assertNotLocked _ _ _) (by decide)) h₁
      (fun s₂ _ h₂ => hreject none s₂ h₂) fun _ _ h => h
  | some user =>
    simp only [Program.monad_throw,Program.monad_bind]
    split
    · exact h₁
    · refine bind_harmless (harmless_of_inside (inside_assertNotLocked _ _ _) (by decide)) h₁
        (fun s₂ _ h₂ => ?_) fun _ _ h => h
      refine bind_harmless (harmless_of_inside (inside_assertNotLocked _ _ _) (by decide)) h₂
        (fun s₃ _ h₃ => ?_) fun _ _ h => h
      split
      · exact hreject (some user) s₃ h₃
      · split
        · exact follows_harmless (harmless_of_inside (inside_refuse _ _ _ _ _ _) (by decide)) h₃
        · exact follows_grantAccess d user _ _ ip ua h₃

/-- Answering a challenge at most issues tokens of a new family. -/
theorem follows_verifyLoginChallenge (d : Deployment) (challengeId : String)
    (totp backup ip ua : Option String) {s : Control} (hs : s.free) :
    (verifyLoginChallenge d challengeId totp backup ip ua).Follows protocol s
      fun s' _ => s'.free := by
  refine bind_harmless (harmless_of_inside (inside_assertNotLocked _ _ _) (by decide)) hs
    (fun s₁ _ h₁ => ?_) fun _ _ h => h
  refine bind_harmless (harmless_of_inside (inside_getLoginChallenge _) (by decide)) h₁
    (fun s₂ found h₂ => ?_) fun _ _ h => h
  cases found with
  | none => exact h₂
  | some challenge =>
    simp only [Program.monad_throw,Program.monad_bind]
    split
    · refine bind_harmless (harmless_of_inside (inside_recordFailure _ _ _) (by decide)) h₂
        (fun s₃ _ h₃ => ?_) fun _ _ h => h
      refine bind_harmless (harmless_of_inside (inside_deleteLoginChallenge _) (by decide)) h₃
        (fun s₄ _ h₄ => ?_) fun _ _ h => h
      exact follows_harmless (harmless_of_inside (inside_refuse _ _ _ _ _ _) (by decide)) h₄
    · split
      · exact h₂
      · refine bind_harmless (harmless_of_inside (inside_load _) (by decide)) h₂
          (fun s₃ found h₃ => ?_) fun _ _ h => h
        cases found with
        | none => exact h₃
        | some user =>
          dsimp only
          split
          · refine bind_harmless
              (harmless_of_inside (inside_deleteLoginChallenge _) (by decide)) h₃
              (fun s₄ _ h₄ => ?_) fun _ _ h => h
            exact follows_harmless
              (harmless_of_inside (inside_refuse _ _ _ _ _ _) (by decide)) h₄
          · exact follows_answerChallenge d user _ _ totp backup ip ua h₃

end Requests

section Runs

/-- A response to a refresh is justified by a committed exchange of its token. -/
def Ends (s : Control) (o : Except Failure Served) : Prop :=
  ∀ c pair token, o=.ok ⟨c,.tokens pair⟩ → c.request=.refreshTokens token →
    ∃ payload encoding jti n, token=.signed payload encoding ∧
      UUID.parse payload.jti=some jti ∧ s.phase=.exchanged jti n

/-- A request that is no refresh needs no justification. -/
theorem ends_of_ne {d : Deployment} {client : ClientRequest}
    (h : (respond d client).Follows protocol .start fun _ _ => True)
    (hne : ∀ token, client.request≠.refreshTokens token) :
    (served d client).Follows protocol .start Ends := by
  refine h.bind ?_ ?_
  · intro s response _ c pair token ho hc
    cases ho
    exact absurd hc (hne token)
  · intro s e _ c pair token ho
    cases ho

/-- Every request follows the protocol of the token table. -/
theorem follows_served (d : Deployment) (client : ClientRequest) :
    (served d client).Follows protocol .start Ends := by
  obtain ⟨request,ip,ua⟩ := client
  have hfree : Control.start.free := rfl
  have harmless : ∀ request fp, footprint request=fp → (∀ token, request≠.refreshTokens token) →
      (∀ a∈fp,elsewhere a ∨ a=.commit ∨ a=.rollback) →
      (served d ⟨request,ip,ua⟩).Follows protocol .start Ends := by
    intro request fp he hne hfp
    have h := follows_harmless
      (harmless_of_inside (inside_respond d ⟨request,ip,ua⟩) (he.symm ▸ hfp)) hfree
    exact ends_of_ne (h.mono fun _ _ _ => trivial) hne
  cases request with
  | refreshTokens token =>
    have h : (respond d ⟨.refreshTokens token,ip,ua⟩).Follows protocol .start
        fun s o => ∀ pair, o=.ok (.tokens pair) → ∃ payload encoding jti n,
          token=.signed payload encoding ∧ UUID.parse payload.jti=some jti ∧
            s.phase=.exchanged jti n := by
      refine (follows_refreshTokens d token ip ua rfl).bind ?_ fun _ _ _ _ => nofun
      intro s pair hpair pair' ho
      cases ho
      exact hpair pair rfl
    refine h.bind ?_ ?_
    · intro s response hpair c pair token' ho hc
      cases ho
      cases hc
      exact hpair pair rfl
    · intro s e _ c pair token' ho
      cases ho
  | login email password =>
    refine ends_of_ne ?_ fun _ => nofun
    exact (follows_login d email password ip ua hfree).bind (fun _ _ _ => trivial)
      fun _ _ _ => trivial
  | verifyLoginChallenge challengeId totp backup =>
    refine ends_of_ne ?_ fun _ => nofun
    exact (follows_verifyLoginChallenge d challengeId totp backup ip ua hfree).bind
      (fun _ _ _ => trivial) fun _ _ _ => trivial
  | revokeRefreshToken token revokeFamily =>
    refine ends_of_ne ?_ fun _ => nofun
    exact (follows_revokeRefreshToken d token revokeFamily ip ua rfl).bind
      (fun _ _ _ => trivial) fun _ _ _ => trivial
  | resetPassword email code newPassword =>
    refine ends_of_ne ?_ fun _ => nofun
    exact bind_harmless (harmless_resetPassword d email code newPassword ip ua) hfree
      (fun _ _ _ => trivial) fun _ _ _ => trivial
  | register => exact harmless _ registration rfl (fun _ => nofun) (by decide)
  | requestReset => exact harmless _ resetRequest rfl (fun _ => nofun) (by decide)
  | currentSession => exact harmless _ authentication rfl (fun _ => nofun) (by decide)
  | setupTwoFactor => exact harmless _ factorEndpoint rfl (fun _ => nofun) (by decide)
  | enableTwoFactor => exact harmless _ factorEndpoint rfl (fun _ => nofun) (by decide)
  | disableTwoFactor => exact harmless _ factorEndpoint rfl (fun _ => nofun) (by decide)
  | regenerateBackupCodes => exact harmless _ factorEndpoint rfl (fun _ => nofun) (by decide)

/-- The invariant of the shared state. -/
def Inv (s : Shared) (_ : List (Event authSignature)) (states : ℕ → Control) : Prop :=
  Families (s.tables.cells .refreshTokens) s.env.draws states

/-- What a request keeps of its control state when it ends. -/
def ended (s : Control) : Control := {s with phase := s.phase.dropped}

/-- An answered statement keeps the invariant. -/
theorem inv_statement {s s' : Tables authSchema} {draws i : ℕ} {states : ℕ → Control}
    {stmt : Statement authSchema} {reply : stmt.Reply} {t : Control}
    (F : Families (s.cells .refreshTokens) draws states)
    (hm : moves (states i) (.sql stmt) reply t)
    (hf : s.fire i stmt=some (some reply,s')) :
    Families (s'.cells .refreshTokens) draws (Function.update states i t) := by
  have hsame : s'.cells .refreshTokens=s.cells .refreshTokens → t=states i →
      Families (s'.cells .refreshTokens) draws (Function.update states i t) := by
    intro hc ht
    rw [hc,ht,Function.update_eq_self]
    exact F
  cases stmt with
  | select u q =>
    cases hf
    exact hsame rfl hm
  | selectForUpdate u q =>
    cases u with
    | refreshTokens =>
      obtain ⟨rows,hr,rfl,hs⟩ := Tables.locking_answer hf
      rw [hs,Tables.write_cells_self (_ : Tables authSchema)]
      obtain ⟨hidle,rfl|⟨r,hrows,rfl⟩⟩ := hm
      · refine F.lock hr Revised.refl ?_ ?_ ?_ ?_ <;> rw [hidle]
        · rfl
        · rfl
        · trivial
        · exact fun _ _ _ _ => nofun
      · obtain ⟨_,k,_,_,_,hk⟩ := held_of_matched (fun a => some a) hr
          (hrows ▸ List.mem_singleton_self r) rfl
        exact F.lock hr Revised.refl rfl (by rw [hidle]; rfl) ⟨k,hk⟩ fun _ _ _ _ => nofun
    | _ => exact hsame (fire_cells_of_ne hf (by simp [accesses])) hm
  | insert u row =>
    cases u with
    | refreshTokens =>
      obtain ⟨hne,hfree,rfl⟩|⟨hins,hfree,hroot|hchild⟩ := hm
      · obtain ⟨_,rfl⟩|⟨he,_⟩ := Tables.fire_insert_answer hf
        · exact F.idle
        · exact absurd he hne
      · obtain ⟨hne,_⟩|⟨_,_,_,rfl⟩ := Tables.fire_insert_answer hf
        · exact absurd hins hne
        · rw [Tables.write_cells_self (_ : Tables authSchema)]
          exact F.addRoot hfree hroot
      · obtain ⟨hne,_⟩|⟨_,_,_,rfl⟩ := Tables.fire_insert_answer hf
        · exact absurd hins hne
        · rw [Tables.write_cells_self (_ : Tables authSchema)]
          exact F.addChild hchild
    | _ => exact hsame (fire_cells_of_ne hf (by simp [accesses])) hm
  | update u q f =>
    cases u with
    | refreshTokens =>
      obtain ⟨rows,hr,hn,hs⟩ := Tables.fire_update_answer hf
      rw [hs,Tables.write_cells_self (_ : Tables authSchema)]
      obtain ⟨hrev,⟨hfree,rfl⟩|⟨r,hphase,hret,hone,rfl⟩⟩ := hm
      · exact F.lock hr (fun a => (hrev a).1) rfl hfree trivial fun _ _ _ _ => nofun
      · obtain ⟨hhold,hapart⟩ := F.phaseHolds_retired hr hrev hphase hret (hn ▸ hone)
        refine F.lock hr (fun a => (hrev a).1) rfl (by rw [hphase]; rfl) hhold ?_
        intro j r₁ r₂ hj h₁ h₂
        cases h₁
        exact hapart j r₂ hj h₂
    | _ => exact hsame (fire_cells_of_ne hf (by simp [accesses])) hm
  | delete u q =>
    cases u with
    | refreshTokens => exact hm.elim
    | _ => exact hsame (fire_cells_of_ne hf (by simp [accesses])) hm
  | commit =>
    cases hf
    cases hm
    exact F.settle i
  | rollback =>
    cases hf
    cases hm
    exact F.release i

/-- What every kind of move has to keep. -/
theorem obligations (d : Deployment) :
    Obligations authMachine protocol .start Ends Inv (Starts d) ended := by
  constructor
  · rintro sys p ⟨client,rfl⟩
    exact follows_served d client
  · intro t o h c pair token ho hc
    obtain ⟨payload,encoding,jti,n,htoken,hjti,hphase⟩ := h c pair token ho hc
    exact ⟨payload,encoding,jti,n,htoken,hjti,by simp [ended,hphase,Phase.dropped]⟩
  · intro sys states i op c s ht hf
    obtain ⟨hcells,henv⟩ := fire_progress hf
    unfold Inv
    rw [hcells,henv]
    exact ht.inv
  · intro sys states i op c r s ht _ hf
    cases op with
    | external op =>
      cases op with
      | draw =>
        obtain rfl := Option.some.inj (fire_external hf).1
        exact fun hm => absurd (ht.inv.ownedDrawn i _ hm) (Nat.lt_irrefl _)
      | _ => trivial
    | sql stmt =>
      cases stmt with
      | selectForUpdate u q =>
        cases u with
        | refreshTokens =>
          obtain ⟨rows,hr,rfl,_⟩ := Tables.locking_answer (fire_sql hf).1
          exact fun r hm => (held_of_matched (fun a => some a) hr hm rfl).1
        | _ => trivial
      | _ => trivial
  · intro sys states i op k c r s t ht _ _ hm hf
    cases op with
    | sql stmt =>
      obtain ⟨hfire,henv⟩ := fire_sql hf
      unfold Inv
      rw [henv]
      exact inv_statement ht.inv hm hfire
    | external op =>
      obtain ⟨hr,rfl⟩ := fire_external hf
      have hsame : t=states i → Families (sys.shared.tables.cells .refreshTokens)
          (sys.shared.env.perform op c).2.draws (Function.update states i t) := by
        intro he
        rw [he,Function.update_eq_self]
        exact ht.inv.mono (Environment.draws_le_perform op c _)
      cases op with
      | draw =>
        obtain rfl := Option.some.inj hr
        obtain rfl|rfl := hm
        · exact hsame rfl
        · exact ht.inv.draw i
      | _ => exact hsame hm
  · intro sys states i ht _
    exact ht.inv.release i

/-- The chain laws of the committed token table. -/
structure FamiliesAreChains (rows : List RefreshToken) : Prop where
  /-- A token has at most one child. -/
  oneChild : ∀ token∈rows, (rows.filter fun r => r.parentJti==some token.jti).length≤1
  /-- A child is in the family of its parent, of the same user, and its parent
  has been exchanged and revoked. -/
  parent : ∀ token∈rows,∀ child∈rows, child.parentJti=some token.jti →
    child.familyId=token.familyId ∧ child.userId=token.userId ∧
      token.rotatedAt.isSome ∧ token.revokedAt.isSome
  /-- A family has exactly one root. -/
  oneRoot : ∀ token∈rows,
    (rows.filter fun r => r.familyId==token.familyId && r.parentJti.isNone).length=1
  /-- A family has at most one unrevoked token. -/
  oneLive : ∀ token∈rows,
    (rows.filter fun r => r.familyId==token.familyId && r.revokedAt.isNone).length≤1

/-- What holds of every reading holds of the committed rows. -/
theorem Chained.committed {s : Tables authSchema}
    (h : Chained fun i => mergedAt ∅ (s.cells .refreshTokens) i) :
    FamiliesAreChains (s.committed .refreshTokens) := by
  constructor
  · intro token _
    refine committed_filter_length_le_one s .refreshTokens _ fun i j a b ha hb hpa hpb => ?_
    exact h.childUnique i j a b token.jti ha hb (beq_iff_eq.mp hpa) (beq_iff_eq.mp hpb)
  · intro token htoken child hchild hpar
    obtain ⟨i,hi⟩ := mem_committed.mp htoken
    obtain ⟨j,hj⟩ := mem_committed.mp hchild
    obtain ⟨k,parent,hk,hjti,hfam,huser,hrot,hrev⟩ := h.parent j child token.jti hj hpar
    have hki : k=i := h.jtiUnique k i parent token hk hi hjti
    subst hki
    have he : parent=token := Option.some.inj (hk.symm.trans hi)
    subst he
    exact ⟨hfam.symm,huser.symm,hrot,hrev⟩
  · intro token htoken
    obtain ⟨i,hi⟩ := mem_committed.mp htoken
    obtain ⟨j,root,hj,hfam,hpar⟩ := h.root i token hi
    have hmem : root∈(s.committed .refreshTokens).filter
        fun r => r.familyId==token.familyId && r.parentJti.isNone :=
      List.mem_filter.mpr ⟨mem_committed.mpr ⟨j,hj⟩,by simp [hfam,hpar]⟩
    refine Nat.le_antisymm ?_ (List.length_pos_of_mem hmem)
    refine committed_filter_length_le_one s .refreshTokens _ fun i j a b ha hb hpa hpb => ?_
    simp only [Bool.and_eq_true,beq_iff_eq,Option.isNone_iff_eq_none] at hpa hpb
    exact h.rootUnique i j a b ha hb hpa.2 hpb.2 (hpa.1.trans hpb.1.symm)
  · intro token _
    refine committed_filter_length_le_one s .refreshTokens _ fun i j a b ha hb hpa hpb => ?_
    simp only [Bool.and_eq_true,beq_iff_eq,Option.isNone_iff_eq_none] at hpa hpb
    exact h.liveUnique i j a b ha hb hpa.2 hpb.2 (hpa.1.trans hpb.1.symm)

/-- Two requests that returned tokens for the same refresh token are the same. -/
theorem Families.exchanged_once {cells : List (Cell RefreshToken)} {draws i j n m : ℕ}
    {states : ℕ → Control} {jti : UUID} (F : Families cells draws states)
    (hi : (states i).phase=.exchanged jti n) (hj : (states j).phase=.exchanged jti m) : i=j := by
  have hpi := F.phases i
  have hpj := F.phases j
  rw [hi] at hpi
  rw [hj] at hpj
  obtain ⟨k,hk⟩ := hpi
  obtain ⟨l,hl⟩ := hpj
  obtain ⟨a,ha,hpa,hja⟩ := hk ∅
  obtain ⟨b,hb,hpb,hjb⟩ := hl ∅
  have hkl := (F.chained ∅).childUnique k l a b jti ha hb hpa hpb
  subst hkl
  have hab : a=b := Option.some.inj (ha.symm.trans hb)
  have hnm : n=m := UUID.mk.inj (hja.symm.trans (hab ▸ hjb))
  by_contra hne
  refine F.ownedApart i j hne n ?_ ?_
  · simp [Control.owned,hi,Phase.child]
  · simp [Control.owned,hj,Phase.child,hnm]

/-- Without tokens the invariant holds of requests that have not started. -/
theorem families_nil (draws : ℕ) : Families [] draws fun _ => .start := by
  have hnone : ∀ (S : Set ℕ) k (a : RefreshToken), mergedAt S [] k≠some a := by
    intro S k a ha
    simp [mergedAt] at ha
  constructor
  · intro S
    constructor
    · exact fun _ _ _ _ ha => absurd ha (hnone S _ _)
    · exact fun _ _ _ _ _ ha => absurd ha (hnone S _ _)
    · exact fun _ _ _ _ ha => absurd ha (hnone S _ _)
    · exact fun _ _ _ _ ha => absurd ha (hnone S _ _)
    · exact fun _ _ _ ha => absurd ha (hnone S _ _)
    · exact fun _ _ ha => absurd ha (hnone S _ _)
  · exact fun S k a ha => absurd ha (hnone S k a)
  · exact fun S k a ha => absurd ha (hnone S k a)
  · exact fun _ _ => by rintro ⟨⟩
  · exact fun _ => List.nodup_nil
  · exact fun _ _ _ _ => by rintro ⟨⟩
  · exact fun _ => trivial
  · exact fun _ _ _ _ _ => by rintro ⟨⟩

/-- Every run that starts without tokens can be tracked. -/
theorem tracked {d : Deployment} {env : Environment} {db : Database authSchema}
    {sys : AuthSystem} (hdb : db .refreshTokens=[]) (h : Reached d env db sys) :
    ∃ states, Tracks protocol .start Ends Inv sys states := by
  have hstart : Tracks protocol .start Ends Inv (idleSystem env db) fun _ => .start := by
    refine ⟨?_,?_,fun _ _ => rfl⟩
    · show Families ((db .refreshTokens).map _) env.draws _
      rw [hdb]
      exact families_nil env.draws
    · intro i p hp
      simp [idleSystem] at hp
  exact hstart.reaches (obligations d) h

/-- Families are chains in every committed state of every run, and each refresh
token is exchanged by at most one request. -/
theorem refresh_families {d : Deployment} {env : Environment} {db : Database authSchema}
    {sys : AuthSystem} (hdb : db .refreshTokens=[]) (h : Reached d env db sys) :
    FamiliesAreChains (sys.shared.tables.committed .refreshTokens) ∧
      ∀ i j c c' pair pair' token, sys.outcome i=some (.ok ⟨c,.tokens pair⟩) →
        sys.outcome j=some (.ok ⟨c',.tokens pair'⟩) → c.request=.refreshTokens token →
        c'.request=.refreshTokens token → i=j := by
  obtain ⟨states,ht⟩ := tracked hdb h
  refine ⟨(ht.inv.chained ∅).committed,?_⟩
  intro i j c c' pair pair' token hi hj hc hc'
  obtain ⟨payload,encoding,jti,n,htoken,hjti,hphase⟩ := ht.outcome hi c pair token rfl hc
  obtain ⟨payload',encoding',jti',m,htoken',hjti',hphase'⟩ :=
    ht.outcome hj c' pair' token rfl hc'
  have he : payload=payload' := (RawToken.signed.inj (htoken.symm.trans htoken')).1
  subst he
  have hj' : jti=jti' := Option.some.inj (hjti.symm.trans hjti')
  subst hj'
  exact Families.exchanged_once ht.inv hphase hphase'

/-- A sign-in followed by two requests that refresh the same token, the second
one started before the first one locks it. -/
def sampleRace : List Directive :=
  [.start (fromClient (.login "a@b" "password1")),.steps 0 19,.finish 0,
    .start (fromClient (.refreshTokens sampleRefreshToken)),
    .start (fromClient (.refreshTokens sampleRefreshToken)),.steps 2 2,.steps 1 20,.finish 1,
    .steps 2 12,.finish 2]

/-- Two renewals race for one token, and the family is still a chain. -/
theorem refresh_families_race : ∃ sys,
    Reached sampleDeployment sampleEnvironment (sampleDatabase [sampleUser] [] []) sys ∧
      (sys.shared.tables.committed .refreshTokens).length=2 ∧
      FamiliesAreChains (sys.shared.tables.committed .refreshTokens) := by
  have hlength : (follow sampleDeployment (fun _ _ => true) sampleEnvironment
      (sampleDatabase [sampleUser] [] []) sampleRace).map
      (fun sys => (sys.shared.tables.committed .refreshTokens).length)=some 2 := by
    decide +kernel
  obtain ⟨sys,hsys,hcount⟩ := Option.map_eq_some_iff.mp hlength
  have h := reached_of_follow hsys
  exact ⟨sys,h,hcount,(refresh_families rfl h).1⟩

end Runs

end BackendPlatform.RefreshFamilies
