import BackendPlatform.RequestFrames

/-!
# The rotation history

A rotation links the old token to its child in both directions: the child
names its parent, the parent names its replacement, the instant and the
reason. The links of a family then form a path from its root through all its
rows. Bulk revocations keep the links. The revocation of a single token
clears the replacement, so it keeps the history only for tokens that were
never rotated.
-/

set_option autoImplicit false

namespace BackendPlatform.RotationHistory

open ProgramTrees TransactionalTables ExpiringStore
open AuthRecords AuthEffects AuthRepositories AuthServices AuthFlows AuthFootprints
open ServerRuns ReachableStates SessionMarkers RequestFrames
open RefreshTokenService JWTService

section Histories

variable {bound bound' : ℕ} {ts : List RefreshToken}

/-- A row of the table names another one as its replacement. -/
def Follows (ts : List RefreshToken) (a b : RefreshToken) : Prop :=
  a∈ts ∧ b∈ts ∧ a.replacedByJti=some b.jti

/-- The row was retired by a rotation. -/
structure Retired (t : RefreshToken) : Prop where
  /-- It is revoked. -/
  revoked : t.revokedAt≠none
  /-- It is rotated. -/
  rotated : t.rotatedAt≠none
  /-- The reason. -/
  reason : t.revocationReason=some "rotated"

/-- The history of a token table whose identifiers are draws below a bound. -/
structure History (bound : ℕ) (ts : List RefreshToken) : Prop where
  /-- Token ids are unique. -/
  jtis : ∀ a∈ts,∀ b∈ts,a.jti=b.jti → a=b
  /-- Families are drawn. -/
  drawn : ∀ a∈ts,a.familyId.int<bound
  /-- The replacement of a row is its child. -/
  forth : ∀ t∈ts,∀ x,t.replacedByJti=some x →
    Retired t ∧ ∃ child∈ts,child.jti=x ∧ child.parentJti=some t.jti
  /-- Rotated rows have a replacement. -/
  replaced : ∀ t∈ts,t.rotatedAt≠none ∨ t.revocationReason=some "rotated" → t.replacedByJti≠none
  /-- The parent of a row was replaced by it. -/
  back : ∀ child∈ts,∀ x,child.parentJti=some x →
    ∃ t∈ts,t.jti=x ∧ t.replacedByJti=some child.jti
  /-- A family has one root. -/
  roots : ∀ a∈ts,∀ b∈ts,a.parentJti=none → b.parentJti=none → a.familyId=b.familyId → a=b
  /-- Every row is reached from the root of its family. -/
  reached : ∀ t∈ts,∃ root∈ts,root.parentJti=none ∧ root.familyId=t.familyId ∧
    Relation.ReflTransGen (Follows ts) root t

/-- A history stays one under a larger bound. -/
theorem History.mono (h : History bound ts) (hb : bound ≤ bound') : History bound' ts :=
  ⟨h.jtis,fun a ha => (h.drawn a ha).trans_le hb,h.forth,h.replaced,h.back,h.roots,h.reached⟩

/-- The empty table has a history. -/
theorem history_nil : History bound [] := by
  constructor <;> intro a ha <;> exact absurd ha List.not_mem_nil

/-- A row that was not rotated has no replacement. -/
theorem History.unreplaced (h : History bound ts) {t : RefreshToken} (ht : t∈ts)
    (hlive : t.rotatedAt=none ∨ t.revokedAt=none) : t.replacedByJti=none := by
  cases hx : t.replacedByJti with
  | none => rfl
  | some x =>
    obtain ⟨hretired,_⟩ := h.forth t ht x hx
    rcases hlive with hlive | hlive
    · exact absurd hlive hretired.rotated
    · exact absurd hlive hretired.revoked

/-- A change of rows that leaves their links alone. -/
structure KeepsLinks (ts : List RefreshToken) (f : RefreshToken → RefreshToken) : Prop where
  /-- Same token. -/
  jti : ∀ r∈ts,(f r).jti=r.jti
  /-- Same family. -/
  familyId : ∀ r∈ts,(f r).familyId=r.familyId
  /-- Same parent. -/
  parentJti : ∀ r∈ts,(f r).parentJti=r.parentJti
  /-- Same replacement. -/
  replacedByJti : ∀ r∈ts,(f r).replacedByJti=r.replacedByJti
  /-- Same rotation. -/
  rotatedAt : ∀ r∈ts,(f r).rotatedAt=r.rotatedAt
  /-- A revocation stays. -/
  revoked : ∀ r∈ts,r.revokedAt≠none → (f r).revokedAt≠none
  /-- The reason of a retired row stays, and no other row gets it. -/
  reason : ∀ r∈ts,(f r).revocationReason=r.revocationReason ∨
    r.replacedByJti=none ∧ (f r).revocationReason≠some "rotated"

/-- Such changes keep the history. -/
theorem History.revise (h : History bound ts) {f : RefreshToken → RefreshToken}
    (hf : KeepsLinks ts f) : History bound (ts.map f) := by
  have hmap : ∀ {r},r∈ts → f r∈ts.map f := fun hr => List.mem_map.mpr ⟨_,hr,rfl⟩
  constructor
  · intro a ha b hb hj
    obtain ⟨a₀,ha₀,rfl⟩ := List.mem_map.mp ha
    obtain ⟨b₀,hb₀,rfl⟩ := List.mem_map.mp hb
    rw [hf.jti a₀ ha₀,hf.jti b₀ hb₀] at hj
    rw [h.jtis a₀ ha₀ b₀ hb₀ hj]
  · intro a ha
    obtain ⟨a₀,ha₀,rfl⟩ := List.mem_map.mp ha
    rw [hf.familyId a₀ ha₀]
    exact h.drawn a₀ ha₀
  · intro t ht x hx
    obtain ⟨t₀,ht₀,rfl⟩ := List.mem_map.mp ht
    rw [hf.replacedByJti t₀ ht₀] at hx
    obtain ⟨hretired,child,hchild,hj,hp⟩ := h.forth t₀ ht₀ x hx
    have hreason : (f t₀).revocationReason=some "rotated" := by
      rcases hf.reason t₀ ht₀ with hsame | ⟨hnone,_⟩
      · rw [hsame,hretired.reason]
      · rw [hnone] at hx
        cases hx
    have hrotated : (f t₀).rotatedAt≠none := by
      rw [hf.rotatedAt t₀ ht₀]
      exact hretired.rotated
    refine ⟨⟨hf.revoked t₀ ht₀ hretired.revoked,hrotated,hreason⟩,f child,hmap hchild,?_,?_⟩
    · rw [hf.jti child hchild,hj]
    · rw [hf.parentJti child hchild,hp,hf.jti t₀ ht₀]
  · intro t ht hused
    obtain ⟨t₀,ht₀,rfl⟩ := List.mem_map.mp ht
    rw [hf.rotatedAt t₀ ht₀] at hused
    rw [hf.replacedByJti t₀ ht₀]
    rcases hused with hrotated | hreason
    · exact h.replaced t₀ ht₀ (.inl hrotated)
    · rcases hf.reason t₀ ht₀ with hsame | ⟨_,hother⟩
      · exact h.replaced t₀ ht₀ (.inr (hsame.symm.trans hreason))
      · exact absurd hreason hother
  · intro child hchild x hx
    obtain ⟨child₀,hchild₀,rfl⟩ := List.mem_map.mp hchild
    rw [hf.parentJti child₀ hchild₀] at hx
    obtain ⟨t,ht,hj,hr⟩ := h.back child₀ hchild₀ x hx
    refine ⟨f t,hmap ht,?_,?_⟩
    · rw [hf.jti t ht,hj]
    · rw [hf.replacedByJti t ht,hr,hf.jti child₀ hchild₀]
  · intro a ha b hb hpa hpb hfam
    obtain ⟨a₀,ha₀,rfl⟩ := List.mem_map.mp ha
    obtain ⟨b₀,hb₀,rfl⟩ := List.mem_map.mp hb
    rw [hf.parentJti a₀ ha₀] at hpa
    rw [hf.parentJti b₀ hb₀] at hpb
    rw [hf.familyId a₀ ha₀,hf.familyId b₀ hb₀] at hfam
    rw [h.roots a₀ ha₀ b₀ hb₀ hpa hpb hfam]
  · intro t ht
    obtain ⟨t₀,ht₀,rfl⟩ := List.mem_map.mp ht
    obtain ⟨root,hroot,hp,hfam,hpath⟩ := h.reached t₀ ht₀
    refine ⟨f root,hmap hroot,?_,?_,?_⟩
    · rw [hf.parentJti root hroot,hp]
    · rw [hf.familyId root hroot,hf.familyId t₀ ht₀,hfam]
    · refine hpath.lift f fun a b hab => ?_
      obtain ⟨ha,hb,hlink⟩ := hab
      refine ⟨hmap ha,hmap hb,?_⟩
      rw [hf.replacedByJti a ha,hf.jti b hb,hlink]

/-- A new root of a new family keeps the history. -/
theorem History.addRoot (h : History bound ts) {row : RefreshToken}
    (hjti : ∀ a∈ts,a.jti≠row.jti) (hfamily : ∀ a∈ts,a.familyId≠row.familyId)
    (hdrawn : row.familyId.int<bound) (hparent : row.parentJti=none)
    (hreplaced : row.replacedByJti=none) (hrotated : row.rotatedAt=none)
    (hreason : row.revocationReason=none) : History bound (ts++[row]) := by
  have hold : ∀ {a},a∈ts → a∈ts++[row] := fun ha => List.mem_append_left _ ha
  have hcases : ∀ {a},a∈ts++[row] → a∈ts ∨ a=row := by
    intro a ha
    simpa using ha
  constructor
  · intro a ha b hb hj
    rcases hcases ha with holdA | rfl
    · rcases hcases hb with holdB | rfl
      · exact h.jtis a holdA b holdB hj
      · exact absurd hj (hjti a holdA)
    · rcases hcases hb with holdB | rfl
      · exact absurd hj.symm (hjti b holdB)
      · rfl
  · intro a ha
    rcases hcases ha with holdA | rfl
    · exact h.drawn a holdA
    · exact hdrawn
  · intro t ht x hx
    rcases hcases ht with holdT | rfl
    · obtain ⟨hretired,child,hchild,hrest⟩ := h.forth t holdT x hx
      exact ⟨hretired,child,hold hchild,hrest⟩
    · rw [hreplaced] at hx
      cases hx
  · intro t ht hused
    rcases hcases ht with holdT | rfl
    · exact h.replaced t holdT hused
    · simp [hrotated,hreason] at hused
  · intro child hchild x hx
    rcases hcases hchild with holdChild | rfl
    · obtain ⟨t,ht,hrest⟩ := h.back child holdChild x hx
      exact ⟨t,hold ht,hrest⟩
    · rw [hparent] at hx
      cases hx
  · intro a ha b hb hpa hpb hfam
    rcases hcases ha with holdA | rfl
    · rcases hcases hb with holdB | rfl
      · exact h.roots a holdA b holdB hpa hpb hfam
      · exact absurd hfam (hfamily a holdA)
    · rcases hcases hb with holdB | rfl
      · exact absurd hfam.symm (hfamily b holdB)
      · rfl
  · intro t ht
    rcases hcases ht with holdT | rfl
    · obtain ⟨root,hroot,hp,hfam,hpath⟩ := h.reached t holdT
      refine ⟨root,hold hroot,hp,hfam,hpath.lift (fun r => r) fun a b hab => ?_⟩
      exact ⟨hold hab.1,hold hab.2.1,hab.2.2⟩
    · exact ⟨t,by simp,hparent,rfl,.refl⟩

/-- The row of an exchanged token. -/
def rotatedRow (jti replacement : UUID) (now : Instant) (r : RefreshToken) : RefreshToken :=
  if r.jti==jti then
    {r with
      rotatedAt := some now
      revokedAt := some now
      revocationReason := some "rotated"
      replacedByJti := some replacement}
  else r

/-- A rotation retires the row and links it to its child. -/
structure Exchange (ts : List RefreshToken) (record child : RefreshToken) : Prop where
  /-- The row is stored. -/
  stored : record∈ts
  /-- It was not revoked. -/
  live : record.revokedAt=none
  /-- The id of the child is new. -/
  jti : ∀ a∈ts,a.jti≠child.jti
  /-- Its parent. -/
  parentJti : child.parentJti=some record.jti
  /-- Its family. -/
  familyId : child.familyId=record.familyId
  /-- It has no replacement. -/
  replacedByJti : child.replacedByJti=none
  /-- It is not rotated. -/
  rotatedAt : child.rotatedAt=none
  /-- It has no reason. -/
  reason : child.revocationReason=none

/-- The rotated token gets its date, reason and successor. -/
theorem rotatedRow_self {jti replacement : UUID} {now : Instant} {r : RefreshToken}
    (h : r.jti=jti) : rotatedRow jti replacement now r={r with
      rotatedAt := some now
      revokedAt := some now
      revocationReason := some "rotated"
      replacedByJti := some replacement} := by
  rw [rotatedRow,if_pos (by simp [h])]

/-- The other tokens are left. -/
theorem rotatedRow_other {jti replacement : UUID} {now : Instant} {r : RefreshToken}
    (h : r.jti≠jti) : rotatedRow jti replacement now r=r := by
  rw [rotatedRow,if_neg (by simp [h])]

/-- Rotation keeps the identifier. -/
@[simp] theorem rotatedRow_jti {jti replacement : UUID} {now : Instant} {r : RefreshToken} :
    (rotatedRow jti replacement now r).jti=r.jti := by
  unfold rotatedRow
  split <;> rfl

/-- Rotation keeps the family. -/
@[simp] theorem rotatedRow_familyId {jti replacement : UUID} {now : Instant} {r : RefreshToken} :
    (rotatedRow jti replacement now r).familyId=r.familyId := by
  unfold rotatedRow
  split <;> rfl

/-- Rotation keeps the parent. -/
@[simp] theorem rotatedRow_parentJti {jti replacement : UUID} {now : Instant}
    {r : RefreshToken} : (rotatedRow jti replacement now r).parentJti=r.parentJti := by
  unfold rotatedRow
  split <;> rfl

/-- A rotation keeps the history. -/
theorem History.rotate (h : History bound ts) {record child : RefreshToken}
    (hx : Exchange ts record child) (now : Instant) :
    History bound (ts.map (rotatedRow record.jti child.jti now)++[child]) := by
  have hnone : record.replacedByJti=none := h.unreplaced hx.stored (.inr hx.live)
  have hself : ∀ {a},a∈ts → a.jti=record.jti → a=record :=
    fun ha hj => h.jtis _ ha record hx.stored hj
  have hold : ∀ {a},a∈ts → rotatedRow record.jti child.jti now a∈
      ts.map (rotatedRow record.jti child.jti now)++[child] :=
    fun ha => List.mem_append_left _ (List.mem_map.mpr ⟨_,ha,rfl⟩)
  have hnew : child∈ts.map (rotatedRow record.jti child.jti now)++[child] :=
    List.mem_append_right _ (List.mem_singleton_self _)
  have hcases : ∀ {a},a∈ts.map (rotatedRow record.jti child.jti now)++[child] →
      (∃ b∈ts,rotatedRow record.jti child.jti now b=a) ∨ a=child := by
    intro a ha
    simpa using ha
  have hlink : ∀ a b,Follows ts a b → Follows (ts.map (rotatedRow record.jti child.jti now)++[child])
      (rotatedRow record.jti child.jti now a) (rotatedRow record.jti child.jti now b) := by
    intro a b hab
    obtain ⟨ha,hb,hab⟩ := hab
    have hother : a.jti≠record.jti := by
      intro hj
      rw [hself ha hj,hnone] at hab
      cases hab
    refine ⟨hold ha,hold hb,?_⟩
    rw [rotatedRow_other hother,rotatedRow_jti,hab]
  constructor
  · intro a ha b hb hj
    rcases hcases ha with ⟨a₀,ha₀,rfl⟩ | rfl
    · rcases hcases hb with ⟨b₀,hb₀,rfl⟩ | rfl
      · rw [rotatedRow_jti,rotatedRow_jti] at hj
        rw [h.jtis a₀ ha₀ b₀ hb₀ hj]
      · rw [rotatedRow_jti] at hj
        exact absurd hj (hx.jti a₀ ha₀)
    · rcases hcases hb with ⟨b₀,hb₀,rfl⟩ | rfl
      · rw [rotatedRow_jti] at hj
        exact absurd hj.symm (hx.jti b₀ hb₀)
      · rfl
  · intro a ha
    rcases hcases ha with ⟨a₀,ha₀,rfl⟩ | rfl
    · rw [rotatedRow_familyId]
      exact h.drawn a₀ ha₀
    · rw [hx.familyId]
      exact h.drawn record hx.stored
  · intro t ht x hx'
    rcases hcases ht with ⟨t₀,ht₀,rfl⟩ | rfl
    · by_cases hj : t₀.jti=record.jti
      · rw [rotatedRow_self hj] at hx' ⊢
        obtain rfl := Option.some.inj hx'
        refine ⟨⟨nofun,nofun,rfl⟩,child,hnew,rfl,?_⟩
        rw [hx.parentJti,←hj]
      · rw [rotatedRow_other hj] at hx' ⊢
        obtain ⟨hretired,next,hnext,hnj,hnp⟩ := h.forth t₀ ht₀ x hx'
        exact ⟨hretired,_,hold hnext,by rw [rotatedRow_jti,hnj],by rw [rotatedRow_parentJti,hnp]⟩
    · rw [hx.replacedByJti] at hx'
      cases hx'
  · intro t ht hused
    rcases hcases ht with ⟨t₀,ht₀,rfl⟩ | rfl
    · by_cases hj : t₀.jti=record.jti
      · rw [rotatedRow_self hj]
        exact nofun
      · rw [rotatedRow_other hj] at hused ⊢
        exact h.replaced t₀ ht₀ hused
    · simp [hx.rotatedAt,hx.reason] at hused
  · intro t ht x hp
    rcases hcases ht with ⟨t₀,ht₀,rfl⟩ | rfl
    · rw [rotatedRow_parentJti] at hp
      obtain ⟨p,hpmem,hpj,hpr⟩ := h.back t₀ ht₀ x hp
      have hother : p.jti≠record.jti := by
        intro hj
        rw [hself hpmem hj,hnone] at hpr
        cases hpr
      refine ⟨_,hold hpmem,by rw [rotatedRow_jti,hpj],?_⟩
      rw [rotatedRow_other hother,rotatedRow_jti,hpr]
    · rw [hx.parentJti] at hp
      obtain rfl := Option.some.inj hp
      refine ⟨_,hold hx.stored,rotatedRow_jti,?_⟩
      rw [rotatedRow_self rfl]
  · intro a ha b hb hpa hpb hfam
    rcases hcases ha with ⟨a₀,ha₀,rfl⟩ | rfl
    · rcases hcases hb with ⟨b₀,hb₀,rfl⟩ | rfl
      · rw [rotatedRow_parentJti] at hpa hpb
        rw [rotatedRow_familyId,rotatedRow_familyId] at hfam
        rw [h.roots a₀ ha₀ b₀ hb₀ hpa hpb hfam]
      · rw [hx.parentJti] at hpb
        cases hpb
    · rw [hx.parentJti] at hpa
      cases hpa
  · intro t ht
    have hpaths : ∀ t₀∈ts,∃ root∈ts.map (rotatedRow record.jti child.jti now)++[child],
        root.parentJti=none ∧ root.familyId=t₀.familyId ∧
          Relation.ReflTransGen (Follows (ts.map (rotatedRow record.jti child.jti now)++[child]))
            root (rotatedRow record.jti child.jti now t₀) := by
      intro t₀ ht₀
      obtain ⟨root,hroot,hp,hfam,hpath⟩ := h.reached t₀ ht₀
      refine ⟨_,hold hroot,?_,?_,hpath.lift _ hlink⟩
      · rw [rotatedRow_parentJti,hp]
      · rw [rotatedRow_familyId,hfam]
    rcases hcases ht with ⟨t₀,ht₀,rfl⟩ | rfl
    · rw [rotatedRow_familyId]
      exact hpaths t₀ ht₀
    · obtain ⟨root,hroot,hp,hfam,hpath⟩ := hpaths record hx.stored
      refine ⟨root,hroot,hp,hfam.trans hx.familyId.symm,hpath.tail ⟨hold hx.stored,hnew,?_⟩⟩
      rw [rotatedRow_self rfl]

end Histories

section Worlds

variable {α β : Type} {p : Action α} {fp : List Access} {d : Deployment} {w w' : World}
  {ip ua : Option String}

/-- Both copies of the token table have a history. -/
structure Kept (w : World) : Prop where
  /-- The working copy. -/
  work : History w.env.draws (tokensOf w.data.work)
  /-- The committed table. -/
  committed : History w.env.draws (tokensOf w.data.committed)

/-- The committed table has a history, and after a success the working copy
has one, too. -/
structure Safe (o : Except Failure α) (w : World) : Prop where
  /-- The committed table. -/
  committed : History w.env.draws (tokensOf w.data.committed)
  /-- The working copy. -/
  work : ∀ a,o=.ok a → History w.env.draws (tokensOf w.data.work)

/-- A kept history is safe whatever the outcome. -/
theorem Kept.safe {o : Except Failure α} (h : Kept w) : Safe o w := ⟨h.committed,fun _ _ => h.work⟩

/-- An access that changes no token. -/
abbrev Aside (a : Access) : Prop :=
  a∉[Access.insert .refreshTokens,.update .refreshTokens,.delete .refreshTokens]

/-- Drawn values stay drawn. -/
theorem draws_perform (op : Effect) (w : World) :
    w.env.draws ≤ (World.perform op w).2.env.draws := by
  cases op with
  | external op => exact Environment.draws_le_perform op _ _
  | sql stmt => exact Nat.le_refl _

/-- Identifiers are only drawn further. -/
theorem yields_draws (hp : Inside p fp) (w : World) :
    Yields p w fun _ w' => w.env.draws ≤ w'.env.draws :=
  Program.ensures_within (fun w w' => w.env.draws ≤ w'.env.draws) (fun _ => Nat.le_refl _)
    (by intro _ _ _ h h'; exact h.trans h') (fun op w _ => draws_perform op w) hp w

/-- Tokens stay as they are. -/
structure Spared (w w' : World) : Prop where
  /-- In the working copy. -/
  tokens : tokensOf w'.data.work=tokensOf w.data.work
  /-- In the committed table. -/
  committed : tokensOf w'.data.committed=tokensOf w.data.committed
  /-- Drawn values stay drawn. -/
  draws : w.env.draws ≤ w'.env.draws

/-- A step that spares the tokens keeps the history. -/
theorem Kept.spared (h : Kept w) (hs : Spared w w') : Kept w' := by
  constructor
  · rw [hs.tokens]
    exact h.work.mono hs.draws
  · rw [hs.committed]
    exact h.committed.mono hs.draws

/-- An access aside that neither commits nor rolls back spares the tokens. -/
theorem yields_spared (hp : Inside p fp)
    (hfp : ∀ a∈fp,Aside a ∧ a≠.commit ∧ a≠.rollback) (w : World) :
    Yields p w fun _ w' => Spared w w' := by
  have htable : ∀ a∈fp,Spares .refreshTokens a := by
    intro a ha hmem
    obtain ⟨haside,_,hrollback⟩ := hfp a ha
    simp only [List.mem_cons,List.not_mem_nil,or_false] at hmem
    rcases hmem with rfl | rfl | rfl | rfl
    · exact haside (by simp)
    · exact haside (by simp)
    · exact haside (by simp)
    · exact hrollback rfl
  have hcommit : .commit∉fp := fun hmem => (hfp _ hmem).2.1 rfl
  refine ((yields_work .refreshTokens hp htable w).and
    ((yields_committed hp hcommit w).and (yields_draws hp w))).mono fun o w' h' => ?_
  exact ⟨h'.1,congrArg tokensOf h'.2.1,h'.2.2⟩

/-- One access aside keeps both histories. -/
theorem kept_perform {op : Effect} (hop : ∀ a∈accesses op,Aside a) (h : Kept w) :
    Kept (World.perform op w).2 := by
  have hdraws := draws_perform op w
  cases op with
  | external op => exact ⟨h.work.mono hdraws,h.committed.mono hdraws⟩
  | sql stmt =>
    cases stmt with
    | select => exact h
    | selectForUpdate => exact h
    | commit => exact ⟨h.work,h.work⟩
    | rollback => exact ⟨h.committed,h.committed⟩
    | insert t row =>
      have hne : Table.refreshTokens≠t := by
        rintro rfl
        exact hop (.insert .refreshTokens) (by simp [accesses]) (by simp)
      have hwork : tokensOf (World.perform (.sql (.insert t row)) w).2.data.work=
          tokensOf w.data.work :=
        Transaction.perform_work_of_not_touches w.data fun htouch => hne htouch
      have hcommitted : tokensOf (World.perform (.sql (.insert t row)) w).2.data.committed=
          tokensOf w.data.committed :=
        congrArg tokensOf (Transaction.perform_committed w.data nofun)
      exact h.spared ⟨hwork,hcommitted,hdraws⟩
    | update t q f =>
      have hne : Table.refreshTokens≠t := by
        rintro rfl
        exact hop (.update .refreshTokens) (by simp [accesses]) (by simp)
      have hwork : tokensOf (World.perform (.sql (.update t q f)) w).2.data.work=
          tokensOf w.data.work :=
        Transaction.perform_work_of_not_touches w.data fun htouch => hne htouch
      exact h.spared ⟨hwork,rfl,hdraws⟩
    | delete t q =>
      have hne : Table.refreshTokens≠t := by
        rintro rfl
        exact hop (.delete .refreshTokens) (by simp [accesses]) (by simp)
      have hwork : tokensOf (World.perform (.sql (.delete t q)) w).2.data.work=
          tokensOf w.data.work :=
        Transaction.perform_work_of_not_touches w.data fun htouch => hne htouch
      exact h.spared ⟨hwork,rfl,hdraws⟩

/-- A part of a request beside the tokens keeps the history. -/
theorem yields_kept (hp : Inside p fp) (hfp : ∀ a∈fp,Aside a) (h : Kept w) :
    Yields p w fun _ w' => Kept w' := by
  have hkeep : Yields p w fun _ w' => Kept w → Kept w' :=
    Program.ensures_within (fun w w' => Kept w → Kept w') (fun _ h => h)
      (by intro _ _ _ h h' hg; exact h' (h hg))
      (fun op w hop hg => kept_perform (fun a ha => hfp a (hop a ha)) hg) hp w
  exact hkeep h

/-- A sequence whose first part keeps the histories. -/
theorem safe_bind {f : α → Action β} (hp : Inside p fp) (hfp : ∀ a∈fp,Aside a) (h : Kept w)
    (hok : ∀ a w',Kept w' → Yields (f a) w' Safe) : Yields (p.bind f) w Safe :=
  (yields_kept hp hfp h).bind (fun a w' hw => hok a w' hw) fun _ _ hw => hw.safe

end Worlds

section Requests

variable {α : Type} {d : Deployment} {w : World} {ip ua : Option String}

open AuthService BruteForceProtectionService

/-- A new row is inserted unless its id is taken. -/
theorem yields_createdToken (row : RefreshToken) (w : World) :
    Yields (RefreshTokenRepository.create row) w fun o w' =>
      (o=.ok () ∧ (∀ a∈tokensOf w.data.work,a.jti≠row.jti) ∧
        w'=World.rewrite w .refreshTokens (tokensOf w.data.work++[row])) ∨
        (∃ e,o=.error e) ∧ w'=w := by
  refine (yields_insertRow .refreshTokens row w).mono fun o w' h' => ?_
  rcases h' with ⟨hok,hconflict,hw⟩ | herror
  · refine .inl ⟨hok,fun a ha he => ?_,hw⟩
    have hno := List.any_eq_false.mp hconflict a ha
    simp [conflict,he] at hno
  · exact .inr herror

/-- Drawing an identifier spares the tokens. -/
theorem spared_uuid4 (w : World) : Yields uuid4 w fun _ w' => Spared w w' :=
  ⟨rfl,rfl,Nat.le_succ _⟩

/-- The first token of a session starts a history. -/
theorem yields_issued (userId : UUID) (h : Kept w) :
    Yields (issueForUser d userId ip ua) w fun _ w' => Kept w' := by
  have hfamily : Yields uuid4 w fun o w' => o=.ok ⟨w.env.draws⟩ ∧ w'.data=w.data ∧
      w'.env.draws=w.env.draws+1 := ⟨rfl,rfl,rfl⟩
  refine hfamily.bind (fun familyId w₁ h₁ => ?_) fun e w₁ h₁ => absurd h₁.1 nofun
  obtain ⟨hid,hdata,hdraws⟩ := h₁
  obtain rfl : familyId=⟨w.env.draws⟩ := Except.ok.inj hid
  have hkept₁ : Kept w₁ := h.spared ⟨by rw [hdata],by rw [hdata],by omega⟩
  refine ((yields_spared (inside_createSession userId _ ip ua) (by decide) w₁)).bind
    (fun session w₂ hs₂ => ?_) fun e w₂ hs₂ => hkept₁.spared hs₂
  have hkept₂ := hkept₁.spared hs₂
  refine (spared_uuid4 w₂).bind (fun jti w₃ hs₃ => ?_) fun e w₃ hs₃ => hkept₂.spared hs₃
  have hkept₃ := hkept₂.spared hs₃
  refine (yields_spared (inside_issueRefreshToken d userId session.id _ jti) (by decide) w₃).bind
    (fun r w₄ hs₄ => ?_) fun e w₄ hs₄ => hkept₃.spared hs₄
  have hkept₄ := hkept₃.spared hs₄
  refine (yields_createdToken _ w₄).bind (fun _ w₅ h₅ => ?_) fun e w₅ h₅ => ?_
  · rcases h₅ with ⟨_,hjti,rfl⟩ | ⟨⟨e,he⟩,_⟩
    · have hfresh : ∀ a∈tokensOf w₄.data.work,a.familyId≠⟨w.env.draws⟩ := by
        intro a ha he
        rw [hs₄.tokens,hs₃.tokens,hs₂.tokens,hdata] at ha
        have hlt := h.work.drawn a ha
        rw [he] at hlt
        exact Nat.lt_irrefl _ hlt
      have hdrawn : w.env.draws<w₄.env.draws := by
        have hd₂ := hs₂.draws
        have hd₃ := hs₃.draws
        have hd₄ := hs₄.draws
        omega
      have hhistory := hkept₄.work.addRoot hjti hfresh hdrawn rfl rfl rfl rfl
      refine yields_kept (inside_issueAccessToken d userId session.id) (by decide) ⟨?_,?_⟩ |>.bind
        (fun _ _ h₆ => h₆) fun _ _ h₆ => h₆
      · rw [tokensOf_rewrite_refreshTokens]
        exact hhistory
      · exact hkept₄.committed
    · cases he
  · rcases h₅ with ⟨he,_⟩ | ⟨_,rfl⟩
    · cases he
    · exact hkept₄

/-- Sign-ins keep the histories. -/
theorem kept_signIn : KeptBySignIn d Kept := by
  refine ⟨fun op w hop h => kept_perform (fun a ha hmem => hop a ha ?_) h,
    fun userId ip ua w h => yields_issued userId h⟩
  simp only [List.mem_cons,List.not_mem_nil,or_false] at hmem ⊢
  tauto

/-- A bulk revocation keeps the links. -/
theorem keepsLinks_revokedToken {bound : ℕ} {ts : List RefreshToken} (h : History bound ts)
    (q : RefreshToken → Bool) (now : Instant) {reason : String} (hreason : reason≠"rotated") :
    KeepsLinks ts (revokedToken q now reason) := by
  have hsplit : ∀ r,revokedToken q now reason r=r ∨ r.revokedAt=none ∧
      revokedToken q now reason r=
        {r with revokedAt := some now, revocationReason := some reason} := by
    intro r
    unfold revokedToken
    split
    · rename_i hq
      simp only [Bool.and_eq_true,Option.isNone_iff_eq_none] at hq
      exact .inr ⟨hq.2,rfl⟩
    · exact .inl rfl
  constructor
  · intro r _
    rcases hsplit r with he | ⟨_,he⟩ <;> rw [he]
  · intro r _
    exact revokedToken_familyId
  · intro r _
    rcases hsplit r with he | ⟨_,he⟩ <;> rw [he]
  · intro r _
    rcases hsplit r with he | ⟨_,he⟩ <;> rw [he]
  · intro r _
    rcases hsplit r with he | ⟨_,he⟩ <;> rw [he]
  · intro r _ hrevoked
    rw [revokedToken_same (.inr hrevoked)]
    exact hrevoked
  · intro r hr
    rcases hsplit r with he | ⟨hlive,he⟩
    · exact .inl (by rw [he])
    · refine .inr ⟨h.unreplaced hr (.inr hlive),?_⟩
      rw [he]
      exact fun hsame => hreason (Option.some.inj hsame)

/-- Revoking for another reason than rotation keeps the history. -/
theorem yields_keptTokens (q : RefreshToken → Bool) {reason : String} (hreason : reason≠"rotated")
    (h : Kept w) :
    Yields (RefreshTokenRepository.revokeWhere q reason) w fun _ w' => Kept w' := by
  refine ((yields_revokedTokens q reason w).and (yields_draws (inside_revokeTokensWhere q reason)
    w)).mono fun o w' h' => ?_
  obtain ⟨⟨_,hleaves,now,htokens⟩,hdraws⟩ := h'
  constructor
  · rw [htokens]
    exact (h.work.revise (keepsLinks_revokedToken h.work q now hreason)).mono hdraws
  · rw [hleaves.committed]
    exact h.committed.mono hdraws

/-- The exchanged row is retired. -/
theorem yields_retired (record : RefreshToken) (jti : UUID) (w : World) :
    Yields (RefreshTokenRepository.markRotated record jti) w fun _ w' =>
      (∃ now,tokensOf w'.data.work=(tokensOf w.data.work).map (rotatedRow record.jti jti now)) ∧
        w'.data.committed=w.data.committed ∧ w.env.draws ≤ w'.env.draws := by
  have hnow : Yields utcNow w fun o w' => o=.ok (w.env.clock+w.choices.headD 0) ∧
      w'=(World.perform (.external .now) w).2 := ⟨rfl,rfl⟩
  refine hnow.bind (fun now w₁ h₁ => ?_) fun e w₁ h₁ => absurd h₁.1 nofun
  obtain ⟨_,rfl⟩ := h₁
  refine (yields_flushUpdate .refreshTokens (fun r => r.jti==record.jti) _ _).mono fun _ w' h' => ?_
  subst h'
  exact ⟨⟨now,tokensOf_rewrite_refreshTokens _ _⟩,rfl,Nat.le_refl _⟩

/-- An exchange keeps the history. -/
theorem yields_exchanged {record : RefreshToken} {ids : RefreshIds} (h : Kept w)
    (hrecord : record∈tokensOf w.data.work) (hlive : record.revokedAt=none)
    (hfamily : record.familyId=ids.familyId) :
    Yields (exchange d record ids ip ua) w Safe := by
  refine (spared_uuid4 w).bind (fun jti w₁ hs₁ => ?_) fun e w₁ hs₁ => (h.spared hs₁).safe
  have hkept₁ := h.spared hs₁
  refine (yields_spared (inside_issueRefreshToken d ids.userId ids.sessionId ids.familyId jti)
    (by decide) w₁).bind (fun r w₂ hs₂ => ?_) fun e w₂ hs₂ => (hkept₁.spared hs₂).safe
  have hkept₂ := hkept₁.spared hs₂
  have hstored : record∈tokensOf w₂.data.work := by
    rw [hs₂.tokens,hs₁.tokens]
    exact hrecord
  -- between the two writes the working copy has no history
  refine (yields_retired record jti w₂).bind (fun _ w₃ h₃ => ?_) fun e w₃ h₃ => ?_
  · obtain ⟨⟨now,htokens₃⟩,hcommitted₃,hdraws₃⟩ := h₃
    have hcommitted : History w₃.env.draws (tokensOf w₃.data.committed) := by
      rw [hcommitted₃]
      exact hkept₂.committed.mono hdraws₃
    refine (yields_createdToken _ w₃).bind (fun _ w₄ h₄ => ?_) fun e w₄ h₄ => ?_
    · rcases h₄ with ⟨_,hjti,rfl⟩ | ⟨⟨e,he⟩,_⟩
      · have hfresh : ∀ a∈tokensOf w₂.data.work,a.jti≠jti := by
          intro a ha
          have hmem : rotatedRow record.jti jti now a∈tokensOf w₃.data.work := by
            rw [htokens₃]
            exact List.mem_map.mpr ⟨a,ha,rfl⟩
          have hne := hjti _ hmem
          rwa [rotatedRow_jti] at hne
        have hhistory : ∀ child : RefreshToken,child.jti=jti → child.parentJti=some record.jti →
            child.familyId=ids.familyId → child.replacedByJti=none → child.rotatedAt=none →
              child.revocationReason=none → History w₂.env.draws
                ((tokensOf w₂.data.work).map (rotatedRow record.jti jti now)++[child]) := by
          rintro child rfl hparent hfam hreplaced hrotated hreason
          exact hkept₂.work.rotate ⟨hstored,hlive,hfresh,hparent,hfam.trans hfamily.symm,
            hreplaced,hrotated,hreason⟩ now
        rw [htokens₃]
        refine safe_bind (inside_touchFamily ids.familyId) (by decide) ⟨?_,hcommitted⟩
          fun _ w₅ h₅ => ?_
        · rw [tokensOf_rewrite_refreshTokens]
          exact (hhistory _ rfl rfl rfl rfl rfl rfl).mono hdraws₃
        · exact safe_bind (inside_issueAccessToken d ids.userId ids.sessionId) (by decide) h₅
            fun _ _ h₆ => h₆.safe
      · cases he
    · rcases h₄ with ⟨he,_⟩ | ⟨_,rfl⟩
      · cases he
      · exact ⟨hcommitted,nofun⟩
  · refine ⟨?_,nofun⟩
    rw [h₃.2.1]
    exact hkept₂.committed.mono h₃.2.2

/-- How a rotation ends: only a failed statement of the database may leave the
working copy without a history. -/
structure Rotated {α : Type} (o : Except Failure α) (w : World) : Prop where
  /-- Committed tables and successes. -/
  safe : Safe o w
  /-- Other failures. -/
  failed : ∀ e,o=.error e → ¬DatabaseFailure e → Kept w

/-- A kept history is what a rotation promises, whatever its outcome. -/
theorem Kept.rotated {o : Except Failure α} (h : Kept w) : Rotated o w :=
  ⟨h.safe,fun _ _ _ => h⟩

/-- The rotation of a token keeps the history. -/
theorem yields_rotated (token : RawToken) (h : Kept w) :
    Yields (rotate d token ip ua) w Rotated := by
  refine (yields_kept (inside_decodeAndValidate d token .refresh) (by decide) h).bind
    (fun claims w₁ h₁ => ?_) fun _ _ h₁ => h₁.rotated
  refine (yields_refreshIds claims w₁).bind (fun ids w₂ h₂ => ?_) fun e w₂ h₂ =>
    (h₂.1 ▸ h₁).rotated
  obtain ⟨rfl,_⟩ := h₂
  refine (yields_getByJtiForUpdate ids.tokenJti w₂).bind (fun found w₃ h₃ => ?_)
    fun e w₃ h₃ => (h₃.1 ▸ h₁).rotated
  obtain ⟨rfl,hfound,_⟩ := h₃
  cases found with
  | none => exact h₁.rotated
  | some record =>
    have hrecord := hfound record rfl
    simp only [Program.monad_throw,Program.monad_bind,Program.raise_bind]
    split
    · exact h₁.rotated
    · rename_i hclaimed
      have hfamily : record.familyId=ids.familyId := by tauto
      split
      · exact h₁.rotated
      · refine (yields_isFamilyActive ids.familyId w₃).bind (fun active w₄ h₄ => ?_)
          fun e w₄ h₄ => (h₄.1 ▸ h₁).rotated
        obtain ⟨rfl,_⟩ := h₄
        split
        · exact h₁.rotated
        · refine (yields_spared inside_utcNow (by decide) w₄).bind (fun now w₅ hs₅ => ?_)
            fun e w₅ hs₅ => (h₁.spared hs₅).rotated
          have hkept₅ := h₁.spared hs₅
          split
          · exact hkept₅.rotated
          · split
            · refine (yields_keptTokens _ (by decide) hkept₅).bind (fun _ w₆ h₆ => ?_)
                fun _ _ h₆ => h₆.rotated
              refine (yields_kept (inside_revokeSessionsWhere _) (by decide) h₆).bind
                (fun _ w₇ h₇ => h₇.rotated) fun _ _ h₇ => h₇.rotated
            · rename_i hfresh
              have hlive : record.revokedAt=none := by
                by_contra hr
                exact hfresh (by simp [Option.isSome_iff_ne_none,hr])
              have hstored : record∈tokensOf w₅.data.work := by
                rw [hs₅.tokens]
                exact hrecord
              refine ((yields_exchanged hkept₅ hstored hlive hfamily).and
                (Program.ensures_raises (raises_exchange record ids) w₅)).mono fun o w₆ h₆ => ?_
              exact ⟨h₆.1,fun e he hno => absurd (h₆.2 e he) hno⟩

/-- The handler of a failed rotation. -/
theorem yields_rotationFailed {e : Failure}
    (h : Rotated (.error e : Except Failure TokenPair) w) :
    Yields (refreshFailed d ip ua e) w Safe := by
  have hhandled : ∀ {action : Action TokenPair},¬DatabaseFailure e →
      (Kept w → Yields action w Safe) → Yields action w Safe :=
    fun hno hk => hk (h.failed e rfl hno)
  cases e with
  | tokenReuseDetected sessionId familyId =>
    refine hhandled (by simp) fun hkept => ?_
    refine safe_bind (inside_markAccessSessionRevoked d sessionId) (by decide) hkept
      fun _ w₁ h₁ => ?_
    refine safe_bind (inside_logEvent _ _ _ _ _ _ _ _) (by decide) h₁ fun _ w₂ h₂ => ?_
    exact safe_bind inside_commit (by decide) h₂ fun _ _ h₃ => h₃.safe
  | invalidToken message =>
    refine hhandled (by simp) fun hkept => ?_
    refine safe_bind (inside_logEvent _ _ _ _ _ _ _ _) (by decide) hkept fun _ w₁ h₁ => ?_
    exact safe_bind inside_commit (by decide) h₁ fun _ _ h₂ => h₂.safe
  | _ => exact h.safe

/-- A refresh keeps the history. -/
theorem yields_refreshed (token : RawToken) (h : Kept w) :
    Yields (refreshTokens d token ip ua) w Safe := by
  have htry : Yields (tryCatch (rotate d token ip ua) (refreshFailed d ip ua)) w Safe :=
    (yields_rotated token h).handle (fun pair w₁ h₁ => h₁.safe) fun e w₁ h₁ =>
      yields_rotationFailed h₁
  refine htry.bind (fun pair w₁ h₁ => ?_) fun e w₁ h₁ => ⟨h₁.committed,nofun⟩
  have hkept : Kept w₁ := ⟨h₁.work pair rfl,h₁.committed⟩
  refine safe_bind (inside_logEvent _ _ _ _ _ _ _ _) (by decide) hkept fun _ w₂ h₂ => ?_
  exact safe_bind inside_commit (by decide) h₂ fun _ _ h₃ => h₃.safe

/-- The row of a single revoked token. -/
def revokedRow (jti : UUID) (reason : String) (now : Instant) (r : RefreshToken) : RefreshToken :=
  if r.jti==jti then
    {r with revokedAt := some now, revocationReason := some reason, replacedByJti := none}
  else r

/-- The revocation of a single token keeps the links if it was not rotated. -/
theorem keepsLinks_revokedRow {bound : ℕ} {ts : List RefreshToken} (h : History bound ts)
    {record : RefreshToken} (hrecord : record∈ts) (hunrotated : record.rotatedAt=none)
    {reason : String} (hreason : reason≠"rotated") (now : Instant) :
    KeepsLinks ts (revokedRow record.jti reason now) := by
  have hnone : record.replacedByJti=none := h.unreplaced hrecord (.inl hunrotated)
  have hsplit : ∀ r∈ts,revokedRow record.jti reason now r=r ∨ r=record ∧
      revokedRow record.jti reason now r=
        {r with revokedAt := some now, revocationReason := some reason, replacedByJti := none} := by
    intro r hr
    unfold revokedRow
    split
    · rename_i hj
      exact .inr ⟨h.jtis r hr record hrecord (by simpa using hj),rfl⟩
    · exact .inl rfl
  constructor
  · intro r hr
    rcases hsplit r hr with he | ⟨_,he⟩ <;> rw [he]
  · intro r hr
    rcases hsplit r hr with he | ⟨_,he⟩ <;> rw [he]
  · intro r hr
    rcases hsplit r hr with he | ⟨_,he⟩ <;> rw [he]
  · intro r hr
    rcases hsplit r hr with he | ⟨hsame,he⟩
    · rw [he]
    · rw [he,hsame,hnone]
  · intro r hr
    rcases hsplit r hr with he | ⟨_,he⟩ <;> rw [he]
  · intro r hr hrevoked
    rcases hsplit r hr with he | ⟨_,he⟩
    · rwa [he]
    · rw [he]
      exact nofun
  · intro r hr
    rcases hsplit r hr with he | ⟨hsame,he⟩
    · exact .inl (by rw [he])
    · refine .inr ⟨by rw [hsame,hnone],?_⟩
      rw [he]
      exact fun hrotated => hreason (Option.some.inj hrotated)

/-- What a sign-out leaves to the next flush: nothing, or one presented row. -/
def Outstanding (d : Deployment) (w w' : World) (token : RawToken) (revokeFamily : Bool) :
    Option PendingRevocation → Prop
  | none => True
  | some pending => pending.reason="logout" ∧ revokeFamily=false ∧
    tokensOf w'.data.work=tokensOf w.data.work ∧
      ∃ sessionId,Presented d w.env w.data.work token sessionId pending.token

/-- The revocation before the flush. -/
theorem yields_outstanding (token : RawToken) (revokeFamily : Bool) (h : Kept w) :
    Yields (revoke d token revokeFamily "logout") w fun o w' => Kept w' ∧
      ∀ result pending,o=.ok (some (result,pending)) →
        Outstanding d w w' token revokeFamily pending := by
  refine ((yields_decodeAndValidate token w).and
    (yields_kept (inside_decodeAndValidate d token .refresh) (by decide) h)).bind
    (fun claims w₁ h₁ => ?_) fun _ _ h₁ => ⟨h₁.2,fun _ _ => nofun⟩
  obtain ⟨⟨hdata,_,hclaims⟩,hkept₁⟩ := h₁
  obtain ⟨payload,encoding,htoken,_,hsid,hexp⟩ := hclaims claims rfl
  refine (yields_refreshIds claims w₁).bind (fun ids w₂ h₂ => ?_) fun e w₂ h₂ =>
    ⟨h₂.1 ▸ hkept₁,fun _ _ => nofun⟩
  obtain ⟨rfl,hids⟩ := h₂
  obtain ⟨_,sid,hs,hparse⟩ := hids ids rfl
  refine (yields_getByJtiForUpdate ids.tokenJti w₂).bind (fun found w₃ h₃ => ?_)
    fun e w₃ h₃ => ⟨h₃.1 ▸ hkept₁,fun _ _ => nofun⟩
  obtain ⟨rfl,hfound,_⟩ := h₃
  cases found with
  | none => exact ⟨hkept₁,fun _ _ => nofun⟩
  | some record =>
    have hrecord := hfound record rfl
    simp only [Program.monad_throw,Program.monad_bind,Program.raise_bind]
    split
    · exact ⟨hkept₁,fun _ _ => nofun⟩
    · rename_i hhash
      split
      · exact ⟨hkept₁,fun _ _ => nofun⟩
      · split
        · exact ⟨hkept₁,fun _ _ => nofun⟩
        · split
          · refine (yields_keptTokens _ (by decide) hkept₁).bind (fun _ w₄ h₄ => ?_)
              fun _ _ h₄ => ⟨h₄,fun _ _ => nofun⟩
            refine (yields_kept (inside_revokeSessionsWhere _) (by decide) h₄).bind
              (fun _ w₅ h₅ => ⟨h₅,fun result pending hp => ?_⟩) fun _ _ h₅ => ⟨h₅,fun _ _ => nofun⟩
            obtain ⟨_,rfl⟩ := Prod.mk.inj (Option.some.inj (Except.ok.inj hp))
            trivial
          · rename_i hsingle
            refine ((yields_spared inside_utcNow (by decide) w₃)).bind (fun now w₄ hs₄ => ?_)
              fun e w₄ hs₄ => ⟨hkept₁.spared hs₄,fun _ _ => nofun⟩
            refine ⟨hkept₁.spared hs₄,fun result pending hp => ?_⟩
            obtain ⟨_,rfl⟩ := Prod.mk.inj (Option.some.inj (Except.ok.inj hp))
            have hpresented : Presented d w.env w.data.work token ids.sessionId record :=
              ⟨hdata ▸ hrecord,not_not.mp hhash,payload,encoding,sid,htoken,hsid.symm.trans hs,
                hparse,hexp⟩
            have htokens : tokensOf w₄.data.work=tokensOf w.data.work := by rw [hs₄.tokens,hdata]
            exact ⟨rfl,by simpa using hsingle,htokens,ids.sessionId,hpresented⟩

/-- The flush of a sign-out. -/
theorem yields_flushed {w₀ : World} {token : RawToken} {revokeFamily : Bool}
    {pending : Option PendingRevocation} (h : Kept w)
    (hout : Outstanding d w₀ w token revokeFamily pending) :
    Yields (flushRevocation pending) w fun _ w' =>
      History w'.env.draws (tokensOf w'.data.committed) ∧
        ((∀ p,pending=some p → p.token.rotatedAt=none) → Kept w') := by
  cases pending with
  | none => exact ⟨h.committed,fun _ => h⟩
  | some pending =>
    obtain ⟨hreason,_,htokens,sessionId,hpresented⟩ := hout
    have hstored : pending.token∈tokensOf w.data.work := by
      rw [htokens]
      exact hpresented.stored
    refine (yields_flushUpdate .refreshTokens (fun r => r.jti==pending.token.jti) _ w).mono
      fun _ w' h' => ?_
    subst h'
    refine ⟨h.committed,fun hunrotated => ⟨?_,h.committed⟩⟩
    rw [tokensOf_rewrite_refreshTokens]
    exact h.work.revise (keepsLinks_revokedRow h.work hstored (hunrotated pending rfl)
      (by rw [hreason]; decide) pending.now)

/-- A sign-out keeps the history if its token was not rotated. -/
theorem yields_signedOut (token : RawToken) (revokeFamily : Bool) (h : Kept w)
    (hrow : revokeFamily=false → Auditable ip ua → ∀ record sessionId,
      Presented d w.env w.data.work token sessionId record → record.rotatedAt=none) :
    Yields (revokeRefreshToken d token revokeFamily ip ua) w Safe := by
  refine (yields_outstanding token revokeFamily h).bind (fun result w₁ h₁ => ?_)
    fun _ _ h₁ => h₁.1.safe
  obtain ⟨hkept₁,hpending⟩ := h₁
  cases result with
  | none =>
    refine safe_bind (inside_logEvent _ _ _ _ _ _ _ _) (by decide) hkept₁ fun _ w₂ h₂ => ?_
    exact (yields_kept inside_commit (by decide) h₂).mono fun _ _ h₃ => h₃.safe
  | some result =>
    obtain ⟨revocation,pending⟩ := result
    have hout := hpending revocation pending rfl
    refine ((yields_spared (inside_markAccessSessionRevoked d revocation.sessionId)
      (by decide) w₁)).bind (fun _ w₂ hs₂ => ?_) fun _ _ hs₂ => (hkept₁.spared hs₂).safe
    have hkept₂ := hkept₁.spared hs₂
    have hout₂ : Outstanding d w w₂ token revokeFamily pending := by
      cases pending with
      | none => trivial
      | some pending =>
        obtain ⟨hreason,hsingle,htokens,hpresented⟩ := hout
        exact ⟨hreason,hsingle,hs₂.tokens.trans htokens,hpresented⟩
    refine (yields_flushed hkept₂ hout₂).bind (fun _ w₃ h₃ => ?_) fun _ _ h₃ => ⟨h₃.1,nofun⟩
    obtain ⟨hcommitted₃,hkept₃⟩ := h₃
    -- a client the audit table rejects loses its revocation, too
    by_cases haudit : Auditable ip ua
    · have hkept : Kept w₃ := by
        refine hkept₃ fun p hp => ?_
        subst hp
        obtain ⟨_,hsingle,_,sessionId,hpresented⟩ := hout
        exact hrow hsingle haudit p.token sessionId hpresented
      refine safe_bind (inside_logEvent _ _ _ _ _ _ _ _) (by decide) hkept fun _ w₄ h₄ => ?_
      exact (yields_kept inside_commit (by decide) h₄).mono fun _ _ h₅ => h₅.safe
    · refine (yields_audited _ _ _ _ w₃).bind (fun _ w₄ h₄ => ?_) fun e w₄ h₄ => ?_
      · rcases h₄ with ⟨hfits,_⟩ | ⟨_,he,_⟩
        · exact absurd hfits haudit
        · cases he
      · rcases h₄ with ⟨hfits,_⟩ | ⟨_,_,rfl⟩
        · exact absurd hfits haudit
        · exact ⟨hcommitted₃,nofun⟩

/-- A password reset keeps the history. -/
theorem yields_passwordChanged (user : LoadedUser) (record : PasswordResetToken) (now : Instant)
    (newPassword identifier account : String) (h : Kept w) :
    Yields (PasswordResetService.changePassword d user record now newPassword identifier account
      ip ua) w Safe := by
  refine safe_bind (inside_hashPassword d newPassword) (by decide) h fun hash w₁ h₁ => ?_
  refine safe_bind (inside_flushUpdate .users _ _) (by decide) h₁ fun _ w₂ h₂ => ?_
  refine safe_bind (inside_flushUpdate .passwordResetTokens _ _) (by decide) h₂ fun _ w₃ h₃ => ?_
  refine safe_bind (inside_listActiveSessionIdsForUser user.row.id) (by decide) h₃
    fun ids w₄ h₄ => ?_
  refine (yields_keptTokens (fun r => r.userId==user.row.id) (by decide) h₄).bind
    (fun _ w₅ h₅ => ?_) fun _ _ h₅ => h₅.safe
  refine safe_bind (inside_revokeSessionsWhere _) (by decide) h₅ fun _ w₆ h₆ => ?_
  refine safe_bind (inside_markAccessSessionsRevoked d ids) (by decide) h₆ fun _ w₇ h₇ => ?_
  refine safe_bind (inside_clearFailures d _ _) (by decide) h₇ fun _ w₈ h₈ => ?_
  refine safe_bind (inside_clearFailures d _ _) (by decide) h₈ fun _ w₉ h₉ => ?_
  refine safe_bind (inside_logEvent _ _ _ _ _ _ _ _) (by decide) h₉ fun _ w₁₀ h₁₀ => ?_
  exact (yields_kept inside_commit (by decide) h₁₀).mono fun _ _ hlast => hlast.safe

/-- A reset revokes the tokens and keeps the history. -/
theorem yields_passwordReset (email code newPassword : String) (h : Kept w) :
    Yields (PasswordResetService.resetPassword d email code newPassword ip ua) w Safe := by
  have hrefuse : ∀ user w',Kept w' → Yields (PasswordResetService.refuseCode d
      (d.lower email++":"++orUnknown ip) (d.lower email) user) w' Safe := fun user w' hk =>
    (yields_kept (inside_refuseCode d _ _ user) (by decide) hk).mono fun _ _ hk' => hk'.safe
  refine safe_bind (inside_assertNotLocked d _ _) (by decide) h fun _ w₁ h₁ => ?_
  refine safe_bind (inside_assertNotLocked d _ _) (by decide) h₁ fun _ w₂ h₂ => ?_
  refine safe_bind (inside_load _) (by decide) h₂ fun found w₃ h₃ => ?_
  cases found with
  | none => exact hrefuse none w₃ h₃
  | some user =>
    simp only [Program.monad_throw,Program.monad_bind]
    split
    · exact h₃.safe
    · refine safe_bind (inside_getActiveForUserByHash _ _) (by decide) h₃ fun record w₄ h₄ => ?_
      cases record with
      | none => exact hrefuse _ w₄ h₄
      | some record =>
        dsimp only
        split
        · exact hrefuse _ w₄ h₄
        · refine safe_bind inside_utcNow (by decide) h₄ fun now w₅ h₅ => ?_
          split
          · exact hrefuse _ w₅ h₅
          · exact yields_passwordChanged user record now newPassword _ _ h₅

end Requests

section Theorem

variable {d : Deployment}

/-- The links of a token table in both directions. -/
structure Recorded (ts : List RefreshToken) : Prop where
  /-- A row is the child of another one exactly if it is the recorded
  replacement of a row retired by a rotation. -/
  links : ∀ t∈ts,∀ child∈ts,child.parentJti=some t.jti ↔
    t.replacedByJti=some child.jti ∧ t.rotatedAt≠none ∧ t.revocationReason=some "rotated"
  /-- Rows without a child carry no trace of a rotation. -/
  traces : ∀ t∈ts,
    t.replacedByJti≠none ∨ t.rotatedAt≠none ∨ t.revocationReason=some "rotated" →
      ∃ child∈ts,child.parentJti=some t.jti
  /-- A family has a root. -/
  root : ∀ t∈ts,∃ root∈ts,root.parentJti=none ∧ root.familyId=t.familyId
  /-- The replacements lead from the root through its whole family. -/
  visits : ∀ root∈ts,root.parentJti=none → ∀ t∈ts,t.familyId=root.familyId →
    Relation.ReflTransGen (Follows ts) root t

/-- A history is recorded in its rows. -/
theorem History.recorded {bound : ℕ} {ts : List RefreshToken} (h : History bound ts) :
    Recorded ts := by
  constructor
  · intro t ht child hchild
    constructor
    · intro hparent
      obtain ⟨t',ht',hj,hreplaced⟩ := h.back child hchild t.jti hparent
      obtain rfl : t'=t := h.jtis t' ht' t ht hj
      obtain ⟨hretired,_⟩ := h.forth t' ht' _ hreplaced
      exact ⟨hreplaced,hretired.rotated,hretired.reason⟩
    · rintro ⟨hreplaced,_⟩
      obtain ⟨_,child',hchild',hj,hparent⟩ := h.forth t ht _ hreplaced
      obtain rfl : child'=child := h.jtis child' hchild' child hchild hj
      exact hparent
  · intro t ht htrace
    have hreplaced : t.replacedByJti≠none := by
      rcases htrace with hreplaced | hused
      · exact hreplaced
      · exact h.replaced t ht hused
    obtain ⟨x,hx⟩ := Option.ne_none_iff_exists'.mp hreplaced
    obtain ⟨_,child,hchild,_,hparent⟩ := h.forth t ht x hx
    exact ⟨child,hchild,hparent⟩
  · intro t ht
    obtain ⟨root,hroot,hparent,hfamily,_⟩ := h.reached t ht
    exact ⟨root,hroot,hparent,hfamily⟩
  · intro root hroot hparent t ht hfamily
    obtain ⟨first,hfirst,hfirstParent,hfirstFamily,hpath⟩ := h.reached t ht
    have hsame : first=root :=
      h.roots first hfirst root hroot hfirstParent hparent (hfirstFamily.trans hfamily)
    exact hsame ▸ hpath

/-- A sign-out of a single token names no rotated token, unless the audit
table rejects the client. -/
def KeepsHistory (d : Deployment) (s : ServerState) : Input → Prop
  | .call ⟨.revokeRefreshToken token revokeFamily,ip,ua⟩ _ =>
    revokeFamily=false → Auditable ip ua → ∀ record sessionId,
      Presented d s.env s.db token sessionId record → record.rotatedAt=none
  | _ => True

/-- One input keeps the history. -/
theorem history_next {s : ServerState} {input : Input}
    (h : History s.env.draws (tokensOf s.db)) (hc : KeepsHistory d s input) :
    History (s.next d input).env.draws (tokensOf (s.next d input).db) := by
  cases input with
  | setActive userId active =>
    have htokens : tokensOf (ServerState.switched s.db userId active)=tokensOf s.db :=
      Function.update_of_ne (show Table.refreshTokens≠.users by decide) _ _
    show History s.env.draws (tokensOf (ServerState.switched s.db userId active))
    rw [htokens]
    exact h
  | elapse delay => exact h
  | call client choices =>
    have hkept : Kept (s.world choices) := ⟨h,h⟩
    have hafter : Yields (respond d client) (s.world choices) (fun _ w' =>
        History w'.env.draws (tokensOf w'.data.committed)) →
        History (s.next d (.call client choices)).env.draws
          (tokensOf (s.next d (.call client choices)).db) := fun hend => hend
    have haside : ∀ fp,footprint client.request=fp → (∀ a∈fp,Aside a) →
        Yields (respond d client) (s.world choices) fun _ w' =>
          History w'.env.draws (tokensOf w'.data.committed) := fun fp hfp ho =>
      (yields_kept (hfp ▸ inside_respond d client) ho hkept).mono fun _ _ h => h.committed
    refine hafter ?_
    obtain ⟨request,ip,ua⟩ := client
    cases request with
    | register email password => exact haside registration rfl (by decide)
    | login email password =>
      exact (kept_signIn.login email password hkept).bind (fun _ _ h => h.committed)
        fun _ _ h => h.committed
    | verifyLoginChallenge challengeId totp backup =>
      exact (kept_signIn.verifyLoginChallenge challengeId totp backup hkept).bind
        (fun _ _ h => h.committed) fun _ _ h => h.committed
    | refreshTokens token =>
      exact (yields_refreshed token hkept).bind (fun _ _ h => h.committed)
        fun _ _ h => h.committed
    | revokeRefreshToken token revokeFamily =>
      exact (yields_signedOut token revokeFamily hkept hc).bind (fun _ _ h => h.committed)
        fun _ _ h => h.committed
    | requestReset email => exact haside resetRequest rfl (by decide)
    | resetPassword email code newPassword =>
      exact (yields_passwordReset email code newPassword hkept).bind (fun _ _ h => h.committed)
        fun _ _ h => h.committed
    | currentSession authorization => exact haside authentication rfl (by decide)
    | _ => exact haside factorEndpoint rfl (by decide)

/-- The rotation history is kept: in every run whose sign-outs name no rotated
token, children and recorded replacements agree and lead through every family. -/
theorem history_is_kept {clock : Instant} {draws : ℕ} {trace : Trace} {s : ServerState}
    (h : Runs d (fun _ s input => KeepsHistory d s input) (freshServer clock draws) trace s) :
    Recorded (tokensOf s.db) := by
  have hrun : History s.env.draws (tokensOf s.db) := by
    refine h.invariant (fun _ s => History s.env.draws (tokensOf s.db)) history_nil ?_
    intro trace s input hhistory hc
    exact history_next hhistory hc
  exact hrun.recorded

/-- A test for inputs that keep the history. -/
def keepsHistory (d : Deployment) (s : ServerState) : Input → Bool
  | .call ⟨.revokeRefreshToken token _,_,_⟩ _ => (tokensOf s.db).all fun r =>
    r.tokenHash≠hashRefreshToken d token || r.rotatedAt.isNone
  | _ => true

/-- The decidable check of a step gives the condition on it. -/
theorem keepsHistory_sound {s : ServerState} {input : Input}
    (h : keepsHistory d s input=true) : KeepsHistory d s input := by
  cases input with
  | call client choices =>
    obtain ⟨request,ip,ua⟩ := client
    cases request with
    | revokeRefreshToken token revokeFamily =>
      intro _ _ record sessionId hp
      have hrow := List.all_eq_true.mp h record hp.stored
      simpa [hp.tokenHash] using hrow
    | _ => trivial
  | _ => trivial

/-- A sign-out with the current token keeps the history. -/
theorem history_is_kept_signOut : ∃ trace s,
    performAll sampleDeployment (fun _ => keepsHistory sampleDeployment)
      (sampleSignOut secondRefreshToken) [] (freshServer (seconds 3000) 10)=some (trace,s) ∧
    Recorded (tokensOf s.db) := by
  have hsome : (performAll sampleDeployment (fun _ => keepsHistory sampleDeployment)
      (sampleSignOut secondRefreshToken) [] (freshServer (seconds 3000) 10)).isSome=true := by
    decide +kernel
  obtain ⟨⟨trace,s⟩,hperform⟩ := Option.isSome_iff_exists.mp hsome
  exact ⟨trace,s,hperform,history_is_kept (runs_of_performAll
    (fun _ _ _ hc => keepsHistory_sound hc) .refl hperform)⟩

/-- Some row has a child it does not name. -/
def forgets (s : ServerState) : Bool :=
  (tokensOf s.db).any fun t => t.replacedByJti.isNone &&
    (tokensOf s.db).any fun child => child.parentJti==some t.jti

/-- A sign-out with the exchanged token erases its replacement. -/
theorem signOut_erases_replacement : ∃ trace s,
    Runs sampleDeployment (fun _ _ _ => True) (freshServer (seconds 3000) 10) trace s ∧
      ¬Recorded (tokensOf s.db) := by
  have hrun : (performAll sampleDeployment (fun _ _ _ => true) (sampleSignOut firstRefreshToken) []
      (freshServer (seconds 3000) 10)).any (fun r => forgets r.2)=true := by
    decide +kernel
  obtain ⟨⟨trace,s⟩,hperform,hforgets⟩ := (Option.any_eq_true _ _).mp hrun
  refine ⟨trace,s,runs_of_performAll (fun _ _ _ _ => trivial) .refl hperform,fun hrecorded => ?_⟩
  obtain ⟨t,ht,hrow⟩ := List.any_eq_true.mp hforgets
  obtain ⟨hnone,hany⟩ := (Bool.and_eq_true _ _).mp hrow
  obtain ⟨child,hchild,hparent⟩ := List.any_eq_true.mp hany
  have hreplaced := ((hrecorded.links t ht child hchild).mp (by simpa using hparent)).1
  rw [Option.isNone_iff_eq_none.mp hnone] at hreplaced
  cases hreplaced

end Theorem

end BackendPlatform.RotationHistory
