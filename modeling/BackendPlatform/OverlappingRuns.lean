import BackendPlatform.OverlappingContacts

/-!
# Runs of overlapping first contacts

Every step of a request keeps what is known about all of them: a flush writes
one change after another, and only the insertion of the user can meet a row
that another request has committed since the look-up.
-/

set_option autoImplicit false

namespace BackendPlatform.OverlappingRuns

open ProgramTrees InterleavedRuns TransactionalTables RowLocking
open AuthRecords (UUID fits)
open UserRecords UserRequests ConcurrentSessions OverlappingContacts
open UserSteps (seededTables)
open FirstContacts (sampleClient samplePayload)

section Writes

variable {subject : UUID} {role : Role} {rows : List Role} {i p : ℕ} {s s' : Shared}
  {tables tables' : RowLocking.Tables userSchema} {states : ℕ → Phase}

/-- The tables with a new row of a request. -/
abbrev inserted (tables : RowLocking.Tables userSchema) (i : ℕ) (t : Table) (row : Row t) :
    RowLocking.Tables userSchema :=
  tables.write t (tables.cells t++[⟨none,some i,some row⟩])

/-- A request keeps its locks when it inserts a row. -/
theorem owns_inserted (t : Table) (row : Row t) {u : Table} {n : ℕ} {c : Cell (Row u)}
    (h : Owns i (tables.cells u) n c) : Owns i ((inserted tables p t row).cells u) n c := by
  by_cases hu : u=t
  · subst hu
    rw [RowLocking.Tables.write_cells_self (_ : RowLocking.Tables userSchema)]
    exact h.append _
  · rwa [RowLocking.Tables.write_cells_of_ne (_ : RowLocking.Tables userSchema) _ hu]

/-- A request holds the row that it inserts. -/
theorem owns_new (t : Table) (row : Row t) : Owns i ((inserted tables i t row).cells t)
    (tables.cells t).length ⟨none,some i,some row⟩ := by
  rw [RowLocking.Tables.write_cells_self (_ : RowLocking.Tables userSchema)]
  exact ⟨List.getElem?_concat_length,rfl⟩

/-- An INSERT locks nothing in the other tables. -/
theorem unlocked_inserted {t u : Table} (row : Row t) (hne : u≠t)
    (h : Unlocked i (tables.cells u)) : Unlocked i ((inserted tables p t row).cells u) := by
  rwa [RowLocking.Tables.write_cells_of_ne (_ : RowLocking.Tables userSchema) _ hne]

/-- A request that has user and profile keeps them when it inserts a row. -/
theorem Has.inserted (h : Has subject tables i) (t : Table) (row : Row t) :
    Has subject (inserted tables i t row) i := by
  rcases h with hknown|⟨⟨n,hn⟩,m,r,hr,hm⟩
  · exact .inl (hknown.same (sameCommitted_insert t row))
  · exact .inr ⟨⟨n,owns_inserted t row hn⟩,m,r,hr,owns_inserted t row hm⟩

/-- One request writes a new row. -/
theorem Inv.inserts (h : Inv subject role rows s states) {t : Table} {row : Row t}
    {rest : List Change} (hpending : Pending s i (.add t row::rest))
    (hfitting : Fitting subject role t row) (hvalid : valid t row=true)
    (hfree : ∀ r∈s.tables.visible i t,conflict t row r=false) {R : Type}
    {answer : Shared → R×Shared} {reply : Option (Except Failure R)}
    (hf : s.flushed i answer=some (reply,s'))
    (hown : Facts subject role {s.pend i rest with tables := inserted s.tables i t row} i
      (states i)) : reply=none ∧ Inv subject role rows s' states := by
  have hwritten : reply=none ∧ ∃ tables,writeNext i (.add t row) s.tables=
      some (some (.ok ()),tables) ∧ s'={s.pend i rest with tables := tables} := by
    rcases flushed_cons hpending.unflushed hf with
      ⟨tables,hwrite,_,_⟩|⟨tables,hwrite,hreply,hs⟩|⟨e,tables,hwrite,_,_⟩
    · cases (writeNext_add hvalid hfree hwrite).1
    · exact ⟨hreply,tables,hwrite,hs⟩
    · cases (writeNext_add hvalid hfree hwrite).1
  obtain ⟨hreply,tables,hwrite,rfl⟩ := hwritten
  obtain ⟨_,hfire,rfl⟩ := writeNext_add hvalid hfree hwrite
  refine ⟨hreply,?_⟩
  have hsound : Sound subject role rows (inserted s.tables i t row) :=
    h.sound.insert hfitting hfire rfl
  have hstep : Inv subject role rows {s.pend i rest with tables := inserted s.tables i t row}
      (Function.update states i (states i)) :=
    h.step hsound hown (fun j hj => beside_insert hj t row) fun j hj =>
      Function.update_of_ne hj.symm _ _
  rwa [Function.update_eq_self] at hstep

/-- The columns accept an updated profile. -/
theorem valid_updated (payload : UpdateProfileRequest) (profile : UserProfile) :
    valid .userProfiles (ProfileRepository.updated payload profile)=true := by
  have hname : fits 100 payload.displayName=true := by
    cases hdisplay : payload.displayName with
    | none => rfl
    | some name => exact decide_eq_true (payload.displayNameLength name hdisplay).2
  have hurl : fits 512 payload.avatarUrl=true := by
    cases havatar : payload.avatarUrl with
    | none => rfl
    | some url => exact decide_eq_true (payload.avatarUrlLength url havatar)
  show (fits 100 payload.displayName && decide (payload.locale.length≤16) &&
    decide (payload.timezone.length≤64) && fits 512 payload.avatarUrl)=true
  rw [hname,hurl,decide_eq_true payload.localeLength.2,decide_eq_true payload.timezoneLength.2]
  rfl

/-- Where one noted row satisfies a condition, one is found. -/
theorem filterMap_length_eq_one {R : Type} {f : ℕ → Option R} {noted : List ℕ} {n : ℕ} {r : R}
    (hnodup : noted.Nodup) (hn : n∈noted) (hr : f n=some r) (hone : ∀ m a,f m=some a → m=n) :
    (noted.filterMap f).length=1 := by
  induction noted with
  | nil => cases hn
  | cons k rest ih =>
    obtain ⟨hk,hrest⟩ := List.nodup_cons.mp hnodup
    by_cases heq : k=n
    · subst heq
      have hnil : rest.filterMap f=[] := by
        rw [List.filterMap_eq_nil_iff]
        intro m hm
        cases hfound : f m with
        | none => rfl
        | some a => exact absurd (hone m a hfound ▸ hm) hk
      rw [List.filterMap_cons_some hr,hnil]
      rfl
    · have hnone : f k=none := by
        cases hfound : f k with
        | none => rfl
        | some a => exact absurd (hone k a hfound) heq
      rw [List.filterMap_cons_none hnone]
      exact ih hrest ((List.mem_cons.mp hn).resolve_left (Ne.symm heq))

/-- The profile of the subject is where a request sees it. -/
theorem Sound.view (h : Sound subject role rows tables) {n : ℕ}
    (hsees : SeesAt subject tables i n) :
    ∃ r : UserProfile,(((tables.cells .userProfiles)[n]?.bind (·.view i)).filter
      fun r => r.userId==subject)=some r := by
  obtain ⟨r,hr,hsubject⟩ := h.sees hsees
  refine ⟨r,?_⟩
  have hview : (tables.cells .userProfiles)[n]?.bind (·.view i)=some r := by
    obtain ⟨c,hc,hmerged⟩ := Option.bind_eq_some_iff.mp hr
    rw [hc]
    exact (Cell.merged_singleton i c).symm.trans hmerged
  rw [hview]
  simp [hsubject]

/-- No other profile is one of the subject. -/
theorem Sound.view_index (h : Sound subject role rows tables) {n m : ℕ} {a : UserProfile}
    (hsees : SeesAt subject tables i n)
    (ha : (((tables.cells .userProfiles)[m]?.bind (·.view i)).filter
      fun r => r.userId==subject)=some a) : m=n := by
  obtain ⟨r,hr,hsubject⟩ := h.sees hsees
  obtain ⟨hview,hkey⟩ := Option.filter_eq_some_iff.mp ha
  obtain ⟨c,hc,hmerged⟩ := Option.bind_eq_some_iff.mp hview
  have hm : mergedAt {i} (tables.cells .userProfiles) m=some a := by
    rw [mergedAt,hc]
    exact (Cell.merged_singleton i c).trans hmerged
  exact h.profile_index hm hr (beq_iff_eq.mp hkey) hsubject

/-- A request that updates its profile keeps user and profile. -/
theorem Has.updated (h : Has subject tables i) {noted : List ℕ} {payload : UpdateProfileRequest}
    (hcells : tables'.cells=(tables.write .userProfiles
      (lockRows i noted (fun r => r.userId==subject)
        (fun r => some (ProfileRepository.updated payload r)) (tables.cells .userProfiles))).cells) :
    Has subject tables' i := by
  rcases h with hknown|⟨⟨n,hn⟩,m,r,hr,hm⟩
  · exact .inl (hknown.same (sameCommitted_lock hcells))
  · refine .inr ⟨⟨n,?_⟩,m,?_⟩
    · rw [hcells]
      rwa [RowLocking.Tables.write_cells_of_ne (_ : RowLocking.Tables userSchema) _ (by decide)]
    · rw [OwnsProfileAt,hcells,
        RowLocking.Tables.write_cells_self (_ : RowLocking.Tables userSchema)]
      by_cases hmem : m∈noted
      · refine ⟨ProfileRepository.updated payload r,hr,?_,rfl⟩
        rw [getElem?_lockRows,hm.1,Option.map_some,if_pos hmem]
        simp [Cell.lock,Cell.view,hr]
      · refine ⟨r,hr,?_,rfl⟩
        rw [getElem?_lockRows,hm.1,Option.map_some,if_neg hmem]

/-- A change of rows notes them first and changes them once they are free. -/
theorem writeNext_assign {t : Table} {isRow : Row t → Bool} {f : Row t → Row t}
    {reply : Option (Except Failure Unit)}
    (h : writeNext i (.assign t isRow f) tables=some (reply,tables')) :
    (tables.noted i=none ∧ reply=none ∧ tables'={tables with
      noted := Function.update tables.noted i (some (candidates i isRow (tables.cells t)))}) ∨
    ∃ noted,tables.noted i=some noted ∧ ready i noted (tables.cells t)=true ∧
      tables'={tables.write t (lockRows i noted isRow (fun r => some (f r)) (tables.cells t)) with
        noted := Function.update tables.noted i none} ∧
      reply=some (if (matched i noted isRow (tables.cells t)).length≠1 then .error .staleData
        else if ((tables.visible i t).filter isRow).all fun r => valid t (f r) then .ok ()
        else .error .dataError) := by
  simp only [writeNext,RowLocking.Tables.fire,RowLocking.Tables.locking,Option.map_map] at h
  cases hnoted : tables.noted i with
  | none =>
    simp only [hnoted,Option.map_some,Option.some.injEq,Function.comp,Option.map_none,
      Prod.mk.injEq] at h
    exact .inl ⟨rfl,h.1.symm,h.2.symm⟩
  | some noted =>
    simp only [hnoted] at h
    by_cases hready : ready i noted (tables.cells t)=true
    · simp only [if_pos hready,Option.map_some,Option.some.injEq,Function.comp,
        Prod.mk.injEq] at h
      exact .inr ⟨noted,rfl,hready,h.2.symm,h.1.symm⟩
    · simp only [if_neg hready,Option.map_none] at h
      cases h

/-- One request writes its profile. -/
theorem Inv.updates (h : Inv subject role rows s states) {payload : UpdateProfileRequest}
    (hpending : s.unflushed i=[profileChange subject payload]) (hhas : Has subject s.tables i)
    (hnoted : Noted subject s.tables i) (hphase : states i=.updating) {R : Type}
    {answer : Shared → R×Shared} {reply : Option (Except Failure R)}
    (hf : s.flushed i answer=some (reply,s')) :
    reply=none ∧ Inv subject role rows s' states := by
  have hother : ∀ {noted : Option (List ℕ)} (j : ℕ),i≠j →
      Function.update s.tables.noted i noted j=s.tables.noted j :=
    fun j hj => Function.update_of_ne hj.symm _ _
  have hself : Function.update states i .updating=states := by
    rw [←hphase,Function.update_eq_self]
  rcases flushed_cons hpending hf with
    ⟨tables,hwrite,hreply,rfl⟩|⟨tables,hwrite,hreply,rfl⟩|⟨e,tables,hwrite,_,_⟩
  · refine ⟨hreply,?_⟩
    rcases writeNext_assign hwrite with ⟨_,_,rfl⟩|⟨noted,_,_,_,hnone⟩
    · rw [←hself]
      refine h.step (h.sound.of_cells rfl) (.inl ⟨payload,hpending,?_,?_⟩)
        (fun j hj => beside_of_cells rfl (hother j hj)) fun _ _ => rfl
      · exact hhas.imp (fun hk => hk.same (sameCommitted_of_cells rfl)) id
      · intro noted hnow
        have hrows : noted=candidates i (fun r => r.userId==subject)
            (s.tables.cells .userProfiles) :=
          (Option.some.inj ((Function.update_self i _ _).symm.trans hnow)).symm
        subst hrows
        obtain ⟨n,hn⟩ := hhas.sees
        obtain ⟨r,hr,_⟩ := h.sound.sees hn
        obtain ⟨r',hview⟩ := Sound.view h.sound hn
        obtain ⟨hsome,hkey⟩ := Option.filter_eq_some_iff.mp hview
        refine ⟨List.nodup_range.filter _,n,?_,hn⟩
        refine List.mem_filter.mpr ⟨List.mem_range.mpr (mergedAt_lt hr),?_⟩
        exact (Option.any_eq_true _ _).mpr ⟨r',hsome,hkey⟩
    · cases hnone
  · refine ⟨hreply,?_⟩
    rcases writeNext_assign hwrite with ⟨_,hnone,_⟩|⟨noted,_,hready,rfl,_⟩
    · cases hnone
    · rw [←hself]
      refine h.step (h.sound.update hready rfl) (.inr ⟨⟨?_,?_⟩,?_⟩)
        (fun j hj => beside_lock hj hready rfl (hother j hj))
        fun j hj => Function.update_of_ne hj.symm _ _
      · exact Function.update_self _ _ _
      · exact Function.update_self _ _ _
      · exact Has.updated hhas rfl
  · exfalso
    rcases writeNext_assign hwrite with ⟨_,hnone,_⟩|⟨noted,hnow,_,_,hsome⟩
    · cases hnone
    · obtain ⟨hnodup,n,hn,hsees⟩ := hnoted noted hnow
      obtain ⟨r,hr⟩ := Sound.view h.sound hsees
      have hone : (matched i noted (fun r => r.userId==subject)
          (s.tables.cells .userProfiles)).length=1 :=
        filterMap_length_eq_one hnodup hn hr fun m a ha =>
          Sound.view_index h.sound hsees ha
      have hvalid : (((s.tables.visible i .userProfiles).filter fun r => r.userId==subject).all
          fun r => valid .userProfiles (ProfileRepository.updated payload r))=true :=
        List.all_eq_true.mpr fun r _ => valid_updated payload r
      rw [if_neg (not_not.mpr hone),if_pos hvalid] at hsome
      cases hsome

end Writes

section Reads

variable {subject : UUID} {role : Role} {rows : List Role} {i p : ℕ} {s s' : Shared}
  {tables tables' : RowLocking.Tables userSchema} {states : ℕ → Phase}

/-- A list with at most one element. -/
theorem eq_nil_or_singleton {α : Type} {l : List α} (h : l.length≤1) : l=[] ∨ ∃ a,l=[a] := by
  rcases Nat.le_one_iff_eq_zero_or_eq_one.mp h with hnone|hone
  · exact .inl (List.length_eq_zero_iff.mp hnone)
  · exact .inr (List.length_eq_one_iff.mp hone)

/-- A visible row is a version of a row. -/
theorem version_of_visible {t : Table} {r : Row t} (h : r∈tables.visible i t) :
    ∃ c∈tables.cells t,c.committed=some r ∨ c.working=some r := by
  obtain ⟨c,hc,hview⟩ := List.mem_filterMap.mp h
  refine ⟨c,hc,?_⟩
  unfold Cell.view at hview
  split at hview
  · exact .inr hview
  · exact .inl hview

/-- The look-up of the subject finds nothing or the user of the subject. -/
theorem lookup_user (h : Sound subject role rows tables) :
    (tables.visible i .appUsers).filter (fun r => r.externalSubject==subject.str)=[] ∨
      (tables.visible i .appUsers).filter (fun r => r.externalSubject==subject.str)=
        [newUser subject] := by
  have hone : ((tables.visible i .appUsers).filter
      fun r => r.externalSubject==subject.str).length≤1 := by
    refine visible_filter_length_le_one fun n m a b ha hb hpa hpb =>
      h.apart .appUsers {i} n m a b ha hb ?_
    show (a.id==b.id || a.externalSubject==b.externalSubject)=true
    rw [beq_iff_eq.mp hpa,beq_iff_eq.mp hpb,beq_self_eq_true,Bool.or_true]
  rcases eq_nil_or_singleton hone with hnil|⟨u,hu⟩
  · exact .inl hnil
  · have hmem : u∈(tables.visible i .appUsers).filter
        fun r => r.externalSubject==subject.str := by
      rw [hu]
      exact List.mem_singleton_self u
    obtain ⟨hvisible,hkey⟩ := List.mem_filter.mp hmem
    obtain ⟨c,hc,hversion⟩ := version_of_visible hvisible
    have huser : u=newUser subject := h.users c hc u hversion (beq_iff_eq.mp hkey)
    rw [huser] at hu
    exact .inr hu

/-- A user is found by its identifier at most once. -/
theorem lookup_id (h : Sound subject role rows tables) (id : UUID) :
    (tables.visible i .appUsers).filter (fun r => r.id==id)=[] ∨
      ∃ user,(tables.visible i .appUsers).filter (fun r => r.id==id)=[user] := by
  refine eq_nil_or_singleton (visible_filter_length_le_one fun n m a b ha hb hpa hpb =>
    h.apart .appUsers {i} n m a b ha hb ?_)
  show (a.id==b.id || a.externalSubject==b.externalSubject)=true
  rw [beq_iff_eq.mp hpa,beq_iff_eq.mp hpb,beq_self_eq_true,Bool.true_or]

/-- A request that has its profile finds it. -/
theorem lookup_profile (h : Sound subject role rows tables) (hhas : Has subject tables i) :
    ∃ profile : UserProfile,profile.userId=subject ∧
      (tables.visible i .userProfiles).filter (fun r => r.userId==subject)=[profile] := by
  obtain ⟨n,hn⟩ := hhas.sees
  obtain ⟨r,hr,hsubject⟩ := h.sees hn
  have hmem : r∈(tables.visible i .userProfiles).filter fun r => r.userId==subject :=
    List.mem_filter.mpr ⟨mem_visible hr,beq_iff_eq.mpr hsubject⟩
  have hone : ((tables.visible i .userProfiles).filter fun r => r.userId==subject).length≤1 :=
    visible_filter_length_le_one fun n m a b ha hb hpa hpb =>
      h.profile_index ha hb (beq_iff_eq.mp hpa) (beq_iff_eq.mp hpb)
  rcases eq_nil_or_singleton hone with hnil|⟨profile,hprofile⟩
  · rw [hnil] at hmem
    cases hmem
  · rw [hprofile] at hmem
    rw [hprofile]
    rw [List.mem_singleton.mp hmem] at hsubject
    exact ⟨profile,hsubject,rfl⟩

/-- The default role is found. -/
theorem lookup_role (h : Sound subject role rows tables)
    (hrole : rows.filter (fun r => r.name==roleUser)=[role]) :
    (tables.visible i .roles).filter (fun r => r.name==roleUser)=[role] := by
  have hvisible : tables.visible i .roles=rows := by
    unfold RowLocking.Tables.visible
    rw [h.roles,List.filterMap_map]
    have hself : (fun c : Cell Role => c.view i)∘(fun r => ⟨some r,none,none⟩)=some := rfl
    rw [hself,List.filterMap_some]
  rw [hvisible]
  exact hrole

/-- A request that has made its user finds no role of it. -/
theorem lookup_links (h : Sound subject role rows tables) (hmade : Made subject tables i)
    (hlinks : Unlocked i (tables.cells .userRoles)) (id : UUID) :
    (tables.visible i .userRoles).filter (fun r => r.userId==subject && r.roleId==id)=[] := by
  rw [List.filter_eq_nil_iff]
  intro r hr hkey
  obtain ⟨c,hc,hcommitted⟩ := committed_of_visible hlinks hr
  have hsubject : r.userId=subject := beq_iff_eq.mp ((Bool.and_eq_true _ _).mp hkey).1
  exact (h.vacant hmade.1).links c hc r hcommitted hsubject

/-- No profile is in the way of the one of a new user. -/
theorem free_profile (h : Sound subject role rows tables) (howns : OwnsUser subject tables i)
    (hprofiles : Unlocked i (tables.cells .userProfiles)) :
    ∀ r∈tables.visible i .userProfiles,conflict .userProfiles (newProfile subject) r=false := by
  intro r hr
  obtain ⟨c,hc,hcommitted⟩ := committed_of_visible hprofiles hr
  have hne : r.userId≠subject := (h.vacant howns).profiles c hc r hcommitted
  show (subject==r.userId)=false
  rw [beq_eq_false_iff_ne]
  exact hne.symm

/-- No role is in the way of the one of a new user. -/
theorem free_link (h : Sound subject role rows tables) (howns : OwnsUser subject tables i)
    (hlinks : Unlocked i (tables.cells .userRoles)) :
    ∀ r∈tables.visible i .userRoles,conflict .userRoles ⟨subject,role.id⟩ r=false := by
  intro r hr
  obtain ⟨c,hc,hcommitted⟩ := committed_of_visible hlinks hr
  have hne : r.userId≠subject := (h.vacant howns).links c hc r hcommitted
  show (subject==r.userId && role.id==r.roleId)=false
  rw [beq_eq_false_iff_ne.mpr hne.symm,Bool.false_and]

end Reads

section Obligations

variable {subject : UUID} {role : Role} {rows : List Role} {i : ℕ} {s s' : Shared}
  {states : ℕ → Phase} {op : Effect} {c : ℕ}

/-- Requests of the subject start, nothing else does. -/
def Contacting (subject : UUID) (_ : UserSystem) : UserMove → Prop
  | .spawn p => ∃ c : ClientRequest,Contacts subject c ∧ p=respond c
  | _ => True

/-- No visible user conflicts with the new user that a request has to write next. -/
def Uncontested (s : Shared) (i : ℕ) : Prop :=
  ∀ row rest,s.unflushed i=.add .appUsers row::rest →
    ∀ r∈s.tables.visible i .appUsers,conflict .appUsers row r=false

/-- The request has looked its user up and found nobody. -/
def FoundNobody (subject : UUID) (history : List (Event userSignature)) (i : ℕ) : Prop :=
  (⟨i,.select .appUsers fun r => r.externalSubject==subject.str,.ok []⟩ : Event userSignature)∈
    history

/-- No request that found nobody is left to write its new user where one is
visible: nobody has committed one since its look-up. -/
def Uncontended (subject : UUID) (sys : UserSystem) : UserMove → Prop
  | .effect i _ => FoundNobody subject sys.history i → Uncontested sys.shared i
  | _ => True

/-- The request is about to write its user. -/
def enrolling : Phase → Bool
  | .absent => true
  | .adding => true
  | .creating => true
  | _ => false

/-- The tracked invariant. -/
structure Tracked (subject : UUID) (role : Role) (rows : List Role) (s : Shared)
    (history : List (Event userSignature)) (states : ℕ → Phase) : Prop where
  /-- The tables are those of the requests. -/
  inv : Inv subject role rows s states
  /-- Requests on their way to write their user have found nobody. -/
  looked : ∀ i,enrolling (states i)=true → FoundNobody subject history i

/-- Only a flush makes progress without an answer. -/
theorem fire_progress (h : s.fire i op c=some (none,s')) :
    ∃ (R : Type) (answer : Shared → R×Shared),s.flushed i answer=some (none,s') := by
  cases op with
  | draw => cases h
  | select t q => exact ⟨_,_,h⟩
  | selectRoles userId => exact ⟨_,_,h⟩
  | selectPermissionNames userId => exact ⟨_,_,h⟩
  | add t row => cases h
  | assign t isRow f => cases h
  | flush => exact ⟨_,_,h⟩
  | changed => cases h
  | commit => exact ⟨Unit,fun s => ((),{s with tables := s.tables.settle i}),h⟩

/-- Every effect has a reply. -/
theorem exists_reply (op : Effect) : Nonempty op.Reply := by
  cases op with
  | draw => exact ⟨0⟩
  | select t q => exact ⟨.ok []⟩
  | selectRoles userId => exact ⟨.ok []⟩
  | selectPermissionNames userId => exact ⟨.ok []⟩
  | add t row => exact ⟨()⟩
  | assign t isRow f => exact ⟨()⟩
  | flush => exact ⟨.ok ()⟩
  | changed => exact ⟨true⟩
  | commit => exact ⟨.ok ()⟩

/-- A flush of a request with nothing to write answers at once. -/
theorem not_progress (hpending : s.unflushed i=[]) : s.fire i op c≠some (none,s') := by
  intro h
  obtain ⟨R,answer,hf⟩ := fire_progress h
  cases (flushed_nil hpending hf).1

/-- The rest of a request's writing. -/
theorem pending_written {t : Table} {row : Row t} {rest : List Change}
    (h : Pending s i (.add t row::rest)) :
    Pending {s.pend i rest with tables := inserted s.tables i t row} i rest :=
  ⟨Function.update_self _ _ _,h.noted⟩

/-- The user of a new subject is written. -/
theorem Inv.writesUser (h : Inv subject role rows s states)
    (hpending : Pending s i [.add .appUsers (newUser subject),.add .userProfiles (newProfile subject)])
    (huntouched : Untouched s.tables i) (hphase : states i=.creating)
    (hfree : ∀ r∈s.tables.visible i .appUsers,conflict .appUsers (newUser subject) r=false)
    {R : Type} {answer : Shared → R×Shared} {reply : Option (Except Failure R)}
    (hf : s.flushed i answer=some (reply,s')) :
    reply=none ∧ Inv subject role rows s' states := by
  refine Inv.inserts h hpending rfl rfl hfree hf ?_
  rw [hphase]
  exact .inr (.inl ⟨pending_written hpending,⟨_,owns_new .appUsers (newUser subject)⟩,
    unlocked_inserted _ (by decide) huntouched.profiles,
    unlocked_inserted _ (by decide) huntouched.links⟩)

/-- The profile of a first contact passes its checks. -/
theorem valid_newProfile (subject : UUID) :
    valid .userProfiles (newProfile subject)=true := by
  show (fits 100 none && decide ("en-US".length≤16) && decide ("UTC".length≤64) &&
    fits 512 none)=true
  decide

/-- The profile of a new subject is written. -/
theorem Inv.writesProfile (h : Inv subject role rows s states)
    (hpending : Pending s i [.add .userProfiles (newProfile subject)])
    (howns : OwnsUser subject s.tables i)
    (hprofiles : Unlocked i (s.tables.cells .userProfiles))
    (hlinks : Unlocked i (s.tables.cells .userRoles)) (hphase : states i=.creating)
    {R : Type} {answer : Shared → R×Shared} {reply : Option (Except Failure R)}
    (hf : s.flushed i answer=some (reply,s')) :
    reply=none ∧ Inv subject role rows s' states := by
  refine Inv.inserts h hpending trivial (valid_newProfile subject)
    (free_profile h.sound howns hprofiles) hf ?_
  rw [hphase]
  obtain ⟨n,hn⟩ := howns
  exact .inr (.inr ⟨pending_written hpending,
    ⟨⟨n,owns_inserted .userProfiles (newProfile subject) hn⟩,_,newProfile subject,rfl,
      owns_new .userProfiles (newProfile subject)⟩,
    unlocked_inserted _ (by decide) hlinks⟩)

/-- The default role of a new subject is written. -/
theorem Inv.writesLink (h : Inv subject role rows s states)
    (hpending : Pending s i [.add .userRoles ⟨subject,role.id⟩])
    (hmade : Made subject s.tables i) (hlinks : Unlocked i (s.tables.cells .userRoles))
    (hphase : states i=.linking)
    {R : Type} {answer : Shared → R×Shared} {reply : Option (Except Failure R)}
    (hf : s.flushed i answer=some (reply,s')) :
    reply=none ∧ Inv subject role rows s' states := by
  refine Inv.inserts h hpending rfl rfl (free_link h.sound hmade.1 hlinks) hf ?_
  rw [hphase]
  obtain ⟨⟨n,hn⟩,m,r,hr,hm⟩ := hmade
  exact .inr ⟨pending_written hpending,⟨n,owns_inserted .userRoles _ hn⟩,m,r,hr,
    owns_inserted .userRoles _ hm⟩

/-- An audit row is written. -/
theorem Inv.writesEvent (h : Inv subject role rows s states) {row : AuditEvent}
    (hvalid : valid .auditEvents row=true) (hpending : Pending s i [.add .auditEvents row])
    (hhas : Has subject s.tables i) (hphase : states i=.recording)
    {R : Type} {answer : Shared → R×Shared} {reply : Option (Except Failure R)}
    (hf : s.flushed i answer=some (reply,s')) :
    reply=none ∧ Inv subject role rows s' states := by
  refine Inv.inserts h hpending trivial hvalid (fun _ _ => rfl) hf ?_
  rw [hphase]
  exact .inr ⟨pending_written hpending,Has.inserted hhas .auditEvents row⟩

/-- Internal progress of an uncontended request. -/
theorem Inv.progress (h : Inv subject role rows s states)
    (huncontended : states i=.creating → Uncontested s i)
    {Q : Phase → Except Failure Response → Prop} {k : op.Reply → Action Response}
    (hfollows : (Program.call op k).Follows (protocol subject role) (states i) Q)
    (hf : s.fire i op c=some (none,s')) : Inv subject role rows s' states := by
  have hfacts := h.facts i
  obtain ⟨R,answer,hflushed⟩ := fire_progress hf
  obtain ⟨reply⟩ := exists_reply op
  cases hphase : states i with
  | start =>
    rw [hphase] at hfacts
    exact absurd hf (not_progress hfacts.1.unflushed)
  | absent =>
    rw [hphase] at hfacts
    exact absurd hf (not_progress hfacts.1.unflushed)
  | adding =>
    rw [hphase] at hfollows
    obtain ⟨t,hm,_⟩ := hfollows reply trivial
    cases op with
    | add u row => cases hf
    | assign u isRow f => cases hf
    | draw => cases hf
    | changed => cases hf
    | select u q => exact hm.elim
    | selectRoles userId => exact hm.elim
    | selectPermissionNames userId => exact hm.elim
    | flush => exact hm.elim
    | commit => exact hm.elim
  | creating =>
    rw [hphase] at hfacts
    rcases hfacts with ⟨hp,hu⟩|⟨hp,hu,hprofiles,hlinks⟩|⟨hp,hm,hlinks⟩
    · exact (Inv.writesUser h hp hu hphase (huncontended hphase _ _ hp.unflushed) hflushed).2
    · exact (Inv.writesProfile h hp hu hprofiles hlinks hphase hflushed).2
    · exact absurd hf (not_progress hp.unflushed)
  | created =>
    rw [hphase] at hfacts
    exact absurd hf (not_progress hfacts.1.unflushed)
  | linking =>
    rw [hphase] at hfacts
    rcases hfacts with ⟨hp,hm,hlinks⟩|⟨hp,hm⟩
    · exact (Inv.writesLink h hp hm hlinks hphase hflushed).2
    · exact absurd hf (not_progress hp.unflushed)
  | known =>
    rw [hphase] at hfacts
    exact absurd hf (not_progress hfacts.1.unflushed)
  | updating =>
    rw [hphase] at hfacts
    rcases hfacts with ⟨payload,hp,hhas,hnoted⟩|⟨hp,hhas⟩
    · exact (Inv.updates h hp hhas hnoted hphase hflushed).2
    · exact absurd hf (not_progress hp.unflushed)
  | recording =>
    rw [hphase] at hfacts
    rcases hfacts with ⟨row,hvalid,hp,hhas⟩|⟨hp,hhas⟩
    · exact (Inv.writesEvent h hvalid hp hhas hphase hflushed).2
    · exact absurd hf (not_progress hp.unflushed)
  | done =>
    rw [hphase] at hfollows
    obtain ⟨t,hm,_⟩ := hfollows reply trivial
    exact hm.elim
  | lost =>
    rw [hphase] at hfollows
    obtain ⟨t,hm,_⟩ := hfollows reply trivial
    exact hm.elim

/-- A flush that writes first does not answer. -/
theorem not_answered {R : Type} {reply : Except Failure R} {P : Prop}
    (h : (some reply : Option (Except Failure R))=none ∧ P) : False := by
  cases h.1

/-- The flush of a created user, of its role and of an audit row succeeds. -/
theorem Inv.flush (h : Inv subject role rows s states)
    (huncontended : states i=.creating → Uncontested s i)
    (hphase : states i=.creating ∨ states i=.linking ∨ states i=.updating ∨ states i=.recording)
    {reply : Except Failure Unit} (hf : s.fire i .flush c=some (some reply,s')) :
    s.unflushed i=[] ∧ s'=s ∧ reply=.ok () := by
  have hflushed : s.flushed i (fun s => ((),s))=some (some reply,s') := hf
  have hfacts := h.facts i
  have hdone : s.unflushed i=[] → s.unflushed i=[] ∧ s'=s ∧ reply=.ok () := by
    intro hnil
    obtain ⟨hreply,hs⟩ := flushed_nil hnil hflushed
    exact ⟨hnil,hs,Option.some.inj hreply⟩
  rcases hphase with hphase|hphase|hphase|hphase
  · rw [hphase] at hfacts
    rcases hfacts with ⟨hp,hu⟩|⟨hp,hu,hprofiles,hlinks⟩|⟨hp,hm,hlinks⟩
    · exact (not_answered
        (Inv.writesUser h hp hu hphase (huncontended hphase _ _ hp.unflushed) hflushed)).elim
    · exact (not_answered (Inv.writesProfile h hp hu hprofiles hlinks hphase hflushed)).elim
    · exact hdone hp.unflushed
  · rw [hphase] at hfacts
    rcases hfacts with ⟨hp,hm,hlinks⟩|⟨hp,hm⟩
    · exact (not_answered (Inv.writesLink h hp hm hlinks hphase hflushed)).elim
    · exact hdone hp.unflushed
  · rw [hphase] at hfacts
    rcases hfacts with ⟨payload,hp,hhas,hnoted⟩|⟨hp,hhas⟩
    · exact (not_answered (Inv.updates h hp hhas hnoted hphase hflushed)).elim
    · exact hdone hp.unflushed
  · rw [hphase] at hfacts
    rcases hfacts with ⟨row,hvalid,hp,hhas⟩|⟨hp,hhas⟩
    · exact (not_answered (Inv.writesEvent h hvalid hp hhas hphase hflushed)).elim
    · exact hdone hp.unflushed

/-- The answer of a query where nothing is left to write. -/
theorem select_answer {t : Table} {q : Row t → Bool} {reply : Except Failure (List (Row t))}
    (hpending : s.unflushed i=[]) (hf : s.fire i (.select t q) c=some (some reply,s')) :
    s'=s ∧ reply=.ok ((s.tables.visible i t).filter q) := by
  have hflushed : s.flushed i (fun s => ((s.view i t).filter q,s))=some (some reply,s') := hf
  obtain ⟨hreply,hs⟩ := flushed_nil hpending hflushed
  exact ⟨hs,Option.some.inj hreply⟩

/-- Every answer is one that the protocol offers. -/
theorem Inv.offer (h : Inv subject role rows s states)
    (hrole : rows.filter (fun r => r.name==roleUser)=[role])
    (huncontended : states i=.creating → Uncontested s i)
    {reply : op.Reply} (hf : s.fire i op c=some (some reply,s')) :
    offers subject role (states i) op reply := by
  have hfacts := h.facts i
  cases hphase : states i with
  | start =>
    rw [hphase] at hfacts
    cases op with
    | select t q =>
      cases t with
      | appUsers =>
        rintro rfl
        obtain ⟨_,rfl⟩ := select_answer hfacts.1.unflushed hf
        exact (lookup_user h.sound).imp (congrArg Except.ok) (congrArg Except.ok)
      | _ => trivial
    | _ => trivial
  | absent => trivial
  | adding => trivial
  | creating =>
    cases op with
    | flush => exact (Inv.flush h huncontended (.inl hphase) hf).2.2
    | _ => trivial
  | created =>
    rw [hphase] at hfacts
    obtain ⟨hp,hm,hlinks⟩ := hfacts
    cases op with
    | select t q =>
      cases t with
      | roles =>
        rintro rfl
        obtain ⟨_,rfl⟩ := select_answer hp.unflushed hf
        exact congrArg Except.ok (lookup_role h.sound hrole)
      | userRoles =>
        rintro rfl
        obtain ⟨_,rfl⟩ := select_answer hp.unflushed hf
        exact congrArg Except.ok (lookup_links h.sound hm hlinks role.id)
      | _ => trivial
    | _ => trivial
  | linking =>
    cases op with
    | flush => exact (Inv.flush h huncontended (.inr (.inl hphase)) hf).2.2
    | _ => trivial
  | known =>
    rw [hphase] at hfacts
    obtain ⟨hp,hhas⟩ := hfacts
    cases op with
    | select t q =>
      cases t with
      | userProfiles =>
        rintro rfl
        obtain ⟨_,rfl⟩ := select_answer hp.unflushed hf
        obtain ⟨profile,hsubject,hfound⟩ := lookup_profile h.sound hhas
        exact ⟨profile,hsubject,congrArg Except.ok hfound⟩
      | appUsers =>
        rintro ⟨id,rfl⟩
        obtain ⟨_,rfl⟩ := select_answer hp.unflushed hf
        rcases lookup_id h.sound id with hnone|⟨user,huser⟩
        · exact .inl (congrArg Except.ok hnone)
        · exact .inr ⟨user,congrArg Except.ok huser⟩
      | _ => trivial
    | selectRoles userId =>
      have hflushed : s.flushed i (fun s => (rolesForUser (s.view i) userId,s))=
          some (some reply,s') := hf
      exact ⟨_,Option.some.inj (flushed_nil hp.unflushed hflushed).1⟩
    | selectPermissionNames userId =>
      have hflushed : s.flushed i (fun s => (permissionNamesForUser (s.view i) userId,s))=
          some (some reply,s') := hf
      exact ⟨_,Option.some.inj (flushed_nil hp.unflushed hflushed).1⟩
    | changed =>
      cases hf
      rw [hp.unflushed]
      rfl
    | commit =>
      have hflushed : s.flushed i (fun s => ((),{s with tables := s.tables.settle i}))=
          some (some reply,s') := hf
      exact Option.some.inj (flushed_nil hp.unflushed hflushed).1
    | _ => trivial
  | updating =>
    cases op with
    | flush => exact (Inv.flush h huncontended (.inr (.inr (.inl hphase))) hf).2.2
    | _ => trivial
  | recording =>
    cases op with
    | flush => exact (Inv.flush h huncontended (.inr (.inr (.inr hphase))) hf).2.2
    | _ => trivial
  | done => trivial
  | lost => trivial

/-- A request moves on without a change. -/
theorem Inv.moved (h : Inv subject role rows s states) {t : Phase}
    (hown : Facts subject role s i t) : Inv subject role rows s (Function.update states i t) :=
  h.step h.sound hown (fun _ _ => beside_of_cells rfl rfl) fun _ _ => rfl

/-- A request moves on with something to write. -/
theorem Inv.pended (h : Inv subject role rows s states) {t : Phase} {changes : List Change}
    (hown : Facts subject role (s.pend i changes) i t) :
    Inv subject role rows (s.pend i changes) (Function.update states i t) :=
  h.step h.sound hown (fun _ _ => beside_of_cells rfl rfl) fun _ hj =>
    Function.update_of_ne hj.symm _ _

/-- A request that waits for nothing may note its changes. -/
theorem pending_pend {changes : List Change} (h : s.tables.noted i=none) :
    Pending (s.pend i changes) i changes := ⟨Function.update_self _ _ _,h⟩

/-- A request that finds its user has user and profile. -/
theorem known_of_found (h : Sound subject role rows s.tables) (huntouched : Untouched s.tables i)
    {user : AppUser} (huser : user∈s.tables.visible i .appUsers)
    (hsubject : user.externalSubject=subject.str) : Known subject s.tables := by
  refine h.together.resolve_left fun hvacant => ?_
  obtain ⟨cell,hcell,hcommitted⟩ := committed_of_visible huntouched.users huser
  exact hvacant.users cell hcell user hcommitted hsubject

/-- The look-up finds the user or nobody. -/
theorem Inv.answer_start (h : Inv subject role rows s states)
    (hphase : states i=.start)
    {reply : op.Reply} {t : Phase} (hm : moves subject role .start op reply t)
    (hf : s.fire i op c=some (some reply,s')) :
    Inv subject role rows s' (Function.update states i t) := by
  have hfacts := h.facts i
  rw [hphase] at hfacts
  cases op with
  | select u q =>
    cases u with
    | appUsers =>
      obtain ⟨rfl,rfl⟩ := select_answer hfacts.1.unflushed hf
      cases hfound : (s'.tables.visible i .appUsers).filter q with
      | nil =>
        rw [hfound] at hm
        obtain ⟨rfl,rfl⟩ := hm
        exact Inv.moved h hfacts
      | cons user rest =>
        rw [hfound] at hm
        obtain ⟨rfl,rfl⟩ := hm
        have hmem : user∈(s'.tables.visible i .appUsers).filter
            fun r => r.externalSubject==subject.str := by
          rw [hfound]
          exact List.mem_cons_self
        obtain ⟨hvisible,hkey⟩ := List.mem_filter.mp hmem
        exact Inv.moved h ⟨hfacts.1,
          .inl (known_of_found h.sound hfacts.2 hvisible (beq_iff_eq.mp hkey))⟩
    | _ => exact hm.elim
  | _ => exact hm.elim

/-- The user is added. -/
theorem Inv.answer_absent (h : Inv subject role rows s states)
    (hphase : states i=.absent)
    {reply : op.Reply} {t : Phase} (hm : moves subject role .absent op reply t)
    (hf : s.fire i op c=some (some reply,s')) :
    Inv subject role rows s' (Function.update states i t) := by
  have hfacts := h.facts i
  rw [hphase] at hfacts
  obtain ⟨hp,hu⟩ := hfacts
  cases op with
  | add u row =>
    cases u with
    | appUsers =>
      obtain ⟨rfl,rfl⟩ := hm
      cases hf
      rw [hp.unflushed]
      exact Inv.pended h ⟨pending_pend hp.noted,hu⟩
    | _ => exact hm.elim
  | _ => exact hm.elim

/-- The profile is added. -/
theorem Inv.answer_adding (h : Inv subject role rows s states)
    (hphase : states i=.adding)
    {reply : op.Reply} {t : Phase} (hm : moves subject role .adding op reply t)
    (hf : s.fire i op c=some (some reply,s')) :
    Inv subject role rows s' (Function.update states i t) := by
  have hfacts := h.facts i
  rw [hphase] at hfacts
  obtain ⟨hp,hu⟩ := hfacts
  cases op with
  | add u row =>
    cases u with
    | userProfiles =>
      obtain ⟨rfl,rfl⟩ := hm
      cases hf
      rw [hp.unflushed]
      exact Inv.pended h (.inl ⟨pending_pend hp.noted,hu⟩)
    | _ => exact hm.elim
  | _ => exact hm.elim

/-- User and profile are written. -/
theorem Inv.answer_creating (h : Inv subject role rows s states)
    (huncontended : states i=.creating → Uncontested s i) (hphase : states i=.creating)
    {reply : op.Reply} {t : Phase} (hm : moves subject role .creating op reply t)
    (hf : s.fire i op c=some (some reply,s')) :
    Inv subject role rows s' (Function.update states i t) := by
  have hfacts := h.facts i
  cases op with
  | flush =>
    obtain ⟨hnil,rfl,rfl⟩ := Inv.flush h huncontended (.inl hphase) hf
    rw [hphase] at hfacts
    obtain rfl : t=.created := hm
    rcases hfacts with ⟨hp,_⟩|⟨hp,_⟩|hmade
    · cases hp.unflushed.symm.trans hnil
    · cases hp.unflushed.symm.trans hnil
    · exact Inv.moved h hmade
  | _ =>
    exact hm.elim

/-- The default role is looked up and added. -/
theorem Inv.answer_created (h : Inv subject role rows s states)
    (hphase : states i=.created)
    {reply : op.Reply} {t : Phase} (hm : moves subject role .created op reply t)
    (hf : s.fire i op c=some (some reply,s')) :
    Inv subject role rows s' (Function.update states i t) := by
  have hfacts := h.facts i
  rw [hphase] at hfacts
  cases op with
  | select u q =>
    cases u with
    | roles =>
      obtain ⟨rfl,_⟩ := select_answer hfacts.1.unflushed hf
      obtain ⟨_,rfl⟩ := hm
      exact Inv.moved h hfacts
    | userRoles =>
      obtain ⟨rfl,_⟩ := select_answer hfacts.1.unflushed hf
      obtain ⟨_,rfl⟩ := hm
      exact Inv.moved h hfacts
    | _ => exact hm.elim
  | add u row =>
    cases u with
    | userRoles =>
      obtain ⟨rfl,rfl⟩ := hm
      obtain ⟨hp,hmade,hlinks⟩ := hfacts
      cases hf
      rw [hp.unflushed]
      exact Inv.pended h (.inl ⟨pending_pend hp.noted,hmade,hlinks⟩)
    | _ => exact hm.elim
  | _ => exact hm.elim

/-- The default role is written. -/
theorem Inv.answer_linking (h : Inv subject role rows s states)
    (huncontended : states i=.creating → Uncontested s i) (hphase : states i=.linking)
    {reply : op.Reply} {t : Phase} (hm : moves subject role .linking op reply t)
    (hf : s.fire i op c=some (some reply,s')) :
    Inv subject role rows s' (Function.update states i t) := by
  have hfacts := h.facts i
  cases op with
  | flush =>
    obtain ⟨hnil,rfl,rfl⟩ := Inv.flush h huncontended (.inr (.inl hphase)) hf
    rw [hphase] at hfacts
    obtain rfl : t=.known := hm
    rcases hfacts with ⟨hp,_⟩|⟨hp,hmade⟩
    · cases hp.unflushed.symm.trans hnil
    · exact Inv.moved h ⟨hp,.inr hmade⟩
  | _ =>
    exact hm.elim

/-- A request that has user and profile reads, adds, changes or commits. -/
theorem Inv.answer_known (h : Inv subject role rows s states)
    (hphase : states i=.known)
    {reply : op.Reply} {t : Phase} (hm : moves subject role .known op reply t)
    (hf : s.fire i op c=some (some reply,s')) :
    Inv subject role rows s' (Function.update states i t) := by
  have hfacts := h.facts i
  rw [hphase] at hfacts
  obtain ⟨hp,hhas⟩ := hfacts
  cases op with
  | select u q =>
    cases u with
    | userProfiles =>
      obtain ⟨rfl,_⟩ := select_answer hp.unflushed hf
      obtain ⟨_,rfl⟩ := hm
      exact Inv.moved h ⟨hp,hhas⟩
    | appUsers =>
      obtain ⟨rfl,_⟩ := select_answer hp.unflushed hf
      obtain ⟨_,rfl⟩ := hm
      exact Inv.moved h ⟨hp,hhas⟩
    | _ => exact hm.elim
  | selectRoles userId =>
    have hflushed : s.flushed i (fun s => (rolesForUser (s.view i) userId,s))=
        some (some reply,s') := hf
    obtain ⟨_,rfl⟩ := flushed_nil hp.unflushed hflushed
    obtain rfl : t=.known := hm
    exact Inv.moved h ⟨hp,hhas⟩
  | selectPermissionNames userId =>
    have hflushed : s.flushed i (fun s => (permissionNamesForUser (s.view i) userId,s))=
        some (some reply,s') := hf
    obtain ⟨_,rfl⟩ := flushed_nil hp.unflushed hflushed
    obtain rfl : t=.known := hm
    exact Inv.moved h ⟨hp,hhas⟩
  | changed =>
    cases hf
    obtain rfl : t=.known := hm
    exact Inv.moved h ⟨hp,hhas⟩
  | add u row =>
    cases u with
    | auditEvents =>
      obtain ⟨hvalid,rfl⟩ := hm
      cases hf
      rw [hp.unflushed]
      exact Inv.pended h (.inl ⟨row,hvalid,pending_pend hp.noted,hhas⟩)
    | _ => exact hm.elim
  | assign u isRow f =>
    cases u with
    | userProfiles =>
      obtain ⟨rfl,⟨payload,rfl⟩,rfl⟩ := hm
      cases hf
      rw [hp.unflushed]
      refine Inv.pended h (.inl ⟨payload,Function.update_self _ _ _,hhas,?_⟩)
      intro noted hnoted
      cases hp.noted.symm.trans hnoted
    | _ => exact hm.elim
  | commit =>
    have hflushed : s.flushed i (fun s => ((),{s with tables := s.tables.settle i}))=
        some (some reply,s') := hf
    obtain ⟨_,rfl⟩ := flushed_nil hp.unflushed hflushed
    obtain rfl : t=.done := hm
    exact h.step (h.sound.settle hhas) trivial (fun j hj => beside_settle hj h.sound)
      fun _ _ => rfl
  | _ => exact hm.elim

/-- The profile is written. -/
theorem Inv.answer_updating (h : Inv subject role rows s states)
    (huncontended : states i=.creating → Uncontested s i) (hphase : states i=.updating)
    {reply : op.Reply} {t : Phase} (hm : moves subject role .updating op reply t)
    (hf : s.fire i op c=some (some reply,s')) :
    Inv subject role rows s' (Function.update states i t) := by
  have hfacts := h.facts i
  cases op with
  | flush =>
    obtain ⟨hnil,rfl,rfl⟩ := Inv.flush h huncontended (.inr (.inr (.inl hphase))) hf
    rw [hphase] at hfacts
    obtain rfl : t=.known := hm
    rcases hfacts with ⟨payload,hp,_⟩|hknown
    · cases hp.symm.trans hnil
    · exact Inv.moved h hknown
  | _ =>
    exact hm.elim

/-- The audit row is written. -/
theorem Inv.answer_recording (h : Inv subject role rows s states)
    (huncontended : states i=.creating → Uncontested s i) (hphase : states i=.recording)
    {reply : op.Reply} {t : Phase} (hm : moves subject role .recording op reply t)
    (hf : s.fire i op c=some (some reply,s')) :
    Inv subject role rows s' (Function.update states i t) := by
  have hfacts := h.facts i
  cases op with
  | flush =>
    obtain ⟨hnil,rfl,rfl⟩ := Inv.flush h huncontended (.inr (.inr (.inr hphase))) hf
    rw [hphase] at hfacts
    obtain rfl : t=.known := hm
    rcases hfacts with ⟨row,_,hp,_⟩|hknown
    · cases hp.unflushed.symm.trans hnil
    · exact Inv.moved h hknown
  | _ =>
    exact hm.elim

/-- An answer keeps the invariant. -/
theorem Inv.answer (h : Inv subject role rows s states)
    (huncontended : states i=.creating → Uncontested s i)
    {reply : op.Reply} {t : Phase} (hm : moves subject role (states i) op reply t)
    (hf : s.fire i op c=some (some reply,s')) :
    Inv subject role rows s' (Function.update states i t) := by
  cases hphase : states i with
  | start => exact Inv.answer_start h hphase (hphase ▸ hm) hf
  | absent => exact Inv.answer_absent h hphase (hphase ▸ hm) hf
  | adding => exact Inv.answer_adding h hphase (hphase ▸ hm) hf
  | creating => exact Inv.answer_creating h huncontended hphase (hphase ▸ hm) hf
  | created => exact Inv.answer_created h hphase (hphase ▸ hm) hf
  | linking => exact Inv.answer_linking h huncontended hphase (hphase ▸ hm) hf
  | known => exact Inv.answer_known h hphase (hphase ▸ hm) hf
  | updating => exact Inv.answer_updating h huncontended hphase (hphase ▸ hm) hf
  | recording => exact Inv.answer_recording h huncontended hphase (hphase ▸ hm) hf
  | done =>
    rw [hphase] at hm
    exact hm.elim
  | lost =>
    rw [hphase] at hm
    exact hm.elim

/-- A request that is writing its user has found nobody, so the condition is
about it. -/
theorem uncontested {history : List (Event userSignature)}
    (h : Tracked subject role rows s history states)
    (hc : FoundNobody subject history i → Uncontested s i) (hphase : states i=.creating) :
    Uncontested s i := by
  refine hc (h.looked i ?_)
  rw [hphase]
  rfl

/-- Only the look-up that found nobody begins to enroll the subject. -/
theorem enrolling_of_moves {phase t : Phase} {op : Effect} {reply : op.Reply}
    {history : List (Event userSignature)} (hm : moves subject role phase op reply t)
    (ht : enrolling t=true) : enrolling phase=true ∨
      FoundNobody subject (⟨i,op,reply⟩::history) i := by
  unfold moves at hm
  split at hm
  · obtain ⟨rfl,rfl⟩ := hm
    exact .inr List.mem_cons_self
  · obtain ⟨_,rfl⟩ := hm
    cases ht
  · exact .inl rfl
  · exact .inl rfl
  · exact .inl rfl
  all_goals simp_all [enrolling]

/-- The obligations of runs of requests of the subject. -/
theorem duties (hrole : rows.filter (fun r => r.name==roleUser)=[role]) :
    Duties userMachine (protocol subject role) .start Justified (Tracked subject role rows)
      (fun sys mv => Contacting subject sys mv ∧ Uncontended subject sys mv) ended where
  spawn sys p hc := by
    obtain ⟨⟨c,hcontacts,rfl⟩,_⟩ := hc
    exact follows_respond hcontacts
  outcome _ _ h := h
  progress sys states i op k c s ht hc hp hf :=
    ⟨Inv.progress ht.inv.inv (uncontested ht.inv hc.2) (ht.follows i _ hp) hf,ht.inv.looked⟩
  offer sys states i op k c r s ht hc hp hf :=
    Inv.offer ht.inv.inv hrole (uncontested ht.inv hc.2) hf
  answer sys states i op k c r s t ht hc hp hm hf := by
    refine ⟨Inv.answer ht.inv.inv (uncontested ht.inv hc.2) hm hf,fun j hj => ?_⟩
    by_cases hji : j=i
    · subst hji
      rw [Function.update_self] at hj
      exact (enrolling_of_moves hm hj).elim
        (fun hold => List.mem_cons_of_mem _ (ht.inv.looked j hold)) id
    · rw [Function.update_of_ne hji] at hj
      exact List.mem_cons_of_mem _ (ht.inv.looked j hj)
  close sys states i ht _ := by
    have hinv : Inv subject role rows sys.shared states := ht.inv.inv
    refine ⟨hinv.step (hinv.sound.release i) trivial (fun j hj => beside_release hj)
      fun j hj => Function.update_of_ne hj.symm _ _,fun j hj => ht.inv.looked j ?_⟩
    by_cases hji : j=i
    · subst hji
      rw [Function.update_self] at hj
      cases hj
    · rwa [Function.update_of_ne hji] at hj

end Obligations

section Results

variable {subject : UUID} {role : Role} {draws : ℕ} {db : UserRecords.Tables} {sys : UserSystem}

/-- A subject without rows in tables that keep their constraints and have one
default role. -/
structure NewSubject (subject : UUID) (role : Role) (db : UserRecords.Tables) : Prop where
  /-- The constraints hold. -/
  unique : ∀ t,(db t).Pairwise fun a b => conflict t a b=false
  /-- No user is in its way. -/
  users : ∀ u∈db .appUsers,conflict .appUsers (newUser subject) u=false
  /-- It has no profile. -/
  profiles : ∀ r∈db .userProfiles,r.userId≠subject
  /-- It has no role. -/
  links : ∀ r∈db .userRoles,r.userId≠subject
  /-- There is one default role. -/
  role : (db .roles).filter (fun r => r.name==roleUser)=[role]

/-- Every request that has ended got its context, and the subject has at most one
user, one profile and one role. -/
structure Served (subject : UUID) (sys : UserSystem) : Prop where
  /-- The outcomes. -/
  outcomes : ∀ i o,sys.outcome i=some o → GotContext o
  /-- The users. -/
  users : ((sys.shared.tables.committed .appUsers).filter
    fun r => r.externalSubject==subject.str).length≤1
  /-- The profiles. -/
  profiles : ((sys.shared.tables.committed .userProfiles).filter
    fun r => r.userId==subject).length≤1
  /-- The roles. -/
  links : ((sys.shared.tables.committed .userRoles).filter fun r => r.userId==subject).length≤1

/-- Idle tables of a new subject. -/
theorem NewSubject.sound (h : NewSubject subject role db) :
    Sound subject role (db .roles) (idleTables db) := by
  have hcell : ∀ {t : Table} {c : Cell (Row t)},c∈(idleTables db).cells t →
      ∃ r∈db t,c=⟨some r,none,none⟩ := by
    intro t c hc
    obtain ⟨r,hr,rfl⟩ := List.mem_map.mp hc
    exact ⟨r,hr,rfl⟩
  have hfree : ∀ u∈db .appUsers,u.externalSubject≠subject.str := by
    intro u hu heq
    have hconflict : (subject==u.id || subject.str==u.externalSubject)=false := h.users u hu
    rw [heq,beq_self_eq_true,Bool.or_true] at hconflict
    cases hconflict
  refine ⟨?_,?_,?_,?_,?_,rfl,.inl ⟨?_,?_,?_⟩⟩
  · intro t S n m a b ha hb hconflict
    rw [mergedAt_idleTables] at ha hb
    by_contra hne
    obtain ⟨hn,hna⟩ := List.getElem?_eq_some_iff.mp ha
    obtain ⟨hm,hmb⟩ := List.getElem?_eq_some_iff.mp hb
    have hpairs := List.pairwise_iff_getElem.mp (h.unique t)
    rcases Nat.lt_or_gt_of_ne hne with hlt|hgt
    · have hfalse := hpairs n m hn hm hlt
      rw [hna,hmb,hconflict] at hfalse
      cases hfalse
    · have hfalse := hpairs m n hm hn hgt
      rw [hna,hmb,conflict_comm,hconflict] at hfalse
      cases hfalse
  · intro c hc u hu hsubject
    obtain ⟨r,hr,rfl⟩ := hcell hc
    rcases hu with hu|hu
    · obtain rfl : r=u := Option.some.inj hu
      exact absurd hsubject (hfree r hr)
    · cases hu
  · intro c hc p hp
    obtain ⟨r,hr,rfl⟩ := hcell hc
    cases hp
  · intro c hc r hr hsubject
    obtain ⟨l,hl,rfl⟩ := hcell hc
    rcases hr with hr|hr
    · obtain rfl : l=r := Option.some.inj hr
      exact absurd hsubject (h.links l hl)
    · cases hr
  · intro c hc r hr p hp
    obtain ⟨l,hl,rfl⟩ := hcell hc
    cases hp
  · intro c hc u hu
    obtain ⟨r,hr,rfl⟩ := hcell hc
    obtain rfl : r=u := Option.some.inj hu
    exact hfree r hr
  · intro c hc r hr
    obtain ⟨l,hl,rfl⟩ := hcell hc
    obtain rfl : l=r := Option.some.inj hr
    exact h.profiles l hl
  · intro c hc r hr
    obtain ⟨l,hl,rfl⟩ := hcell hc
    obtain rfl : l=r := Option.some.inj hr
    exact h.links l hl

/-- Requests that have not started. -/
theorem NewSubject.inv (h : NewSubject subject role db) :
    Inv subject role (db .roles) (idleSystem draws db).shared fun _ => .start := by
  have hunlocked : ∀ i t,Unlocked i ((idleTables db).cells t) := by
    intro i t c hc
    obtain ⟨r,_,rfl⟩ := List.mem_map.mp hc
    rintro ⟨⟩
  exact ⟨h.sound,fun i => ⟨⟨rfl,rfl⟩,hunlocked i .appUsers,hunlocked i .userProfiles,
    hunlocked i .userRoles⟩⟩

/-- Sound tables double no row of the subject. -/
theorem Sound.committed_once {tables : RowLocking.Tables userSchema} {rows : List Role}
    (h : Sound subject role rows tables) (t : Table) (P : Row t → Bool)
    (hconflict : ∀ c∈tables.cells t,∀ d∈tables.cells t,∀ a b,c.committed=some a →
      d.committed=some b → P a=true → P b=true → conflict t a b=true) :
    ((tables.committed t).filter P).length≤1 := by
  refine committed_filter_length_le_one tables t P fun n m a b ha hb hpa hpb => ?_
  obtain ⟨c,hc,hca⟩ := Option.bind_eq_some_iff.mp ha
  obtain ⟨d,hd,hdb⟩ := Option.bind_eq_some_iff.mp hb
  rw [Cell.merged_empty] at hca hdb
  exact h.apart t ∅ n m a b ha hb (hconflict c (List.mem_of_getElem? hc) d
    (List.mem_of_getElem? hd) a b hca hdb hpa hpb)

/-- Overlapping requests of a new subject all get their context, and its user,
profile and role are never doubled, in every run in which no request is left to
write its new user where another one has committed it. -/
theorem overlapping_contacts (hnew : NewSubject subject role db)
    (h : userMachine.Reaches (fun s mv => Contacting subject s mv ∧ Uncontended subject s mv)
      (idleSystem draws db) sys) : Served subject sys := by
  have hstart : Tracks (protocol subject role) .start Justified (Tracked subject role (db .roles))
      (idleSystem draws db) fun _ => .start := by
    refine ⟨⟨hnew.inv,by rintro i ⟨⟩⟩,?_,fun _ _ => rfl⟩
    intro i p hp
    simp [idleSystem] at hp
  obtain ⟨states,ht⟩ := (duties hnew.role).reaches hstart h
  have hsound : Sound subject role (db .roles) sys.shared.tables := Inv.sound ht.inv.inv
  refine ⟨fun i o ho => ht.outcome ho,?_,?_,?_⟩
  · refine Sound.committed_once hsound .appUsers (fun row => row.externalSubject==subject.str)
      fun c _ d _ a b _ _ hpa hpb => ?_
    show (a.id==b.id || a.externalSubject==b.externalSubject)=true
    rw [beq_iff_eq.mp hpa,beq_iff_eq.mp hpb,beq_self_eq_true,Bool.or_true]
  · refine Sound.committed_once hsound .userProfiles (fun row => row.userId==subject)
      fun c _ d _ a b _ _ hpa hpb => ?_
    show (a.userId==b.userId)=true
    rw [beq_iff_eq.mp hpa,beq_iff_eq.mp hpb,beq_self_eq_true]
  · refine Sound.committed_once hsound .userRoles (fun row => row.userId==subject)
      fun c hc d hd a b ha hb hpa hpb => ?_
    have harole := hsound.links c hc a (.inl ha) (beq_iff_eq.mp hpa)
    have hbrole := hsound.links d hd b (.inl hb) (beq_iff_eq.mp hpb)
    show (a.userId==b.userId && a.roleId==b.roleId)=true
    rw [beq_iff_eq.mp hpa,beq_iff_eq.mp hpb,harole,hbrole,beq_self_eq_true,beq_self_eq_true]
    rfl

end Results

section Samples

/-- A profile update of the sample client. -/
def sampleUpdate : ClientRequest := sampleClient (.updateProfile (some samplePayload))

/-- A read of the sample client. -/
def sampleRead : ClientRequest := sampleClient .me

/-- Some effects of a request. -/
def effects (i count : ℕ) : List UserMove := List.replicate count (.effect i 0)

/-- The check that implies the condition. -/
def uncontended (sys : UserSystem) : UserMove → Bool
  | .effect i _ =>
    match sys.shared.unflushed i with
    | .add .appUsers row::_ =>
      (sys.shared.tables.visible i .appUsers).all fun r => !conflict .appUsers row r
    | _ => true
  | _ => true

/-- The decidable check of a move gives the condition on it. -/
theorem uncontended_of_check {subject : UUID} (sys : UserSystem) (mv : UserMove)
    (h : uncontended sys mv=true) : Uncontended subject sys mv := by
  cases mv with
  | effect i choice =>
    intro _ row rest hpending r hr
    simp only [uncontended,hpending,List.all_eq_true,Bool.not_eq_true'] at h
    exact h r hr
  | _ => trivial

/-- A request that failed at a constraint. -/
def meetsConstraint : Except Failure Response → Bool
  | .error .integrityError => true
  | _ => false

/-- The sample client contacts the service as its subject. -/
theorem contacts_sampleClient {request : Request}
    (h : ∀ userId payload,request≠.assignRole userId payload) :
    Contacts ⟨77⟩ (sampleClient request) := by
  have haddress : fits 64 (some "198.51.100.7")=true := by decide
  have hagent : fits 512 (some "browser")=true := by decide
  exact ⟨h,rfl,⟨_,rfl,rfl⟩,rfl,haddress,hagent⟩

/-- The sample subject is new to the seeded tables. -/
theorem newSubject_seededTables :
    NewSubject ⟨77⟩ ⟨⟨5⟩,roleUser,"Default user role"⟩ (seededTables 5) := by
  refine ⟨fun t => ?_,fun _ hu => absurd hu List.not_mem_nil,
    fun _ hr => absurd hr List.not_mem_nil,fun _ hr => absurd hr List.not_mem_nil,?_⟩
  · cases t <;> decide +kernel
  · decide +kernel

/-- A schedule of sample requests runs requests of the subject only. -/
theorem contacting_of_schedule {check : UserSystem → UserMove → Bool}
    {D : UserSystem → UserMove → Prop} {moves : List UserMove} {sys start : UserSystem}
    (hmoves : ∀ p,.spawn p∈moves → p=respond sampleUpdate ∨ p=respond sampleRead)
    (hd : ∀ s mv,check s mv=true → D s mv)
    (h : userMachine.runSchedule check moves start=some sys) :
    userMachine.Reaches (fun s mv => Contacting ⟨77⟩ s mv ∧ D s mv) start sys := by
  refine Machine.Reaches.of_schedule .refl ?_ h
  intro mv hmv s hcheck
  refine ⟨?_,hd s mv hcheck⟩
  cases mv with
  | spawn p =>
    rcases hmoves p hmv with hp|hp
    · exact ⟨sampleUpdate,contacts_sampleClient (by rintro _ _ ⟨⟩),hp⟩
    · exact ⟨sampleRead,contacts_sampleClient (by rintro _ _ ⟨⟩),hp⟩
  | _ => trivial

/-- A read and a profile update look the subject up before either of them has
created it; the read ends first. -/
def sampleOverlap : List UserMove :=
  [.spawn (respond sampleRead),.spawn (respond sampleUpdate)]++effects 0 1++effects 1 1++
    effects 0 17++[.finish 0]++effects 1 26

/-- Two profile updates look the subject up before either of them has created it. -/
def sampleCollision : List UserMove :=
  [.spawn (respond sampleUpdate),.spawn (respond sampleUpdate)]++effects 0 1++effects 1 1++
    effects 0 26++[.finish 0]++effects 1 3

/-- Two overlapping first contacts, both served, one user. -/
theorem overlapping_contacts_sample : ∃ sys : UserSystem,
    (sys.outcome 0).any (·.toBool)=true ∧ (sys.outcome 1).any (·.toBool)=true ∧
    Served ⟨77⟩ sys := by
  have hrun : (userMachine.runSchedule uncontended sampleOverlap
      (idleSystem 5 (seededTables 5))).any (fun sys =>
        (sys.outcome 0).any (·.toBool) && (sys.outcome 1).any (·.toBool))=true := by
    decide +kernel
  obtain ⟨sys,hsys,hall⟩ := (Option.any_eq_true _ _).mp hrun
  obtain ⟨hread,hupdate⟩ := Bool.and_eq_true_iff.mp hall
  have hmoves : ∀ p,.spawn p∈sampleOverlap → p=respond sampleUpdate ∨ p=respond sampleRead := by
    intro p hp
    simp [sampleOverlap,effects] at hp
    exact hp.symm
  exact ⟨sys,hread,hupdate,overlapping_contacts newSubject_seededTables
    (contacting_of_schedule hmoves uncontended_of_check hsys)⟩

/-- Two look-ups before either INSERT: the second contact ends at the unique
constraint. -/
theorem contact_meets_constraint : ∃ sys : UserSystem,
    userMachine.Reaches (Contacting ⟨77⟩) (idleSystem 5 (seededTables 5)) sys ∧
    sys.outcome 1=some (.error .integrityError) ∧ ¬Served ⟨77⟩ sys := by
  have hrun : (userMachine.runSchedule (fun _ _ => true) sampleCollision
      (idleSystem 5 (seededTables 5))).any (fun sys => (sys.outcome 1).any meetsConstraint)=
        true := by
    decide +kernel
  obtain ⟨sys,hsys,hend⟩ := (Option.any_eq_true _ _).mp hrun
  obtain ⟨o,ho,hmeets⟩ := (Option.any_eq_true _ _).mp hend
  have hlost : o=.error .integrityError := by
    simp only [meetsConstraint] at hmeets
    split at hmeets
    · rfl
    · cases hmeets
  have hmoves : ∀ p,.spawn p∈sampleCollision → p=respond sampleUpdate ∨ p=respond sampleRead := by
    intro p hp
    simp [sampleCollision,effects] at hp
    exact .inl hp
  have hreached := contacting_of_schedule (D := fun _ _ => True) hmoves (fun _ _ _ => trivial) hsys
  rw [hlost] at ho
  refine ⟨sys,hreached.mono fun _ _ hc => hc.1,ho,fun h => ?_⟩
  rcases h.outcomes 1 _ ho with he|he|he <;> cases he

end Samples

end BackendPlatform.OverlappingRuns
