import BackendPlatform.AuthFlows

/-!
# Audit payloads of the authentication service

What `log_event` hands to the audit repository is followed along paths into
the payload. Dictionaries and lists are descended into and tuples are not, so
a sensitive field under a tuple reaches the repository.
-/

set_option autoImplicit false

namespace BackendPlatform.AuditPayloads

open ProgramTrees AuthRecords AuthEffects AuthRepositories AuthServices AuthFlows
open AuditService

/-- One step into a nested value. -/
inductive Step where
  /-- The value of a key of a mapping. -/
  | key (name : String)
  /-- The item of a list or of a tuple. -/
  | index (i : ℕ)
deriving DecidableEq

/-- The value one step below. -/
def child : PyValue → Step → Option PyValue
  | .dict items,.key name => items.lookup name
  | .list items,.index i => items[i]?
  | .tuple items,.index i => items[i]?
  | _,_ => none

/-- The value at the end of a path. -/
def valueAt : PyValue → List Step → Option PyValue
  | value,[] => some value
  | value,step::path => (child value step).bind (valueAt · path)

/-- What stands at a position: a scalar with its value, a list or a tuple with
its length, or a mapping with its keys in order, the sensitive ones apart. -/
def shape (d : Deployment) : PyValue → PyValue
  | .list items => .list (items.map fun _ => .none)
  | .tuple items => .tuple (items.map fun _ => .none)
  | .dict items =>
    .dict ((items.filter fun field => d.lower field.1∉sensitiveFields).map
      fun field => (field.1,.none))
  | scalar => scalar

/-- The lower-case form of a key is in `SENSITIVE_FIELDS`. -/
def SensitiveStep (d : Deployment) : Step → Prop
  | .key name => d.lower name∈sensitiveFields
  | .index _ => False

/-- A path of no sensitive key. -/
def Kept (d : Deployment) (path : List Step) : Prop := ∀ step∈path, ¬SensitiveStep d step

/-- The payload has no sensitive key at any depth. -/
def NothingSensitive (d : Deployment) (payload : List (String×PyValue)) : Prop :=
  ∀ path, ¬Kept d path → valueAt (.dict payload) path=none

/-- Everything of `payload` whose keys are not sensitive stands in `handed` at
its position, with its value, and nothing else does. -/
def SameElsewhere (d : Deployment) (payload handed : List (String×PyValue)) : Prop :=
  ∀ path, Kept d path →
    (valueAt (.dict handed) path).map (shape d)=(valueAt (.dict payload) path).map (shape d)

/-- What the audit log is promised of a payload. -/
structure Sanitized (d : Deployment) (payload handed : List (String×PyValue)) : Prop where
  /-- No sensitive key is left. -/
  nothingSensitive : NothingSensitive d handed
  /-- Nothing else changes. -/
  sameElsewhere : SameElsewhere d payload handed
  /-- A second pass changes nothing. -/
  stable : sanitizePayload d handed=handed

/-- No tuple that is reached without a sensitive key has one beneath it. -/
def TuplesClean (d : Deployment) (payload : List (String×PyValue)) : Prop :=
  ∀ path items, Kept d path → valueAt (.dict payload) path=some (.tuple items) →
    ∀ rest, ¬Kept d rest → valueAt (.tuple items) rest=none

variable {d : Deployment}

/-! ## The sanitizer along a path -/

/-- Lists keep their positions. -/
theorem sanitizeItems_eq_map (items : List PyValue) :
    sanitizeItems d items=items.map (sanitizeValue d) := by
  induction items with
  | nil => simp [sanitizeItems]
  | cons item rest ih => simp [sanitizeItems,ih]

/-- A sensitive key is gone. -/
theorem lookup_sanitizePayload_sensitive {name : String} (hname : d.lower name∈sensitiveFields)
    (payload : List (String×PyValue)) : (sanitizePayload d payload).lookup name=none := by
  induction payload with
  | nil => simp [sanitizePayload]
  | cons field rest ih =>
    obtain ⟨key,value⟩ := field
    by_cases hkey : d.lower key∈sensitiveFields
    · simp only [sanitizePayload,if_pos hkey,ih]
    · have hne : (name==key)=false := by
        rw [beq_eq_false_iff_ne]
        intro heq
        exact hkey (heq ▸ hname)
      simp only [sanitizePayload,if_neg hkey,List.lookup_cons,hne,ih]

/-- Another key keeps its value, sanitized. -/
theorem lookup_sanitizePayload {name : String} (hname : d.lower name∉sensitiveFields)
    (payload : List (String×PyValue)) :
    (sanitizePayload d payload).lookup name=(payload.lookup name).map (sanitizeValue d) := by
  induction payload with
  | nil => simp [sanitizePayload]
  | cons field rest ih =>
    obtain ⟨key,value⟩ := field
    by_cases hkey : d.lower key∈sensitiveFields
    · have hne : (name==key)=false := by
        rw [beq_eq_false_iff_ne]
        intro heq
        exact hname (heq ▸ hkey)
      simp only [sanitizePayload,if_pos hkey,List.lookup_cons,hne,ih]
    · simp only [sanitizePayload,if_neg hkey,List.lookup_cons,ih]
      cases name==key <;> rfl

/-- A value that the sanitizer does not descend into. -/
def Whole : PyValue → Prop
  | .dict _ => False
  | .list _ => False
  | _ => True

/-- Such a value is handed on as it is. -/
theorem sanitizeValue_whole {value : PyValue} (h : Whole value) : sanitizeValue d value=value := by
  cases value with
  | dict _ => exact h.elim
  | list _ => exact h.elim
  | _ => simp [sanitizeValue]

/-- Only the fields of dictionaries are dropped. -/
theorem child_sanitizeValue_sensitive {value : PyValue} {step : Step} (h : ¬Whole value)
    (hstep : SensitiveStep d step) : child (sanitizeValue d value) step=none := by
  cases step with
  | index i => exact hstep.elim
  | key name =>
    cases value with
    | dict items => simpa [sanitizeValue,child] using lookup_sanitizePayload_sensitive hstep items
    | list items => simp [sanitizeValue,child]
    | _ => exact (h trivial).elim

/-- The steps that stay lead to the sanitized values. -/
theorem child_sanitizeValue {value : PyValue} {step : Step} (h : ¬Whole value)
    (hstep : ¬SensitiveStep d step) :
    child (sanitizeValue d value) step=(child value step).map (sanitizeValue d) := by
  cases value with
  | dict items =>
    cases step with
    | key name => simpa [sanitizeValue,child] using lookup_sanitizePayload hstep items
    | index i => simp [sanitizeValue,child]
  | list items =>
    cases step with
    | key name => simp [sanitizeValue,child]
    | index i => simp [sanitizeValue,child,sanitizeItems_eq_map]
  | _ => exact (h trivial).elim

/-- The other keys keep their order. -/
theorem keys_sanitizePayload (payload : List (String×PyValue)) :
    ((sanitizePayload d payload).filter fun field => d.lower field.1∉sensitiveFields).map
        (fun field => (field.1,PyValue.none))=
      (payload.filter fun field => d.lower field.1∉sensitiveFields).map
        fun field => (field.1,PyValue.none) := by
  induction payload with
  | nil => simp [sanitizePayload]
  | cons field rest ih =>
    obtain ⟨key,value⟩ := field
    by_cases hkey : d.lower key∈sensitiveFields
    · simpa [sanitizePayload,hkey] using ih
    · simpa [sanitizePayload,hkey] using ih

/-- The sanitizer keeps what stands at a position. -/
theorem shape_sanitizeValue (value : PyValue) :
    shape d (sanitizeValue d value)=shape d value := by
  cases value with
  | dict items => simpa [sanitizeValue,shape] using keys_sanitizePayload items
  | list items => simp [sanitizeValue,shape,sanitizeItems_eq_map,Function.comp_def]
  | _ => simp [sanitizeValue]

/-- Along a path of no sensitive key nothing changes. -/
theorem shape_valueAt (path : List Step) (hkept : Kept d path) : ∀ value : PyValue,
    (valueAt (sanitizeValue d value) path).map (shape d)=(valueAt value path).map (shape d) := by
  induction path with
  | nil =>
    intro value
    simp [valueAt,shape_sanitizeValue]
  | cons step path ih =>
    intro value
    have hstep : ¬SensitiveStep d step := hkept step (by simp)
    have hrest : Kept d path := fun other hother => hkept other (by simp [hother])
    by_cases hwhole : Whole value
    · rw [sanitizeValue_whole hwhole]
    · simp only [valueAt,child_sanitizeValue hwhole hstep]
      cases child value step with
      | none => simp
      | some below => simpa using ih hrest below

/-- A path through a sensitive key. -/
theorem not_kept_cons {step : Step} {path : List Step} (h : ¬Kept d (step::path)) :
    SensitiveStep d step ∨ ¬SensitiveStep d step ∧ ¬Kept d path := by
  by_cases hstep : SensitiveStep d step
  · exact .inl hstep
  · refine .inr ⟨hstep,fun hkept => h ?_⟩
    intro other hother
    rcases List.mem_cons.mp hother with rfl|hmem
    · exact hstep
    · exact hkept other hmem

/-- A sensitive key is left only beneath a tuple. -/
theorem valueAt_sensitive (rest : List Step) (hrest : ¬Kept d rest) : ∀ value : PyValue,
    (∀ path items, Kept d path → valueAt value path=some (.tuple items) →
      ∀ below, ¬Kept d below → valueAt (.tuple items) below=none) →
    valueAt (sanitizeValue d value) rest=none := by
  induction rest with
  | nil => exact fun _ _ => (hrest (by simp [Kept])).elim
  | cons step rest ih =>
    intro value hclean
    by_cases hwhole : Whole value
    · rw [sanitizeValue_whole hwhole]
      cases value with
      | tuple items => exact hclean [] items (by simp [Kept]) rfl _ hrest
      | dict _ => exact hwhole.elim
      | list _ => exact hwhole.elim
      | _ => simp [valueAt,child]
    · rcases not_kept_cons hrest with hstep|⟨hstep,hbelow⟩
      · simp [valueAt,child_sanitizeValue_sensitive hwhole hstep]
      · simp only [valueAt,child_sanitizeValue hwhole hstep]
        cases hchild : child value step with
        | none => simp
        | some below =>
          refine ih hbelow below fun path items hpath hat => ?_
          refine hclean (step::path) items ?_ (by simpa [valueAt,hchild] using hat)
          intro other hother
          rcases List.mem_cons.mp hother with rfl|hmem
          · exact hstep
          · exact hpath other hmem

/-- A tuple is handed on with everything beneath it. -/
theorem valueAt_tuple (path : List Step) (hkept : Kept d path) : ∀ value items,
    valueAt value path=some (.tuple items) →
    valueAt (sanitizeValue d value) path=some (.tuple items) := by
  induction path with
  | nil =>
    intro value items h
    have hvalue : value=.tuple items := by simpa [valueAt] using h
    simp [hvalue,valueAt,sanitizeValue]
  | cons step path ih =>
    intro value items h
    have hstep : ¬SensitiveStep d step := hkept step (by simp)
    by_cases hwhole : Whole value
    · rwa [sanitizeValue_whole hwhole]
    · simp only [valueAt,child_sanitizeValue hwhole hstep] at h ⊢
      cases hchild : child value step with
      | none => simp [hchild] at h
      | some below =>
        simp only [hchild,Option.bind_some,Option.map_some] at h ⊢
        exact ih (fun other hother => hkept other (by simp [hother])) below items h

/-- A path continues where another ends. -/
theorem valueAt_append (path rest : List Step) : ∀ value : PyValue,
    valueAt value (path++rest)=(valueAt value path).bind (valueAt · rest) := by
  induction path with
  | nil => simp [valueAt]
  | cons step path ih =>
    intro value
    simp only [List.cons_append,valueAt]
    cases child value step with
    | none => simp
    | some below => simpa using ih below

/-! ## A second pass -/

mutual

/-- A sanitized value is not changed again. -/
theorem sanitizeValue_idem (d : Deployment) : ∀ value : PyValue,
    sanitizeValue d (sanitizeValue d value)=sanitizeValue d value
  | .dict items => by simp [sanitizeValue,sanitizePayload_idem d items]
  | .list items => by simp [sanitizeValue,sanitizeItems_idem d items]
  | .none => by simp [sanitizeValue]
  | .bool _ => by simp [sanitizeValue]
  | .int _ => by simp [sanitizeValue]
  | .float _ => by simp [sanitizeValue]
  | .str _ => by simp [sanitizeValue]
  | .tuple _ => by simp [sanitizeValue]

/-- Sanitized items are not changed again. -/
theorem sanitizeItems_idem (d : Deployment) : ∀ items : List PyValue,
    sanitizeItems d (sanitizeItems d items)=sanitizeItems d items
  | [] => by simp [sanitizeItems]
  | item::rest => by simp [sanitizeItems,sanitizeValue_idem d item,sanitizeItems_idem d rest]

/-- A sanitized payload is not changed again. -/
theorem sanitizePayload_idem (d : Deployment) : ∀ payload : List (String×PyValue),
    sanitizePayload d (sanitizePayload d payload)=sanitizePayload d payload
  | [] => by simp [sanitizePayload]
  | (key,value)::rest => by
    by_cases hkey : d.lower key∈sensitiveFields
    · simp [sanitizePayload,hkey,sanitizePayload_idem d rest]
    · simp [sanitizePayload,hkey,sanitizeValue_idem d value,sanitizePayload_idem d rest]

end

/-- Everything that is not sensitive stays where it was. -/
theorem sameElsewhere_sanitizePayload (payload : List (String×PyValue)) :
    SameElsewhere d payload (sanitizePayload d payload) := by
  intro path hkept
  have h := shape_valueAt path hkept (.dict payload)
  simpa only [sanitizeValue] using h

/-- A payload is handed on without a sensitive field exactly when its tuples
have none. -/
theorem nothingSensitive_iff (payload : List (String×PyValue)) :
    NothingSensitive d (sanitizePayload d payload) ↔ TuplesClean d payload := by
  constructor
  · intro hnone path items hkept hat rest hrest
    have htuple := valueAt_tuple path hkept (.dict payload) items hat
    have hwhole : ¬Kept d (path++rest) := fun h => hrest fun step hstep => h step (by simp [hstep])
    have h := hnone (path++rest) hwhole
    rw [valueAt_append] at h
    simp only [sanitizeValue] at htuple
    simpa [htuple] using h
  · intro hclean rest hrest
    have h := valueAt_sensitive rest hrest (.dict payload) hclean
    simpa only [sanitizeValue] using h

/-- For every payload, `log_event` hands a payload to the repository that is
sanitized exactly when no tuple of the payload holds a sensitive field. -/
theorem logEvent_sanitized_iff (d : Deployment) (eventType outcome : String)
    (actor target : Option UUID) (ip ua : Option String) (payload : List (String×PyValue)) :
    ∃ handed, logEvent d eventType outcome actor target ip ua payload=
        AuditRepository.create ⟨eventType,outcome,actor,target,ip,ua,handed⟩ ∧
      (Sanitized d payload handed ↔ TuplesClean d payload) := by
  refine ⟨sanitizePayload d payload,rfl,?_,?_⟩
  · intro h
    exact (nothingSensitive_iff payload).mp h.nothingSensitive
  · intro hclean
    exact ⟨(nothingSensitive_iff payload).mpr hclean,sameElsewhere_sanitizePayload payload,
      sanitizePayload_idem d payload⟩

/-- A payload with a password in a tuple. -/
def tuplePayload : List (String×PyValue) :=
  [("attempts",.tuple [.dict [("password",.str "hunter2")]])]

/-- The password is handed to the repository. -/
theorem logEvent_tuple_leaks : ∃ handed,
    logEvent sampleDeployment "test.event" "success" none none none none tuplePayload=
        AuditRepository.create ⟨"test.event","success",none,none,none,none,handed⟩ ∧
      ¬Sanitized sampleDeployment tuplePayload handed := by
  refine ⟨tuplePayload,?_,fun h => ?_⟩
  · have hkept : sampleDeployment.lower "attempts"∉sensitiveFields := by decide
    simp [logEvent,tuplePayload,sanitizePayload,sanitizeValue,hkept]
  · have hbarred : ¬Kept sampleDeployment [.key "attempts",.index 0,.key "password"] := by
      intro hkept
      have hword : sampleDeployment.lower "password"∈sensitiveFields := by decide
      exact hkept (.key "password") (by simp) hword
    have hnone := h.nothingSensitive _ hbarred
    simp [tuplePayload,valueAt,child] at hnone

end BackendPlatform.AuditPayloads
