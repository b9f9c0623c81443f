import BackendPlatform.RegeneratedSettings

/-!
# Which mail settings a regenerated file keeps

The new file has the mail settings of the template, each with the text left for
it in the old file. Such a text is read without the quotes that were around it,
and its references are looked up in the settings above it.
-/

set_option autoImplicit false

namespace BackendPlatform.KeptSettings

open DotenvValues DotenvFiles RegeneratedSettings
open SharedRedis (isSpace isBreak strip stripChars entry)

section Left

/-- The text left for a mail setting: the one of the last line that leaves
something for it, or else the one of the template. -/
def Left (raw key text : String) : Prop :=
  (∃ before line after,splitlines raw=before++line::after ∧ Leaves line key text ∧
    ∀ later∈after,∀ other,¬Leaves later key other) ∨
  ((∀ line∈splitlines raw,∀ other,¬Leaves line key other) ∧ (key,text)∈smtpTemplate)

/-- The test for a line that leaves something for a key. -/
theorem leaves_iff {line key : String} :
    ((smtpKeyValue line).any fun e => decide (e.1=key))=true ↔ ∃ other,Leaves line key other := by
  rw [Option.any_eq_true]
  constructor
  · rintro ⟨⟨k,other⟩,hfound,hkey⟩
    obtain rfl : k=key := of_decide_eq_true hkey
    exact ⟨other,smtpKeyValue_eq_some.mp hfound⟩
  · rintro ⟨other,hleaves⟩
    exact ⟨(key,other),smtpKeyValue_eq_some.mpr hleaves,decide_eq_true rfl⟩

theorem entry_filterMap (lines : List String) (key : String) :
    entry (lines.filterMap smtpKeyValue) key=((lines.reverse.find? fun line =>
      (smtpKeyValue line).any fun e => decide (e.1=key)).bind smtpKeyValue).map (·.2) := by
  rw [entry,←List.filterMap_reverse,List.find?_filterMap]

/-- The entry of a key is what the last line leaves for it. -/
theorem entry_eq_some {lines : List String} {key text : String} :
    entry (lines.filterMap smtpKeyValue) key=some text ↔
      ∃ before line after,lines=before++line::after ∧ Leaves line key text ∧
        ∀ later∈after,∀ other,¬Leaves later key other := by
  rw [entry_filterMap]
  constructor
  · intro h
    obtain ⟨⟨k,t⟩,hbind,rfl⟩ := Option.map_eq_some_iff.mp h
    obtain ⟨line,hfind,hline⟩ := Option.bind_eq_some_iff.mp hbind
    obtain ⟨hany,after,before,hsplit,hlater⟩ := List.find?_eq_some_iff_append.mp hfind
    obtain ⟨other,hother⟩ := leaves_iff.mp hany
    have hsame : (k,t)=(key,other) :=
      Option.some.inj (hline.symm.trans (smtpKeyValue_eq_some.mpr hother))
    obtain ⟨rfl,rfl⟩ := Prod.mk.inj hsame
    refine ⟨before.reverse,line,after.reverse,?_,hother,?_⟩
    · have hlines := congrArg List.reverse hsplit
      rw [List.reverse_reverse] at hlines
      rw [hlines]
      simp
    · intro later hmem text hleaves
      have hnot := hlater later (List.mem_reverse.mp hmem)
      rw [leaves_iff.mpr ⟨text,hleaves⟩] at hnot
      cases hnot
  · rintro ⟨before,line,after,rfl,hleaves,hlater⟩
    have hfind : (before++line::after).reverse.find?
        (fun line => (smtpKeyValue line).any fun e => decide (e.1=key))=some line := by
      refine List.find?_eq_some_iff_append.mpr
        ⟨leaves_iff.mpr ⟨text,hleaves⟩,after.reverse,before.reverse,by simp,?_⟩
      intro later hmem
      rw [Bool.not_eq_true',Bool.eq_false_iff]
      intro hany
      obtain ⟨other,hother⟩ := leaves_iff.mp hany
      exact hlater later (List.mem_reverse.mp hmem) other hother
    rw [hfind,Option.bind_some,smtpKeyValue_eq_some.mpr hleaves]
    rfl

/-- A key has no entry when no line leaves something for it. -/
theorem entry_eq_none {lines : List String} {key : String} :
    entry (lines.filterMap smtpKeyValue) key=none ↔
      ∀ line∈lines,∀ other,¬Leaves line key other := by
  constructor
  · intro h line hline other hleaves
    rw [entry,Option.map_eq_none_iff,List.find?_eq_none] at h
    have hmem : (key,other)∈(lines.filterMap smtpKeyValue).reverse :=
      List.mem_reverse.mpr (List.mem_filterMap.mpr ⟨line,hline,smtpKeyValue_eq_some.mpr hleaves⟩)
    exact h _ hmem (decide_eq_true rfl)
  · intro h
    cases hentry : entry (lines.filterMap smtpKeyValue) key with
    | none => rfl
    | some text =>
      obtain ⟨before,line,after,rfl,hleaves,_⟩ := entry_eq_some.mp hentry
      exact absurd hleaves (h line (List.mem_append_right _ List.mem_cons_self) text)

/-- The template has one default for a key. -/
theorem default_unique {setting : String×String} (h : setting∈smtpTemplate) {text : String}
    (htext : (setting.1,text)∈smtpTemplate) : text=setting.2 := by
  have hall : ∀ a∈smtpTemplate,∀ b∈smtpTemplate,a.1=b.1 → a.2=b.2 := by decide
  exact hall _ htext _ h rfl

/-- The text left for a mail setting is what the merger has for it. -/
theorem left_iff {raw text : String} {setting : String×String} (h : setting∈smtpTemplate) :
    Left raw setting.1 text ↔
      text=(entry (smtpKeyValuesFromEnvText raw) setting.1).getD setting.2 := by
  constructor
  · rintro (hleft|⟨hnone,htext⟩)
    · rw [smtpKeyValuesFromEnvText,entry_eq_some.mpr hleft]
      rfl
    · rw [smtpKeyValuesFromEnvText,entry_eq_none.mpr hnone]
      exact default_unique h htext
  · rintro rfl
    cases hentry : entry (smtpKeyValuesFromEnvText raw) setting.1 with
    | none => exact .inr ⟨entry_eq_none.mp hentry,h⟩
    | some text => exact .inl (entry_eq_some.mp hentry)

/-- Every entry is one of a mail setting. -/
theorem isSmtp_entries (raw : String) : ∀ e∈smtpKeyValuesFromEnvText raw,IsSmtp e.1 := by
  intro e he
  obtain ⟨line,_,hline⟩ := List.mem_filterMap.mp he
  exact (smtpKeyValue_eq_some.mp hline).isSmtp

/-- The lines of the mail settings in the new file. -/
theorem smtpLines_eq {raw : String} {texts : String → String}
    (h : ∀ key∈smtpKeys,Left raw key (texts key)) :
    smtpLines (smtpKeyValuesFromEnvText raw)=smtpKeys.map fun key => key++"="++texts key := by
  rw [smtpLines,smtpKeys,List.map_map]
  refine List.map_congr_left fun setting hsetting => ?_
  rw [←(left_iff hsetting).mp (h setting.1 (List.mem_map_of_mem hsetting))]
  rfl

/-- The text left for a mail setting, computed. -/
def leftText (raw key : String) : String :=
  (entry (smtpKeyValuesFromEnvText raw) key).getD
    (((smtpTemplate.find? fun setting => setting.1=key).map Prod.snd).getD "")

/-- A text is left for every key of the template. -/
theorem left_leftText (raw : String) : ∀ key∈smtpKeys,Left raw key (leftText raw key) := by
  have hdefault : ∀ setting∈smtpTemplate,
      smtpTemplate.find? (fun other => other.1=setting.1)=some setting := by decide
  intro key hkey
  obtain ⟨setting,hsetting,rfl⟩ := List.mem_map.mp hkey
  rw [left_iff hsetting,leftText,hdefault setting hsetting]
  rfl

/-- It is the only one. -/
theorem eq_leftText {raw key text : String} (hkey : key∈smtpKeys) (h : Left raw key text) :
    text=leftText raw key := by
  have hself := left_leftText raw key hkey
  obtain ⟨setting,hsetting,rfl⟩ := List.mem_map.mp hkey
  exact ((left_iff hsetting).mp h).trans ((left_iff hsetting).mp hself).symm

/-- What the merger has for a key is a single line. -/
theorem single_entry {raw key text : String}
    (h : entry (smtpKeyValuesFromEnvText raw) key=some text) : Single text := by
  obtain ⟨before,line,after,hsplit,hleaves,_⟩ := entry_eq_some.mp h
  have hline : line∈splitlines raw := by
    rw [hsplit]
    exact List.mem_append_right _ List.mem_cons_self
  exact hleaves.single (splitlines_single hline)

/-- The lines of the new file are the merged lines of the template. -/
theorem splitlines_regenerated (g : Generated) (raw : String) :
    splitlines (regenerated g raw)=
      ((authLines g).map render).map (mergeLine (smtpKeyValuesFromEnvText raw)) := by
  rw [mergeLine_authLines g _ (isSmtp_entries raw)]
  refine splitlines_written (merged_toList g _ (isSmtp_entries raw)) fun line hline => ?_
  rcases List.mem_append.mp hline with hbefore|hrest
  · obtain ⟨found,hfound,rfl⟩ := List.mem_map.mp hbefore
    exact settled_single (settled_before g found hfound)
  · rcases List.mem_append.mp hrest with hmail|hafter
    · obtain ⟨setting,hsetting,rfl⟩ := List.mem_map.mp hmail
      obtain ⟨hkey,_,hdefault⟩ := smtpTemplate_settled hsetting
      refine Single.assignment hkey ?_
      cases hentry : entry (smtpKeyValuesFromEnvText raw) setting.1 with
      | none => exact hdefault
      | some text => exact single_entry hentry
    · obtain ⟨found,hfound,rfl⟩ := List.mem_map.mp hafter
      exact settled_single (settled_after found hfound)

/-- A line of another setting is the one of the template. -/
theorem other_regenerated (g : Generated) (raw : String) {n : ℕ} {line : String}
    (h : (splitlines (authEnv g))[n]?=some line) (hother : ¬IsSmtp line) :
    (splitlines (regenerated g raw))[n]?=some line := by
  rw [splitlines_authEnv] at h
  have hself : mergeLine (smtpKeyValuesFromEnvText raw) line=line := by
    obtain ⟨found,hfound,rfl⟩ := List.mem_map.mp (List.mem_of_getElem? h)
    rcases List.mem_append.mp hfound with hbefore|hrest
    · exact mergeLine_settled _ (isSmtp_entries raw) (settled_before g found hbefore)
    · rcases List.mem_append.mp hrest with hmail|hafter
      · obtain ⟨setting,hsetting,rfl⟩ := List.mem_map.mp hmail
        refine absurd ?_ hother
        rw [IsSmtp,render,assignment_toList]
        exact (smtpTemplate_settled hsetting).2.1.trans (List.prefix_append _ _)
      · exact mergeLine_settled _ (isSmtp_entries raw) (settled_after found hafter)
  rw [splitlines_regenerated,List.getElem?_map,h,Option.map_some,hself]

end Left

section References

variable (env : String → Option String) (g : Generated) (texts : String → String)

/-- The value of a text after an equals sign; its references are looked up. -/
def readBare (found : String → Option String) (text : String) : Option String :=
  (readValue isSpace (text.toList.dropWhile isSpace)).map fun value =>
    String.ofList (interpolate found value)

/-- What a reference finds in the new file: a mail setting above it with the text
left, the nearest one first, or what the template has above them, or else what
the environment has. -/
def finds : List String → String → Option String
  | [],name => scope env (resolveOnto env [] (template g)) name
  | key::above,name =>
    ((readBare (finds above) (texts key)).filter fun _ => name=key).or (finds above name)

/-- Every mail setting with a value has a line in the template, and the text left
for it, without quotes around it and under the settings above it, reads as this
value. -/
def Kept (raw : String) : Prop :=
  ∀ texts : String → String,(∀ key∈smtpKeys,Left raw key (texts key)) →
    ∀ key value,IsSmtp key → valueOf isSpace env raw key=some value → value≠"" →
      key∈smtpKeys ∧
        readBare (finds env g texts (smtpKeys.takeWhile (·≠key)).reverse) (texts key)=some value

variable {env : String → Option String} {g : Generated} {texts : String → String}

/-- The bindings of mail settings in their lines. -/
def lineBindings (texts : String → String) (keys : List String) : List Binding :=
  keys.filterMap fun key => lineBinding isSpace key.toList (texts key).toList

theorem lineBindings_cons (key : String) (keys : List String) : lineBindings texts (key::keys)=
    (lineBinding isSpace key.toList (texts key).toList).toList++lineBindings texts keys := by
  rw [lineBindings,List.filterMap_cons]
  cases lineBinding isSpace key.toList (texts key).toList with
  | none => rfl
  | some found => rfl

theorem lineBindings_ne {keys : List String} {key : String} (h : key∉keys) :
    ∀ b∈lineBindings texts keys,b.1≠key.toList := by
  intro b hb heq
  obtain ⟨k,hk,hread⟩ := List.mem_filterMap.mp hb
  obtain ⟨value,_,rfl⟩ := Option.map_eq_some_iff.mp hread
  exact h (String.toList_injective heq ▸ hk)

/-- Below lines of mail settings references find their texts. -/
theorem scope_lines {keys done : List String} {above : List Binding}
    (h : ∀ name,scope env above name=finds env g texts done name) (name : String) :
    scope env (resolveOnto env above (lineBindings texts keys)) name=
      finds env g texts (keys.reverse++done) name := by
  induction keys generalizing done above with
  | nil => exact h name
  | cons key keys ih =>
    have hfound : scope env above=finds env g texts done := funext h
    rw [lineBindings_cons,resolveOnto_append,List.reverse_cons,List.append_assoc]
    refine ih fun name => ?_
    show _=finds env g texts (key::done) name
    cases hread : readValue isSpace ((texts key).toList.dropWhile isSpace) with
    | none =>
      have hline : lineBinding isSpace key.toList (texts key).toList=none := by
        rw [lineBinding,hread]
        rfl
      rw [hline,finds,readBare,hread]
      exact h name
    | some value =>
      have hline : lineBinding isSpace key.toList (texts key).toList=
          some (key.toList,some value) := by
        rw [lineBinding,hread]
        rfl
      rw [hline,Option.toList_some,resolveOnto_cons,finds,readBare,hread]
      refine (scope_cons above key name _).trans ?_
      rw [hfound]
      by_cases hname : name=key
      · simp [hname,Option.filter]
      · simp [hname,Option.filter]

/-- What the lines of mail settings have for one of them. -/
theorem find_lines {before after : List String} {key : String} {above : List Binding}
    (h : ∀ name,scope env above name=finds env g texts [] name) (hbefore : key∉before)
    (hafter : key∉after) (habove : above.find? (fun b => b.1=key.toList)=none) :
    (((resolveOnto env above (lineBindings texts (before++key::after))).find?
        fun b => b.1=key.toList).bind (·.2)).map String.ofList=
      readBare (finds env g texts before.reverse) (texts key) := by
  have hscope : scope env (resolveOnto env above (lineBindings texts before))=
      finds env g texts before.reverse := by
    funext name
    rw [scope_lines h,List.append_nil]
  have happend : lineBindings texts (before++key::after)=
      lineBindings texts before++((lineBinding isSpace key.toList (texts key).toList).toList++
        lineBindings texts after) := by
    rw [←lineBindings_cons]
    exact List.filterMap_append
  rw [happend,resolveOnto_append,resolveOnto_append,find_resolveOnto (lineBindings_ne hafter)]
  cases hread : readValue isSpace ((texts key).toList.dropWhile isSpace) with
  | none =>
    have hline : lineBinding isSpace key.toList (texts key).toList=none := by
      rw [lineBinding,hread]
      rfl
    have hnone : (resolveOnto env above (lineBindings texts before)).find?
        (fun b => b.1=key.toList)=none := (find_resolveOnto (lineBindings_ne hbefore)).trans habove
    rw [hline,Option.toList_none,readBare,hread]
    exact congrArg (fun o : Option Binding => (o.bind (·.2)).map String.ofList) hnone
  | some value =>
    have hline : lineBinding isSpace key.toList (texts key).toList=
        some (key.toList,some value) := by
      rw [lineBinding,hread]
      rfl
    have hhead : ∀ (b : Binding) (above : List Binding),b.1=key.toList →
        (b::above).find? (fun b => b.1=key.toList)=some b :=
      fun b above hb => List.find?_cons_of_pos (decide_eq_true hb)
    rw [hline,Option.toList_some,resolveOnto_cons,hscope,readBare,hread]
    exact congrArg (fun o : Option Binding => (o.bind (·.2)).map String.ofList) (hhead _ _ rfl)

end References

section Alone

/-- No text left opens a quote that only a later one closes. -/
def OneLine (raw : String) : Prop :=
  ∀ texts : String → String,(∀ key∈smtpKeys,Left raw key (texts key)) →
    smtpKeys.Pairwise fun key later => Contained isSpace (texts key).toList (texts later).toList

/-- A quote in a line of other settings is in the text of one. -/
theorem contained_written {value : List Char} {keys : List String} {texts : String → String}
    (hkeys : ∀ key∈keys,'"'∉key.toList ∧ '\''∉key.toList)
    (h : ∀ key∈keys,Contained isSpace value (texts key).toList) :
    Contained isSpace value (written (keys.map fun key => key++"="++texts key)) := by
  intro q body hstart hquote
  by_cases hcloses : closes q body=true
  · exact .inl hcloses
  · refine .inr fun hmem => ?_
    obtain ⟨line,hline,hchar⟩ := List.mem_flatMap.mp hmem
    obtain ⟨key,hkey,rfl⟩ := List.mem_map.mp hline
    have hfeed : q≠ '\n' ∧ q≠ '=' ∧ q∉key.toList := by
      rcases hquote with rfl|rfl
      · exact ⟨by decide,by decide,(hkeys key hkey).1⟩
      · exact ⟨by decide,by decide,(hkeys key hkey).2⟩
    have htext : q∉(texts key).toList := (h key hkey q body hstart hquote).resolve_left hcloses
    rw [assignment_toList] at hchar
    rcases List.mem_append.mp hchar with hchar|hchar
    · rcases List.mem_append.mp hchar with hchar|hchar
      · exact hfeed.2.2 hchar
      · rcases List.mem_cons.mp hchar with heq|hchar
        · exact hfeed.2.1 heq
        · exact htext hchar
    · exact hfeed.1 (List.mem_singleton.mp hchar)

/-- The lines of settings that stay in their lines are read one by one. -/
theorem bindings_written {keys : List String} {texts : String → String}
    (hkeys : ∀ key∈keys,PlainKey isSpace key.toList ∧ '"'∉key.toList ∧ '\''∉key.toList)
    (htexts : ∀ key∈keys,Single (texts key))
    (h : keys.Pairwise fun key later =>
      Contained isSpace (texts key).toList (texts later).toList) :
    bindings isSpace (written (keys.map fun key => key++"="++texts key))=
      lineBindings texts keys := by
  induction keys with
  | nil => rfl
  | cons key keys ih =>
    obtain ⟨hfirst,hrest⟩ := List.pairwise_cons.mp h
    have hcontained : Contained isSpace (texts key).toList
        (written (keys.map fun key => key++"="++texts key)) :=
      contained_written (fun later hlater => (hkeys later (List.mem_cons_of_mem key hlater)).2)
        hfirst
    have hread := bindings_line (by decide) (by decide) (hkeys key List.mem_cons_self).1
      (inside_of_single (htexts key List.mem_cons_self)) hcontained
    have hothers := ih (fun later hlater => hkeys later (List.mem_cons_of_mem key hlater))
      (fun later hlater => htexts later (List.mem_cons_of_mem key hlater)) hrest
    rw [List.map_cons,written_cons,assignment_toList,List.append_assoc,List.cons_append,hread,
      hothers,lineBindings_cons]

/-- What the new file has for a mail setting. -/
theorem valueOf_regenerated {env : String → Option String} (g : Generated) {raw : String}
    {texts : String → String} (h : ∀ key∈smtpKeys,Left raw key (texts key))
    (hline : smtpKeys.Pairwise fun key later =>
      Contained isSpace (texts key).toList (texts later).toList) {key : String} (hkey : IsSmtp key) :
    valueOf isSpace env (regenerated g raw) key=
      if key∈smtpKeys then
        readBare (finds env g texts (smtpKeys.takeWhile (·≠key)).reverse) (texts key)
      else none := by
  have hquotes : (smtpKeys.all fun key => '"'∉key.toList && '\''∉key.toList)=true := by
    decide +kernel
  have hkeys : ∀ key∈smtpKeys,
      PlainKey isSpace key.toList ∧ '"'∉key.toList ∧ '\''∉key.toList := by
    intro key hkey
    obtain ⟨hdouble,hsingle⟩ := (Bool.and_eq_true _ _).mp (List.all_eq_true.mp hquotes key hkey)
    obtain ⟨setting,hsetting,rfl⟩ := List.mem_map.mp hkey
    exact ⟨(smtpTemplate_settled hsetting).1,of_decide_eq_true hdouble,of_decide_eq_true hsingle⟩
  have htexts : ∀ key∈smtpKeys,Single (texts key) := by
    intro key hkey
    obtain ⟨setting,hsetting,rfl⟩ := List.mem_map.mp hkey
    rw [(left_iff hsetting).mp (h setting.1 hkey)]
    cases hentry : entry (smtpKeyValuesFromEnvText raw) setting.1 with
    | none => exact (smtpTemplate_settled hsetting).2.2
    | some text => exact single_entry hentry
  have htemplate : (resolveOnto env [] (template g)).find? (fun b => b.1=key.toList)=none :=
    find_template g hkey
  rw [valueOf,regenerated,find_merged g _ (isSmtp_entries raw) hkey,smtpLines_eq h,
    bindings_written hkeys htexts hline]
  by_cases hmem : key∈smtpKeys
  · obtain ⟨before,after,hsplit,hbefore⟩ := List.eq_append_cons_of_mem hmem
    have hnodup : (before++key::after).Nodup := by
      rw [←hsplit]
      decide
    have hafter : key∉after :=
      (List.nodup_cons.mp (List.nodup_append.mp hnodup).2.1).1
    have habove : smtpKeys.takeWhile (·≠key)=before := by
      have hall : ∀ k∈before,decide (k≠key)=true := fun k hk =>
        decide_eq_true fun heq => hbefore (heq ▸ hk)
      rw [hsplit,List.takeWhile_append_of_pos hall,List.takeWhile_cons_of_neg (by simp),
        List.append_nil]
    rw [if_pos hmem,habove,hsplit]
    exact find_lines (fun _ => rfl) hbefore hafter htemplate
  · rw [if_neg hmem,find_resolveOnto (lineBindings_ne hmem),htemplate]
    rfl

end Alone

section Results

/-- Where no text left runs over the end of its line, regenerating keeps the mail
settings of an old file exactly when each one with a value is one of the template
and the text left for it, written without quotes, reads as this value. -/
theorem keepsSmtp_iff (env : String → Option String) (g : Generated) (raw : String)
    (hline : OneLine raw) : KeepsSmtp env g raw ↔ Kept env g raw := by
  constructor
  · intro h texts htexts key value hkey hold hne
    have hvalue := h.values key value hkey hold hne
    rw [valueOf_regenerated g htexts (hline texts htexts) hkey] at hvalue
    by_cases hmem : key∈smtpKeys
    · rw [if_pos hmem] at hvalue
      exact ⟨hmem,hvalue⟩
    · rw [if_neg hmem] at hvalue
      cases hvalue
  · intro h
    have htexts := left_leftText raw
    refine ⟨fun key value hkey hold hne => ?_,fun n line => other_regenerated g raw⟩
    obtain ⟨hmem,hvalue⟩ := h (leftText raw) htexts key value hkey hold hne
    rw [valueOf_regenerated g htexts (hline _ htexts) hkey,if_pos hmem]
    exact hvalue

/-- A run whose secrets and keys are short. -/
def sampleGenerated : Generated :=
  let secret : Secret := ⟨"c2VjcmV0LXNhbXBsZQ==",by decide +kernel⟩
  let pem : Pem := ⟨"-----BEGIN-----\nMIIJ\n-----END-----\n",by decide +kernel⟩
  ⟨secret,secret,secret,secret,secret,secret,pem,pem⟩

/-- A text that opens no quote stays in its line. -/
theorem contained_plain {value rest : List Char}
    (h : ∀ q body,value.dropWhile isSpace=q::body → q≠ '"' ∧ q≠ '\'') :
    Contained isSpace value rest := by
  intro q body hstart hquote
  obtain ⟨hdouble,hsingle⟩ := h q body hstart
  rcases hquote with rfl|rfl
  · exact absurd rfl hdouble
  · exact absurd rfl hsingle

/-- The test for a file whose texts left open no quotes. -/
def opensNone (raw : String) : Bool :=
  smtpKeys.all fun key =>
    ((leftText raw key).toList.dropWhile isSpace).head?.all fun c => c≠ '"' && c≠ '\''

theorem oneLine_of_opensNone {raw : String} (h : opensNone raw=true) : OneLine raw := by
  intro texts htexts
  have hplain : ∀ key∈smtpKeys,∀ rest,Contained isSpace (texts key).toList rest := by
    intro key hkey rest
    rw [eq_leftText hkey (htexts key hkey)]
    have hopens := List.all_eq_true.mp h key hkey
    refine contained_plain fun q body hstart => ?_
    rw [hstart,List.head?_cons,Option.all_some,Bool.and_eq_true,decide_eq_true_eq,
      decide_eq_true_eq] at hopens
    exact hopens
  exact List.pairwise_iff_forall_sublist.mpr fun {key later} hsub =>
    hplain key (hsub.subset List.mem_cons_self) _

/-- References depend on the texts above only. -/
theorem finds_congr {env : String → Option String} {g : Generated} {texts other : String → String}
    {above : List String} (h : ∀ key∈above,texts key=other key) :
    finds env g texts above=finds env g other above := by
  induction above with
  | nil => rfl
  | cons key above ih =>
    funext name
    rw [finds,finds,h key List.mem_cons_self,
      ih fun later hlater => h later (List.mem_cons_of_mem key hlater)]

/-- What the text left for a mail setting reads as, computed. -/
theorem readBare_leftText (env : String → Option String) (g : Generated) {raw : String}
    {texts : String → String} (h : ∀ key∈smtpKeys,Left raw key (texts key)) {key : String}
    (hkey : key∈smtpKeys) :
    readBare (finds env g texts (smtpKeys.takeWhile (·≠key)).reverse) (texts key)=
      readBare (finds env g (leftText raw) (smtpKeys.takeWhile (·≠key)).reverse)
        (leftText raw key) := by
  have htexts : ∀ other∈smtpKeys,texts other=leftText raw other :=
    fun other hother => eq_leftText hother (h other hother)
  have hfinds : finds env g texts (smtpKeys.takeWhile (·≠key)).reverse=
      finds env g (leftText raw) (smtpKeys.takeWhile (·≠key)).reverse :=
    finds_congr fun other hother =>
      htexts other ((List.takeWhile_prefix _).subset (List.mem_reverse.mp hother))
  rw [htexts key hkey,hfinds]

/-- What the new file has for a mail setting, computed. -/
theorem valueOf_kept {env : String → Option String} (g : Generated) {raw : String}
    (h : opensNone raw=true) {key : String} (hkey : key∈smtpKeys) :
    valueOf isSpace env (regenerated g raw) key=readBare
      (finds env g (leftText raw) (smtpKeys.takeWhile (·≠key)).reverse) (leftText raw key) := by
  have htexts := left_leftText raw
  have hsmtp : IsSmtp key := by
    obtain ⟨setting,hsetting,rfl⟩ := List.mem_map.mp hkey
    exact (smtpTemplate_settled hsetting).2.1
  rw [valueOf_regenerated g htexts (oneLine_of_opensNone h _ htexts) hsmtp,if_pos hkey]

/-- A password that needs its quotes is cut at its comment sign, and a user name
that refers to a setting the template does not have is lost. -/
theorem keepsSmtp_fails :
    ¬KeepsSmtp unset sampleGenerated "SMTP_PASSWORD=\"a #b\"\n" ∧
      ¬KeepsSmtp unset sampleGenerated "MAIL_USER=ops@example.com\nSMTP_USERNAME=${MAIL_USER}\n" := by
  constructor
  · intro h
    have hnew := h.values "SMTP_PASSWORD" "a #b" (by decide) (by decide +kernel) (by decide)
    rw [valueOf_kept sampleGenerated (by decide +kernel) (by decide)] at hnew
    exact absurd hnew (by decide +kernel)
  · intro h
    have hnew := h.values "SMTP_USERNAME" "ops@example.com" (by decide) (by decide +kernel)
      (by decide)
    rw [valueOf_kept sampleGenerated (by decide +kernel) (by decide)] at hnew
    exact absurd hnew (by decide +kernel)

/-- An old file whose sender refers to the mail server. -/
def sampleReference : String :=
  "SMTP_HOST=mail.example.com\nSMTP_FROM_EMAIL=\"ops@${SMTP_HOST}\"\n"

theorem keepsSmtp_reference : KeepsSmtp unset sampleGenerated sampleReference := by
  refine (keepsSmtp_iff unset sampleGenerated _ (oneLine_of_opensNone (by decide +kernel))).mpr ?_
  intro texts htexts key value hkey hold hne
  have hbindings : resolveOnto unset []
      (bindings isSpace sampleReference.toList)=
      [("SMTP_FROM_EMAIL".toList,some "ops@mail.example.com".toList),
        ("SMTP_HOST".toList,some "mail.example.com".toList)] := by decide +kernel
  rw [valueOf,hbindings] at hold
  by_cases hsender : key="SMTP_FROM_EMAIL"
  · subst hsender
    obtain rfl : "ops@mail.example.com"=value := Option.some.inj hold
    refine ⟨by decide,?_⟩
    rw [readBare_leftText unset sampleGenerated htexts (by decide)]
    decide +kernel
  · by_cases hhost : key="SMTP_HOST"
    · subst hhost
      obtain rfl : "mail.example.com"=value := Option.some.inj hold
      refine ⟨by decide,?_⟩
      rw [readBare_leftText unset sampleGenerated htexts (by decide)]
      decide +kernel
    · have hnone : [("SMTP_FROM_EMAIL".toList,some "ops@mail.example.com".toList),
          ("SMTP_HOST".toList,some "mail.example.com".toList)].find?
          (fun b => b.1=key.toList)=none := by
        refine List.find?_eq_none.mpr fun b hb hkeyed => ?_
        have hsame : b.1=key.toList := of_decide_eq_true hkeyed
        rcases List.mem_pair.mp hb with rfl|rfl
        · exact hsender (String.toList_injective hsame).symm
        · exact hhost (String.toList_injective hsame).symm
      rw [hnone] at hold
      cases hold

end Results

end BackendPlatform.KeptSettings
