import BackendPlatform.DotenvValues

/-!
# Reading a whole `.env`

A file is read binding by binding. White space and line ends before a binding
are skipped, a quoted value may go on over several lines, and where a binding
cannot be read the rest of the line is skipped. References are replaced from the top by
the bindings above them or the environment, and a key has the value of its last
binding.
-/

set_option autoImplicit false

namespace BackendPlatform.DotenvFiles

open DotenvValues

section Grammar

variable (space : Char → Bool)

/-- The end of a line. -/
def newline (c : Char) : Bool := c = '\n' || c = '\r'

/-- White space inside a line. -/
def inline (c : Char) : Bool := space c && !newline c

/-- A key with its value, if it has one. -/
abbrev Binding := List Char×Option (List Char)

/-- What is left after a leading `export`. -/
def dropExport (text : List Char) : List Char :=
  if "export".toList.isPrefixOf text && (text.drop 6).head?.any (inline space) then
    (text.drop 6).dropWhile (inline space)
  else text

/-- The key of a binding and what follows it; a comment has no key. -/
def readKey (text : List Char) : Option (Option (List Char)×List Char) :=
  if text.head?=some '#' then some (none,text)
  else if text.head?=some '\'' then
    match (text.drop 1).dropWhile (· ≠ '\'') with
    | [] => none
    | _::after =>
      if (text.drop 1).head?=some '\'' then none
      else some (some ((text.drop 1).takeWhile (· ≠ '\'')),after)
  else if text.takeWhile (ofKey space)=[] then none
  else some (some (text.takeWhile (ofKey space)),text.dropWhile (ofKey space))

/-- The value of a binding and what follows it. -/
def readBindingValue (text : List Char) : Option (List Char×List Char) :=
  if text.head?=some '"' ∨ text.head?=some '\'' then
    (quotedBody (text.headD ' ') (text.drop 1)).map fun (body,after) =>
      (decodeEscapes (escapesOf (text.headD ' ')) body,after)
  else some ((cutComment space (text.takeWhile (!newline ·))).rdropWhile space,
    text.dropWhile (!newline ·))

/-- What is left after a comment. -/
def dropComment (text : List Char) : List Char :=
  if (text.dropWhile (inline space)).head?=some '#' then text.dropWhile (!newline ·) else text

/-- What is left after the end of a line. -/
def readEnd (text : List Char) : Option (List Char) :=
  match text.dropWhile (inline space) with
  | [] => some []
  | c::rest =>
    if c = '\r' ∧ rest.head?=some '\n' then some (rest.drop 1)
    else if newline c then some rest
    else none

/-- What is left after the rest of a line. -/
def dropLine (text : List Char) : List Char := (text.dropWhile (!newline ·)).drop 1

/-- The end of a binding: a comment and the end of the line. -/
def closeBinding (key : Option (List Char)) (value : Option (List Char)) (text : List Char) :
    Option Binding×List Char :=
  match readEnd space (dropComment space text) with
  | some rest => (key.map fun k => (k,value),rest)
  | none => (none,dropLine (dropComment space text))

/-- One binding, or none where the text has a comment or cannot be read, and
what follows it. -/
def readBinding (text : List Char) : Option Binding×List Char :=
  match readKey space (dropExport space text) with
  | none => (none,dropLine (dropExport space text))
  | some (key,after) =>
    if (after.dropWhile (inline space)).head?=some '=' then
      let valueText := ((after.dropWhile (inline space)).drop 1).dropWhile (inline space)
      match readBindingValue space valueText with
      | some (value,rest) => closeBinding space key (some value) rest
      | none => (none,dropLine valueText)
    else closeBinding space key none (after.dropWhile (inline space))

/-- The bindings of a text, with fuel for its characters. -/
def readBindings : ℕ → List Char → List Binding
  | 0,_ => []
  | n+1,text =>
    if text.dropWhile space=[] then []
    else (readBinding space (text.dropWhile space)).1.toList++
      readBindings n (readBinding space (text.dropWhile space)).2

/-- The bindings of a text. -/
def bindings (text : List Char) : List Binding := readBindings space text.length text

/-- What a reference finds: the last binding of its name above, as an empty text
where it has no value, or else what the environment has. -/
def scope (env : String → Option String) (above : List Binding) (name : String) : Option String :=
  match above.find? fun b => b.1=name.toList with
  | some b => some (String.ofList (b.2.getD []))
  | none => env name

/-- Replace the references of bindings from the top; the result has the last
binding first. -/
def resolveOnto (env : String → Option String) (above entries : List Binding) : List Binding :=
  entries.foldl (fun above b => (b.1,b.2.map (interpolate (scope env above)))::above) above

/-- The value of a key in a text: the one of its last binding. -/
def valueOf (env : String → Option String) (text : String) (key : String) : Option String :=
  (((resolveOnto env [] (bindings space text.toList)).find? fun b => b.1=key.toList).bind
    (·.2)).map String.ofList

end Grammar

section Quotes

/-- A quote that is not escaped closes the text. -/
def closes (q : Char) : List Char → Bool
  | [] => false
  | [c] => c=q
  | c::d::rest =>
    if c=q then true
    else if c = '\\' ∧ d=q then closes q rest
    else closes q (d::rest)

/-- What follows a quoted text follows it still when more is added. -/
def followed (more : List Char) (found : List Char×List Char) : List Char×List Char :=
  (found.1,found.2++more)

/-- A text without the quote closes nothing. -/
theorem quotedBody_none {q : Char} {text : List Char} (h : q∉text) : quotedBody q text=none := by
  fun_induction quotedBody q text with
  | case1 => rfl
  | case2 => exact absurd (List.mem_singleton_self q) h
  | case3 => rfl
  | case4 => exact absurd List.mem_cons_self h
  | case5 c d rest _ hescaped =>
    obtain ⟨_,rfl⟩ := hescaped
    exact absurd (List.mem_cons_of_mem c List.mem_cons_self) h
  | case6 c d rest _ hescaped =>
    obtain ⟨_,rfl⟩ := hescaped
    exact absurd (List.mem_cons_of_mem c List.mem_cons_self) h
  | case7 c d rest _ _ ih =>
    rw [ih fun hmem => h (List.mem_cons_of_mem c hmem)]
    rfl

/-- A text that its quote closes is read alike whatever follows. -/
theorem quotedBody_append_of_closes {q : Char} {text : List Char} (more : List Char)
    (h : closes q text=true) :
    ∃ found,quotedBody q text=some found ∧
      quotedBody q (text++more)=some (followed more found) := by
  fun_induction closes q text with
  | case1 => cases h
  | case2 c =>
    have hc : c=q := of_decide_eq_true h
    subst hc
    refine ⟨([],[]),by simp [quotedBody],?_⟩
    cases more with
    | nil => simp [quotedBody,followed]
    | cons d rest => simp [quotedBody,followed]
  | case3 d rest => exact ⟨([],d::rest),by simp [quotedBody],by simp [quotedBody,followed]⟩
  | case4 c d rest hc hescaped ih =>
    obtain ⟨found,hfound,hmore⟩ := ih h
    refine ⟨(c::d::found.1,found.2),?_,?_⟩
    · rw [quotedBody,if_neg hc,if_pos hescaped,hfound]
    · rw [List.cons_append,List.cons_append,quotedBody,if_neg hc,if_pos hescaped,hmore]
      rfl
  | case5 c d rest hc hescaped ih =>
    obtain ⟨found,hfound,hmore⟩ := ih h
    refine ⟨(c::found.1,found.2),?_,?_⟩
    · rw [quotedBody,if_neg hc,if_neg hescaped,hfound]
      rfl
    · rw [List.cons_append] at hmore
      rw [List.cons_append,List.cons_append,quotedBody,if_neg hc,if_neg hescaped,hmore]
      rfl

/-- A text is read alike when its quote is not in what follows. -/
theorem quotedBody_append_of_notMem {q : Char} (text : List Char) {more : List Char}
    (h : q∉more) : quotedBody q (text++more)=(quotedBody q text).map (followed more) := by
  fun_induction quotedBody q text with
  | case1 => exact quotedBody_none h
  | case2 =>
    cases more with
    | nil => simp [quotedBody,followed]
    | cons d rest => simp [quotedBody,followed]
  | case3 c hc =>
    cases more with
    | nil => simp [quotedBody,hc]
    | cons d rest =>
      have hd : d≠q := fun heq => h (heq ▸ List.mem_cons_self)
      simp [quotedBody,hc,hd,quotedBody_none h]
  | case4 d rest => simp [quotedBody,followed]
  | case5 c d rest hc hescaped body after hrest ih =>
    rw [hrest] at ih
    rw [List.cons_append,List.cons_append,quotedBody,if_neg hc,if_pos hescaped,ih]
    rfl
  | case6 c d rest hc hescaped hrest ih =>
    rw [hrest] at ih
    rw [List.cons_append,List.cons_append,quotedBody,if_neg hc,if_pos hescaped,ih]
    rfl
  | case7 c d rest hc hescaped ih =>
    rw [List.cons_append] at ih
    rw [List.cons_append,List.cons_append,quotedBody,if_neg hc,if_neg hescaped,ih]
    cases quotedBody q (d::rest) with
    | none => rfl
    | some found => rfl

/-- What follows a quoted text is a part of it. -/
theorem quotedBody_subset {q : Char} {text body after : List Char}
    (h : quotedBody q text=some (body,after)) : after⊆text := by
  fun_induction quotedBody q text generalizing body after with
  | case1 => cases h
  | case2 =>
    cases h
    exact List.nil_subset _
  | case3 => cases h
  | case4 =>
    cases h
    exact List.subset_cons_self _ _
  | case5 _ _ _ _ _ _ _ hrest ih =>
    cases h
    exact fun c hc => List.mem_cons_of_mem _ (List.mem_cons_of_mem _ (ih hrest hc))
  | case6 =>
    cases h
    exact fun c hc => List.mem_cons_of_mem _ (List.mem_cons_of_mem _ hc)
  | case7 _ _ _ _ _ ih =>
    obtain ⟨found,hfound,heq⟩ := Option.map_eq_some_iff.mp h
    cases heq
    exact fun c hc => List.mem_cons_of_mem _ (ih hfound hc)

end Quotes

section Lines

variable {space : Char → Bool} {key value rest : List Char}

/-- A text inside a line. -/
def Inside (text : List Char) : Prop := ∀ c∈text,newline c=false

/-- The empty text has no line end. -/
theorem inside_nil : Inside [] := fun _ hc => absurd hc List.not_mem_nil

/-- Inside a line all white space is blank. -/
theorem dropWhile_inline {text : List Char} (h : Inside text) (rest : List Char) :
    (text++ '\n'::rest).dropWhile (inline space)=text.dropWhile space++ '\n'::rest := by
  induction text with
  | nil => exact List.dropWhile_cons_of_neg (by simp [inline,newline])
  | cons c text ih =>
    have hc : newline c=false := h c List.mem_cons_self
    have htext : Inside text := fun d hd => h d (List.mem_cons_of_mem c hd)
    by_cases hspace : space c=true
    · rw [List.cons_append,List.dropWhile_cons_of_pos (by simp [inline,hspace,hc]),
        List.dropWhile_cons_of_pos hspace,ih htext]
    · rw [List.cons_append,List.dropWhile_cons_of_neg (by simp [inline,hspace]),
        List.dropWhile_cons_of_neg hspace]
      rfl

/-- A line goes up to its end. -/
theorem dropWhile_line {text : List Char} (h : Inside text) (rest : List Char) :
    (text++ '\n'::rest).dropWhile (!newline ·)= '\n'::rest := by
  have hall : ∀ c∈text,(!newline c)=true := fun c hc => by simp [h c hc]
  rw [List.dropWhile_append_of_pos hall]
  exact List.dropWhile_cons_of_neg (by simp [newline])

/-- The characters before the first line end are the first line. -/
theorem takeWhile_line {text : List Char} (h : Inside text) (rest : List Char) :
    (text++ '\n'::rest).takeWhile (!newline ·)=text := by
  have hall : ∀ c∈text,(!newline c)=true := fun c hc => by simp [h c hc]
  rw [List.takeWhile_append_of_pos hall,List.takeWhile_cons_of_neg (by simp [newline]),
    List.append_nil]

/-- What follows a value in its line is a comment, or the line is skipped. -/
theorem closeBinding_line {after : List Char} (k : Option (List Char))
    (v : Option (List Char)) (h : Inside after) (rest : List Char) :
    closeBinding space k v (after++ '\n'::rest)=
      (if onlyComment space after=true then k.map fun k => (k,v) else none,rest) := by
  have hend : ∀ tail,readEnd space ('\n'::tail)=some tail := by
    intro tail
    have hstay : ('\n'::tail).dropWhile (inline space)= '\n'::tail :=
      List.dropWhile_cons_of_neg (by simp [inline,newline])
    simp only [readEnd,hstay]
    simp [newline]
  have hdrop : (after++ '\n'::rest).dropWhile (inline space)=
      after.dropWhile space++ '\n'::rest := dropWhile_inline h rest
  cases hafter : after.dropWhile space with
  | nil =>
    rw [hafter,List.nil_append] at hdrop
    have hcomment : dropComment space (after++ '\n'::rest)=after++ '\n'::rest := by
      rw [dropComment,hdrop]
      simp
    have hread : readEnd space (after++ '\n'::rest)=some rest := by
      rw [←hend rest]
      simp only [readEnd,hdrop]
      rw [List.dropWhile_cons_of_neg (by simp [inline,newline])]
    simp only [closeBinding,hcomment,hread,onlyComment,hafter]
    simp
  | cons d tail =>
    rw [hafter] at hdrop
    have hd : newline d=false := by
      refine h d ((List.dropWhile_suffix space).subset ?_)
      rw [hafter]
      exact List.mem_cons_self
    by_cases hhash : d = '#'
    · subst hhash
      have hcomment : dropComment space (after++ '\n'::rest)= '\n'::rest := by
        rw [dropComment,hdrop,dropWhile_line h]
        simp
      simp only [closeBinding,hcomment,hend,onlyComment,hafter]
      simp
    · have hcomment : dropComment space (after++ '\n'::rest)=after++ '\n'::rest := by
        rw [dropComment,hdrop]
        simp [hhash]
      have hread : readEnd space (after++ '\n'::rest)=none := by
        have hreturn : d≠ '\r' := by
          rintro rfl
          simp [newline] at hd
        simp only [readEnd,hdrop,List.cons_append]
        simp [hreturn,hd]
      have hline : dropLine (after++ '\n'::rest)=rest := by
        rw [dropLine,dropWhile_line h]
        rfl
      simp only [closeBinding,hcomment,hread,hline,onlyComment,hafter]
      simp [hhash]

end Lines

section Entries

variable {space : Char → Bool} {key value : List Char}

/-- A key that is written as it is. -/
structure PlainKey (space : Char → Bool) (key : List Char) : Prop where
  /-- It has characters. -/
  nonempty : key≠[]
  /-- They all belong to a key. -/
  chars : ∀ c∈key,ofKey space c=true
  /-- It does not start with a quote. -/
  unquoted : key.head?≠some '\''

/-- The quote at the start of a value is closed in it, or is not in what follows. -/
def Contained (space : Char → Bool) (value rest : List Char) : Prop :=
  ∀ q body,value.dropWhile space=q::body → q = '"' ∨ q = '\'' → closes q body=true ∨ q∉rest

/-- The binding of a line. -/
def lineBinding (space : Char → Bool) (key value : List Char) : Option Binding :=
  (readValue space (value.dropWhile space)).map fun v => (key,some v)

/-- The key of a line is no `export`. -/
theorem dropExport_line (hspace : space '='=false) (h : PlainKey space key) (rest : List Char) :
    dropExport space (key++ '='::rest)=key++ '='::rest := by
  refine if_neg fun hexport => ?_
  obtain ⟨hstart,hblank⟩ := Bool.and_eq_true_iff.mp hexport
  obtain ⟨tail,htail⟩ := List.isPrefixOf_iff_prefix.mp hstart
  obtain ⟨d,hd,hinline⟩ := (Option.any_eq_true _ _).mp hblank
  have hdspace : space d=true := (Bool.and_eq_true_iff.mp hinline).1
  rw [List.head?_drop] at hd
  rcases Nat.lt_trichotomy 6 key.length with hlt|heq|hgt
  · rw [List.getElem?_append_left hlt] at hd
    have hkey := h.chars d (List.mem_of_getElem? hd)
    simp [ofKey,hdspace] at hkey
  · rw [List.getElem?_append_right (Nat.le_of_eq heq.symm),heq,Nat.sub_self] at hd
    have hequals : '='=d := Option.some.inj hd
    rw [←hequals,hspace] at hdspace
    cases hdspace
  · have hequals : ("export".toList++tail)[key.length]?=some '=' := by
      rw [htail,List.getElem?_append_right (Nat.le_refl _),Nat.sub_self]
      rfl
    rw [List.getElem?_append_left hgt] at hequals
    exact absurd (List.mem_of_getElem? hequals) (by decide)

/-- A plain key is read up to its equals sign. -/
theorem readKey_line (h : PlainKey space key) (rest : List Char) :
    readKey space (key++ '='::rest)=some (some key,'='::rest) := by
  have hstop : ofKey space '='=false := by simp [ofKey]
  have htake : (key++ '='::rest).takeWhile (ofKey space)=key := by
    rw [List.takeWhile_append_of_pos h.chars,List.takeWhile_cons_of_neg (by simp [hstop]),
      List.append_nil]
  have hdrop : (key++ '='::rest).dropWhile (ofKey space)= '='::rest := by
    rw [List.dropWhile_append_of_pos h.chars,List.dropWhile_cons_of_neg (by simp [hstop])]
  have hhead : (key++ '='::rest).head?=key.head? := by
    cases hkey : key with
    | nil => exact absurd hkey h.nonempty
    | cons c tail => rfl
  have hhash : key.head?≠some '#' := by
    intro hhead
    have hmem := h.chars '#' (List.mem_of_mem_head? hhead)
    simp [ofKey] at hmem
  rw [readKey,hhead,if_neg hhash,if_neg h.unquoted,htake,if_neg h.nonempty,hdrop]

/-- A line is read for itself. -/
theorem readBinding_line (hspace : space '='=false) (hkey : PlainKey space key)
    (hvalue : Inside value) {rest : List Char} (hcontained : Contained space value rest) :
    readBinding space (key++ '='::(value++ '\n'::rest))=(lineBinding space key value,rest) := by
  have hequals : ('='::(value++ '\n'::rest)).dropWhile (inline space)=
      '='::(value++ '\n'::rest) := List.dropWhile_cons_of_neg (by simp [inline,hspace])
  have hblank : (value++ '\n'::rest).dropWhile (inline space)=
      value.dropWhile space++ '\n'::rest := dropWhile_inline hvalue rest
  have hinside : Inside (value.dropWhile space) :=
    fun c hc => hvalue c ((List.dropWhile_suffix space).subset hc)
  simp only [readBinding,dropExport_line hspace hkey,readKey_line hkey,hequals,List.head?_cons,
    if_true,List.drop_one,List.tail_cons,hblank]
  generalize htext : value.dropWhile space=text at hinside hcontained
  rw [lineBinding,htext]
  match text with
  | [] =>
    have hread : readBindingValue space ([]++ '\n'::rest)=some ([],'\n'::rest) := by
      simp [readBindingValue,newline,cutComment]
    have hclose : closeBinding space (some key) (some []) ([]++ '\n'::rest)=_ :=
      closeBinding_line (some key) (some []) inside_nil rest
    simp only [hread]
    exact hclose
  | q::body =>
    by_cases hquote : q = '"' ∨ q = '\''
    · have hbody : Inside body := fun c hc => hinside c (List.mem_cons_of_mem q hc)
      have hq : newline q=false := hinside q List.mem_cons_self
      have hfound : quotedBody q (body++ '\n'::rest)=
          (quotedBody q body).map (followed ('\n'::rest)) := by
        rcases hcontained q body htext hquote with hcloses|hnot
        · obtain ⟨found,hfound,hmore⟩ := quotedBody_append_of_closes ('\n'::rest) hcloses
          rw [hfound,hmore]
          rfl
        · refine quotedBody_append_of_notMem body fun hmem => ?_
          rcases List.mem_cons.mp hmem with rfl|hrest
          · simp [newline] at hq
          · exact hnot hrest
      have hread : readBindingValue space (q::body++ '\n'::rest)=
          ((quotedBody q body).map (followed ('\n'::rest))).map fun found =>
            (decodeEscapes (escapesOf q) found.1,found.2) := by
        rw [readBindingValue,if_pos (by simpa using hquote)]
        exact congrArg _ hfound
      cases hclosed : quotedBody q body with
      | none =>
        rw [hclosed] at hread
        have hline : dropLine (q::body++ '\n'::rest)=rest := by
          rw [dropLine,dropWhile_line hinside]
          rfl
        simp only [hread,Option.map_none,hline,readValue,if_pos hquote,hclosed]
      | some found =>
        rw [hclosed] at hread
        have hafter : Inside found.2 := by
          intro c hc
          exact hbody c (quotedBody_subset hclosed hc)
        simp only [hread,Option.map_some,followed,closeBinding_line _ _ hafter,readValue,
          if_pos hquote,hclosed]
        split
        · rfl
        · rfl
    · have hread : readBindingValue space (q::body++ '\n'::rest)=
          some ((cutComment space (q::body)).rdropWhile space,'\n'::rest) := by
        rw [readBindingValue,if_neg (by simpa using hquote),takeWhile_line hinside,
          dropWhile_line hinside]
      have hclose : closeBinding space (some key)
          (some ((cutComment space (q::body)).rdropWhile space)) ([]++ '\n'::rest)=_ :=
        closeBinding_line (some key) (some ((cutComment space (q::body)).rdropWhile space))
          inside_nil rest
      simp only [List.nil_append] at hclose
      simp only [hread,hclose,readValue,if_neg hquote]
      rfl

end Entries

section Progress

variable {space : Char → Bool}

/-- What follows a quoted text follows its closing quote. -/
theorem quotedBody_split {q : Char} {text body after : List Char}
    (h : quotedBody q text=some (body,after)) : text=body++q::after := by
  fun_induction quotedBody q text generalizing body after with
  | case1 => cases h
  | case2 =>
    cases h
    rfl
  | case3 => cases h
  | case4 =>
    cases h
    rfl
  | case5 _ _ _ _ _ _ _ hrest ih =>
    cases h
    rw [ih hrest]
    rfl
  | case6 _ _ _ _ hescaped =>
    cases h
    rw [hescaped.2]
    rfl
  | case7 _ _ _ _ _ ih =>
    obtain ⟨found,hfound,heq⟩ := Option.map_eq_some_iff.mp h
    cases heq
    rw [ih hfound]
    rfl

/-- What follows a comment is a tail of the text. -/
theorem dropComment_suffix (text : List Char) : dropComment space text<:+text := by
  unfold dropComment
  split
  · exact List.dropWhile_suffix _
  · exact List.suffix_refl _

/-- What follows a line is a tail of the text. -/
theorem dropLine_suffix (text : List Char) : dropLine text<:+text :=
  (List.drop_suffix 1 _).trans (List.dropWhile_suffix _)

/-- Dropping a line makes progress. -/
theorem dropLine_length {text : List Char} (h : text≠[]) : (dropLine text).length<text.length := by
  have hlength := (List.dropWhile_suffix (p := fun c => !newline c) (l := text)).length_le
  have hpos := List.length_pos_iff.mpr h
  rw [dropLine,List.length_drop]
  omega

/-- What follows the end of a binding is a tail of the text. -/
theorem readEnd_suffix {text rest : List Char} (h : readEnd space text=some rest) :
    rest<:+text := by
  have hdrop : text.dropWhile (inline space)<:+text := List.dropWhile_suffix _
  unfold readEnd at h
  split at h
  · cases h
    exact List.nil_suffix
  · rename_i c tail htail
    rw [htail] at hdrop
    have hsuffix : tail<:+text := (List.suffix_cons c tail).trans hdrop
    split at h
    · cases h
      exact (List.drop_suffix 1 tail).trans hsuffix
    · split at h
      · cases h
        exact hsuffix
      · cases h

/-- What follows a closed binding is a tail of the text. -/
theorem closeBinding_suffix (key value : Option (List Char)) (text : List Char) :
    (closeBinding space key value text).2<:+text := by
  unfold closeBinding
  split
  · rename_i rest hrest
    exact (readEnd_suffix hrest).trans (dropComment_suffix text)
  · exact (dropLine_suffix _).trans (dropComment_suffix text)

/-- What follows the word export is a tail of the text. -/
theorem dropExport_suffix (text : List Char) : dropExport space text<:+text := by
  unfold dropExport
  split
  · exact (List.dropWhile_suffix _).trans (List.drop_suffix 6 text)
  · exact List.suffix_refl _

/-- A key takes characters, a comment takes none. -/
theorem readKey_suffix {text after : List Char} {key : Option (List Char)}
    (h : readKey space text=some (key,after)) :
    (text.head?=some '#' ∧ key=none ∧ after=text) ∨ (after<:+text ∧ after.length<text.length) := by
  unfold readKey at h
  split at h
  · rename_i hhash
    cases h
    exact .inl ⟨hhash,rfl,rfl⟩
  · split at h
    · rename_i hquote
      split at h
      · cases h
      · rename_i c tail htail
        split at h
        · cases h
        · cases h
          have hdrop : (text.drop 1).dropWhile (· ≠ '\'')<:+text :=
            (List.dropWhile_suffix _).trans (List.drop_suffix 1 text)
          rw [htail] at hdrop
          have hlength := hdrop.length_le
          rw [List.length_cons] at hlength
          exact .inr ⟨(List.suffix_cons c after).trans hdrop,hlength⟩
    · split at h
      · cases h
      · rename_i hkey
        cases h
        refine .inr ⟨List.dropWhile_suffix _,?_⟩
        have hpos := List.length_pos_iff.mpr hkey
        have hsplit := congrArg List.length
          (List.takeWhile_append_dropWhile (p := ofKey space) (l := text))
        rw [List.length_append] at hsplit
        omega

/-- What follows a value is a tail of the text. -/
theorem readBindingValue_suffix {text value after : List Char}
    (h : readBindingValue space text=some (value,after)) : after<:+text := by
  unfold readBindingValue at h
  split at h
  · obtain ⟨found,hfound,heq⟩ := Option.map_eq_some_iff.mp h
    cases heq
    have hsplit := quotedBody_split hfound
    refine List.IsSuffix.trans ?_ (List.drop_suffix 1 text)
    rw [hsplit]
    exact (List.suffix_cons _ _).trans (List.suffix_append _ _)
  · cases h
    exact List.dropWhile_suffix _

/-- A comment is taken with its line. -/
theorem closeBinding_comment {text : List Char} (hspace : space '#'=false)
    (h : text.head?=some '#') (key value : Option (List Char)) :
    (closeBinding space key value text).2.length<text.length := by
  obtain ⟨c,tail,rfl⟩ : ∃ c tail,text=c::tail := by
    cases text with
    | nil => cases h
    | cons c tail => exact ⟨c,tail,rfl⟩
  have hc : c = '#' := Option.some.inj h
  subst hc
  have hdrop : ('#'::tail).dropWhile (inline space)= '#'::tail :=
    List.dropWhile_cons_of_neg (by simp [inline,hspace])
  have hcomment : dropComment space ('#'::tail)=tail.dropWhile (!newline ·) := by
    rw [dropComment,hdrop,if_pos List.head?_cons]
    exact List.dropWhile_cons_of_pos (by decide)
  have hshort : (dropComment space ('#'::tail)).length≤tail.length := by
    rw [hcomment]
    exact (List.dropWhile_suffix _).length_le
  have hclose : (closeBinding space key value ('#'::tail)).2.length≤
      (dropComment space ('#'::tail)).length := by
    unfold closeBinding
    split
    · rename_i rest hrest
      exact (readEnd_suffix hrest).length_le
    · exact (dropLine_suffix _).length_le
  rw [List.length_cons]
  omega

/-- A binding takes at least one character. -/
theorem readBinding_length (hspace : space '#'=false) {text : List Char} (h : text≠[]) :
    (readBinding space text).2.length<text.length := by
  have hexport : (dropExport space text).length≤text.length :=
    (dropExport_suffix text).length_le
  have hpos := List.length_pos_iff.mpr h
  unfold readBinding
  split
  · by_cases hnil : dropExport space text=[]
    · rw [hnil]
      exact hpos
    · exact Nat.lt_of_lt_of_le (dropLine_length hnil) hexport
  · rename_i key after hkey
    have hblank : (after.dropWhile (inline space)).length≤after.length :=
      (List.dropWhile_suffix _).length_le
    rcases readKey_suffix hkey with ⟨hhash,rfl,rfl⟩|⟨_,hlength⟩
    · have hstay : (dropExport space text).dropWhile (inline space)=dropExport space text := by
        cases hstart : dropExport space text with
        | nil => rfl
        | cons c tail =>
          rw [hstart] at hhash
          have hc : c = '#' := Option.some.inj hhash
          subst hc
          exact List.dropWhile_cons_of_neg (by simp [inline,hspace])
      rw [hstay,hhash,if_neg (by decide)]
      exact Nat.lt_of_lt_of_le (closeBinding_comment hspace hhash _ _) hexport
    · split
      · rename_i hequals
        have hvalue : (((after.dropWhile (inline space)).drop 1).dropWhile (inline space)).length≤
            after.length := by
          have hsuffix := (List.dropWhile_suffix (p := inline space)
            (l := (after.dropWhile (inline space)).drop 1)).length_le
          rw [List.length_drop] at hsuffix
          omega
        dsimp only
        split
        · rename_i value rest hread
          have hrest := (readBindingValue_suffix hread).length_le
          have hclose : (closeBinding space key (some value) rest).2.length≤rest.length :=
            (closeBinding_suffix key (some value) rest).length_le
          omega
        · have hline := (dropLine_suffix
            (((after.dropWhile (inline space)).drop 1).dropWhile (inline space))).length_le
          dsimp only
          omega
      · have hclose : (closeBinding space key none (after.dropWhile (inline space))).2.length≤
            (after.dropWhile (inline space)).length :=
          (closeBinding_suffix key none (after.dropWhile (inline space))).length_le
        omega

/-- Fuel for every character is enough. -/
theorem readBindings_fuel (hspace : space '#'=false) {n m : ℕ} {text : List Char}
    (hn : text.length ≤ n) (hm : text.length ≤ m) :
    readBindings space n text=readBindings space m text := by
  induction n generalizing m text with
  | zero =>
    have hnil : text=[] := List.length_eq_zero_iff.mp (Nat.le_zero.mp hn)
    subst hnil
    cases m with
    | zero => rfl
    | succ m => rfl
  | succ n ih =>
    cases m with
    | zero =>
      have hnil : text=[] := List.length_eq_zero_iff.mp (Nat.le_zero.mp hm)
      subst hnil
      rfl
    | succ m =>
      unfold readBindings
      split
      · rfl
      · rename_i hne
        have hshort := readBinding_length hspace hne
        have hdrop := (List.dropWhile_suffix (p := space) (l := text)).length_le
        have hrest : readBindings space n (readBinding space (text.dropWhile space)).2=
            readBindings space m (readBinding space (text.dropWhile space)).2 :=
          ih (by omega) (by omega)
        rw [hrest]

/-- The bindings of a text, one after another. -/
theorem bindings_eq (hspace : space '#'=false) (text : List Char) :
    bindings space text=if text.dropWhile space=[] then []
      else (readBinding space (text.dropWhile space)).1.toList++
        bindings space (readBinding space (text.dropWhile space)).2 := by
  have hstep : bindings space text=readBindings space (text.length+1) text :=
    readBindings_fuel hspace (Nat.le_refl _) (Nat.le_succ _)
  rw [hstep,readBindings]
  split
  · rfl
  · rename_i hne
    have hshort := readBinding_length hspace hne
    have hdrop := (List.dropWhile_suffix (p := space) (l := text)).length_le
    rw [bindings,readBindings_fuel hspace (by omega) (Nat.le_refl _)]

/-- White space in front of a text has no binding. -/
theorem bindings_blank (hspace : space '#'=false) {blank : List Char}
    (h : ∀ c∈blank,space c=true) (text : List Char) :
    bindings space (blank++text)=bindings space text := by
  rw [bindings_eq hspace,bindings_eq hspace text,List.dropWhile_append_of_pos h]

end Progress

section Appending

variable {space : Char → Bool} {text rest : List Char}

/-- The text ends with a line. -/
def Whole (text : List Char) : Prop := ∀ c,text.getLast?=some c → c = '\n'

/-- A tail of whole lines ends in a whole line. -/
theorem Whole.suffix (h : Whole text) {tail : List Char} (hs : tail<:+text) : Whole tail := by
  obtain ⟨front,rfl⟩ := hs
  intro c hc
  refine h c ?_
  rw [List.getLast?_append,hc]
  rfl

/-- Whole lines hold a line end. -/
theorem Whole.mem (h : Whole text) (hne : text≠[]) : '\n'∈text := by
  have hlast := List.getLast?_eq_some_getLast hne
  rw [←h _ hlast]
  exact List.getLast_mem hne

/-- The last character of a line is no other one. -/
theorem Whole.ne_nil (h : Whole text) (front : List Char) {after : List Char} {c : Char}
    (hc : c≠ '\n') (htext : front++c::after<:+text) : after≠[] := by
  rintro rfl
  refine hc (h.suffix htext c ?_)
  rw [List.getLast?_append]
  rfl

/-- What stops at a line end is dropped without regard to later lines. -/
theorem Whole.dropWhile_append (h : Whole text) (hne : text≠[]) {p : Char → Bool}
    (hp : p '\n'=false) (rest : List Char) :
    (text++rest).dropWhile p=text.dropWhile p++rest ∧ text.dropWhile p≠[] := by
  have hstop : text.dropWhile p≠[] := by
    intro hnil
    have hall := List.dropWhile_eq_nil_iff.mp hnil _ (h.mem hne)
    rw [hp] at hall
    cases hall
  refine ⟨?_,hstop⟩
  rw [List.dropWhile_append,if_neg (by simpa using hstop)]

/-- What stops at a line end is taken without regard to later lines. -/
theorem Whole.takeWhile_append (h : Whole text) (hne : text≠[]) {p : Char → Bool}
    (hp : p '\n'=false) (rest : List Char) :
    (text++rest).takeWhile p=text.takeWhile p := by
  have hdrop := (h.dropWhile_append hne hp rest).1
  have hwhole := List.takeWhile_append_dropWhile (p := p) (l := text++rest)
  have hpart := List.takeWhile_append_dropWhile (p := p) (l := text)
  rw [hdrop,←List.append_assoc] at hwhole
  exact List.append_cancel_right ((List.append_cancel_right hwhole).trans hpart.symm)

/-- The first character is that of the first text. -/
theorem head?_append_of_ne (hne : text≠[]) (rest : List Char) : (text++rest).head?=text.head? := by
  cases text with
  | nil => exact absurd rfl hne
  | cons c tail => rfl

/-- The first character is dropped from the first text. -/
theorem drop_append_of_ne (hne : text≠[]) (rest : List Char) :
    (text++rest).drop 1=text.drop 1++rest := by
  cases text with
  | nil => exact absurd rfl hne
  | cons c tail => rfl

/-- A line is dropped without regard to later lines. -/
theorem dropLine_append (h : Whole text) (hne : text≠[]) (rest : List Char) :
    dropLine (text++rest)=dropLine text++rest := by
  obtain ⟨hdrop,hstop⟩ := h.dropWhile_append hne (p := (!newline ·)) (by decide) rest
  rw [dropLine,hdrop,drop_append_of_ne hstop]
  rfl

/-- A comment is dropped without regard to later lines. -/
theorem dropComment_append (h : Whole text) (hne : text≠[]) (rest : List Char) :
    dropComment space (text++rest)=dropComment space text++rest ∧ dropComment space text≠[] := by
  obtain ⟨hblank,hfirst⟩ := h.dropWhile_append hne (p := inline space) (by simp [inline,newline]) rest
  obtain ⟨hline,hstop⟩ := h.dropWhile_append hne (p := (!newline ·)) (by decide) rest
  unfold dropComment
  rw [hblank,head?_append_of_ne hfirst,hline]
  split
  · exact ⟨rfl,hstop⟩
  · exact ⟨rfl,hne⟩

/-- The end of a binding is read without regard to later lines. -/
theorem readEnd_append (h : Whole text) (hne : text≠[]) (rest : List Char) :
    readEnd space (text++rest)=(readEnd space text).map (·++rest) := by
  obtain ⟨hblank,hfirst⟩ := h.dropWhile_append hne (p := inline space) (by simp [inline,newline]) rest
  have hsuffix : text.dropWhile (inline space)<:+text := List.dropWhile_suffix _
  unfold readEnd
  rw [hblank]
  cases hstart : text.dropWhile (inline space) with
  | nil => exact absurd hstart hfirst
  | cons c tail =>
    rw [hstart] at hsuffix
    by_cases hreturn : c = '\r'
    · have htail : tail≠[] := by
        have hc : c≠ '\n' := by
          rw [hreturn]
          decide
        exact h.ne_nil [] hc hsuffix
      simp only [List.cons_append,head?_append_of_ne htail,drop_append_of_ne htail]
      split
      · rfl
      · split
        · rfl
        · rfl
    · simp only [List.cons_append,hreturn,false_and,if_false]
      split
      · rfl
      · rfl

/-- A binding is closed without regard to later lines. -/
theorem closeBinding_append (h : Whole text) (hne : text≠[]) (key value : Option (List Char))
    (rest : List Char) :
    closeBinding space key value (text++rest)=
      ((closeBinding space key value text).1,(closeBinding space key value text).2++rest) := by
  obtain ⟨hcomment,hfirst⟩ : dropComment space (text++rest)=dropComment space text++rest ∧
      dropComment space text≠[] := dropComment_append h hne rest
  have hwhole : Whole (dropComment space text) := h.suffix (dropComment_suffix text)
  unfold closeBinding
  rw [hcomment,readEnd_append hwhole hfirst]
  cases hend : readEnd space (dropComment space text) with
  | none => simp only [Option.map_none,dropLine_append hwhole hfirst]
  | some after => rfl

/-- A text that starts with `export` is longer than that. -/
theorem export_length (h : Whole text) (hne : text≠[]) {rest : List Char}
    (hstart : "export".toList<+:text++rest) : 6<text.length := by
  by_contra hle
  have hlength : text.length≤"export".toList.length := Nat.le_of_not_lt hle
  have hin : text<+:"export".toList :=
    List.prefix_of_prefix_length_le (List.prefix_append text rest) hstart hlength
  exact absurd (hin.subset (h.mem hne)) (by decide)

/-- The word export is dropped without regard to later lines. -/
theorem dropExport_append (h : Whole text) (hne : text≠[]) (rest : List Char) :
    dropExport space (text++rest)=dropExport space text++rest ∧ dropExport space text≠[] := by
  by_cases hlong : 6<text.length
  · have hdrop : (text++rest).drop 6=text.drop 6++rest :=
      List.drop_append_of_le_length (Nat.le_of_lt hlong)
    have hleft : text.drop 6≠[] := by
      intro hnil
      have hzero := congrArg List.length hnil
      rw [List.length_drop,List.length_nil] at hzero
      omega
    have hwhole : Whole (text.drop 6) := h.suffix (List.drop_suffix 6 text)
    obtain ⟨hblank,hstop⟩ :=
      hwhole.dropWhile_append hleft (p := inline space) (by simp [inline,newline]) rest
    have hstart : "export".toList.isPrefixOf (text++rest)="export".toList.isPrefixOf text := by
      have hiff : "export".toList<+:text++rest ↔ "export".toList<+:text := by
        constructor
        · intro hp
          exact List.prefix_of_prefix_length_le hp (List.prefix_append text rest)
            (Nat.le_of_lt hlong)
        · exact fun hp => hp.trans (List.prefix_append text rest)
      rw [Bool.eq_iff_iff,List.isPrefixOf_iff_prefix,List.isPrefixOf_iff_prefix,hiff]
    unfold dropExport
    rw [hstart,hdrop,head?_append_of_ne hleft,hblank]
    split
    · exact ⟨rfl,hstop⟩
    · exact ⟨rfl,hne⟩
  · have hnot : ∀ more,"export".toList.isPrefixOf (text++more)=false := by
      intro more
      rw [Bool.eq_false_iff]
      exact fun hp => hlong (export_length h hne (List.isPrefixOf_iff_prefix.mp hp))
    have hself := hnot []
    rw [List.append_nil] at hself
    unfold dropExport
    rw [hnot,hself]
    exact ⟨rfl,hne⟩

/-- What follows, with more behind it. -/
def extended {α : Type} (rest : List Char) (found : α×List Char) : α×List Char :=
  (found.1,found.2++rest)

/-- A key is read without regard to later lines that quote nothing. -/
theorem readKey_append (hspace : space '\n'=true) (h : Whole text) (hne : text≠[])
    (hquote : '\''∉rest) :
    readKey space (text++rest)=(readKey space text).map (extended rest) := by
  obtain ⟨hkey,_⟩ := h.dropWhile_append hne (p := ofKey space) (by simp [ofKey,hspace]) rest
  have htake := h.takeWhile_append hne (p := ofKey space) (by simp [ofKey,hspace]) rest
  unfold readKey
  rw [head?_append_of_ne hne,hkey,htake,drop_append_of_ne hne]
  by_cases hhash : text.head?=some '#'
  · rw [if_pos hhash,if_pos hhash]
    rfl
  · rw [if_neg hhash,if_neg hhash]
    by_cases hsingle : text.head?=some '\''
    · rw [if_pos hsingle,if_pos hsingle]
      obtain ⟨tail,rfl⟩ : ∃ tail,text= '\''::tail := by
        cases text with
        | nil => cases hsingle
        | cons c tail => exact ⟨tail,by rw [Option.some.inj hsingle]⟩
      have htail : tail≠[] := h.ne_nil [] (by decide) (List.suffix_refl _)
      have hnone : rest.dropWhile (· ≠ '\'')=[] := by
        refine List.dropWhile_eq_nil_iff.mpr fun c hc => ?_
        have hne : c≠ '\'' := fun heq => hquote (heq ▸ hc)
        simpa using hne
      rw [List.drop_one,List.tail_cons,head?_append_of_ne htail]
      cases hclose : tail.dropWhile (· ≠ '\'') with
      | nil =>
        have hall : (tail++rest).dropWhile (· ≠ '\'')=[] := by
          rw [List.dropWhile_append,hclose]
          exact hnone
        rw [hall]
        rfl
      | cons c after =>
        have hsame : (tail++rest).takeWhile (· ≠ '\'')=tail.takeWhile (· ≠ '\'') := by
          have hwhole := List.takeWhile_append_dropWhile (p := (· ≠ '\'')) (l := tail++rest)
          have hpart := List.takeWhile_append_dropWhile (p := (· ≠ '\'')) (l := tail)
          rw [List.dropWhile_append,hclose,if_neg (by simp),←List.append_assoc] at hwhole
          rw [hclose] at hpart
          exact List.append_cancel_right ((List.append_cancel_right hwhole).trans hpart.symm)
        rw [List.dropWhile_append,hclose,if_neg (by simp),hsame]
        simp only [List.cons_append]
        split
        · rfl
        · rfl
    · rw [if_neg hsingle,if_neg hsingle]
      split
      · rfl
      · rfl

/-- A value is read without regard to later lines that quote nothing. -/
theorem readBindingValue_append (h : Whole text) (hne : text≠[]) (hdouble : '"'∉rest)
    (hsingle : '\''∉rest) :
    readBindingValue space (text++rest)=(readBindingValue space text).map (extended rest) := by
  obtain ⟨hline,_⟩ := h.dropWhile_append hne (p := (!newline ·)) (by decide) rest
  have htake := h.takeWhile_append hne (p := (!newline ·)) (by decide) rest
  cases text with
  | nil => exact absurd rfl hne
  | cons q body =>
    unfold readBindingValue
    rw [hline,htake]
    simp only [List.cons_append,List.head?_cons,List.headD_cons,List.drop_one,List.tail_cons]
    split
    · rename_i hquote
      have hq : q∉rest := by
        rcases hquote with hquote|hquote
        · rwa [Option.some.inj hquote]
        · rwa [Option.some.inj hquote]
      rw [quotedBody_append_of_notMem body hq]
      cases quotedBody q body with
      | none => rfl
      | some found => rfl
    · rfl

/-- A key in a text that ends with a line is followed by something. -/
theorem readKey_ne_nil (hspace : space '\n'=true) (h : Whole text)
    {key : Option (List Char)} {after : List Char} (hkey : readKey space text=some (key,after)) :
    after≠[] := by
  have hne : text≠[] := by
    rintro rfl
    simp [readKey] at hkey
  unfold readKey at hkey
  split at hkey
  · cases hkey
    exact hne
  · split at hkey
    · split at hkey
      · cases hkey
      · rename_i c tail htail
        split at hkey
        · cases hkey
        · cases hkey
          have hsuffix : (text.drop 1).dropWhile (· ≠ '\'')<:+text :=
            (List.dropWhile_suffix _).trans (List.drop_suffix 1 text)
          have hc : c = '\'' := by
            have hhead := List.head?_dropWhile_not (· ≠ '\'') (text.drop 1)
            rw [htail] at hhead
            simpa using hhead
          rw [htail] at hsuffix
          have hcne : c≠ '\n' := by
            rw [hc]
            decide
          exact h.ne_nil [] hcne hsuffix
    · split at hkey
      · cases hkey
      · cases hkey
        exact (h.dropWhile_append hne (p := ofKey space) (by simp [ofKey,hspace]) []).2

/-- A value leaves its line end to be read. -/
theorem readBindingValue_ne_nil (h : Whole text) (hne : text≠[]) {found : List Char×List Char}
    (hread : readBindingValue space text=some found) : found.2≠[] := by
  unfold readBindingValue at hread
  split at hread
  · rename_i hquote
    obtain ⟨body,hbody,rfl⟩ := Option.map_eq_some_iff.mp hread
    have hsplit : text.drop 1=body.1++text.headD ' '::body.2 := quotedBody_split hbody
    have hq : text.headD ' '≠ '\n' := by
      rcases hquote with hquote|hquote
      · rw [List.headD_eq_head?_getD,hquote]
        decide
      · rw [List.headD_eq_head?_getD,hquote]
        decide
    refine h.ne_nil body.1 hq ?_
    rw [←hsplit]
    exact List.drop_suffix 1 text
  · cases hread
    exact (h.dropWhile_append hne (p := (!newline ·)) (by decide) []).2

/-- What follows a binding is a tail of the text. -/
theorem readBinding_suffix (text : List Char) : (readBinding space text).2<:+text := by
  unfold readBinding
  split
  · exact (dropLine_suffix _).trans (dropExport_suffix text)
  · rename_i key after hkey
    have hafter : after<:+text := by
      have hexport : dropExport space text<:+text := dropExport_suffix text
      refine List.IsSuffix.trans ?_ hexport
      rcases readKey_suffix hkey with ⟨_,_,rfl⟩|⟨hsuffix,_⟩
      · exact List.suffix_refl _
      · exact hsuffix
    have hblank : after.dropWhile (inline space)<:+text := (List.dropWhile_suffix _).trans hafter
    split
    · have hvalue : ((after.dropWhile (inline space)).drop 1).dropWhile (inline space)<:+text :=
        (List.dropWhile_suffix _).trans ((List.drop_suffix 1 _).trans hblank)
      dsimp only
      split
      · rename_i value rest hread
        exact (closeBinding_suffix key (some value) rest).trans
          ((readBindingValue_suffix hread).trans hvalue)
      · exact (dropLine_suffix _).trans hvalue
    · exact (closeBinding_suffix key none _).trans hblank

/-- A text that ends with a line is read alike before a text without quotes. -/
theorem readBinding_append (hspace : space '\n'=true) (h : Whole text) (hne : text≠[])
    (hdouble : '"'∉rest) (hsingle : '\''∉rest) :
    readBinding space (text++rest)=extended rest (readBinding space text) := by
  obtain ⟨hexport,hstart⟩ : dropExport space (text++rest)=dropExport space text++rest ∧
      dropExport space text≠[] := dropExport_append h hne rest
  have hwhole : Whole (dropExport space text) := h.suffix (dropExport_suffix text)
  unfold readBinding
  rw [hexport,readKey_append hspace hwhole hstart hsingle]
  cases hkey : readKey space (dropExport space text) with
  | none => simp only [Option.map_none,dropLine_append hwhole hstart,extended]
  | some found =>
    obtain ⟨key,after⟩ := found
    have hafter : after≠[] ∧ Whole after := by
      rcases readKey_suffix hkey with ⟨_,_,rfl⟩|⟨hsuffix,_⟩
      · exact ⟨hstart,hwhole⟩
      · exact ⟨readKey_ne_nil hspace hwhole hkey,hwhole.suffix hsuffix⟩
    obtain ⟨hblank,hfirst⟩ :=
      hafter.2.dropWhile_append hafter.1 (p := inline space) (by simp [inline,newline]) rest
    have hrest : Whole (after.dropWhile (inline space)) := hafter.2.suffix (List.dropWhile_suffix _)
    simp only [Option.map_some,extended,hblank,head?_append_of_ne hfirst]
    split
    · rename_i hequals
      have hvalue : (after.dropWhile (inline space)).drop 1≠[] := by
        obtain ⟨tail,htail⟩ : ∃ tail,after.dropWhile (inline space)= '='::tail := by
          cases hcons : after.dropWhile (inline space) with
          | nil => exact absurd hcons hfirst
          | cons c tail =>
            rw [hcons] at hequals
            exact ⟨tail,by rw [Option.some.inj hequals]⟩
        rw [htail] at hrest ⊢
        exact hrest.ne_nil [] (by decide) (List.suffix_refl _)
      have hwholeValue : Whole ((after.dropWhile (inline space)).drop 1) :=
        hrest.suffix (List.drop_suffix 1 _)
      obtain ⟨htext,htextNe⟩ :=
        hwholeValue.dropWhile_append hvalue (p := inline space) (by simp [inline,newline]) rest
      have hwholeText := hwholeValue.suffix
        (List.dropWhile_suffix (p := inline space) (l := (after.dropWhile (inline space)).drop 1))
      rw [drop_append_of_ne hfirst,htext,readBindingValue_append hwholeText htextNe hdouble hsingle]
      cases hread : readBindingValue space
          (((after.dropWhile (inline space)).drop 1).dropWhile (inline space)) with
      | none => simp only [Option.map_none,dropLine_append hwholeText htextNe]
      | some found =>
        have hends : found.2≠[] ∧ Whole found.2 :=
          ⟨readBindingValue_ne_nil hwholeText htextNe hread,
            hwholeText.suffix (readBindingValue_suffix hread)⟩
        simp only [Option.map_some,extended,closeBinding_append hends.2 hends.1]
    · exact closeBinding_append hrest hfirst key none rest

/-- The bindings of a text that ends with a line come first. -/
theorem bindings_append (hhash : space '#'=false) (hspace : space '\n'=true) (h : Whole text)
    (hdouble : '"'∉rest) (hsingle : '\''∉rest) :
    bindings space (text++rest)=bindings space text++bindings space rest := by
  induction hn : text.length using Nat.strong_induction_on generalizing text with
  | _ n ih =>
    by_cases hblank : text.dropWhile space=[]
    · have hall := List.dropWhile_eq_nil_iff.mp hblank
      rw [bindings_blank hhash hall,bindings_eq hhash text,if_pos hblank]
      rfl
    · have hne : text.dropWhile space++rest≠[] := List.append_ne_nil_of_left_ne_nil hblank rest
      have hdrop : (text++rest).dropWhile space=text.dropWhile space++rest := by
        rw [List.dropWhile_append,if_neg (by simpa using hblank)]
      have hwhole : Whole (text.dropWhile space) := h.suffix (List.dropWhile_suffix _)
      have hread := readBinding_append hspace hwhole hblank hdouble hsingle
      have hshort : (readBinding space (text.dropWhile space)).2.length<n := by
        have hlength := readBinding_length hhash hblank
        have hle := (List.dropWhile_suffix (p := space) (l := text)).length_le
        omega
      have hsuffix : Whole (readBinding space (text.dropWhile space)).2 :=
        hwhole.suffix (readBinding_suffix (text.dropWhile space))
      have hrest := ih _ hshort hsuffix rfl
      rw [bindings_eq hhash,hdrop,if_neg hne,hread,bindings_eq hhash text,if_neg hblank,
        List.append_assoc,←hrest]
      rfl

/-- A line comes before what follows it. -/
theorem bindings_line (hhash : space '#'=false) (hspace : space '='=false) {key value : List Char}
    (hkey : PlainKey space key) (hvalue : Inside value) (hcontained : Contained space value rest) :
    bindings space (key++ '='::(value++ '\n'::rest))=
      (lineBinding space key value).toList++bindings space rest := by
  have hstart : (key++ '='::(value++ '\n'::rest)).dropWhile space=
      key++ '='::(value++ '\n'::rest) := by
    cases hcons : key with
    | nil => exact absurd hcons hkey.nonempty
    | cons c tail =>
      have hc : ofKey space c=true := hkey.chars c (hcons ▸ List.mem_cons_self)
      refine List.dropWhile_cons_of_neg fun hblank => ?_
      simp [ofKey,hblank] at hc
  have hne : key++ '='::(value++ '\n'::rest)≠[] := by simp
  rw [bindings_eq hhash,hstart,if_neg hne,readBinding_line hspace hkey hvalue hcontained]

end Appending

section References

variable {env : String → Option String}

/-- Bindings are resolved in order, the later ones over the earlier. -/
theorem resolveOnto_append (above front back : List Binding) :
    resolveOnto env above (front++back)=resolveOnto env (resolveOnto env above front) back :=
  List.foldl_append

/-- Each value is interpolated over the bindings before it. -/
theorem resolveOnto_cons (above entries : List Binding) (b : Binding) :
    resolveOnto env above (b::entries)=
      resolveOnto env ((b.1,b.2.map (interpolate (scope env above)))::above) entries := rfl

/-- Bindings of other keys do not change what a key has. -/
theorem find_resolveOnto {above entries : List Binding} {key : List Char}
    (h : ∀ b∈entries,b.1≠key) :
    (resolveOnto env above entries).find? (fun b => b.1=key)=above.find? fun b => b.1=key := by
  induction entries generalizing above with
  | nil => rfl
  | cons b entries ih =>
    have hb : b.1≠key := h b List.mem_cons_self
    rw [resolveOnto_cons,ih fun other hother => h other (List.mem_cons_of_mem b hother)]
    exact List.find?_cons_of_neg (by simpa using hb)

/-- A binding hides the ones of its name above it. -/
theorem scope_cons (above : List Binding) (k name : String) (value : Option (List Char)) :
    scope env ((k.toList,value)::above) name=
      if name=k then some (String.ofList (value.getD [])) else scope env above name := by
  unfold scope
  by_cases hname : name=k
  · subst hname
    rw [List.find?_cons_of_pos (by simp),if_pos rfl]
  · have hne : ¬(decide (k.toList=name.toList))=true := by
      rw [decide_eq_true_eq]
      exact fun heq => hname (String.toList_injective heq).symm
    have hhead : ((k.toList,value)::above).find? (fun b : Binding => b.1=name.toList)=
        above.find? fun b => b.1=name.toList := List.find?_cons_of_neg hne
    rw [hhead,if_neg hname]

end References


end BackendPlatform.DotenvFiles
