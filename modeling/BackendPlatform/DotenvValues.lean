import Mathlib.Data.List.Basic
import Mathlib.Data.List.DropRight
import Mathlib.Data.List.TakeWhile

/-!
# Reading a line of a `.env`

A value is quoted or not. In double quotes a backslash escapes; a value
without quotes ends at a `#` after white space. Afterwards the references of
the form `${NAME}` or `${NAME:-default}` are replaced by what the environment
has for them.
-/

set_option autoImplicit false

namespace BackendPlatform.DotenvValues

section Reader

/-- The text in quotes and what follows them. An escaped quote closes the text
only when nothing else does. -/
def quotedBody (q : Char) : List Char → Option (List Char×List Char)
  | [] => none
  | [c] => if c=q then some ([],[]) else none
  | c::d::rest =>
    if c=q then some ([],d::rest)
    else if c = '\\' ∧ d=q then
      match quotedBody q rest with
      | some (body,after) => some (c::d::body,after)
      | none => some ([c],rest)
    else (quotedBody q (d::rest)).map fun found => (c::found.1,found.2)

/-- The character an escape stands for. -/
def escaped (c : Char) : Char :=
  if c = 'a' then Char.ofNat 7 else if c = 'b' then Char.ofNat 8
  else if c = 'f' then Char.ofNat 12 else if c = 'n' then Char.ofNat 10
  else if c = 'r' then Char.ofNat 13 else if c = 't' then Char.ofNat 9
  else if c = 'v' then Char.ofNat 11 else c

/-- The escapes of a class are replaced from the left. -/
def decodeEscapes (escapes : List Char) : List Char → List Char
  | [] => []
  | [c] => [c]
  | c::d::rest =>
    if c = '\\' ∧ d∈escapes then escaped d::decodeEscapes escapes rest
    else c::decodeEscapes escapes (d::rest)

/-- The escapes in quotes. -/
def escapesOf (q : Char) : List Char :=
  if q = '"' then [ '\\', '\'', '"', 'a', 'b', 'f', 'n', 'r', 't', 'v'] else [ '\\', '\'']

/-- A reference at the start: its name, its default and what follows it. -/
def reference : List Char → Option (List Char×Option (List Char)×List Char)
  | c::d::rest =>
    if c = '$' ∧ d = '{' then
      let name := rest.takeWhile fun c => c≠ '}' && c≠ ':'
      match rest.dropWhile fun c => c≠ '}' && c≠ ':' with
      | [] => none
      | e::tail =>
        if e = '}' then some (name,none,tail)
        else if tail.head?=some '-' then
          match (tail.drop 1).dropWhile (·≠ '}') with
          | [] => none
          | _::after => some (name,some ((tail.drop 1).takeWhile (·≠ '}')),after)
        else none
    else none
  | _ => none

/-- What the environment has for a reference. -/
def resolve (env : String → Option String) (name : List Char) (fallback : Option (List Char)) :
    List Char :=
  match env (String.ofList name) with
  | some value => value.toList
  | none => fallback.getD []

/-- Replaces the references from the left, with fuel for the characters. -/
def replaceReferences (env : String → Option String) : ℕ → List Char → List Char
  | 0,text => text
  | _+1,[] => []
  | n+1,c::rest =>
    match reference (c::rest) with
    | some (name,fallback,after) => resolve env name fallback++replaceReferences env n after
    | none => c::replaceReferences env n rest

/-- The value of a text with references. -/
def interpolate (env : String → Option String) (text : List Char) : List Char :=
  replaceReferences env text.length text

variable (space : Char → Bool)

/-- A value without quotes, up to its comment. -/
def cutComment : List Char → List Char
  | [] => []
  | c::rest =>
    if space c=true ∧ ((c::rest).dropWhile space).head?=some '#' then []
    else c::cutComment rest

/-- What may follow quotes: white space and a comment. -/
def onlyComment (text : List Char) : Bool :=
  (text.dropWhile space).head?.all (· = '#')

/-- A value before its references are replaced. -/
def readValue : List Char → Option (List Char)
  | [] => some []
  | c::rest =>
    if c = '"' ∨ c = '\'' then
      match quotedBody c rest with
      | some (body,after) =>
        if onlyComment space after=true then some (decodeEscapes (escapesOf c) body) else none
      | none => none
    else some ((cutComment space (c::rest)).rdropWhile space)

/-- A character of a key. -/
def ofKey (c : Char) : Bool := c≠ '=' && c≠ '#' && !space c

/-- One line: the key and its value. -/
def readLine (env : String → Option String) (line : String) : Option (String×String) :=
  match (line.toList.dropWhile (ofKey space)).dropWhile space with
  | [] => none
  | c::rest =>
    if c = '=' then
      (readValue space (rest.dropWhile space)).map fun value =>
        (String.ofList (line.toList.takeWhile (ofKey space)),String.ofList (interpolate env value))
    else none

end Reader

section References

/-- No reference starts in the text. -/
def Literal (text : List Char) : Prop := ∀ tail,tail<:+text → reference tail=none

/-- A reference takes at least three characters more than its default. -/
theorem reference_length {text name after : List Char} {fallback : Option (List Char)}
    (h : reference text=some (name,fallback,after)) :
    (fallback.getD []).length+after.length<text.length := by
  match text with
  | [] => cases h
  | [_] => cases h
  | c::d::rest =>
    simp only [reference] at h
    split at h
    · split at h
      · cases h
      · rename_i e tail hdrop
        have hsuffix : (e::tail).length≤rest.length := by
          rw [←hdrop]
          exact (List.dropWhile_suffix _).length_le
        simp only [List.length_cons] at hsuffix ⊢
        split at h
        · cases h
          simp only [Option.getD_none,List.length_nil]
          omega
        · split at h
          · split at h
            · cases h
            · rename_i f _ hfound
              cases h
              have hsplit : ((tail.drop 1).takeWhile (·≠ '}')).length+(f::after).length=
                  (tail.drop 1).length := by
                rw [←hfound,←List.length_append,List.takeWhile_append_dropWhile]
              simp only [Option.getD_some,List.length_cons,List.length_drop] at hsplit ⊢
              omega
          · cases h
    · cases h

/-- A text without references is kept. -/
theorem replaceReferences_literal (env : String → Option String) (n : ℕ) {text : List Char}
    (h : Literal text) : replaceReferences env n text=text := by
  induction n generalizing text with
  | zero => rfl
  | succ n ih =>
    match text with
    | [] => rfl
    | c::rest =>
      have hnone := h _ (List.suffix_refl _)
      have hrest : Literal rest := fun tail htail => h tail (htail.trans (List.suffix_cons c rest))
      simp only [replaceReferences,hnone,ih hrest]

theorem interpolate_literal (env : String → Option String) {text : List Char}
    (h : Literal text) : interpolate env text=text :=
  replaceReferences_literal env _ h

/-- Nothing is set. -/
def unset : String → Option String := fun _ => none

/-- In an empty environment no text gets longer. -/
theorem replaceReferences_length_le (n : ℕ) (text : List Char) :
    (replaceReferences unset n text).length≤text.length := by
  induction n generalizing text with
  | zero => exact le_rfl
  | succ n ih =>
    match text with
    | [] => exact le_rfl
    | c::rest =>
      unfold replaceReferences
      split
      · rename_i name fallback after hfound
        have hlength := reference_length hfound
        have hafter := ih after
        simp only [resolve,unset,List.length_append] at hafter ⊢
        omega
      · have hrest := ih rest
        simp only [List.length_cons]
        omega

/-- In an empty environment a reference makes the text shorter. -/
theorem replaceReferences_length_lt {n : ℕ} {text tail : List Char} (hn : text.length≤n)
    (htail : tail<:+text) (hfound : reference tail≠none) :
    (replaceReferences unset n text).length<text.length := by
  induction n generalizing text with
  | zero =>
    have hnil : text=[] := List.length_eq_zero_iff.mp (by omega)
    subst hnil
    have htailNil := List.suffix_nil.mp htail
    subst htailNil
    exact absurd rfl hfound
  | succ n ih =>
    match text with
    | [] =>
      have htailNil := List.suffix_nil.mp htail
      subst htailNil
      exact absurd rfl hfound
    | c::rest =>
      unfold replaceReferences
      split
      · rename_i name fallback after hhead
        have hlength := reference_length hhead
        have hafter := replaceReferences_length_le n after
        simp only [resolve,unset,List.length_append] at hafter ⊢
        omega
      · rename_i hnone
        have hrest : tail<:+rest := by
          rcases List.suffix_cons_iff.mp htail with rfl | hrest
          · exact absurd hnone hfound
          · exact hrest
        have hshorter := ih (by simpa using hn) hrest
        simp only [List.length_cons]
        omega

theorem interpolate_unset_length_le (text : List Char) :
    (interpolate unset text).length≤text.length :=
  replaceReferences_length_le _ text

/-- Every environment keeps a text exactly when it has no reference. -/
theorem interpolate_eq_iff (text : List Char) :
    (∀ env,interpolate env text=text) ↔ Literal text := by
  constructor
  · intro hkept tail htail
    by_contra hfound
    have hshorter := replaceReferences_length_lt le_rfl htail hfound
    have hunset : replaceReferences unset text.length text=text := hkept unset
    rw [hunset] at hshorter
    omega
  · intro hliteral env
    exact interpolate_literal env hliteral

end References

section Quotes

/-- A character in double quotes. -/
def escapeChar (c : Char) : List Char :=
  if c = '\\' then [ '\\', '\\'] else if c = '"' then [ '\\', '"'] else [c]

/-- What starts an escaped text is never a bare quote. -/
theorem escape_ne_quote (c : Char) (rest : List Char) :
    ∃ d tail,escapeChar c++rest=d::tail ∧ d≠ '"' := by
  unfold escapeChar
  split
  · exact ⟨_,_,rfl,by decide⟩
  · split
    · exact ⟨_,_,rfl,by decide⟩
    · rename_i hquote
      exact ⟨_,_,rfl,hquote⟩

/-- A character that is neither the quote nor a backslash is passed over. -/
theorem quotedBody_plain {q c : Char} {rest body after : List Char} (hq : c≠q) (hslash : c≠ '\\')
    (hrest : quotedBody q rest=some (body,after)) :
    quotedBody q (c::rest)=some (c::body,after) := by
  match rest with
  | [] => cases hrest
  | d::tail => simp [quotedBody,hq,hslash,hrest]

/-- The closing quote is the one that was added. -/
theorem quotedBody_escape (text : List Char) :
    quotedBody '"' (text.flatMap escapeChar++[ '"'])=some (text.flatMap escapeChar,[]) := by
  induction text with
  | nil => rfl
  | cons c rest ih =>
    by_cases hslash : c = '\\'
    · subst hslash
      match rest with
      | [] => decide
      | d::rest =>
        obtain ⟨e,tail,htail,hne⟩ := escape_ne_quote d (rest.flatMap escapeChar++[ '"'])
        have hnext : (d::rest).flatMap escapeChar++[ '"']=e::tail := by
          rw [List.flatMap_cons,List.append_assoc,htail]
        have htext : ('\\'::d::rest).flatMap escapeChar= '\\':: '\\'::(d::rest).flatMap escapeChar :=
          rfl
        rw [hnext] at ih
        rw [htext,List.cons_append,List.cons_append,hnext]
        simp [quotedBody,hne,ih]
    · by_cases hquote : c = '"'
      · subst hquote
        have htext : ('"'::rest).flatMap escapeChar= '\\':: '"'::rest.flatMap escapeChar := rfl
        rw [htext,List.cons_append,List.cons_append]
        simp [quotedBody,ih]
      · have htext : (c::rest).flatMap escapeChar=c::rest.flatMap escapeChar := by
          simp [escapeChar,hslash,hquote]
        rw [htext,List.cons_append]
        exact quotedBody_plain hquote hslash ih

/-- A character that starts no escape is kept. -/
theorem decodeEscapes_plain {escapes rest : List Char} {c : Char} (hslash : c≠ '\\') :
    decodeEscapes escapes (c::rest)=c::decodeEscapes escapes rest := by
  match rest with
  | [] => rfl
  | d::tail => simp [decodeEscapes,hslash]

/-- Decoding undoes the escapes. -/
theorem decodeEscapes_escape (text : List Char) :
    decodeEscapes (escapesOf '"') (text.flatMap escapeChar)=text := by
  induction text with
  | nil => rfl
  | cons c rest ih =>
    by_cases hslash : c = '\\'
    · subst hslash
      have htext : ('\\'::rest).flatMap escapeChar= '\\':: '\\'::rest.flatMap escapeChar := rfl
      have hmem : '\\'∈escapesOf '"' := by decide
      have hself : escaped '\\'= '\\' := by decide
      rw [htext,decodeEscapes,if_pos ⟨rfl,hmem⟩,ih,hself]
    · by_cases hquote : c = '"'
      · subst hquote
        have htext : ('"'::rest).flatMap escapeChar= '\\':: '"'::rest.flatMap escapeChar := rfl
        have hmem : '"'∈escapesOf '"' := by decide
        have hself : escaped '"'= '"' := by decide
        rw [htext,decodeEscapes,if_pos ⟨rfl,hmem⟩,ih,hself]
      · have htext : (c::rest).flatMap escapeChar=c::rest.flatMap escapeChar := by
          simp [escapeChar,hslash,hquote]
        rw [htext,decodeEscapes_plain hslash,ih]

/-- Decoding never makes a text longer. -/
theorem decodeEscapes_length_le (escapes text : List Char) :
    (decodeEscapes escapes text).length≤text.length := by
  fun_induction decodeEscapes escapes text with
  | case1 => exact le_rfl
  | case2 => exact le_rfl
  | case3 _ _ _ _ ih =>
    simp only [List.length_cons]
    omega
  | case4 _ _ _ _ ih =>
    simp only [List.length_cons] at ih ⊢
    omega

/-- A text in quotes is shorter than what it is read from. -/
theorem quotedBody_length {q : Char} {text body after : List Char}
    (h : quotedBody q text=some (body,after)) : body.length<text.length := by
  fun_induction quotedBody q text generalizing body after with
  | case1 => cases h
  | case2 =>
    cases h
    simp
  | case3 => cases h
  | case4 =>
    cases h
    simp
  | case5 _ _ _ _ _ _ _ hrest ih =>
    cases h
    have hlength := ih hrest
    simp only [List.length_cons]
    omega
  | case6 =>
    cases h
    simp
  | case7 c d rest _ _ ih =>
    obtain ⟨found,hfound,heq⟩ := Option.map_eq_some_iff.mp h
    cases heq
    have hlength := ih hfound
    simp only [List.length_cons] at hlength ⊢
    omega

end Quotes

section Lines

variable {space : Char → Bool}

/-- Without a `#` there is no comment. -/
theorem cutComment_plain {text : List Char} (h : '#'∉text) : cutComment space text=text := by
  induction text with
  | nil => rfl
  | cons c rest ih =>
    have hnone : ((c::rest).dropWhile space).head?≠some '#' := by
      intro hhead
      exact h ((List.dropWhile_suffix space).subset (List.mem_of_mem_head? hhead))
    rw [cutComment,if_neg fun hboth => hnone hboth.2,
      ih fun hmem => h (List.mem_cons_of_mem c hmem)]

/-- A line with a plain key and a value without space around. -/
theorem readLine_eq {env : String → Option String} {key : String} {value : List Char}
    (hkey : ∀ c∈key.toList,ofKey space c=true) (heq : space '='=false)
    (hvalue : value.dropWhile space=value) :
    readLine space env (key++"="++String.ofList value)=
      (readValue space value).map fun read => (key,String.ofList (interpolate env read)) := by
  have hstop : ofKey space '='=false := by simp [ofKey]
  have hline : (key++"="++String.ofList value).toList=key.toList++ '='::value := by simp
  have hdrop : (key.toList++ '='::value).dropWhile (ofKey space)= '='::value := by
    rw [List.dropWhile_append_of_pos hkey,List.dropWhile_cons_of_neg (by simp [hstop])]
  have htake : (key.toList++ '='::value).takeWhile (ofKey space)=key.toList := by
    rw [List.takeWhile_append_of_pos hkey,List.takeWhile_cons_of_neg (by simp [hstop]),
      List.append_nil]
  have hblank : ('='::value).dropWhile space= '='::value :=
    List.dropWhile_cons_of_neg (by simp [heq])
  simp only [readLine,hline,hdrop,htake,hblank,hvalue,if_true,String.ofList_toList]

end Lines

end BackendPlatform.DotenvValues
