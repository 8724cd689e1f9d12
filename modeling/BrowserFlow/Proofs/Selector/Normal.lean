import BrowserFlow.Proofs.Selector.Settled

/-!
# Normalising

A normalised selector differs from the selector in quotes, backslashes and the blanks at the ends
alone (`bare_normalize`), and the three ways to write the value of its first attribute selector
come to the same (`normalize_spelling`). Normalising once more changes nothing, provided that no
escaped attribute selector has come to light: this is what `normalize_eq_self_iff` says of a text
which the second pass has left, and `not_escaped_of_normalize` says that it takes a value which ends
with an equals sign and a backslash.
-/

namespace BrowserFlow.Selector

open Text (Rewrites)

/-! ## The two passes -/

theorem exists_passes (s : String) :
    ∃ between, Rewrites escapedAttribute? (Text.trim s).toList between ∧
      Rewrites plainAttribute? between (normalize s).toList := by
  refine ⟨_, Text.rewrites_replaceFrom consumes_escaped _, ?_⟩
  unfold normalize Text.replaceAll
  rw [String.toList_ofList, String.toList_ofList]
  exact Text.rewrites_replaceFrom consumes_plain _

theorem bare_normalize (s : String) : bare (normalize s).toList = bare (Text.trim s).toList := by
  obtain ⟨between, hescaped, hplain⟩ := exists_passes s
  have hfirst : bare between = bare (Text.trim s).toList := by
    refine hescaped.filter_eq fun front cs replacement found => ?_
    obtain ⟨a, rfl, rfl⟩ := escaped_of_found found
    exact a.bare_text.symm
  have hsecond : bare (normalize s).toList = bare between := by
    refine hplain.filter_eq fun front cs replacement found => ?_
    obtain ⟨a, rfl, rfl⟩ := attribute_of_found found
    exact a.bare_text.symm
  rw [hsecond, hfirst]

theorem trim_normalize (s : String) : Text.trim (normalize s) = normalize s := by
  obtain ⟨between, hescaped, hplain⟩ := exists_passes s
  have htrim : Text.Edged (Text.trim s).toList := by
    rw [Text.toList_trim]
    exact Text.edged_trimChars _
  have hfirst : Text.Edged between := by
    refine hescaped.edged (fun front cs replacement found => ?_) htrim
    obtain ⟨a, rfl, rfl⟩ := escaped_of_found found
    rw [a.text_ends.1, a.text_ends.2]
    exact attributeText_ends _ _
  have hsecond : Text.Edged (normalize s).toList := by
    refine hplain.edged (fun front cs replacement found => ?_) hfirst
    obtain ⟨a, rfl, rfl⟩ := attribute_of_found found
    rw [a.text_ends.1, a.text_ends.2]
    exact a.written_ends
  rw [← String.toList_inj, Text.toList_trim, Text.trimChars_of_edged hsecond]

/-! ## Normalising once more -/

/-- The second pass takes no backslash away. -/
theorem count_of_plain {cs ds : List Char} (h : Rewrites plainAttribute? cs ds) :
    ds.count '\\' = cs.count '\\' := by
  have hfilter : ds.filter (· == '\\') = cs.filter (· == '\\') := by
    refine h.filter_eq fun front cs replacement found => ?_
    obtain ⟨a, rfl, rfl⟩ := attribute_of_found found
    rw [List.filter_beq, List.filter_beq, a.count_written]
  rw [List.count_eq_length_filter, List.count_eq_length_filter, hfilter]

theorem normalize_eq_self_iff {s : String} (htrim : Text.trim s = s)
    (hself : Rewrites plainAttribute? s.toList s.toList) :
    normalize s = s ↔ ∀ a : Escaped, ¬ a.text <:+: s.toList := by
  obtain ⟨between, hescaped, hplain⟩ := exists_passes s
  rw [htrim] at hescaped
  constructor
  · intro heq a
    rintro ⟨before, behind, hsplit⟩
    have hfewer := hescaped.count_cases (c := '\\') fun front cs replacement found => by
      obtain ⟨a, rfl, rfl⟩ := escaped_of_found found
      exact a.count_plain_lt
    rw [← count_of_plain hplain, heq] at hfewer
    obtain hless | ⟨-, hnone⟩ := hfewer
    · exact absurd hless (Nat.lt_irrefl _)
    · have hsuffix : a.text ++ behind <:+ s.toList := ⟨before, by rw [← hsplit, List.append_assoc]⟩
      have hfront := hnone _ hsuffix (List.cons_ne_nil _ _)
      exact escapedAttribute?_eq_none_iff.1 hfront a (List.prefix_append _ _)
  · intro hnever
    have hsame : between = s.toList := by
      rw [← hescaped.eq]
      refine Text.replaceFrom_eq_self fun rest hrest _ => ?_
      exact escapedAttribute?_eq_none_iff.2 fun a ha => hnever a (ha.isInfix.trans hrest.isInfix)
    rw [hsame] at hplain
    exact String.toList_inj.1 (hplain.eq.symm.trans hself.eq)

theorem normalize_normalize_iff (s : String) :
    normalize (normalize s) = normalize s ↔ ∀ a : Escaped, ¬ a.text <:+: (normalize s).toList := by
  obtain ⟨between, -, hplain⟩ := exists_passes s
  exact normalize_eq_self_iff (trim_normalize s) (rewrites_plain_self hplain)

theorem not_escaped_of_normalize {s : String} (h : ¬ EndsInEscape s.toList) (a : Escaped) :
    ¬ a.text <:+: (normalize s).toList := by
  obtain ⟨between, hescaped, hplain⟩ := exists_passes s
  have htrim : (Text.trim s).toList <:+: s.toList := by
    rw [Text.toList_trim]
    exact Text.trimChars_isInfix _
  have hends : ¬ EndsInEscape (Text.trim s).toList := fun ⟨quote, hquote, hin⟩ =>
    h ⟨quote, hquote, hin.trans htrim⟩
  intro ha
  rcases escaped_of_plain hplain a ha with ha | ⟨quote, hquote, hin⟩
  · exact hends (endsInEscape_of_escaped hescaped a ha)
  · exact hends (endsInEscape_of_dangling hescaped hquote hin)

/-! ## Three spellings -/

/-- The two passes, one after the other. -/
def passes (cs : List Char) : List Char :=
  Text.replaceFrom plainAttribute? 0 (Text.replaceFrom escapedAttribute? 0 cs)

theorem toList_normalize (s : String) :
    (normalize s).toList = passes (Text.trimChars s.toList) := by
  unfold normalize Text.replaceAll passes
  simp only [String.toList_ofList, Text.toList_trim]

/-- The first attribute selector of a text, between the same quotes at both ends of its value. -/
structure Attribute.First (path : List Char) (a : Attribute) : Prop where
  path_plain : '[' ∉ path
  name_plain : '[' ∉ a.name
  value_plain : '\\' ∉ a.value
  same : a.opening = a.closing

variable {path rest within : List Char} {a : Attribute}

/-- The first pass finds nothing up to the end of such an attribute selector: no backslash stands
behind its equals sign. -/
theorem Attribute.First.escaped_none (h : a.First path) (hwithin : within <:+ path ++ a.text)
    (hne : within ≠ []) : escapedAttribute? (within ++ rest) = none := by
  have hclosed : path ++ a.text =
      path ++ '[' :: (a.name ++ '=' :: (a.opening ++ (a.value ++ a.closing))) ++ [']'] := by
    simp [Attribute.text]
  have hescape : '\\' ∉ a.opening ++ (a.value ++ a.closing) := by
    simp [h.value_plain, a.isOpening.notMem (c := '\\') (by decide),
      a.isClosing.notMem (c := '\\') (by decide)]
  rw [hclosed] at hwithin
  obtain hempty | ⟨start, rfl, hstart⟩ := List.suffix_concat_iff.1 hwithin
  · exact absurd hempty hne
  refine escapedAttribute?_eq_none_iff.2 fun b hfront => ?_
  let word := '[' :: (b.name ++ ['=', '\\'])
  have hbegins : word <+: b.text :=
    ⟨b.opening :: (b.value ++ ['\\', b.closing, ']']), by simp [word, Escaped.text]⟩
  have hword : word <+: start ++ ']' :: rest := by
    simpa using hbegins.trans hfront
  have hopen : ']' ∉ word := by simpa [word] using b.isName.notMem.2
  rcases Text.isPrefix_append_cons hword with hin | ⟨more, -, hover⟩
  · have hwhole := Text.isInfix_of_head_not_mem h.path_plain (hin.isInfix.trans hstart.isInfix)
    rcases List.infix_cons_iff.1 hwhole with hfirst | hlater
    · obtain ⟨-, hbehind⟩ := Text.isPrefix_cons_inj b.isName.notMem.1 a.isName.notMem.1
        (List.cons_prefix_cons.1 hfirst).2
      exact hescape (hbehind.subset List.mem_cons_self)
    · have hname : '[' ∉ a.name ++ ['='] := by simpa using h.name_plain
      have hbehind : word <:+: (a.name ++ ['=']) ++ (a.opening ++ (a.value ++ a.closing)) := by
        rwa [List.append_assoc, List.singleton_append]
      have hvalue := Text.isInfix_of_head_not_mem hname hbehind
      exact hescape (hvalue.subset (by simp))
  · exact absurd (hover ▸ List.mem_append_right start List.mem_cons_self) hopen

/-- The passes keep what is in front of the first attribute selector and bring its value into double
quotes. -/
theorem Attribute.First.passes_eq (h : a.First path) (rest : List Char) :
    passes (path ++ a.text ++ rest) = path ++ (attributeText a.name a.value ++ passes rest) := by
  have hpath : ∀ within, within <:+ path → within ≠ [] → ∀ rest,
      plainAttribute? (within ++ rest) = none := by
    intro within hwithin hne rest
    cases within with
    | nil => exact absurd rfl hne
    | cons c within =>
      refine plainAttribute?_eq_none_iff.2 fun b hfront => h.path_plain (hwithin.subset ?_)
      exact (List.cons_prefix_cons.1 hfront).1 ▸ List.mem_cons_self
  have hne : a.text ≠ [] := List.cons_ne_nil _ _
  have hwritten : attributeText a.name a.value = a.written := (if_pos h.same).symm
  unfold passes
  rw [Text.replaceFrom_append fun within hwithin hne => h.escaped_none hwithin hne,
    List.append_assoc,
    Text.replaceFrom_append fun within hwithin hne => hpath within hwithin hne _,
    Text.replaceFrom_front hne
      (plainAttribute?_eq_some_iff.2 ⟨a, _, rfl, hwritten, rfl⟩)]

/-- A selector with an attribute selector whose value stands between these quotes. -/
def spelling (path name value rest quote : String) : String :=
  path ++ "[" ++ name ++ "=" ++ quote ++ value ++ quote ++ "]" ++ rest

/-- However the value of the first attribute selector is quoted, the result is the same: what is in
front of it without the blanks at the beginning, the value in double quotes, and something that the
quotes have no part in. -/
theorem normalize_spelling {path name value rest : String} (hpath : '[' ∉ path.toList)
    (hname : IsName name.toList) (hplain : '[' ∉ name.toList) (hvalue : value ≠ "")
    (hchars : ∀ c ∈ value.toList, isQuote c = false ∧ c ≠ '\\' ∧ c ≠ ']') :
    ∃ behind, ∀ quote ∈ ["", "'", "\""], normalize (spelling path name value rest quote) =
      spelling (String.ofList (path.toList.dropWhile Text.isBlank)) name value behind "\"" := by
  let after := Text.dropEndWhile Text.isBlank rest.toList
  refine ⟨String.ofList (passes after), fun quote hquote => ?_⟩
  have hoptional : IsOptionalQuote quote.toList := by
    simp only [List.mem_cons, List.not_mem_nil, or_false] at hquote
    obtain rfl | rfl | rfl := hquote
    · exact Or.inl rfl
    · exact Or.inr ⟨'\'', rfl, rfl⟩
    · exact Or.inr ⟨'"', rfl, rfl⟩
  have hne : value.toList ≠ [] := by simpa using hvalue
  let a : Attribute := ⟨name.toList, quote.toList, value.toList, quote.toList, hname, hoptional,
    hne, fun c hc => ⟨(hchars c hc).1, (hchars c hc).2.2⟩, hoptional⟩
  have hfront : '[' ∉ path.toList.dropWhile Text.isBlank := fun hin =>
    hpath ((List.dropWhile_sublist _).subset hin)
  have hfirst : a.First (path.toList.dropWhile Text.isBlank) :=
    ⟨hfront, hplain, fun hin => (hchars _ hin).2.1 rfl, rfl⟩
  have htrim : Text.trimChars (spelling path name value rest quote).toList =
      path.toList.dropWhile Text.isBlank ++ a.text ++ after := by
    have hedged : Text.Edged a.text := by
      refine ⟨fun c hc => ?_, fun c hc => ?_⟩
      · cases hc
        decide
      · rw [a.text_ends.2] at hc
        cases hc
        decide
    rw [← Text.trimChars_around hedged (List.cons_ne_nil _ _)]
    simp [spelling, Attribute.text, a]
  rw [← String.toList_inj, toList_normalize, htrim, hfirst.passes_eq]
  simp [spelling, attributeText, a]

/-- What normalising does to a selector: once more it changes nothing if and only if no escaped
attribute selector is left, as it never is unless a value ends with an equals sign and a backslash;
apart from quotes and backslashes all of the trimmed selector is kept; and the quotes around the
value of the first attribute selector make no difference. -/
theorem normalize_laws :
    (∀ s, normalize (normalize s) = normalize s ↔
      ∀ a : Escaped, ¬ a.text <:+: (normalize s).toList) ∧
    (∀ s, ¬ EndsInEscape s.toList → normalize (normalize s) = normalize s) ∧
    (∀ s, bare (normalize s).toList = bare (Text.trim s).toList) ∧
    ∀ path name value rest : String, '[' ∉ path.toList → IsName name.toList → '[' ∉ name.toList →
      value ≠ "" → (∀ c ∈ value.toList, isQuote c = false ∧ c ≠ '\\' ∧ c ≠ ']') →
      ∃ behind, ∀ quote ∈ ["", "'", "\""], normalize (spelling path name value rest quote) =
        spelling (String.ofList (path.toList.dropWhile Text.isBlank)) name value behind "\"" :=
  ⟨normalize_normalize_iff,
    fun s h => (normalize_normalize_iff s).2 (not_escaped_of_normalize h),
    bare_normalize,
    fun _ _ _ _ hpath hname hplain hvalue hchars =>
      normalize_spelling hpath hname hplain hvalue hchars⟩

/-- The selector of a search box, in three spellings. -/
theorem normalize_laws_search :
    normalize (normalize "input[type='search']") = normalize "input[type='search']" ∧
    normalize (spelling " input" "type" "search" " > a" "") =
      normalize (spelling " input" "type" "search" " > a" "'") ∧
    normalize (spelling " input" "type" "search" " > a" "\"") =
      normalize (spelling " input" "type" "search" " > a" "'") := by
  obtain ⟨-, hsettled, -, hspelling⟩ := normalize_laws
  have hbackslash : '\\' ∉ "input[type='search']".toList := by decide
  have hname : IsName "type".toList := ⟨by decide, by simp⟩
  have hvalue : ∀ c ∈ "search".toList, isQuote c = false ∧ c ≠ '\\' ∧ c ≠ ']' := by simp [isQuote]
  obtain ⟨behind, hsame⟩ := hspelling " input" "type" "search" " > a" (by decide) hname (by decide)
    (by decide) hvalue
  have hsingle := hsame "'" (by simp)
  refine ⟨hsettled _ ?_, (hsame "" (by simp)).trans hsingle.symm,
    (hsame "\"" (by simp)).trans hsingle.symm⟩
  rintro ⟨quote, -, hin⟩
  exact hbackslash (hin.subset (by simp))

/-- Normalising is not idempotent: where a value ends with an equals sign and a backslash, its
closing quote is taken for the opening quote of an escaped value. -/
theorem not_normalize_normalize :
    ¬ ∀ s, normalize (normalize s) = normalize s := by
  intro h
  have hsecond : normalize (normalize "[a=b[c=\\]zz\\\"]") ≠ normalize "[a=b[c=\\]zz\\\"]" := by
    decide +kernel
  exact hsecond (h _)

end BrowserFlow.Selector
