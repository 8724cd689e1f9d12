import BrowserFlow.Proofs.Selector.Attribute

/-!
# What a pass leaves

The second pass finds nothing to do in what it has written (`rewrites_plain_self`): what it finds
there it would leave as it is. And where can an escaped attribute selector come from? A closed word,
one that is ended by a bracket and does not hold the beginning of a value in quotes, does not reach
into what has been written from the left (`Closed.not_isPrefix`), so it was there before
(`isPrefix_of_escaped`, `isPrefix_of_plain`). An escaped attribute selector that begins inside of a
written value takes the end of this value for its opening quote (`eq_of_isPrefix_value`). So before
the pass the value had an equals sign and a backslash at its end (`EndsInEscape`).
-/

namespace BrowserFlow.Selector

open Text (Rewrites)

variable {cs ds front rest after name value word : List Char} {bad : List Char → Prop}

/-! ## Closed words -/

/-- A word that is ended by a bracket, if it is not empty, and holds none of some words. -/
structure Closed (bad : List Char → Prop) (word : List Char) : Prop where
  last : ∀ c, word.getLast? = some c → c = ']'
  free : ∀ w, bad w → ¬ w <:+: word

theorem Closed.tail {c : Char} (h : Closed bad (c :: word)) : Closed bad word := by
  refine ⟨fun d hd => h.last d ?_, fun w hw hin => h.free w hw (hin.trans ?_)⟩
  · rw [List.getLast?_cons, hd]
    rfl
  · exact (List.suffix_cons c word).isInfix

theorem closed_of_getLast? (hlast : word.getLast? = some ']')
    (hfree : ∀ w, bad w → ¬ w <:+: word) : Closed bad word := by
  refine ⟨fun c hc => ?_, hfree⟩
  rw [hlast] at hc
  exact (Option.some.inj hc).symm

/-- A text that holds such a word before its first bracket neither begins with a closed word nor
stands at the beginning of one. -/
theorem Closed.not_isPrefix {before behind w : List Char} (h : Closed bad word) (hne : word ≠ [])
    (hopen : ']' ∉ before) (hw : bad w) (hin : w <:+: before) :
    ¬ word <+: before ++ behind ∧ ¬ before ++ behind <+: word := by
  have hnot : ¬ before <+: word := fun hfront => h.free w hw (hin.trans hfront.isInfix)
  refine ⟨fun hword => ?_, fun hword => hnot ((List.prefix_append before behind).trans hword)⟩
  rcases List.prefix_or_prefix_of_prefix hword (List.prefix_append before behind) with hin | hfront
  · -- it would end before the bracket
    have hlast := h.last _ (List.getLast?_eq_some_getLast hne)
    exact hopen (hlast ▸ hin.subset (List.getLast_mem hne))
  · exact hnot hfront

/-- The beginning of a value in quotes. -/
def Opened (w : List Char) : Prop :=
  w = ['=', '"']

/-- The beginning of a value in quotes that is not empty. -/
def Begun (w : List Char) : Prop :=
  ∃ c, c ≠ ']' ∧ w = ['=', '"', c]

theorem Closed.begun (h : Closed Opened word) : Closed Begun word := by
  refine ⟨h.last, ?_⟩
  rintro w ⟨c, -, rfl⟩ hin
  exact h.free _ rfl (List.IsInfix.trans ⟨[], [c], rfl⟩ hin)

theorem IsName.notMem (h : IsName name) : '=' ∉ name ∧ ']' ∉ name :=
  ⟨fun hin => (h.plain _ hin).1 rfl, fun hin => (h.plain _ hin).2 rfl⟩

theorem isPrefix_of_escaped (h : Rewrites escapedAttribute? cs ds) (hclosed : Closed Opened word)
    (hword : word <+: ds) : word <+: cs := by
  refine h.isPrefix (fun _ _ => Closed.tail) ?_ hclosed hword
  intro front cs replacement found
  obtain ⟨a, -, rfl⟩ := escaped_of_found found
  refine Or.inr fun word hclosed hne => ?_
  have hsplit : a.plain = ('[' :: (a.name ++ ['=', '"'])) ++ (a.value ++ ['"', ']']) := by
    simp [Escaped.plain, attributeText]
  rw [hsplit]
  refine hclosed.not_isPrefix hne ?_ rfl ⟨'[' :: a.name, [], by simp⟩
  simpa using a.isName.notMem.2

theorem isPrefix_of_plain (h : Rewrites plainAttribute? cs ds) (hclosed : Closed Begun word)
    (hword : word <+: ds) : word <+: cs := by
  refine h.isPrefix (fun _ _ => Closed.tail) ?_ hclosed hword
  intro front cs replacement found
  obtain ⟨a, rfl, rfl⟩ := attribute_of_found found
  unfold Attribute.written
  split
  · refine Or.inr fun word hclosed hne => ?_
    cases hvalue : a.value with
    | nil => exact absurd hvalue a.value_ne
    | cons c value =>
      have hc := (a.value_plain c (hvalue ▸ List.mem_cons_self)).2
      have hsplit : attributeText a.name (c :: value) =
          ('[' :: (a.name ++ ['=', '"', c])) ++ (value ++ ['"', ']']) := by
        simp [attributeText]
      rw [hsplit]
      refine hclosed.not_isPrefix hne ?_ ⟨c, hc, rfl⟩ ⟨'[' :: a.name, [], by simp⟩
      simpa using ⟨a.isName.notMem.2, hc.symm⟩
  · exact Or.inl rfl

/-! ## The second pass, once more -/

namespace Attribute

/-- What follows the equals sign. -/
def body (a : Attribute) : List Char :=
  a.opening ++ (a.value ++ (a.closing ++ [']']))

theorem text_eq (a : Attribute) : a.text = '[' :: (a.name ++ '=' :: a.body) :=
  rfl

/-- What is written has the name of what was found. -/
theorem written_eq (a : Attribute) :
    ∃ b : Attribute, b.name = a.name ∧ b.text = a.written ∧ b.written = a.written := by
  unfold written
  split
  · have hquote : IsOptionalQuote ['"'] := Or.inr ⟨'"', rfl, rfl⟩
    refine ⟨⟨a.name, ['"'], a.value, ['"'], a.isName, hquote, a.value_ne, a.value_plain, hquote⟩,
      rfl, ?_, ?_⟩
    · simp [text, attributeText]
    · simp
  · rename_i hquotes
    exact ⟨a, rfl, rfl, by rw [if_neg hquotes]⟩

theorem closed_body (a : Attribute) : Closed Begun a.body := by
  have hlast : a.body.getLast? = some ']' :=
    List.getLast?_eq_some_iff.2 ⟨a.opening ++ (a.value ++ a.closing), by simp [body]⟩
  refine closed_of_getLast? hlast ?_
  rintro w ⟨c, hc, rfl⟩ hin
  have hquote : '"' ∉ a.value := fun hmem => by
    cases (a.value_plain _ hmem).1
  have hopening : '=' ∉ a.opening := a.isOpening.notMem (by decide)
  have hend : (a.closing ++ [']']).length ≤ 2 := by
    obtain hnone | ⟨q, -, hone⟩ := a.isClosing
    · simp [hnone]
    · simp [hone]
  rcases List.infix_append_iff_ne_nil.1 (Text.isInfix_of_head_not_mem hopening hin) with
    hin | hin | ⟨front, back, hfront, -, hsplit, hbefore, hbehind⟩
  · exact hquote (hin.subset (by simp))
  · have hle := hin.length_le
    simp only [List.length_cons, List.length_nil] at hle
    omega
  · -- the equals sign stands at the end of the value, so that the quote is the closing one
    cases front with
    | nil => exact hfront rfl
    | cons d front =>
      cases front with
      | cons e front =>
        have hsecond := (List.cons.inj (List.cons.inj hsplit).2).1
        exact hquote (hbefore.subset (by simp [← hsecond]))
      | nil =>
        cases hsplit
        obtain hnone | ⟨q, -, hone⟩ := a.isClosing
        · rw [hnone] at hbehind
          cases (List.cons_prefix_cons.1 hbehind).1
        · rw [hone] at hbehind
          have hrest := (List.cons_prefix_cons.1 hbehind).2
          exact hc (List.cons_prefix_cons.1 hrest).1

end Attribute

/-- What follows a name and an equals sign in the result followed it before, up to quotes. -/
theorem exists_body (h : Rewrites plainAttribute? cs ds) (hname : '=' ∉ name) (a : Attribute)
    (hbody : name ++ '=' :: a.body <+: ds) :
    ∃ b : Attribute, name ++ '=' :: b.body <+: cs := by
  induction h generalizing name with
  | nil => exact absurd (List.prefix_nil.1 hbody) (by simp)
  | @keep c cs ds missed rest ih =>
    cases name with
    | nil =>
      obtain ⟨rfl, hbehind⟩ := List.cons_prefix_cons.1 hbody
      exact ⟨a, List.cons_prefix_cons.2 ⟨rfl, isPrefix_of_plain rest a.closed_body hbehind⟩⟩
    | cons d name =>
      obtain ⟨rfl, hbehind⟩ := List.cons_prefix_cons.1 hbody
      obtain ⟨b, hb⟩ := ih (List.not_mem_of_not_mem_cons hname) hbehind
      exact ⟨b, List.cons_prefix_cons.2 ⟨rfl, hb⟩⟩
  | @find front replacement cs ds taken found rest ih =>
    obtain ⟨b, rfl, rfl⟩ := attribute_of_found found
    obtain ⟨w, hwname, hwritten, -⟩ := b.written_eq
    rw [← hwritten, w.text_eq, hwname, List.cons_append, List.append_assoc] at hbody
    cases name with
    | nil => cases (List.cons_prefix_cons.1 hbody).1
    | cons d name =>
      obtain ⟨rfl, hnames⟩ := List.cons_prefix_cons.1 hbody
      obtain ⟨rfl, -⟩ := Text.isPrefix_cons_inj (List.not_mem_of_not_mem_cons hname)
        b.isName.notMem.1 hnames
      exact ⟨b, ⟨cs, rfl⟩⟩

/-- Once more the second pass has nothing to do. -/
theorem rewrites_plain_self (h : Rewrites plainAttribute? cs ds) :
    Rewrites plainAttribute? ds ds := by
  induction h with
  | nil => exact .nil
  | @keep c cs ds missed rest ih =>
    refine .keep (plainAttribute?_eq_none_iff.2 fun a hfront => ?_) ih
    rw [a.text_eq] at hfront
    obtain ⟨rfl, hbody⟩ := List.cons_prefix_cons.1 hfront
    obtain ⟨b, hb⟩ := exists_body rest a.isName.notMem.1 a hbody
    let before : Attribute := { b with name := a.name, isName := a.isName }
    exact plainAttribute?_eq_none_iff.1 missed before (List.cons_prefix_cons.2 ⟨rfl, hb⟩)
  | @find front replacement cs ds taken found rest ih =>
    obtain ⟨a, rfl, rfl⟩ := attribute_of_found found
    obtain ⟨b, -, htext, hwritten⟩ := a.written_eq
    refine .find ?_ ?_ ih
    · rw [← htext]
      exact List.cons_ne_nil _ _
    · exact plainAttribute?_eq_some_iff.2 ⟨b, ds, by rw [htext], hwritten.symm, by rw [htext]⟩

/-! ## Where an escaped attribute selector comes from -/

/-- What closes a value: nothing, a quote, or a quote behind a backslash. -/
def IsClosing (quote : List Char) : Prop :=
  IsOptionalQuote quote ∨ ∃ q, isQuote q = true ∧ quote = ['\\', q]

/-- An equals sign and a backslash stand at the end of a value. -/
def EndsInEscape (cs : List Char) : Prop :=
  ∃ quote, IsClosing quote ∧ '=' :: '\\' :: (quote ++ [']']) <:+: cs

theorem Escaped.closed_text (a : Escaped) : Closed Opened a.text := by
  refine closed_of_getLast? a.text_ends.2 ?_
  rintro w rfl hin
  have hname : '=' ∉ '[' :: a.name := by simpa using a.isName.notMem.1
  have hopening : a.opening ≠ '=' := fun h => by cases h ▸ a.isOpening
  have hclosing : a.closing ≠ '=' := fun h => by cases h ▸ a.isClosing
  have hquote : '"' ∉ a.value := fun hmem => by cases a.value_plain _ hmem
  have hbehind : ['=', '"'] <:+: '=' :: '\\' :: a.opening :: (a.value ++ ['\\', a.closing, ']']) :=
    Text.isInfix_of_head_not_mem hname hin
  simp only [List.infix_cons_iff, List.cons_prefix_cons] at hbehind
  obtain ⟨-, h, -⟩ | ⟨h, -⟩ | ⟨h, -⟩ | hvalue := hbehind
  · cases h
  · cases h
  · exact hopening h.symm
  · rcases Text.pair_isInfix_append hvalue with hin | hin | ⟨-, hfirst⟩
    · exact hquote (hin.subset (by simp))
    · have hmem : '=' ∈ ['\\', a.closing, ']'] := hin.subset List.mem_cons_self
      simp [hclosing.symm] at hmem
    · cases hfirst

theorem closed_dangling {quote : List Char} (h : IsOptionalQuote quote) :
    Closed Opened ('=' :: '\\' :: (quote ++ [']'])) := by
  refine closed_of_getLast? (List.getLast?_eq_some_iff.2 ⟨'=' :: '\\' :: quote, rfl⟩) ?_
  rintro w rfl hin
  have hrest : '=' ∉ '\\' :: (quote ++ [']']) := by
    simpa using h.notMem (c := '=') (by decide)
  rcases List.infix_cons_iff.1 hin with hfirst | hbehind
  · cases (List.cons_prefix_cons.1 (List.cons_prefix_cons.1 hfirst).2).1
  · exact hrest (hbehind.subset List.mem_cons_self)

/-- A word with an escape behind its first equals sign that begins in a written attribute selector
begins in the value. -/
theorem exists_within_value {pre tail within : List Char} (hname : '=' ∉ name)
    (hequals : '=' ∉ pre) (hfirst : ∀ c, pre.head? = some c → c = '[')
    (hwithin : within <:+ attributeText name value) (hne : within ≠ [])
    (hword : pre ++ '=' :: '\\' :: tail <+: within ++ after) :
    ∃ rest, rest <:+ value ∧ pre ++ '=' :: '\\' :: tail <+: rest ++ '"' :: ']' :: after := by
  have hhead : ∀ c rest, pre ++ '=' :: '\\' :: tail <+: c :: rest → c = '[' ∨ c = '=' := by
    intro c rest h
    cases pre with
    | nil => exact Or.inr (List.cons_prefix_cons.1 h).1.symm
    | cons d pre => exact Or.inl ((List.cons_prefix_cons.1 h).1 ▸ hfirst d rfl)
  -- a quote stands behind the equals sign of the selector
  have hnever : ∀ front rest, '=' ∉ front →
      ¬ pre ++ '=' :: '\\' :: tail <+: front ++ '=' :: '"' :: rest := by
    intro front rest hfront h
    cases (List.cons_prefix_cons.1 (Text.isPrefix_cons_inj hequals hfront h).2).1
  obtain ⟨before, hsplit⟩ := hwithin
  have hwhole : before ++ within = ('[' :: name) ++ '=' :: '"' :: (value ++ ['"', ']']) := by
    rw [hsplit]
    simp [attributeText]
  rcases List.append_eq_append_iff.1 hwhole with ⟨front, hfront, rfl⟩ | ⟨behind, -, hbehind⟩
  · have hmem : '=' ∉ front := fun hin => by
      have hin : '=' ∈ '[' :: name := hfront ▸ List.mem_append_right before hin
      simp [hname] at hin
    rw [List.append_assoc] at hword
    exact absurd hword (hnever front _ hmem)
  · rcases List.suffix_cons_iff.1 ⟨behind, hbehind.symm⟩ with rfl | hwithin
    · exact absurd hword (hnever [] _ List.not_mem_nil)
    · rcases List.suffix_cons_iff.1 hwithin with rfl | ⟨front, hvalue⟩
      · cases hhead _ _ hword <;> contradiction
      · rcases List.append_eq_append_iff.1 hvalue with ⟨rest, hrest, rfl⟩ | ⟨front, -, hend⟩
        · exact ⟨rest, ⟨front, hrest.symm⟩, by simpa using hword⟩
        · rcases List.suffix_cons_iff.1 ⟨front, hend.symm⟩ with rfl | hwithin
          · exact ⟨[], List.nil_suffix, hword⟩
          · rcases List.suffix_cons_iff.1 hwithin with rfl | hwithin
            · cases hhead _ _ hword <;> contradiction
            · exact absurd (List.suffix_nil.1 hwithin) hne

/-- A quote that a word without brackets has behind a value without quotes is the one that closes
the value. -/
theorem eq_of_isPrefix_value {pre tail : List Char} {q : Char} (hpre : ']' ∉ pre)
    (hq : isQuote q = true) (hvalue : ∀ c ∈ value, isQuote c = false)
    (hword : pre ++ q :: tail <+: value ++ '"' :: ']' :: after) : pre = value := by
  have hmem : q ∉ value := fun hin => by
    rw [hvalue q hin] at hq
    cases hq
  rcases Text.isPrefix_append_cons hword with hin | ⟨rest, hrest, hsplit⟩
  · exact absurd (hin.subset (by simp)) hmem
  · rcases List.append_eq_append_iff.1 hsplit with ⟨more, hover, hbehind⟩ | ⟨more, rfl, hbehind⟩
    · cases more with
      | nil => simpa using hover.symm
      | cons c more =>
        obtain ⟨rfl, -⟩ := List.cons.inj hbehind
        exact absurd (hover ▸ List.mem_append_right pre List.mem_cons_self) hmem
    · cases more with
      | nil => exact List.append_nil value
      | cons c more =>
        obtain ⟨rfl, rfl⟩ := List.cons.inj hbehind
        -- behind the closing quote there is a bracket
        cases more with
        | nil =>
          obtain ⟨rfl, -⟩ := List.cons_prefix_cons.1 hrest
          cases hq
        | cons d more =>
          obtain ⟨rfl, -⟩ := List.cons_prefix_cons.1 hrest
          exact absurd (by simp) hpre

/-- An escaped attribute selector that begins in a written one begins in its value, which ends with
an equals sign and a backslash. -/
theorem Escaped.exists_value (a : Escaped) {within : List Char} (hname : IsName name)
    (hvalue : ∀ c ∈ value, isQuote c = false) (hwithin : within <:+ attributeText name value)
    (hne : within ≠ []) (hword : a.text <+: within ++ after) : ['=', '\\'] <:+ value := by
  have hequals : '=' ∉ '[' :: a.name := by simpa using a.isName.notMem.1
  obtain ⟨rest, hrest, hfront⟩ := exists_within_value hname.notMem.1 hequals
    (by rintro c ⟨⟩; rfl) hwithin hne hword
  have hsplit : '[' :: a.name ++ '=' :: '\\' :: a.opening :: (a.value ++ ['\\', a.closing, ']']) =
      ('[' :: (a.name ++ ['=', '\\'])) ++ a.opening :: (a.value ++ ['\\', a.closing, ']']) := by
    simp
  rw [hsplit] at hfront
  have hopen : ']' ∉ '[' :: (a.name ++ ['=', '\\']) := by simpa using a.isName.notMem.2
  have hplain : ∀ c ∈ rest, isQuote c = false := fun c hc => hvalue c (hrest.subset hc)
  have hends := eq_of_isPrefix_value hopen a.isOpening hplain hfront
  refine List.IsSuffix.trans ⟨'[' :: a.name, ?_⟩ hrest
  rw [← hends]
  rfl

/-- What is an escaped attribute selector after the second pass was one before, unless a value ended
with an equals sign and a backslash. -/
theorem escaped_of_plain (h : Rewrites plainAttribute? cs ds) (a : Escaped) (ha : a.text <:+: ds) :
    a.text <:+: cs ∨ ∃ quote, IsOptionalQuote quote ∧ '=' :: '\\' :: (quote ++ [']']) <:+: cs := by
  have hne : a.text ≠ [] := List.cons_ne_nil _ _
  rcases h.begins hne ha with hkept | hfound
  · obtain ⟨rest, after, hrest, -, hafter, hword⟩ := hkept
    have hbefore := isPrefix_of_plain hafter a.closed_text.begun hword
    exact Or.inl (hbefore.isInfix.trans hrest.isInfix)
  · obtain ⟨front, replacement, rest, after, within, hrest, found, hafter, hwithin, hin, hword⟩ :=
      hfound
    obtain ⟨b, rfl, rfl⟩ := attribute_of_found found
    unfold Attribute.written at hwithin
    split at hwithin
    · have hplain : ∀ c ∈ b.value, isQuote c = false := fun c hc => (b.value_plain c hc).1
      obtain ⟨start, hstart⟩ := a.exists_value b.isName hplain hwithin hin hword
      refine Or.inr ⟨b.closing, b.isClosing, List.IsInfix.trans ?_ hrest.isInfix⟩
      refine ⟨'[' :: (b.name ++ '=' :: (b.opening ++ start)), rest, ?_⟩
      simp [Attribute.text, ← hstart]
    · have hbefore : a.text <+: within ++ rest := Text.isPrefix_append (fun _ _ => Closed.tail)
        (isPrefix_of_plain hafter) a.closed_text.begun hword
      obtain ⟨start, hstart⟩ := hwithin
      have hsuffix : within ++ rest <:+ b.text ++ rest :=
        ⟨start, by rw [← List.append_assoc, hstart]⟩
      exact Or.inl (hbefore.isInfix.trans (hsuffix.trans hrest).isInfix)

theorem endsInEscape_of_value (a : Escaped) (hvalue : ['=', '\\'] <:+ a.value)
    (hin : a.text ++ rest <:+ cs) : EndsInEscape cs := by
  obtain ⟨start, hstart⟩ := hvalue
  refine ⟨['\\', a.closing], Or.inr ⟨a.closing, a.isClosing, rfl⟩, ?_⟩
  refine List.IsInfix.trans ?_ hin.isInfix
  refine ⟨'[' :: (a.name ++ '=' :: '\\' :: a.opening :: start), rest, ?_⟩
  simp [Escaped.text, ← hstart]

/-- After the first pass there is an escaped attribute selector only where the value of one had an
equals sign and a backslash at its end. -/
theorem endsInEscape_of_escaped (h : Rewrites escapedAttribute? cs ds) (a : Escaped)
    (ha : a.text <:+: ds) : EndsInEscape cs := by
  rcases h.begins (List.cons_ne_nil _ _) ha with hkept | hfound
  · obtain ⟨rest, after, -, hnone, hafter, hword⟩ := hkept
    have hbefore := isPrefix_of_escaped hafter a.closed_text hword
    exact absurd hbefore (escapedAttribute?_eq_none_iff.1 hnone a)
  · obtain ⟨front, replacement, rest, after, within, hrest, found, -, hwithin, hin, hword⟩ := hfound
    obtain ⟨b, rfl, rfl⟩ := escaped_of_found found
    have hends := a.exists_value b.isName b.value_plain hwithin hin hword
    exact endsInEscape_of_value b hends hrest

/-- The first pass makes an equals sign and a backslash stand before the bracket only where they
stood at the end of a value. -/
theorem endsInEscape_of_dangling (h : Rewrites escapedAttribute? cs ds) {quote : List Char}
    (hquote : IsOptionalQuote quote) (hin : '=' :: '\\' :: (quote ++ [']']) <:+: ds) :
    EndsInEscape cs := by
  rcases h.begins (List.cons_ne_nil _ _) hin with hkept | hfound
  · obtain ⟨rest, after, hrest, -, hafter, hword⟩ := hkept
    have hbefore := isPrefix_of_escaped hafter (closed_dangling hquote) hword
    exact ⟨quote, Or.inl hquote, hbefore.isInfix.trans hrest.isInfix⟩
  · obtain ⟨front, replacement, rest, after, within, hrest, found, -, hwithin, hne, hword⟩ := hfound
    obtain ⟨b, rfl, rfl⟩ := escaped_of_found found
    have hstarts : [] ++ '=' :: '\\' :: (quote ++ [']']) <+: within ++ after := hword
    obtain ⟨behind, hbehind, hfront⟩ := exists_within_value b.isName.notMem.1
      List.not_mem_nil (by rintro c ⟨⟩) hwithin hne hstarts
    obtain rfl | ⟨q, hq, rfl⟩ := hquote
    · rcases Text.isPrefix_append_cons hfront with hvalue | ⟨more, -, hover⟩
      · refine ⟨[], Or.inl (Or.inl rfl), ?_⟩
        have htext : b.value <:+: b.text :=
          ⟨'[' :: (b.name ++ ['=', '\\', b.opening]), ['\\', b.closing, ']'], by
            simp [Escaped.text]⟩
        have hin := hvalue.isInfix.trans (hbehind.isInfix.trans htext)
        exact (hin.trans (List.prefix_append _ _).isInfix).trans hrest.isInfix
      · have hmem : '"' ∈ behind ++ '"' :: more := List.mem_append_right behind List.mem_cons_self
        rw [← hover] at hmem
        simp at hmem
    · have hends : ['=', '\\'] = behind := eq_of_isPrefix_value (by decide) hq
        (fun c hc => b.value_plain c (hbehind.subset hc)) hfront
      subst hends
      exact endsInEscape_of_value b hbehind hrest

end BrowserFlow.Selector
