import BrowserFlow.Proofs.Text.Rewriting
import BrowserFlow.Selector.Basic

/-!
# Attribute selectors

The two forms that normalising looks for, each with what makes it one: `Escaped`, with its value
between quotes behind backslashes, and `Attribute`, with a quote or none at each end of its value.
What the steps find at the front of a text is exactly one of these (`escapedAttribute?_eq_some_iff`,
`plainAttribute?_eq_some_iff`).

The first pass replaces the escaped ones, the second one the others. Whatever a pass finds it
replaces by `attributeText` or leaves alone. So what it writes differs only in quotes and
backslashes (`Escaped.bare_text`, `Attribute.bare_text`), with the same characters at the ends; the
first pass takes backslashes away, and the second one takes none.
-/

namespace BrowserFlow

/-- Where the elements of a kind end. -/
theorem Text.takeWhile_span {α : Type} {p : α → Bool} {xs ys : List α} (hxs : ∀ x ∈ xs, p x = true)
    (hys : ∀ y, ys.head? = some y → p y = false) :
    (xs ++ ys).takeWhile p = xs ∧ (xs ++ ys).dropWhile p = ys := by
  rw [List.takeWhile_append_of_pos hxs, List.dropWhile_append_of_pos hxs]
  cases ys with
  | nil => simp
  | cons y ys => simp [hys y rfl]

/-- Texts that agree do so up to the first of a character and behind it. -/
theorem Text.isPrefix_cons_inj {c : Char} {u v x y : List Char} (hu : c ∉ u) (hv : c ∉ v)
    (h : u ++ c :: x <+: v ++ c :: y) : u = v ∧ x <+: y := by
  induction u generalizing v with
  | nil =>
    cases v with
    | nil => exact ⟨rfl, (List.cons_prefix_cons.1 h).2⟩
    | cons e v => exact absurd ((List.cons_prefix_cons.1 h).1 ▸ List.mem_cons_self) hv
  | cons d u ih =>
    cases v with
    | nil => exact absurd ((List.cons_prefix_cons.1 h).1 ▸ List.mem_cons_self) hu
    | cons e v =>
      obtain ⟨rfl, hbehind⟩ := List.cons_prefix_cons.1 h
      obtain ⟨rfl, hrest⟩ := ih (List.not_mem_of_not_mem_cons hu) (List.not_mem_of_not_mem_cons hv)
        hbehind
      exact ⟨rfl, hrest⟩

namespace Selector

/-! ## Names -/

/-- The characters of the name of an attribute. -/
structure IsName (name : List Char) : Prop where
  ne_nil : name ≠ []
  plain : ∀ c ∈ name, c ≠ '=' ∧ c ≠ ']'

variable {cs rest name value replacement : List Char} {n : Nat}

theorem attributeName?_eq_some_iff :
    attributeName? cs = some (name, rest) ↔ cs = name ++ '=' :: rest ∧ IsName name := by
  unfold attributeName?
  constructor
  · intro h
    dsimp only at h
    split at h
    · rename_i hne hequals
      cases h
      have hsplit := List.takeWhile_append_dropWhile
        (p := fun c => !(decide (c = '=') || decide (c = ']'))) (l := cs)
      rw [hequals] at hsplit
      refine ⟨hsplit.symm, by simpa using hne, fun c hc => ?_⟩
      simpa using List.mem_takeWhile_imp hc
    · cases h
  · rintro ⟨rfl, hname⟩
    have hin : ∀ c ∈ name, (!(decide (c = '=') || decide (c = ']'))) = true := fun c hc => by
      simpa using hname.plain c hc
    have hends : ∀ c, ('=' :: rest).head? = some c →
        (!(decide (c = '=') || decide (c = ']'))) = false := by simp
    obtain ⟨htake, hdrop⟩ := Text.takeWhile_span hin hends
    have hne : name.isEmpty = false := by simpa using hname.ne_nil
    dsimp only
    rw [htake, hdrop, hne]
    rfl

/-! ## Values behind backslashes -/

/-- An attribute selector whose value stands between quotes behind backslashes. -/
structure Escaped where
  name : List Char
  opening : Char
  value : List Char
  closing : Char
  isName : IsName name
  isOpening : isQuote opening = true
  value_ne : value ≠ []
  value_plain : ∀ c ∈ value, isQuote c = false
  isClosing : isQuote closing = true

namespace Escaped

def text (a : Escaped) : List Char :=
  '[' :: (a.name ++ '=' :: '\\' :: a.opening :: (a.value ++ ['\\', a.closing, ']']))

/-- What replaces it. -/
def plain (a : Escaped) : List Char :=
  attributeText a.name a.value

end Escaped

theorem escapedAttribute?_eq_some_iff :
    escapedAttribute? cs = some (replacement, n) ↔
      ∃ (a : Escaped) (rest : List Char), cs = a.text ++ rest ∧ replacement = a.plain ∧
        n = a.text.length := by
  constructor
  · intro h
    unfold escapedAttribute? at h
    split at h
    · rename_i cs
      obtain ⟨⟨name, rest⟩, hread, hvalue⟩ := Option.bind_eq_some_iff.1 h
      obtain ⟨rfl, hname⟩ := attributeName?_eq_some_iff.1 hread
      dsimp only at hvalue
      split at hvalue
      · rename_i opening behind
        split at hvalue
        · cases hvalue
        rename_i hopening
        split at hvalue
        · rename_i closing rest hlast hclosing
          split at hvalue
          · cases hvalue
          rename_i hlength
          cases hvalue
          have hsplit := List.takeWhile_append_dropWhile (p := (!isQuote ·)) (l := behind)
          have hrun : ∀ c ∈ behind.takeWhile (!isQuote ·), isQuote c = false := fun c hc => by
            simpa using List.mem_takeWhile_imp hc
          have hquote := List.head?_dropWhile_not (!isQuote ·) behind
          obtain ⟨value, hvalue⟩ := List.getLast?_eq_some_iff.1 hlast
          rw [hclosing] at hsplit hquote
          rw [hvalue] at hsplit hrun hlength
          rw [hvalue]
          refine ⟨⟨name, opening, value, closing, hname, by simpa using hopening, ?_,
            fun c hc => hrun c (List.mem_append_left _ hc), by simpa using hquote⟩, rest, ?_, ?_,
            ?_⟩
          · rintro rfl
            exact absurd hlength (by simp)
          · simp [Escaped.text, ← hsplit]
          · rw [List.dropLast_concat]
            rfl
          · simp [Escaped.text]
            omega
        · cases hvalue
      · cases hvalue
    · cases h
  · rintro ⟨a, rest, rfl, rfl, rfl⟩
    have hname : attributeName? (a.name ++ '=' :: '\\' :: a.opening ::
        (a.value ++ ['\\', a.closing, ']']) ++ rest) = some (a.name, '\\' :: a.opening ::
        (a.value ++ ['\\'] ++ a.closing :: ']' :: rest)) :=
      attributeName?_eq_some_iff.2 ⟨by simp, a.isName⟩
    have hrun : ∀ c ∈ a.value ++ ['\\'], (!isQuote c) = true := by
      refine List.forall_mem_append.2 ⟨fun c hc => ?_, List.forall_mem_singleton.2 rfl⟩
      rw [a.value_plain c hc]
      rfl
    have hends : ∀ c, (a.closing :: ']' :: rest).head? = some c → (!isQuote c) = false := by
      rintro c ⟨⟩
      rw [a.isClosing]
      rfl
    obtain ⟨htake, hdrop⟩ := Text.takeWhile_span hrun hends
    have hlength : ¬ (a.value ++ ['\\']).length < 2 := by
      have hpos := List.length_pos_iff.2 a.value_ne
      rw [List.length_append, List.length_singleton]
      omega
    have hcs : a.text ++ rest = '[' :: (a.name ++ '=' :: '\\' :: a.opening ::
        (a.value ++ ['\\', a.closing, ']']) ++ rest) := rfl
    simp only [hcs, escapedAttribute?, hname, Option.bind_eq_bind, Option.bind_some, a.isOpening,
      htake, hdrop, List.getLast?_concat, List.dropLast_concat, if_neg hlength]
    simp [Escaped.plain, Escaped.text]
    omega

theorem escapedAttribute?_eq_none_iff :
    escapedAttribute? cs = none ↔ ∀ a : Escaped, ¬ a.text <+: cs := by
  rw [Option.eq_none_iff_forall_ne_some]
  constructor
  · rintro h a ⟨rest, rfl⟩
    exact h _ (escapedAttribute?_eq_some_iff.2 ⟨a, rest, rfl, rfl, rfl⟩)
  · rintro h ⟨replacement, n⟩ hsome
    obtain ⟨a, rest, rfl, -, -⟩ := escapedAttribute?_eq_some_iff.1 hsome
    exact h a (List.prefix_append _ _)

/-! ## Other values -/

/-- A quote or nothing. -/
def IsOptionalQuote (cs : List Char) : Prop :=
  cs = [] ∨ ∃ q, isQuote q = true ∧ cs = [q]

theorem IsOptionalQuote.notMem {c : Char} (h : IsOptionalQuote cs) (hc : isQuote c = false) :
    c ∉ cs := by
  obtain rfl | ⟨q, hq, rfl⟩ := h
  · exact List.not_mem_nil
  · rw [List.mem_singleton]
    rintro rfl
    rw [hc] at hq
    cases hq

/-- An attribute selector with a quote or none at each end of its value. -/
structure Attribute where
  name : List Char
  opening : List Char
  value : List Char
  closing : List Char
  isName : IsName name
  isOpening : IsOptionalQuote opening
  value_ne : value ≠ []
  value_plain : ∀ c ∈ value, isQuote c = false ∧ c ≠ ']'
  isClosing : IsOptionalQuote closing

namespace Attribute

def text (a : Attribute) : List Char :=
  '[' :: (a.name ++ '=' :: (a.opening ++ (a.value ++ (a.closing ++ [']']))))

/-- What replaces it: quotes that differ are left alone. -/
def written (a : Attribute) : List Char :=
  if a.opening = a.closing then attributeText a.name a.value else a.text

end Attribute

theorem optionalQuote_split (cs : List Char) :
    cs = (optionalQuote cs).1 ++ (optionalQuote cs).2 ∧ IsOptionalQuote (optionalQuote cs).1 := by
  unfold optionalQuote
  split
  · exact ⟨rfl, Or.inl rfl⟩
  · rename_i c cs
    split
    · rename_i hquote
      exact ⟨rfl, Or.inr ⟨c, hquote, rfl⟩⟩
    · exact ⟨rfl, Or.inl rfl⟩

/-- A quote is taken if there is one. -/
theorem optionalQuote_append {q : List Char} (hq : IsOptionalQuote q)
    (hrest : ∀ c, rest.head? = some c → isQuote c = false) :
    optionalQuote (q ++ rest) = (q, rest) := by
  obtain rfl | ⟨c, hc, rfl⟩ := hq
  · cases rest with
    | nil => rfl
    | cons c rest =>
      unfold optionalQuote
      rw [List.nil_append]
      dsimp only
      rw [hrest c rfl]
      rfl
  · unfold optionalQuote
    dsimp only [List.cons_append]
    rw [hc]
    rfl

theorem plainAttribute?_eq_some_iff :
    plainAttribute? cs = some (replacement, n) ↔
      ∃ (a : Attribute) (rest : List Char), cs = a.text ++ rest ∧ replacement = a.written ∧
        n = a.text.length := by
  constructor
  · intro h
    unfold plainAttribute? at h
    split at h
    · rename_i cs
      obtain ⟨⟨name, behind⟩, hread, hfound⟩ := Option.bind_eq_some_iff.1 h
      obtain ⟨rfl, hname⟩ := attributeName?_eq_some_iff.1 hread
      obtain ⟨hopen, hopening⟩ := optionalQuote_split behind
      dsimp only at hfound
      generalize (optionalQuote behind).1 = opening at hfound hopen hopening
      generalize (optionalQuote behind).2 = within at hfound hopen
      subst hopen
      have hsplit : within.takeWhile (fun c => !(isQuote c || decide (c = ']'))) ++
          within.dropWhile (fun c => !(isQuote c || decide (c = ']'))) = within :=
        List.takeWhile_append_dropWhile
      have hplain : ∀ c ∈ within.takeWhile (fun c => !(isQuote c || decide (c = ']'))),
          isQuote c = false ∧ c ≠ ']' := fun c hc => by
        simpa using List.mem_takeWhile_imp hc
      generalize within.takeWhile (fun c => !(isQuote c || decide (c = ']'))) = value
        at hfound hsplit hplain
      generalize within.dropWhile (fun c => !(isQuote c || decide (c = ']'))) = after
        at hfound hsplit
      subst hsplit
      obtain ⟨hclose, hclosing⟩ := optionalQuote_split after
      generalize (optionalQuote after).1 = closing at hfound hclose hclosing
      generalize (optionalQuote after).2 = rest at hfound hclose
      subst hclose
      split at hfound
      · rename_i rest hvalue
        cases hfound
        have hne : value ≠ [] := by simpa using hvalue
        refine ⟨⟨name, opening, value, closing, hname, hopening, hne, hplain, hclosing⟩, rest,
          by simp [Attribute.text], by simp [Attribute.written, Attribute.text], ?_⟩
        simp [Attribute.text]
      · cases hfound
    · cases h
  · rintro ⟨a, rest, rfl, rfl, rfl⟩
    have hname : attributeName?
        (a.name ++ '=' :: (a.opening ++ (a.value ++ (a.closing ++ [']']))) ++ rest) =
          some (a.name, a.opening ++ (a.value ++ (a.closing ++ ']' :: rest))) :=
      attributeName?_eq_some_iff.2 ⟨by simp, a.isName⟩
    have hopening : optionalQuote (a.opening ++ (a.value ++ (a.closing ++ ']' :: rest))) =
        (a.opening, a.value ++ (a.closing ++ ']' :: rest)) := by
      refine optionalQuote_append a.isOpening fun c hc => ?_
      rw [List.head?_append_of_ne_nil _ a.value_ne] at hc
      exact (a.value_plain c (List.mem_of_mem_head? hc)).1
    have hin : ∀ c ∈ a.value, (!(isQuote c || decide (c = ']'))) = true := fun c hc => by
      simpa using a.value_plain c hc
    have hends : ∀ c, (a.closing ++ ']' :: rest).head? = some c →
        (!(isQuote c || decide (c = ']'))) = false := by
      intro c hc
      obtain hnone | ⟨q, hq, hone⟩ := a.isClosing
      · rw [hnone] at hc
        cases hc
        decide
      · rw [hone] at hc
        cases hc
        simp [hq]
    obtain ⟨htake, hdrop⟩ := Text.takeWhile_span hin hends
    have hclosing : optionalQuote (a.closing ++ ']' :: rest) = (a.closing, ']' :: rest) :=
      optionalQuote_append a.isClosing (by rintro c ⟨⟩; decide)
    have hcs : a.text ++ rest = '[' :: (a.name ++ '=' :: (a.opening ++ (a.value ++
        (a.closing ++ [']']))) ++ rest) := rfl
    have hvalue : a.value.isEmpty = false := by simpa using a.value_ne
    simp only [hcs, plainAttribute?, hname, Option.bind_eq_bind, Option.bind_some, hopening, htake,
      hdrop, hclosing, hvalue]
    simp [Attribute.written, Attribute.text]

theorem plainAttribute?_eq_none_iff :
    plainAttribute? cs = none ↔ ∀ a : Attribute, ¬ a.text <+: cs := by
  rw [Option.eq_none_iff_forall_ne_some]
  constructor
  · rintro h a ⟨rest, rfl⟩
    exact h _ (plainAttribute?_eq_some_iff.2 ⟨a, rest, rfl, rfl, rfl⟩)
  · rintro h ⟨replacement, n⟩ hsome
    obtain ⟨a, rest, rfl, -, -⟩ := plainAttribute?_eq_some_iff.1 hsome
    exact h a (List.prefix_append _ _)

end Selector

end BrowserFlow

namespace BrowserFlow.Selector

variable {cs front replacement : List Char}

/-! ## Finds -/

theorem consumes_escaped : Text.Consumes escapedAttribute? := by
  intro cs replacement n h
  obtain ⟨a, rest, rfl, -, rfl⟩ := escapedAttribute?_eq_some_iff.1 h
  rw [List.length_append]
  exact ⟨Nat.succ_pos _, Nat.le_add_right _ _⟩

theorem consumes_plain : Text.Consumes plainAttribute? := by
  intro cs replacement n h
  obtain ⟨a, rest, rfl, -, rfl⟩ := plainAttribute?_eq_some_iff.1 h
  rw [List.length_append]
  exact ⟨Nat.succ_pos _, Nat.le_add_right _ _⟩

theorem escaped_of_found
    (h : escapedAttribute? (front ++ cs) = some (replacement, front.length)) :
    ∃ a : Escaped, front = a.text ∧ replacement = a.plain := by
  obtain ⟨a, rest, hsplit, hplain, hlength⟩ := escapedAttribute?_eq_some_iff.1 h
  exact ⟨a, (List.append_inj hsplit hlength).1, hplain⟩

theorem attribute_of_found
    (h : plainAttribute? (front ++ cs) = some (replacement, front.length)) :
    ∃ a : Attribute, front = a.text ∧ replacement = a.written := by
  obtain ⟨a, rest, hsplit, hwritten, hlength⟩ := plainAttribute?_eq_some_iff.1 h
  exact ⟨a, (List.append_inj hsplit hlength).1, hwritten⟩

/-! ## Quotes and backslashes -/

/-- The characters without quotes and backslashes. -/
def bare (cs : List Char) : List Char :=
  cs.filter fun c => !(isQuote c || c = '\\')

theorem isQuote_bracket : isQuote '[' = false ∧ isQuote ']' = false ∧ isQuote '=' = false := by
  decide

theorem bare_optionalQuote {quote : List Char} (h : IsOptionalQuote quote) : bare quote = [] := by
  obtain rfl | ⟨q, hq, rfl⟩ := h
  · rfl
  · simp [bare, hq]

theorem bare_attributeText (name value : List Char) :
    bare (attributeText name value) = '[' :: (bare name ++ '=' :: (bare value ++ [']'])) := by
  simp [bare, attributeText, isQuote]

theorem Escaped.bare_text (a : Escaped) : bare a.text = bare a.plain := by
  rw [Escaped.plain, bare_attributeText]
  simp [bare, Escaped.text, isQuote_bracket, a.isOpening, a.isClosing]

theorem Attribute.bare_text (a : Attribute) : bare a.text = bare a.written := by
  unfold Attribute.written
  split
  · rw [bare_attributeText]
    have hopening := bare_optionalQuote a.isOpening
    have hclosing := bare_optionalQuote a.isClosing
    simp only [bare, Bool.not_or] at hopening hclosing ⊢
    simp [Attribute.text, isQuote_bracket, hopening, hclosing]
  · rfl

/-- Both backslashes go. -/
theorem Escaped.count_plain_lt (a : Escaped) : a.plain.count '\\' < a.text.count '\\' := by
  simp [Escaped.plain, attributeText, Escaped.text, List.count_cons]
  omega

theorem count_optionalQuote {quote : List Char} (h : IsOptionalQuote quote) :
    quote.count '\\' = 0 :=
  List.count_eq_zero.2 (h.notMem (by decide))

theorem Attribute.count_written (a : Attribute) : a.written.count '\\' = a.text.count '\\' := by
  unfold Attribute.written
  split
  · simp [attributeText, Attribute.text, count_optionalQuote a.isOpening,
      count_optionalQuote a.isClosing]
  · rfl

/-! ## The ends -/

theorem attributeText_ends (name value : List Char) :
    (attributeText name value).head? = some '[' ∧
      (attributeText name value).getLast? = some ']' :=
  ⟨rfl, List.getLast?_eq_some_iff.2 ⟨'[' :: (name ++ '=' :: '"' :: (value ++ ['"'])), by
    simp [attributeText]⟩⟩

theorem Escaped.text_ends (a : Escaped) :
    a.text.head? = some '[' ∧ a.text.getLast? = some ']' :=
  ⟨rfl, List.getLast?_eq_some_iff.2 ⟨'[' :: (a.name ++ '=' :: '\\' :: a.opening ::
    (a.value ++ ['\\', a.closing])), by simp [Escaped.text]⟩⟩

theorem Attribute.text_ends (a : Attribute) :
    a.text.head? = some '[' ∧ a.text.getLast? = some ']' :=
  ⟨rfl, List.getLast?_eq_some_iff.2
    ⟨'[' :: (a.name ++ '=' :: (a.opening ++ (a.value ++ a.closing))), by simp [Attribute.text]⟩⟩

theorem Attribute.written_ends (a : Attribute) :
    a.written.head? = some '[' ∧ a.written.getLast? = some ']' := by
  unfold Attribute.written
  split
  · exact attributeText_ends _ _
  · exact a.text_ends

end BrowserFlow.Selector
