import BrowserFlow.Proofs.Text.Lines
import BrowserFlow.Proofs.Text.Scan

/-!
# Replacing from left to right

`Rewrites step cs ds` says how `ds` comes from `cs`: characters at which the step finds nothing are
kept, and what it finds is replaced. This is what `replaceFrom` computes (`rewrites_replaceFrom`,
`Rewrites.eq`), without its count of characters to be skipped, so that a fact about all of a text
follows by induction from the same fact about each find.
-/

namespace BrowserFlow.Text

/-- From some characters to others everything that a step finds has been replaced, from left to
right. -/
inductive Rewrites (step : List Char → Option (List Char × Nat)) : List Char → List Char → Prop
  | nil : Rewrites step [] []
  | keep {c : Char} {cs ds : List Char} (missed : step (c :: cs) = none)
      (rest : Rewrites step cs ds) : Rewrites step (c :: cs) (c :: ds)
  | find {front replacement cs ds : List Char} (taken : front ≠ [])
      (found : step (front ++ cs) = some (replacement, front.length))
      (rest : Rewrites step cs ds) : Rewrites step (front ++ cs) (replacement ++ ds)

/-- A step takes what it finds from the front of the text. -/
def Consumes (step : List Char → Option (List Char × Nat)) : Prop :=
  ∀ cs replacement n, step cs = some (replacement, n) → 0 < n ∧ n ≤ cs.length

variable {step : List Char → Option (List Char × Nat)} {cs ds : List Char}

theorem rewrites_replaceFrom (hstep : Consumes step) (cs : List Char) :
    Rewrites step cs (replaceFrom step 0 cs) := by
  induction hlength : cs.length using Nat.strongRecOn generalizing cs with
  | ind n ih =>
    cases cs with
    | nil => exact .nil
    | cons c cs =>
      cases hfind : step (c :: cs) with
      | none =>
        rw [replaceFrom_of_none hfind]
        exact .keep hfind (ih _ (by rw [← hlength, List.length_cons]; omega) cs rfl)
      | some found =>
        obtain ⟨replacement, taken⟩ := found
        obtain ⟨hpos, hle⟩ := hstep _ _ _ hfind
        obtain ⟨taken, rfl⟩ : ∃ m, taken = m + 1 := ⟨taken - 1, by omega⟩
        rw [List.length_cons] at hle hlength
        have hfront : (c :: cs.take taken).length = taken + 1 := by
          rw [List.length_cons, List.length_take]
          omega
        have hsplit : c :: cs = (c :: cs.take taken) ++ cs.drop taken := by
          rw [List.cons_append, List.take_append_drop]
        have hrest := ih _ (by rw [List.length_drop]; omega) (cs.drop taken) rfl
        rw [replaceFrom_of_find hfind]
        rw [← hfront, hsplit] at hfind
        rw [hsplit]
        exact .find (List.cons_ne_nil _ _) hfind hrest

/-- What is found at the front is replaced. -/
theorem replaceFrom_front {front replacement : List Char} (taken : front ≠ [])
    (found : step (front ++ cs) = some (replacement, front.length)) :
    replaceFrom step 0 (front ++ cs) = replacement ++ replaceFrom step 0 cs := by
  cases front with
  | nil => exact absurd rfl taken
  | cons c front =>
    have hfind : step (c :: (front ++ cs)) = some (replacement, front.length + 1) := found
    rw [List.cons_append, replaceFrom_of_find hfind, List.drop_left]

/-- Words of a kind that is kept when the first character is taken away come through at the front
behind anything, if they come through at the front. -/
theorem isPrefix_append {kind : List Char → Prop} {word within : List Char}
    (htail : ∀ c word, kind (c :: word) → kind word)
    (hbehind : ∀ {word}, kind word → word <+: ds → word <+: cs) (hkind : kind word)
    (hword : word <+: within ++ ds) : word <+: within ++ cs := by
  induction within generalizing word with
  | nil => exact hbehind hkind hword
  | cons c within ih =>
    cases word with
    | nil => exact List.nil_prefix
    | cons d word =>
      obtain ⟨rfl, hrest⟩ := List.cons_prefix_cons.1 hword
      exact List.cons_prefix_cons.2 ⟨rfl, ih (htail _ _ hkind) hrest⟩

namespace Rewrites

variable {kind : List Char → Prop} {word : List Char} (h : Rewrites step cs ds)

include h

theorem eq : replaceFrom step 0 cs = ds := by
  induction h with
  | nil => rfl
  | keep missed rest ih => rw [replaceFrom_of_none missed, ih]
  | find taken found rest ih => rw [replaceFrom_front taken found, ih]

/-- What a find keeps the replacing keeps. -/
theorem filter_eq {p : Char → Bool}
    (hfind : ∀ front cs replacement, step (front ++ cs) = some (replacement, front.length) →
      replacement.filter p = front.filter p) : ds.filter p = cs.filter p := by
  induction h with
  | nil => rfl
  | keep missed rest ih => rw [List.filter_cons, List.filter_cons, ih]
  | find taken found rest ih =>
    rw [List.filter_append, List.filter_append, ih, hfind _ _ _ found]

/-- Where every find takes some of a character away, the character stays as often as it was only if
nothing is found. -/
theorem count_cases {c : Char}
    (hfind : ∀ front cs replacement, step (front ++ cs) = some (replacement, front.length) →
      replacement.count c < front.count c) :
    ds.count c < cs.count c ∨ ds = cs ∧ ∀ rest, rest <:+ cs → rest ≠ [] → step rest = none := by
  induction h with
  | nil =>
    refine Or.inr ⟨rfl, fun rest hrest hne => ?_⟩
    exact absurd (List.suffix_nil.1 hrest) hne
  | keep missed rest ih =>
    rcases ih with hless | ⟨rfl, hnone⟩
    · left
      rw [List.count_cons, List.count_cons]
      omega
    · refine Or.inr ⟨rfl, fun rest hrest hne => ?_⟩
      rcases List.suffix_cons_iff.1 hrest with rfl | hrest
      · exact missed
      · exact hnone rest hrest hne
  | @find front replacement cs ds taken found rest ih =>
    left
    have hless := hfind _ _ _ found
    have hle : ds.count c ≤ cs.count c := by
      rcases ih with hless | ⟨hsame, -⟩
      · omega
      · rw [hsame]
    rw [List.count_append, List.count_append]
    omega

/-- Where no find changes the first and the last character, these stay. -/
theorem edged
    (hfind : ∀ front cs replacement, step (front ++ cs) = some (replacement, front.length) →
      replacement.head? = front.head? ∧ replacement.getLast? = front.getLast?)
    (hcs : Edged cs) : Edged ds := by
  have hends : ds.head? = cs.head? ∧ ds.getLast? = cs.getLast? := by
    clear hcs
    induction h with
    | nil => exact ⟨rfl, rfl⟩
    | keep missed rest ih =>
      exact ⟨rfl, by rw [List.getLast?_cons, List.getLast?_cons, ih.2]⟩
    | find taken found rest ih =>
      obtain ⟨hfirst, hlast⟩ := hfind _ _ _ found
      rw [List.head?_append, List.head?_append, List.getLast?_append, List.getLast?_append,
        hfirst, hlast, ih.1, ih.2]
      exact ⟨rfl, rfl⟩
  exact ⟨fun c hc => hcs.first c (hends.1 ▸ hc), fun c hc => hcs.last c (hends.2 ▸ hc)⟩

/-- Let a kind of words be kept when the first character is taken away, and let what replaces a find
neither begin with such a word nor stand at the beginning of one. Then a word of this kind at the
front of the result was there before. -/
theorem isPrefix (htail : ∀ c word, kind (c :: word) → kind word)
    (hfind : ∀ front cs replacement, step (front ++ cs) = some (replacement, front.length) →
      replacement = front ∨
        ∀ word, kind word → word ≠ [] → ¬ word <+: replacement ∧ ¬ replacement <+: word)
    (hkind : kind word) (hword : word <+: ds) : word <+: cs := by
  induction h generalizing word with
  | nil => exact hword
  | @keep c cs ds missed rest ih =>
    exact isPrefix_append htail (fun hkind => ih hkind) hkind (show word <+: [c] ++ ds from hword)
  | @find front replacement cs ds taken found rest ih =>
    rcases hfind _ _ _ found with rfl | hnever
    · exact isPrefix_append htail (fun hkind => ih hkind) hkind hword
    · by_cases hne : word = []
      · rw [hne]
        exact List.nil_prefix
      · obtain ⟨hin, hover⟩ := hnever word hkind hne
        rcases List.prefix_or_prefix_of_prefix hword (List.prefix_append replacement ds) with h | h
        · exact absurd h hin
        · exact absurd h hover

/-- Where an occurrence in the result begins: at a character that has been kept, or in what a find
has been replaced by. -/
theorem begins (hne : word ≠ []) (hword : word <:+: ds) :
    (∃ rest after, rest <:+ cs ∧ step rest = none ∧ Rewrites step rest after ∧ word <+: after) ∨
      ∃ front replacement rest after within, front ++ rest <:+ cs ∧
        step (front ++ rest) = some (replacement, front.length) ∧ Rewrites step rest after ∧
        within <:+ replacement ∧ within ≠ [] ∧ word <+: within ++ after := by
  induction h with
  | nil => exact absurd (List.infix_nil.1 hword) hne
  | keep missed rest ih =>
    rcases List.infix_cons_iff.1 hword with hfirst | hbehind
    · exact Or.inl ⟨_, _, List.suffix_rfl, missed, .keep missed rest, hfirst⟩
    · rcases ih hbehind with hkept | hfound
      · obtain ⟨rest, after, hrest, hcase⟩ := hkept
        exact Or.inl ⟨rest, after, hrest.trans (List.suffix_cons _ _), hcase⟩
      · obtain ⟨front, new, rest, after, within, hrest, hcase⟩ := hfound
        exact Or.inr ⟨front, new, rest, after, within, hrest.trans (List.suffix_cons _ _), hcase⟩
  | @find front replacement cs ds taken found rest ih =>
    by_cases hlater : word <:+: ds
    · rcases ih hlater with hkept | hfound
      · obtain ⟨rest, after, hrest, hcase⟩ := hkept
        exact Or.inl ⟨rest, after, hrest.trans (List.suffix_append _ _), hcase⟩
      · obtain ⟨front, new, rest, after, within, hrest, hcase⟩ := hfound
        exact Or.inr ⟨front, new, rest, after, within, hrest.trans (List.suffix_append _ _), hcase⟩
    · right
      obtain ⟨before, behind, hsplit⟩ := hword
      rw [List.append_assoc] at hsplit
      rcases List.append_eq_append_iff.1 hsplit with ⟨within, rfl, hwithin⟩ | ⟨before, -, hbehind⟩
      · refine ⟨front, _, cs, ds, within, List.suffix_rfl, found, rest, List.suffix_append _ _, ?_,
          ⟨behind, hwithin⟩⟩
        rintro rfl
        exact hlater ⟨[], behind, hwithin⟩
      · exact absurd ⟨before, behind, by rw [hbehind, List.append_assoc]⟩ hlater

end Rewrites

end BrowserFlow.Text
