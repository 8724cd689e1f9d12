import BrowserFlow.Intent
import BrowserFlow.Proofs.Text.Scan

/-!
# Words of texts side by side

A blank between two texts keeps them apart for everything that looks for words. Neither side changes
how the other is put in lower case, though a capital sigma looks at what is around it, and no run of
letters and no whole word reaches over the blank. A full stop or a bracket at the end of a text adds
no word to it.
-/

namespace BrowserFlow

namespace Text

variable {xs ys zs before : List Char} {c : Char} {word : List Char}

/-! ## Lower case -/

/-- Characters that meet no letter of their own hide those before them from what stands behind. -/
theorem meetsLetter_append (h : meetsLetter zs = false) :
    meetsLetter (xs ++ zs) = meetsLetter xs := by
  induction xs with
  | nil => exact h
  | cons x xs ih =>
    unfold meetsLetter at ih ⊢
    by_cases hx : caselessMarks.contains x = true
    · simpa only [List.cons_append, List.dropWhile_cons_of_pos hx] using ih
    · simp only [List.cons_append, List.dropWhile_cons_of_neg hx]

theorem lowerFrom_append (h : meetsLetter ys = false) :
    lowerFrom before (xs ++ ys) =
      lowerFrom before xs ++ lowerFrom (xs.reverse ++ before) ys := by
  induction xs generalizing before with
  | nil => rfl
  | cons x xs ih =>
    simp only [List.cons_append, lowerFrom, meetsLetter_append h, ih, List.reverse_cons,
      List.append_assoc, List.nil_append]

theorem lowerFrom_behind (h : meetsLetter before = false) :
    lowerFrom (xs ++ before) ys = lowerFrom xs ys := by
  induction ys generalizing xs with
  | nil => rfl
  | cons y ys ih =>
    simp only [lowerFrom, meetsLetter_append h]
    rw [← List.cons_append, ih]

/-- The blank is neither a mark nor a letter: no sigma sees over it. -/
theorem meetsLetter_blank : meetsLetter (' ' :: xs) = false := by
  have hmark : caselessMarks.contains ' ' = false := by decide +kernel
  have hcase : casedChars.contains ' ' = false := by decide +kernel
  simp [meetsLetter, hmark, hcase]

/-- Lower case on either side of a blank. -/
theorem lowerFrom_blank :
    lowerFrom [] (xs ++ ' ' :: ys) = lowerFrom [] xs ++ ' ' :: lowerFrom [] ys := by
  have hblank : lowerChar ' ' = ' ' := by decide +kernel
  have hbehind : lowerFrom ([] ++ ' ' :: (xs.reverse ++ [])) ys = lowerFrom [] ys :=
    lowerFrom_behind meetsLetter_blank
  rw [List.nil_append] at hbehind
  rw [lowerFrom_append meetsLetter_blank, lowerFrom, hbehind]
  simp [hblank]

/-- A character at the end of a text that adds no word to it. -/
structure Closing (c : Char) : Prop where
  /-- A sigma before it ends its word. -/
  unseen : meetsLetter [c] = false
  lowered : ∀ before, lowerFrom before [c] = [c]
  letter : Intent.isLetter c = false
  inWord : isWordChar c = false

theorem closing_stop : Closing '.' where
  unseen := by decide +kernel
  lowered before := by
    have hlower : lowerChar '.' = '.' := by decide +kernel
    simp [lowerFrom, hlower]
  letter := by decide
  inWord := by decide +kernel

theorem closing_bracket : Closing ')' where
  unseen := by decide +kernel
  lowered before := by
    have hlower : lowerChar ')' = ')' := by decide +kernel
    simp [lowerFrom, hlower]
  letter := by decide
  inWord := by decide +kernel

theorem lowerFrom_closing (h : Closing c) :
    lowerFrom [] (xs ++ [c]) = lowerFrom [] xs ++ [c] := by
  rw [lowerFrom_append h.unseen, h.lowered]

/-! ## Runs of letters -/

theorem word?_append (hc : Intent.isLetter c = false) :
    Intent.word? (xs ++ c :: ys) = Intent.word? xs := by
  have : (xs ++ c :: ys).takeWhile Intent.isLetter = xs.takeWhile Intent.isLetter := by
    induction xs with
    | nil => simp [hc]
    | cons x xs ih => by_cases hx : Intent.isLetter x = true <;> simp [hx, ih]
  unfold Intent.word?
  rw [this]

/-- A run of letters is no longer than the text in which it is found. -/
theorem word?_le {w : String} {n : Nat} (h : Intent.word? xs = some (w, n)) : n ≤ xs.length := by
  unfold Intent.word? at h
  dsimp only at h
  split at h
  · cases h
  · cases h
    exact (List.takeWhile_prefix _).length_le

/-- No run of letters reaches over a character that is no letter, also where the letters of an
earlier find are still skipped. -/
theorem findWords_append (hc : Intent.isLetter c = false) {skip : Nat}
    (hskip : skip ≤ xs.length) :
    findAllFrom Intent.word? skip (xs ++ c :: ys) =
      findAllFrom Intent.word? skip xs ++ findAllFrom Intent.word? 0 ys := by
  induction xs generalizing skip with
  | nil =>
    obtain rfl : skip = 0 := Nat.le_zero.mp hskip
    have hnone : Intent.word? (c :: ys) = none := by simp [Intent.word?, hc]
    simp [findAllFrom, hnone]
  | cons x xs ih =>
    rw [List.cons_append]
    cases skip with
    | succ skip => exact ih (Nat.le_of_succ_le_succ hskip)
    | zero =>
      simp only [findAllFrom, ← List.cons_append, word?_append hc]
      cases hword : Intent.word? (x :: xs) with
      | none => exact ih (Nat.zero_le _)
      | some found =>
        have hle : found.2 - 1 ≤ xs.length := by
          have := word?_le hword
          simp only [List.length_cons] at this
          omega
        simp only [ih hle, List.cons_append]

/-! ## Whole words -/

theorem dropPrefix?_append (hc : c ∉ word) (xs ys : List Char) :
    dropPrefix? word (xs ++ c :: ys) = (dropPrefix? word xs).map (· ++ c :: ys) := by
  induction word generalizing xs with
  | nil => rfl
  | cons p ps ih =>
    obtain ⟨hp, hps⟩ := not_or.mp (mt List.mem_cons.mpr hc)
    cases xs with
    | nil => simp [dropPrefix?, Ne.symm hp]
    | cons x xs =>
      simp only [List.cons_append, dropPrefix?]
      by_cases hx : p = x
      · simp only [if_pos hx, ih hps]
      · simp only [if_neg hx, Option.map_none]

/-- A word does not reach over a character that is not in it. -/
theorem wordOccurs_append (hc : isWordChar c = false) (hmem : c ∉ word) (hne : word ≠ [])
    {inWord : Bool} :
    wordOccurs word inWord (xs ++ c :: ys) =
      (wordOccurs word inWord xs || wordOccurs word false ys) := by
  -- whether the character before was of a word changes from step to step
  induction xs generalizing inWord with
  | nil =>
    have hnone : dropPrefix? word (c :: ys) = none := by
      cases word with
      | nil => exact absurd rfl hne
      | cons p ps =>
        simpa only [List.nil_append, dropPrefix?, Option.map_none] using
          dropPrefix?_append hmem [] ys
    simp [wordOccurs, hnone, hc]
  | cons x xs ih =>
    have hfront := dropPrefix?_append hmem (x :: xs) ys
    rw [List.cons_append] at hfront ⊢
    simp only [wordOccurs, hfront, ih, Bool.or_assoc]
    congr 2
    rcases dropPrefix? word (x :: xs) with - | (- | ⟨d, ds⟩) <;> simp [hc]

/-- Where a word occurs the character before it is none of a word. -/
theorem wordOccurs_split {inWord : Bool} (h : wordOccurs word inWord xs = true) :
    ∃ u v, xs = u ++ word ++ v ∧ (u = [] → inWord = false) ∧
      ∀ d, u.getLast? = some d → isWordChar d = false := by
  induction xs generalizing inWord with
  | nil => cases h
  | cons x xs ih =>
    rw [wordOccurs, Bool.or_eq_true] at h
    rcases h with hhere | hlater
    · rw [Bool.and_eq_true, Bool.not_eq_true'] at hhere
      obtain ⟨hfree, hmatch⟩ := hhere
      cases hdrop : dropPrefix? word (x :: xs) with
      | none =>
        rw [hdrop] at hmatch
        cases hmatch
      | some rest =>
        exact ⟨[], rest, dropPrefix?_eq_some.1 hdrop, fun _ => hfree, fun d hd => (nomatch hd)⟩
    · obtain ⟨u, v, rfl, hfree, hlast⟩ := ih hlater
      refine ⟨x :: u, v, rfl, fun hnil => absurd hnil (List.cons_ne_nil x u), fun d hd => ?_⟩
      cases u with
      | nil =>
        cases hd
        exact hfree rfl
      | cons y u =>
        rw [List.getLast?_cons_cons] at hd
        exact hlast d hd

/-- Where a word occurs, its characters do. -/
theorem isInfix_of_wordOccurs {inWord : Bool} (h : wordOccurs word inWord xs = true) :
    word <:+: xs := by
  obtain ⟨u, v, rfl, -⟩ := wordOccurs_split h
  exact ⟨u, v, rfl⟩

end Text

/-! ## Texts -/

section Texts

variable (s t : String) {c : Char}

theorem Text.toList_lower : (Text.lower s).toList = Text.lowerFrom [] s.toList := by
  simp [Text.lower]

theorem Text.toList_lower_blank : (Text.lower (s ++ " " ++ t)).toList =
    (Text.lower s).toList ++ ' ' :: (Text.lower t).toList := by
  simp [Text.toList_lower, Text.lowerFrom_blank]

theorem Text.toList_lower_closing (h : Text.Closing c) :
    (Text.lower (s.push c)).toList = (Text.lower s).toList ++ [c] := by
  simp [Text.toList_lower, Text.lowerFrom_closing h]

/-- The words on both sides of a blank are those of the two texts. -/
theorem Intent.words_blank :
    Intent.words (s ++ " " ++ t) = Intent.words s ++ Intent.words t := by
  unfold Intent.words Text.findAll
  rw [Text.toList_lower_blank, Text.findWords_append (by decide) (Nat.zero_le _)]

theorem Intent.words_closing (h : Text.Closing c) :
    Intent.words (s.push c) = Intent.words s := by
  unfold Intent.words Text.findAll
  rw [Text.toList_lower_closing s h, Text.findWords_append h.letter (Nat.zero_le _)]
  simp [Text.findAllFrom]

/-- Words that end at every character that is not of a word. -/
def Text.Whole (ws : List String) : Prop :=
  ∀ w ∈ ws, w.toList ≠ [] ∧ w.toList.all Text.isWordChar = true

theorem Text.not_mem_whole {w : String} (h : w.toList.all Text.isWordChar = true)
    (hc : Text.isWordChar c = false) : c ∉ w.toList := by
  intro hmem
  rw [List.all_eq_true.mp h c hmem] at hc
  cases hc

variable {ws : List String}

theorem Text.includesWord_blank (h : Text.Whole ws) :
    Text.includesWord (Text.lower (s ++ " " ++ t)) ws =
      (Text.includesWord (Text.lower s) ws || Text.includesWord (Text.lower t) ws) := by
  have hblank : Text.isWordChar ' ' = false := by decide +kernel
  unfold Text.includesWord
  rw [Text.toList_lower_blank]
  induction ws with
  | nil => rfl
  | cons w ws ih =>
    obtain ⟨⟨hne, hchars⟩, hws⟩ := List.forall_mem_cons.mp h
    simp only [List.any_cons, Text.wordOccurs_append hblank (Text.not_mem_whole hchars hblank) hne,
      ih hws]
    ac_rfl

theorem Text.includesWord_closing (h : Text.Whole ws) (hc : Text.Closing c) :
    Text.includesWord (Text.lower (s.push c)) ws = Text.includesWord (Text.lower s) ws := by
  unfold Text.includesWord
  rw [Text.toList_lower_closing s hc]
  induction ws with
  | nil => rfl
  | cons w ws ih =>
    obtain ⟨⟨hne, hchars⟩, hws⟩ := List.forall_mem_cons.mp h
    have hmem := Text.not_mem_whole hchars hc.inWord
    simp only [List.any_cons, Text.wordOccurs_append hc.inWord hmem hne, ih hws, Text.wordOccurs,
      Bool.or_false]

end Texts

end BrowserFlow
