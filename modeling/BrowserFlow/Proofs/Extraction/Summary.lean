import BrowserFlow.Extraction.Summary
import BrowserFlow.Journal.Entry
import BrowserFlow.Proofs.Json.Edges
import BrowserFlow.Proofs.Text.Lines
import BrowserFlow.Proofs.Text.Words

/-!
# What is read back from the line for a list

The line for a list names the number of its items in brackets and goes on with the beginning of its
JSON text. The only opening bracket before that number is the one in front of it, so the first
number of items that is found in the line is this one, as long as the bracket behind it is not cut
off (`found?_clip_iff`).

The words for no items are not found at the number of any, because they would have to be the whole
number: a zero that ends a longer one stands behind another digit (`not_wordOccurs_count`). What is
found behind the number is in the JSON text of an item or in the path behind it
(`isEmptyLine_of_clean`).
-/

namespace BrowserFlow

open Text

/-! ## Digits -/

namespace Text

variable {c : Char}

theorem isDigit_iff_toNat : c.isDigit = true ↔ 48 ≤ c.toNat ∧ c.toNat ≤ 57 := by
  simp only [Char.isDigit, Bool.and_eq_true, decide_eq_true_eq]
  exact Iff.rfl

theorem digitValue?_of_isDigit (h : c.isDigit = true) : digitValue? c = some (c.toNat - 48) := by
  obtain ⟨hlow, hhigh⟩ := isDigit_iff_toNat.1 h
  have hzeros : zeros = 0x30 :: zeros.tail := rfl
  unfold digitValue?
  rw [hzeros, List.find?_cons_of_pos]
  · rfl
  · rw [Bool.and_eq_true, decide_eq_true_eq, decide_eq_true_eq]
    omega

theorem isDecimal_of_isDigit (h : c.isDigit = true) : isDecimal c = true := by
  unfold isDecimal
  rw [digitValue?_of_isDigit h]
  rfl

theorem isWordChar_of_isDigit (h : c.isDigit = true) : isWordChar c = true := by
  obtain ⟨hlow, hhigh⟩ := isDigit_iff_toNat.1 h
  unfold isWordChar CharClass.contains wordChars inRanges
  rw [if_neg (Nat.not_lt.2 hlow), decide_eq_true hhigh]
  rfl

end Text

namespace Extraction

variable {n : Nat} {cs u v : List Char} {line : String}

/-- The digits of a number. -/
def digits (n : Nat) : List Char :=
  Nat.toDigits 10 n

theorem isDigit_digits : ∀ c ∈ digits n, c.isDigit = true :=
  fun _ hc => Nat.isDigit_of_mem_toDigits (by decide) (by decide) hc

theorem digits_ne_nil : digits n ≠ [] :=
  Nat.toDigits_ne_nil

theorem not_mem_digits {c : Char} (hc : c.isDigit = false) : c ∉ digits n := by
  intro h
  rw [isDigit_digits c h] at hc
  cases hc

/-- The digits of a number are read as this number. -/
theorem value_digits (n : Nat) :
    (digits n).foldl (fun n d => n * 10 + (digitValue? d).getD 0) 0 = n := by
  have hstep : ∀ ds : List Char, (∀ c ∈ ds, c.isDigit = true) → ∀ m : Nat,
      ds.foldl (fun n d => n * 10 + (digitValue? d).getD 0) m = Nat.ofDigitChars 10 ds m := by
    intro ds hds
    induction ds with
    | nil => exact fun m => rfl
    | cons d ds ih =>
      obtain ⟨hd, hds⟩ := List.forall_mem_cons.1 hds
      intro m
      rw [List.foldl_cons, ih hds, Nat.ofDigitChars_cons, digitValue?_of_isDigit hd,
        Nat.mul_comm m 10]
      rfl
  rw [hstep _ isDigit_digits]
  exact Nat.ofDigitChars_ten_toDigits

/-! ## The number of items -/

/-- What does not begin with a bracket names no number of items there. -/
theorem findFirst?_skip (h : '(' ∉ u) :
    findFirst? countHere? (u ++ v) = findFirst? countHere? v := by
  induction u with
  | nil => rfl
  | cons c u ih =>
    obtain ⟨hc, hu⟩ := not_or.1 (mt List.mem_cons.2 h)
    have hnone : countHere? (c :: (u ++ v)) = none := by
      unfold countHere?
      split
      · rename_i heq
        exact absurd (List.cons.inj heq).1.symm hc
      · rfl
    rw [List.cons_append, findFirst?, hnone]
    exact ih hu

theorem findFirst?_eq_none (h : '(' ∉ cs) : findFirst? countHere? cs = none := by
  have hskip : findFirst? countHere? (cs ++ []) = findFirst? countHere? [] := findFirst?_skip h
  rw [List.append_nil] at hskip
  exact hskip

theorem countHere?_opening (cs : List Char) :
    countHere? ('(' :: cs) =
      if !(cs.takeWhile isDecimal).isEmpty &&
          " items)".toList.isPrefixOf (cs.dropWhile isDecimal) then
        some ((cs.takeWhile isDecimal).foldl (fun n d => n * 10 + (digitValue? d).getD 0) 0)
      else none :=
  rfl

/-- A number of items is read at its bracket. -/
theorem countHere?_digits (n : Nat) (rest : List Char) :
    countHere? ('(' :: (digits n ++ ' ' :: ("items)".toList ++ rest))) = some n := by
  have hblank : ¬ isDecimal ' ' = true := by decide
  have hdecimal : ∀ c ∈ digits n, isDecimal c = true :=
    fun c hc => isDecimal_of_isDigit (isDigit_digits c hc)
  have htake : (digits n ++ ' ' :: ("items)".toList ++ rest)).takeWhile isDecimal = digits n := by
    rw [List.takeWhile_append_of_pos hdecimal, List.takeWhile_cons_of_neg hblank, List.append_nil]
  have hdrop : (digits n ++ ' ' :: ("items)".toList ++ rest)).dropWhile isDecimal =
      ' ' :: ("items)".toList ++ rest) := by
    rw [List.dropWhile_append_of_pos hdecimal, List.dropWhile_cons_of_neg hblank]
  have hprefix : " items)".toList.isPrefixOf (' ' :: ("items)".toList ++ rest)) = true :=
    List.isPrefixOf_iff_prefix.2 (List.prefix_append " items)".toList rest)
  rw [countHere?_opening, htake, hdrop, hprefix, value_digits,
    List.isEmpty_eq_false_iff.2 digits_ne_nil]
  rfl

/-- Without a closing bracket no number of items is read. -/
theorem countHere?_eq_none (h : ')' ∉ cs) : countHere? ('(' :: cs) = none := by
  rw [countHere?_opening]
  split
  · rename_i hcount
    rw [Bool.and_eq_true] at hcount
    have hprefix := List.isPrefixOf_iff_prefix.1 hcount.2
    have hclosing : ')' ∈ cs.dropWhile isDecimal := hprefix.subset (by decide)
    exact absurd ((List.dropWhile_suffix isDecimal).subset hclosing) h
  · rfl

/-! ## The line for a list -/

/-- A line that names a number of items and goes on behind it. -/
def counted (n : Nat) (rest : List Char) : List Char :=
  "Extracted data ".toList ++ '(' :: (digits n ++ ' ' :: ("items)".toList ++ rest))

theorem toList_summary_list (items : List Value) :
    (summary (.list items)).toList = counted items.length (": ".toList ++
      (clip previewLength (Json.text .line (.list (items.take previewItems)))).toList) := by
  have hdigits : (toString items.length).toList = digits items.length := by
    rw [Nat.toString_eq_ofList_toDigits, String.toList_ofList]
    rfl
  show (toString "Extracted data (" ++ toString items.length ++ toString " items): " ++
    clip previewLength (Json.text .line (.list (items.take previewItems)))).toList = _
  rw [String.toList_append, String.toList_append, String.toList_append, hdigits]
  unfold counted
  simp only [List.append_assoc]
  rfl

theorem take_counted (n : Nat) (rest : List Char) :
    (counted n rest).take 500 = "Extracted data ".toList ++
      '(' :: (digits n ++ ' ' :: ("items)".toList ++ rest)).take 484 := by
  have hlength : "Extracted data ".toList.length = 15 := rfl
  unfold counted
  rw [List.take_append, List.take_of_length_le (by rw [hlength]; decide), hlength,
    List.take_succ_cons]

/-- A number of so many digits is cut off before the bracket behind it. -/
theorem not_mem_cut (h : 477 < (digits n).length) (rest : List Char) :
    ∀ c ∈ ['(', ')', ']'], c ∉ (digits n ++ ' ' :: ("items)".toList ++ rest)).take 484 := by
  have hsplit : digits n ++ ' ' :: ("items)".toList ++ rest) =
      (digits n ++ " items".toList) ++ ')' :: rest := by
    rw [List.append_assoc]
    rfl
  have hcut : 484 ≤ (digits n ++ " items".toList).length := by
    have hlength : " items".toList.length = 6 := rfl
    rw [List.length_append, hlength]
    omega
  rw [hsplit, List.take_append_of_le_length hcut]
  intro c hc hmem
  obtain ⟨hdigit, hword⟩ : c.isDigit = false ∧ c ∉ " items".toList := by
    simp only [List.mem_cons, List.not_mem_nil, or_false] at hc
    rcases hc with rfl | rfl | rfl <;> decide
  rcases List.mem_append.1 (List.mem_of_mem_take hmem) with h | h
  · exact not_mem_digits hdigit h
  · exact hword h

/-- The number of items is read back from the first characters of a line exactly if they hold the
bracket behind it. -/
theorem found?_clip_iff {rest : List Char} (hline : line.toList = (counted n rest).take 500) :
    found? line = some n ↔ (digits n).length ≤ 477 := by
  have hopening : '(' ∉ "Extracted data ".toList := by decide
  rw [take_counted] at hline
  unfold found?
  constructor
  · intro hfound
    by_contra hlong
    have hcut := not_mem_cut (Nat.not_le.1 hlong) rest
    have hnone : findFirst? countHere? line.toList = none := by
      rw [hline, findFirst?_skip hopening, findFirst?, countHere?_eq_none (hcut ')' (by decide))]
      exact findFirst?_eq_none (hcut '(' (by decide))
    have hbracket : "[]".toList.isSuffixOf (trimChars line.toList) = false := by
      rw [← Bool.not_eq_true, List.isSuffixOf_iff_suffix]
      intro hsuffix
      have hmem : ']' ∈ line.toList :=
        (trimChars_isInfix line.toList).subset (hsuffix.subset (by decide))
      rw [hline] at hmem
      rcases List.mem_append.1 hmem with hmem | hmem
      · exact absurd hmem (by decide)
      · rcases List.mem_cons.1 hmem with hmem | hmem
        · exact absurd hmem (by decide)
        · exact hcut ']' (by decide) hmem
    rw [hnone, hbracket] at hfound
    cases hfound
  · intro hshort
    have hkept : (digits n ++ ' ' :: ("items)".toList ++ rest)).take 484 =
        digits n ++ ' ' :: ("items)".toList ++ rest.take (477 - (digits n).length)) := by
      have hlength : "items)".toList.length = 6 := rfl
      rw [List.take_append, List.take_of_length_le (by omega),
        show 484 - (digits n).length = 477 - (digits n).length + 6 + 1 by omega,
        List.take_succ_cons, List.take_append, List.take_of_length_le (by omega), hlength,
        Nat.add_sub_cancel]
    rw [hline, hkept, findFirst?_skip hopening, findFirst?, countHere?_digits]

/-! ## Lines that tell of nothing found -/

/-- Neither an empty list nor the words for no items are in some characters. -/
structure Clean (cs : List Char) : Prop where
  brackets : ¬ ['[', ']'] <:+: cs
  count : ¬ "0 items".toList <:+: cs

theorem Clean.of_isInfix (h : Clean cs) (hu : u <:+: cs) : Clean u :=
  ⟨fun hin => h.brackets (hin.trans hu), fun hin => h.count (hin.trans hu)⟩

/-- The words for no items are no whole words at the number of some. -/
theorem not_wordOccurs_count (hn : n ≠ 0) (h : cs <+: digits n ++ " items".toList) :
    wordOccurs "0 items".toList false cs = false := by
  rw [← Bool.not_eq_true]
  intro hoccurs
  obtain ⟨u, v, rfl, -, hlast⟩ := wordOccurs_split hoccurs
  obtain ⟨rest, hrest⟩ := h
  have hwhole : digits n ++ ' ' :: "items".toList =
      (u ++ ['0']) ++ ' ' :: ("items".toList ++ v ++ rest) := by
    rw [show digits n ++ ' ' :: "items".toList = digits n ++ " items".toList from rfl, ← hrest,
      show "0 items".toList = '0' :: ' ' :: "items".toList from rfl]
    simp only [List.append_assoc, List.cons_append, List.nil_append]
  have hblank : ' ' ∉ digits n := not_mem_digits (by decide)
  obtain ⟨hdigits, -⟩ := (List.append_cons_inj_of_notMem hblank (by decide)).1 hwhole
  rcases List.eq_nil_or_concat u with rfl | ⟨front, d, rfl⟩
  · -- the number is zero
    refine hn ?_
    rw [← value_digits n, hdigits]
    rfl
  · -- there is a digit before the zero
    rw [List.concat_eq_append] at hdigits hlast
    have hmem : d ∈ digits n := by
      rw [hdigits]
      simp
    have hnot := hlast d List.getLast?_concat
    rw [isWordChar_of_isDigit (isDigit_digits d hmem)] at hnot
    cases hnot

/-- A line that names some number of items tells of nothing found only behind it. -/
theorem isEmptyLine_of_clean (hn : n ≠ 0) {rest : List Char} (hrest : Clean rest)
    (hline : line.toList <+: counted n rest) : isEmptyLine line = false := by
  have hsplit : ' ' :: ("items)".toList ++ rest) = " items".toList ++ ')' :: rest := rfl
  unfold counted at hline
  rw [hsplit, ← List.append_assoc] at hline
  have hword : "0 items".toList ≠ [] := by decide
  have hfront : wordOccurs "0 items".toList false "Extracted data ".toList = false := by
    decide +kernel
  have hnone : wordOccurs "0 items".toList false line.toList = false := by
    rcases isPrefix_append_cons hline with hshort | ⟨q, hq, hqline⟩
    · rw [← Bool.not_eq_true]
      intro hoccurs
      have hzero : '0' ∈ "Extracted data ".toList :=
        hshort.subset ((isInfix_of_wordOccurs hoccurs).subset (by decide))
      exact absurd hzero (by decide)
    · rw [hqline, wordOccurs_append (by decide +kernel) (by decide) hword, hfront, Bool.false_or]
      rcases isPrefix_append_cons hq with hcount | ⟨tail, htail, rfl⟩
      · exact not_wordOccurs_count hn hcount
      · rw [wordOccurs_append (by decide +kernel) (by decide) hword,
          not_wordOccurs_count hn List.prefix_rfl, Bool.false_or, ← Bool.not_eq_true]
        exact fun hoccurs =>
          hrest.count ((isInfix_of_wordOccurs hoccurs).trans htail.isInfix)
  have hbrackets : includes line "[]" = false := by
    rw [← Bool.not_eq_true, includes_iff]
    intro hoccurs
    have hsame : "Extracted data ".toList ++ '(' :: (digits n ++ " items".toList ++ ')' :: rest) =
        ("Extracted data ".toList ++ '(' :: (digits n ++ " items)".toList)) ++ rest := by
      simp only [List.append_assoc, List.cons_append]
      rfl
    have hwhole := hoccurs.trans hline.isInfix
    rw [hsame] at hwhole
    refine hrest.brackets (isInfix_of_head_not_mem ?_ hwhole)
    rw [List.mem_append, List.mem_cons, List.mem_append, not_or, not_or, not_or]
    exact ⟨by decide, by decide, not_mem_digits (by decide), by decide⟩
  unfold isEmptyLine includesWord
  rw [hbrackets, List.any_cons, hnone]
  rfl

/-- What stands behind the number of items: the beginning of their text, and perhaps a path. -/
theorem clean_behind {items : List Value} (hne : items ≠ [])
    (hitems : ∀ v ∈ items, Clean (Json.text .line v).toList) {preview behind : List Char}
    (hpreview : preview <+: (Json.text .line (.list items)).toList)
    (hbehind : behind = [] ∨ ∃ path, Clean path ∧ behind = " - saved to ".toList ++ path) :
    Clean (": ".toList ++ (preview ++ behind)) := by
  have hlist : Clean preview := by
    refine ⟨fun h => ?_, fun h => ?_⟩
    · obtain ⟨v, hv, hin⟩ := Json.brackets_isInfix_list hne (h.trans hpreview.isInfix)
      exact (hitems v hv).brackets hin
    · have hword : '0' :: " items".toList = "0 item".toList ++ ['s'] := rfl
      obtain ⟨v, hv, hin⟩ := Json.isInfix_list hword (by decide) (by decide) (by decide)
        (h.trans hpreview.isInfix)
      exact (hitems v hv).count hin
  refine ⟨fun h => ?_, fun h => ?_⟩
  · have hinside := isInfix_of_head_not_mem (by decide) h
    rcases hbehind with rfl | ⟨path, hpath, rfl⟩
    · rw [List.append_nil] at hinside
      exact hlist.brackets hinside
    · rcases pair_isInfix_append hinside with h | h | ⟨-, hblank⟩
      · exact hlist.brackets h
      · exact hpath.brackets (isInfix_of_head_not_mem (by decide) h)
      · cases hblank
  · have hinside : '0' :: " items".toList <:+: preview ++ behind :=
      isInfix_of_head_not_mem (by decide) h
    rcases hbehind with rfl | ⟨path, hpath, rfl⟩
    · rw [List.append_nil] at hinside
      exact hlist.count hinside
    · have hsplit : preview ++ (" - saved to ".toList ++ path) =
          (preview ++ [' ']) ++ '-' :: (" saved to ".toList ++ path) := by
        rw [List.append_assoc]
        rfl
      rw [hsplit] at hinside
      rcases isInfix_append_cons (by decide) hinside with h | h
      · have hend : "0 item".toList ++ ['s'] <:+: preview ++ [' '] := h
        exact hlist.count (isInfix_of_last_not_mem (by decide) hend)
      · exact hpath.count (isInfix_of_head_not_mem (by decide) h)

end Extraction

end BrowserFlow
