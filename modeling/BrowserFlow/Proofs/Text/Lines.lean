import BrowserFlow.Text.CharClass
import BrowserFlow.Text.Scan
import Mathlib.Data.List.Infix
import Mathlib.Data.List.TakeWhile

/-!
# Lines and blanks at the ends

The pieces of a text around a separator are those of `List.splitOn` (`splitChars_eq_splitOn`), so
that the text and its pieces are the same thing said twice. What is done to a text at either end is
done to its first or its last piece (`splitChars_cons`, `splitChars_concat`).

Trimming takes a text apart into blanks, what is left, and blanks; what is left is the only part
that neither begins nor ends with a blank (`trimChars_split`, `trimChars_eq`).
-/

namespace BrowserFlow.Text

variable {separator c : Char} {cs piece u v m : List Char} {pieces : List (List Char)}

/-! ## Pieces -/

theorem splitChars_cons_separator (separator : Char) (cs : List Char) :
    splitChars separator (separator :: cs) = [] :: splitChars separator cs :=
  if_pos rfl

/-- A character in front of a text comes in front of its first piece. -/
theorem splitChars_cons (hc : c ≠ separator) (h : splitChars separator cs = piece :: pieces) :
    splitChars separator (c :: cs) = (c :: piece) :: pieces := by
  simp only [splitChars, if_neg hc, h]

theorem splitChars_eq_splitOn (separator : Char) (cs : List Char) :
    splitChars separator cs = cs.splitOn separator := by
  induction cs with
  | nil => rfl
  | cons c cs ih =>
    rw [List.splitOn_cons_eq_if_modifyHead, ← ih]
    by_cases hc : c = separator
    · subst hc
      rw [splitChars_cons_separator, if_pos (beq_self_eq_true c)]
    · obtain ⟨piece, pieces, hpieces⟩ : ∃ piece pieces, splitChars separator cs = piece :: pieces :=
        List.exists_cons_of_ne_nil (ih ▸ List.splitOn_ne_nil separator cs)
      rw [splitChars_cons hc hpieces, if_neg (by simpa using hc), hpieces, List.modifyHead_cons]

theorem splitChars_ne_nil (separator : Char) (cs : List Char) : splitChars separator cs ≠ [] := by
  rw [splitChars_eq_splitOn]
  exact List.splitOn_ne_nil separator cs

/-- The pieces around a separator. -/
theorem splitChars_append (separator : Char) (xs ys : List Char) :
    splitChars separator (xs ++ separator :: ys) =
      splitChars separator xs ++ splitChars separator ys := by
  simp only [splitChars_eq_splitOn, List.splitOn_append_cons_self]

theorem splitChars_of_notMem (h : separator ∉ cs) : splitChars separator cs = [cs] := by
  rw [splitChars_eq_splitOn, List.splitOn_eq_singleton h]

theorem exists_splitChars_cons (separator : Char) (cs : List Char) :
    ∃ piece pieces, splitChars separator cs = piece :: pieces :=
  List.exists_cons_of_ne_nil (splitChars_ne_nil separator cs)

theorem exists_splitChars_concat (separator : Char) (cs : List Char) :
    ∃ pieces piece, splitChars separator cs = pieces ++ [piece] :=
  ⟨_, _, (List.dropLast_concat_getLast (splitChars_ne_nil separator cs)).symm⟩

/-- The separator stands in no piece. -/
theorem notMem_of_mem_splitChars (h : piece ∈ splitChars separator cs) : separator ∉ piece := by
  induction cs generalizing piece with
  | nil =>
    rw [show piece = [] from List.mem_singleton.mp h]
    exact List.not_mem_nil
  | cons c cs ih =>
    by_cases hc : c = separator
    · subst hc
      rw [splitChars_cons_separator] at h
      rcases List.mem_cons.mp h with rfl | h
      · exact List.not_mem_nil
      · exact ih h
    · obtain ⟨first, rest, hfirst⟩ := exists_splitChars_cons separator cs
      rw [splitChars_cons hc hfirst] at h
      rw [hfirst] at ih
      rcases List.mem_cons.mp h with rfl | h
      · rw [List.mem_cons, not_or]
        exact ⟨Ne.symm hc, ih List.mem_cons_self⟩
      · exact ih (List.mem_cons_of_mem _ h)

theorem intercalate_splitChars (separator : Char) (cs : List Char) :
    [separator].intercalate (splitChars separator cs) = cs := by
  rw [splitChars_eq_splitOn, List.intercalate_splitOn]

theorem splitChars_intercalate (hne : pieces ≠ []) (h : ∀ piece ∈ pieces, separator ∉ piece) :
    splitChars separator ([separator].intercalate pieces) = pieces := by
  rw [splitChars_eq_splitOn, List.splitOn_intercalate separator h hne]

/-- A character behind a text comes behind its last piece. -/
theorem splitChars_concat (hc : c ≠ separator) (h : splitChars separator cs = pieces ++ [piece]) :
    splitChars separator (cs ++ [c]) = pieces ++ [piece ++ [c]] := by
  induction pieces generalizing cs with
  | nil =>
    have hmem : piece ∈ splitChars separator cs := h ▸ List.mem_singleton_self piece
    have hcs : cs = piece := by
      rw [← intercalate_splitChars separator cs, h, List.nil_append, List.intercalate_singleton]
    rw [hcs]
    refine splitChars_of_notMem fun hin => ?_
    rcases List.mem_append.mp hin with hin | hin
    · exact notMem_of_mem_splitChars hmem hin
    · exact hc (List.mem_singleton.mp hin).symm
  | cons first rest ih =>
    -- the text is the first piece, a separator, and the text of the other pieces
    have hpieces : ∀ p ∈ first :: (rest ++ [piece]), separator ∉ p := fun p hp =>
      notMem_of_mem_splitChars (h.symm ▸ hp : p ∈ splitChars separator cs)
    have hfirst : separator ∉ first := hpieces first List.mem_cons_self
    have hne : rest ++ [piece] ≠ [] := List.append_ne_nil_of_right_ne_nil _ (List.cons_ne_nil _ _)
    have hrest : splitChars separator ([separator].intercalate (rest ++ [piece])) =
        rest ++ [piece] := by
      exact splitChars_intercalate hne fun p hp => hpieces p (List.mem_cons_of_mem first hp)
    have hcs : cs = first ++ separator :: [separator].intercalate (rest ++ [piece]) := by
      rw [← intercalate_splitChars separator cs, h, List.cons_append,
        List.intercalate_cons_of_ne_nil hne, List.append_assoc, List.singleton_append]
    rw [hcs, List.append_assoc, List.cons_append, splitChars_append, splitChars_of_notMem hfirst,
      ih hrest]
    rfl

/-- Pieces one behind the other are separated where they meet. -/
theorem intercalate_append {xs ys : List (List Char)} (hxs : xs ≠ []) (hys : ys ≠ []) :
    [separator].intercalate (xs ++ ys) =
      [separator].intercalate xs ++ separator :: [separator].intercalate ys := by
  induction xs with
  | nil => exact absurd rfl hxs
  | cons x xs ih =>
    cases xs with
    | nil =>
      rw [List.singleton_append, List.intercalate_cons_of_ne_nil hys, List.intercalate_singleton,
        List.append_assoc, List.singleton_append]
    | cons x' xs =>
      rw [List.cons_append, List.cons_append, List.intercalate_cons_cons, ← List.cons_append,
        ih (List.cons_ne_nil _ _), List.intercalate_cons_cons]
      simp only [List.append_assoc]

/-- The text of some pieces in a row stands in the text of all of them. -/
theorem intercalate_isInfix {xs ys : List (List Char)} (hxs : xs ≠ []) (h : xs <:+: ys) :
    [separator].intercalate xs <:+: [separator].intercalate ys := by
  obtain ⟨before, behind, rfl⟩ := h
  have hfront : [separator].intercalate xs <:+ [separator].intercalate (before ++ xs) := by
    cases before with
    | nil => exact List.suffix_rfl
    | cons x before =>
      rw [intercalate_append (List.cons_ne_nil x before) hxs]
      exact (List.suffix_cons separator _).trans (List.suffix_append _ _)
  have hback : [separator].intercalate (before ++ xs) <+:
      [separator].intercalate (before ++ xs ++ behind) := by
    cases behind with
    | nil => rw [List.append_nil]
    | cons y behind =>
      have hne : before ++ xs ≠ [] := List.append_ne_nil_of_right_ne_nil before hxs
      rw [intercalate_append hne (List.cons_ne_nil y behind)]
      exact List.prefix_append _ _
  exact hfront.isInfix.trans hback.isInfix

/-! ## Trimming -/

theorem toList_trim (s : String) : (trim s).toList = trimChars s.toList :=
  String.toList_ofList

/-- The characters begin and end with none that is blank. -/
structure Edged (cs : List Char) : Prop where
  first : ∀ c, cs.head? = some c → isBlank c = false
  last : ∀ c, cs.getLast? = some c → isBlank c = false

/-- Nothing is dropped in front of an element that has to stay. -/
theorem dropEndWhile_append {α : Type} {p : α → Bool} {xs ys : List α}
    (hys : ∀ y ∈ ys, p y = true) (hxs : ∀ x, xs.getLast? = some x → p x = false) :
    dropEndWhile p (xs ++ ys) = xs := by
  unfold dropEndWhile
  rw [List.reverse_append, List.dropWhile_append_of_pos fun y hy => hys y (List.mem_reverse.mp hy)]
  cases hrev : xs.reverse with
  | nil => exact (List.reverse_eq_nil_iff.mp hrev).symm
  | cons x rest =>
    have hlast : xs.getLast? = some x := by rw [← List.head?_reverse, hrev, List.head?_cons]
    rw [List.dropWhile_cons_of_neg (by rw [hxs x hlast]; exact Bool.false_ne_true), ← hrev,
      List.reverse_reverse]

theorem dropEndWhile_split {α : Type} (p : α → Bool) (xs : List α) :
    ∃ ys, xs = dropEndWhile p xs ++ ys ∧ (∀ y ∈ ys, p y = true) ∧
      ∀ x, (dropEndWhile p xs).getLast? = some x → p x = false := by
  refine ⟨(xs.reverse.takeWhile p).reverse, ?_, ?_, ?_⟩
  · unfold dropEndWhile
    rw [← List.reverse_append, List.takeWhile_append_dropWhile, List.reverse_reverse]
  · intro y hy
    exact List.mem_takeWhile_imp (List.mem_reverse.mp hy)
  · intro x hx
    unfold dropEndWhile at hx
    rw [List.getLast?_reverse] at hx
    have hnot := List.head?_dropWhile_not p xs.reverse
    rw [hx] at hnot
    exact hnot

theorem trimChars_eq (hu : ∀ c ∈ u, isBlank c = true) (hm : Edged m)
    (hv : ∀ c ∈ v, isBlank c = true) : trimChars (u ++ m ++ v) = m := by
  unfold trimChars
  rw [List.append_assoc, List.dropWhile_append_of_pos hu]
  cases m with
  | nil =>
    rw [List.nil_append, List.dropWhile_eq_nil_iff.mpr hv]
    rfl
  | cons c rest =>
    have hc : ¬ isBlank c = true := by
      rw [hm.first c rfl]
      exact Bool.false_ne_true
    rw [List.cons_append, List.dropWhile_cons_of_neg hc, ← List.cons_append]
    exact dropEndWhile_append hv hm.last

theorem trimChars_split (cs : List Char) :
    ∃ u v, cs = u ++ trimChars cs ++ v ∧ (∀ c ∈ u, isBlank c = true) ∧ Edged (trimChars cs) ∧
      ∀ c ∈ v, isBlank c = true := by
  obtain ⟨v, hv, hblank, hlast⟩ := dropEndWhile_split isBlank (cs.dropWhile isBlank)
  refine ⟨cs.takeWhile isBlank, v, ?_, fun c hc => List.mem_takeWhile_imp hc, ⟨?_, hlast⟩, hblank⟩
  · rw [List.append_assoc]
    unfold trimChars
    rw [← hv, List.takeWhile_append_dropWhile]
  · intro c hc
    -- the first character that is left is the first behind the blanks
    have hfirst : (cs.dropWhile isBlank).head? = some c := by
      rw [hv, List.head?_append, show (dropEndWhile isBlank _).head? = some c from hc]
      rfl
    have hnot := List.head?_dropWhile_not isBlank cs
    rw [hfirst] at hnot
    exact hnot

theorem edged_trimChars (cs : List Char) : Edged (trimChars cs) := by
  obtain ⟨_, _, -, -, h, -⟩ := trimChars_split cs
  exact h

/-- Blanks at the ends make no difference. -/
theorem trimChars_blank (hu : ∀ c ∈ u, isBlank c = true) (hv : ∀ c ∈ v, isBlank c = true) :
    trimChars (u ++ cs ++ v) = trimChars cs := by
  obtain ⟨u', v', hcs, hu', hedged, hv'⟩ := trimChars_split cs
  generalize trimChars cs = m at hcs hedged
  subst hcs
  have hwhole : u ++ (u' ++ m ++ v') ++ v = (u ++ u') ++ m ++ (v' ++ v) := by
    simp only [List.append_assoc]
  rw [hwhole]
  refine trimChars_eq (fun c hc => ?_) hedged fun c hc => ?_
  · exact (List.mem_append.mp hc).elim (hu c) (hu' c)
  · exact (List.mem_append.mp hc).elim (hv' c) (hv c)

theorem trimChars_append (hv : ∀ c ∈ v, isBlank c = true) : trimChars (cs ++ v) = trimChars cs :=
  trimChars_blank (u := []) (fun _ hc => absurd hc List.not_mem_nil) hv

theorem trimChars_cons (hc : isBlank c = true) : trimChars (c :: cs) = trimChars cs := by
  have hall : ∀ d ∈ [c], isBlank d = true := fun d hd => (List.mem_singleton.mp hd) ▸ hc
  have hblank : trimChars ([c] ++ cs ++ []) = trimChars cs :=
    trimChars_blank hall fun _ hd => absurd hd List.not_mem_nil
  rwa [List.append_nil] at hblank

theorem trimChars_of_edged (h : Edged cs) : trimChars cs = cs := by
  have hnone : ∀ c ∈ ([] : List Char), isBlank c = true := fun _ hc => absurd hc List.not_mem_nil
  have hplain := trimChars_eq hnone h hnone
  rwa [List.append_nil] at hplain

/-- Blanks are taken away up to characters in the middle that begin and end with none. -/
theorem trimChars_around (h : Edged m) (hne : m ≠ []) :
    trimChars (u ++ m ++ v) = u.dropWhile isBlank ++ m ++ dropEndWhile isBlank v := by
  obtain ⟨after, hafter, hblank, hlast⟩ := dropEndWhile_split isBlank v
  generalize dropEndWhile isBlank v = v' at hafter hlast
  subst hafter
  have hfirst := List.head?_dropWhile_not isBlank u
  have hwhole : u ++ m ++ (v' ++ after) =
      u.takeWhile isBlank ++ (u.dropWhile isBlank ++ m ++ v') ++ after := by
    simp only [← List.append_assoc, List.takeWhile_append_dropWhile]
  rw [hwhole]
  refine trimChars_eq (fun c hc => List.mem_takeWhile_imp hc)
    ⟨fun c hc => ?_, fun c hc => ?_⟩ hblank
  · rw [List.append_assoc, List.head?_append, List.head?_append_of_ne_nil _ hne] at hc
    cases hu : (u.dropWhile isBlank).head? with
    | some d =>
      rw [hu] at hc hfirst
      cases hc
      exact hfirst
    | none =>
      rw [hu] at hc
      exact h.first c hc
  · rw [List.getLast?_append, List.getLast?_append_of_ne_nil _ hne] at hc
    cases hv : v'.getLast? with
    | some d =>
      rw [hv] at hc
      cases hc
      exact hlast _ hv
    | none =>
      rw [hv] at hc
      exact h.last c hc

theorem trimChars_isInfix (cs : List Char) : trimChars cs <:+: cs := by
  obtain ⟨u, v, h, -⟩ := trimChars_split cs
  exact ⟨u, v, h.symm⟩

/-- A character that is not blank stays in front. -/
theorem trimChars_cons_of_not_blank (hc : isBlank c = false) (cs : List Char) :
    ∃ rest, trimChars (c :: cs) = c :: rest := by
  obtain ⟨u, v, h, hu, -, hv⟩ := trimChars_split (c :: cs)
  have hblank : ∀ d, isBlank d = true → c ≠ d := by
    rintro d hd rfl
    rw [hc] at hd
    cases hd
  cases u with
  | cons d u => exact absurd (List.cons.inj h).1 (hblank d (hu d List.mem_cons_self))
  | nil =>
    cases hm : trimChars (c :: cs) with
    | cons d rest =>
      rw [hm] at h
      exact ⟨rest, by rw [(List.cons.inj h).1]⟩
    | nil =>
      rw [hm, List.nil_append, List.nil_append] at h
      exact absurd rfl (hblank c (hv c (h ▸ List.mem_cons_self)))

end BrowserFlow.Text
