import BrowserFlow.Proofs.Text.Lines
import BrowserFlow.Proofs.Text.Scan
import BrowserFlow.Reply

/-!
# The passage that is taken from a reply

What is taken from a reply is found in three steps: the fences are dropped, the blanks at the ends
go, and of the lines those are kept that make up the passage. No step undoes another one. Dropping
fences leaves no new one behind (`fenceless_dropFences`), and the blanks at the ends do not bear on
which lines are kept (`passage_trimChars`), so that the passage can be read off the lines of the
text without its fences (`toList_document`). A second cleaning finds nothing left to do, and a
passage is found again between prose and fences (`document_settled`).
-/

namespace BrowserFlow.Reply

open Text

variable {reply : String} {c : Char} {cs part rest a b : List Char} {line line' : List Char}
  {lines above within below : List (List Char)}

/-! ## Fences -/

/-- No fence stands in the characters. -/
def Fenceless (cs : List Char) : Prop :=
  ¬ ['\x60', '\x60', '\x60'] <:+: cs

/-- The characters without their fences. -/
def dropFences (cs : List Char) : List Char :=
  replaceFrom fence? 0 cs

theorem Fenceless.of_isInfix (h : Fenceless cs) (hpart : part <:+: cs) : Fenceless part :=
  fun hin => h (hin.trans hpart)

theorem fence?_eq_none (h : ¬ ['\x60', '\x60', '\x60'] <+: cs) : fence? cs = none := by
  unfold fence?
  cases hdrop : dropPrefix? ['\x60', '\x60', '\x60'] cs with
  | none => rfl
  | some rest => exact absurd ⟨rest, (dropPrefix?_eq_some.mp hdrop).symm⟩ h

/-- Nothing is put in the place of a fence. -/
theorem eq_nil_of_fence? {replacement : List Char} {taken : Nat}
    (h : fence? cs = some (replacement, taken)) : replacement = [] := by
  unfold fence? at h
  cases hdrop : dropPrefix? ['\x60', '\x60', '\x60'] cs with
  | none =>
    rw [hdrop] at h
    cases h
  | some rest =>
    rw [hdrop] at h
    exact (Prod.mk.inj (Option.some.inj h)).1.symm

theorem dropFences_cons (h : ¬ ['\x60', '\x60', '\x60'] <+: c :: cs) :
    dropFences (c :: cs) = c :: dropFences cs :=
  replaceFrom_of_none (fence?_eq_none h)

theorem dropFences_eq_self (h : Fenceless cs) : dropFences cs = cs :=
  replaceFrom_eq_self fun _ hrest _ => fence?_eq_none fun hfront =>
    h (hfront.isInfix.trans hrest.isInfix)

/-- Where no backtick stands, none comes to stand. -/
theorem not_tick_dropFences (h : ¬ ['\x60'] <+: cs) : ¬ ['\x60'] <+: dropFences cs := by
  cases cs with
  | nil => exact h
  | cons c cs =>
    have hfence : ¬ ['\x60', '\x60', '\x60'] <+: c :: cs := fun hin =>
      h ((List.take_prefix 1 ['\x60', '\x60', '\x60']).trans hin)
    rw [dropFences_cons hfence]
    rw [List.cons_prefix_cons] at h ⊢
    exact fun hin => h ⟨hin.1, List.nil_prefix⟩

/-- Where no two backticks stand, no two come to stand. -/
theorem not_ticks_dropFences (h : ¬ ['\x60', '\x60'] <+: cs) :
    ¬ ['\x60', '\x60'] <+: dropFences cs := by
  cases cs with
  | nil => exact h
  | cons c cs =>
    have hfence : ¬ ['\x60', '\x60', '\x60'] <+: c :: cs := fun hin =>
      h ((List.take_prefix 2 ['\x60', '\x60', '\x60']).trans hin)
    rw [dropFences_cons hfence]
    rw [List.cons_prefix_cons, not_and] at h ⊢
    exact fun hc => not_tick_dropFences (h hc)

/-- No fence is put together from what stood around another. -/
theorem fenceless_replaceFrom (skip : Nat) (cs : List Char) :
    Fenceless (replaceFrom fence? skip cs) := by
  induction cs generalizing skip with
  | nil => exact fun h => nomatch List.infix_nil.mp h
  | cons c cs ih =>
    cases skip with
    | succ skip => exact ih skip
    | zero =>
      cases hstep : fence? (c :: cs) with
      | some found =>
        obtain ⟨replacement, taken⟩ := found
        obtain rfl := eq_nil_of_fence? hstep
        rw [replaceFrom, hstep]
        exact ih (taken - 1)
      | none =>
        rw [replaceFrom_of_none hstep]
        intro hin
        rcases List.infix_cons_iff.mp hin with hfront | hin
        · -- a fence in front would need two backticks in front of what follows
          obtain ⟨rfl, hticks⟩ := List.cons_prefix_cons.mp hfront
          refine not_ticks_dropFences (fun hfence => ?_) hticks
          obtain ⟨rest, rfl⟩ := hfence
          cases hstep
        · exact ih 0 hin

theorem fenceless_dropFences (cs : List Char) : Fenceless (dropFences cs) :=
  fenceless_replaceFrom 0 cs

/-- A beginning of a text without a character that stands in it ends before that. -/
theorem prefix_of_prefix_append_cons (hc : c ∉ part) (h : part <+: a ++ c :: rest) :
    part <+: a := by
  rcases List.prefix_or_prefix_of_prefix h (List.prefix_append a (c :: rest)) with h' | ⟨b, rfl⟩
  · exact h'
  · rw [List.prefix_append_right_inj] at h
    cases b with
    | nil => rw [List.append_nil]
    | cons d b =>
      obtain ⟨rfl, -⟩ := List.cons_prefix_cons.mp h
      exact absurd (List.mem_append_right a List.mem_cons_self) hc

/-- Fences do not reach over the end of a line. -/
theorem dropFences_append_newline (ha : Fenceless a) :
    dropFences (a ++ '\n' :: rest) = a ++ '\n' :: dropFences rest := by
  induction a with
  | nil =>
    refine dropFences_cons fun h => ?_
    exact absurd (List.cons_prefix_cons.mp h).1 (by decide)
  | cons c a ih =>
    have hfence : ¬ ['\x60', '\x60', '\x60'] <+: c :: (a ++ '\n' :: rest) := fun h =>
      ha (prefix_of_prefix_append_cons (a := c :: a) (by decide) h).isInfix
    have hrest : Fenceless a := ha.of_isInfix (List.infix_cons List.infix_rfl)
    rw [List.cons_append, dropFences_cons hfence, ih hrest, List.cons_append]

/-! ## Lines -/

/-- Whether a line can be the first of the passage. -/
def opens (line : List Char) : Bool :=
  isItem (String.ofList line)

/-- Whether a line behind the first one can be one of the passage. -/
def stays (line : List Char) : Bool :=
  belongs (String.ofList line)

theorem opens_eq (line : List Char) : opens line = ['-'].isPrefixOf (trimChars line) := by
  unfold opens isItem trim beginsWith
  simp only [String.toList_ofList]
  rfl

theorem stays_eq (line : List Char) :
    stays line = (line.all isBlank || [' '].isPrefixOf line || ['\t'].isPrefixOf line ||
      opens line) := by
  unfold stays belongs isBlankText beginsWith opens
  rw [String.toList_ofList]
  rfl

theorem opens_nil : opens [] = false := by
  rw [opens_eq]
  rfl

theorem opens_cons (hc : isBlank c = true) : opens (c :: line) = opens line := by
  rw [opens_eq, opens_eq, trimChars_cons hc]

theorem opens_of_first (hc : isBlank c = false) : opens (c :: line) = ('-' == c) := by
  obtain ⟨rest, hrest⟩ := trimChars_cons_of_not_blank hc line
  rw [opens_eq, hrest]
  exact Bool.and_true _

theorem opens_concat (hc : isBlank c = true) : opens (line ++ [c]) = opens line := by
  rw [opens_eq, opens_eq, trimChars_append fun d hd => (List.mem_singleton.mp hd) ▸ hc]

theorem stays_of_opens (h : opens line = true) : stays line = true := by
  rw [stays_eq, h, Bool.or_true]

theorem stays_of_blank (h : line.all isBlank = true) : stays line = true := by
  rw [stays_eq, h, Bool.true_or, Bool.true_or, Bool.true_or]

theorem stays_of_first (hc : isBlank c = false) (hhyphen : c ≠ '-') :
    stays (c :: line) = false := by
  have hspace : c ≠ ' ' := fun h => absurd (h ▸ hc) (by decide)
  have htab : c ≠ '\t' := fun h => absurd (h ▸ hc) (by decide)
  rw [stays_eq, opens_of_first hc, List.all_cons, hc, beq_false_of_ne hhyphen.symm]
  simp [List.isPrefixOf, hspace.symm, htab.symm]

theorem stays_concat (hc : isBlank c = true) : stays (line ++ [c]) = stays line := by
  cases line with
  | nil =>
    have hblank : ([] ++ [c]).all isBlank = true := by simpa using hc
    rw [stays_of_blank hblank, stays_of_blank List.all_nil]
  | cons d line =>
    rw [stays_eq, stays_eq, opens_concat hc, List.all_append, List.all_cons, List.all_cons, hc]
    simp only [List.cons_append, List.isPrefixOf, List.all_nil, Bool.and_true]

theorem opens_of_dropWhile {all : List (List Char)}
    (h : all.dropWhile (!opens ·) = line :: lines) : opens line = true := by
  have hnot := List.head?_dropWhile_not (!opens ·) all
  rw [h] at hnot
  simpa using hnot

/-- The lines that make up the passage. -/
def kept (lines : List (List Char)) : List (List Char) :=
  (lines.dropWhile (!opens ·)).takeWhile stays

/-- The lines that are kept, without the blanks around them; all that there is if none is kept. -/
def passage (cs : List Char) : List Char :=
  if kept (splitChars '\n' cs) = [] then trimChars cs
  else trimChars (['\n'].intercalate (kept (splitChars '\n' cs)))

theorem passage_of_kept (h : kept (splitChars '\n' cs) = line :: lines) :
    passage cs = trimChars (['\n'].intercalate (line :: lines)) := by
  unfold passage
  rw [h, if_neg (List.cons_ne_nil line lines)]

theorem passage_of_none (h : kept (splitChars '\n' cs) = []) : passage cs = trimChars cs := by
  unfold passage
  rw [if_pos h]

theorem kept_cons_of_opens (h : opens line = true) :
    kept (line :: lines) = line :: lines.takeWhile stays := by
  unfold kept
  rw [List.dropWhile_cons_of_neg (by rw [h]; decide), List.takeWhile_cons_of_pos (stays_of_opens h)]

theorem kept_cons_of_not_opens (h : opens line = false) : kept (line :: lines) = kept lines := by
  unfold kept
  rw [List.dropWhile_cons_of_pos (by rw [h]; rfl)]

theorem kept_append (h : ∀ line ∈ above, opens line = false) :
    kept (above ++ lines) = kept lines := by
  unfold kept
  rw [List.dropWhile_append_of_pos fun line hline => by rw [h line hline]; rfl]

/-- What the last line is bears on itself alone: one that opens and stays like another is kept where
that is kept. -/
theorem kept_concat (lines : List (List Char)) (hopens : opens line = opens line')
    (hstays : stays line = stays line') :
    kept (lines ++ [line]) = kept (lines ++ [line']) ∨
      ∃ above, kept (lines ++ [line]) = above ++ [line] ∧
        kept (lines ++ [line']) = above ++ [line'] := by
  induction lines with
  | nil =>
    cases h : opens line with
    | true =>
      refine .inr ⟨[], ?_, ?_⟩
      · exact kept_cons_of_opens h
      · exact kept_cons_of_opens (hopens ▸ h)
    | false =>
      refine .inl ?_
      rw [List.nil_append, List.nil_append, kept_cons_of_not_opens h,
        kept_cons_of_not_opens (hopens ▸ h)]
  | cons first lines ih =>
    cases h : opens first with
    | false =>
      simpa only [List.cons_append, kept_cons_of_not_opens h] using ih
    | true =>
      simp only [List.cons_append, kept_cons_of_opens h, List.takeWhile_append]
      by_cases hall : (lines.takeWhile stays).length = lines.length
      · rw [if_pos hall, if_pos hall]
        cases hline : stays line with
        | true =>
          refine .inr ⟨first :: lines, ?_, ?_⟩
          · rw [List.takeWhile_cons_of_pos hline]
            rfl
          · rw [List.takeWhile_cons_of_pos (hstays ▸ hline)]
            rfl
        | false =>
          refine .inl ?_
          rw [List.takeWhile_cons_of_neg (by rw [hline]; decide),
            List.takeWhile_cons_of_neg (by rw [← hstays, hline]; decide)]
      · rw [if_neg hall, if_neg hall]
        exact .inl rfl

/-- A blank line at the end is kept behind what is kept, or it is not kept. -/
theorem kept_concat_nil (lines : List (List Char)) :
    kept (lines ++ [[]]) = kept lines ∨
      kept lines ≠ [] ∧ kept (lines ++ [[]]) = kept lines ++ [[]] := by
  induction lines with
  | nil => exact .inl (kept_cons_of_not_opens opens_nil)
  | cons first lines ih =>
    cases h : opens first with
    | false =>
      simpa only [List.cons_append, kept_cons_of_not_opens h] using ih
    | true =>
      simp only [List.cons_append, kept_cons_of_opens h, List.takeWhile_append]
      by_cases hall : (lines.takeWhile stays).length = lines.length
      · refine .inr ⟨List.cons_ne_nil _ _, ?_⟩
        rw [if_pos hall, (List.takeWhile_prefix stays).eq_of_length hall]
        rfl
      · exact .inl (by rw [if_neg hall])

theorem passage_cons (hc : isBlank c = true) : passage (c :: cs) = passage cs := by
  by_cases hline : c = '\n'
  · subst hline
    unfold passage
    rw [splitChars_cons_separator, kept_cons_of_not_opens opens_nil, trimChars_cons hc]
  · obtain ⟨first, rest, hpieces⟩ := exists_splitChars_cons '\n' cs
    have hpieces' := splitChars_cons hline hpieces
    cases h : opens first with
    | false =>
      unfold passage
      rw [hpieces', hpieces, kept_cons_of_not_opens h,
        kept_cons_of_not_opens ((opens_cons hc).trans h), trimChars_cons hc]
    | true =>
      have hkept : kept (splitChars '\n' cs) = first :: rest.takeWhile stays := by
        rw [hpieces, kept_cons_of_opens h]
      have hkept' : kept (splitChars '\n' (c :: cs)) = (c :: first) :: rest.takeWhile stays := by
        rw [hpieces', kept_cons_of_opens ((opens_cons hc).trans h)]
      have hfront : ['\n'].intercalate ((c :: first) :: rest.takeWhile stays) =
          c :: ['\n'].intercalate (first :: rest.takeWhile stays) := by
        cases rest.takeWhile stays with
        | nil => simp only [List.intercalate_singleton]
        | cons line lines => simp only [List.intercalate_cons_cons, List.cons_append]
      rw [passage_of_kept hkept, passage_of_kept hkept', hfront, trimChars_cons hc]

theorem passage_concat (hc : isBlank c = true) : passage (cs ++ [c]) = passage cs := by
  have hlast : ∀ d ∈ [c], isBlank d = true := fun d hd => (List.mem_singleton.mp hd) ▸ hc
  by_cases hline : c = '\n'
  · subst hline
    have hpieces : splitChars '\n' (cs ++ ['\n']) = splitChars '\n' cs ++ [[]] :=
      splitChars_append '\n' cs []
    unfold passage
    rw [hpieces]
    rcases kept_concat_nil (splitChars '\n' cs) with h | ⟨hne, h⟩
    · rw [h, trimChars_append hlast]
    · rw [h, if_neg hne, if_neg (List.append_ne_nil_of_left_ne_nil hne _),
        intercalate_append hne (List.cons_ne_nil _ _), List.intercalate_singleton,
        trimChars_append hlast]
  · obtain ⟨pieces, last, hpieces⟩ := exists_splitChars_concat '\n' cs
    have hpieces' := splitChars_concat hline hpieces
    unfold passage
    rw [hpieces', hpieces]
    have hopens : opens (last ++ [c]) = opens last := opens_concat hc
    rcases kept_concat pieces hopens (stays_concat hc) with h | ⟨above, h', h⟩
    · rw [h, trimChars_append hlast]
    · have hne : ∀ line : List Char, above ++ [line] ≠ [] := fun line =>
        List.append_ne_nil_of_right_ne_nil above (List.cons_ne_nil line [])
      have hback : ['\n'].intercalate (above ++ [last ++ [c]]) =
          ['\n'].intercalate (above ++ [last]) ++ [c] := by
        rcases above.eq_nil_or_concat with rfl | ⟨_, _, rfl⟩
        · simp only [List.nil_append, List.intercalate_singleton]
        · rw [intercalate_append (by simp) (List.cons_ne_nil _ _),
            intercalate_append (by simp) (List.cons_ne_nil _ _)]
          simp only [List.intercalate_singleton, List.append_assoc, List.cons_append]
      rw [h', h, if_neg (hne _), if_neg (hne _), hback, trimChars_append hlast]

/-- Blanks at the ends do not bear on the passage. -/
theorem passage_blank (ha : ∀ c ∈ a, isBlank c = true) (hb : ∀ c ∈ b, isBlank c = true) :
    passage (a ++ cs ++ b) = passage cs := by
  have hback : passage (cs ++ b) = passage cs := by
    induction b using List.reverseRecOn with
    | nil => rw [List.append_nil]
    | append_singleton b c ih =>
      rw [← List.append_assoc, passage_concat (hb c (List.mem_append_right b List.mem_cons_self)),
        ih fun d hd => hb d (List.mem_append_left [c] hd)]
  rw [List.append_assoc, ← hback]
  induction a with
  | nil => rfl
  | cons c a ih =>
    rw [List.cons_append, passage_cons (ha c List.mem_cons_self),
      ih fun d hd => ha d (List.mem_cons_of_mem c hd)]

theorem passage_trimChars (cs : List Char) : passage (trimChars cs) = passage cs := by
  obtain ⟨a, b, hcs, ha, -, hb⟩ := trimChars_split cs
  conv_rhs => rw [hcs]
  exact (passage_blank ha hb).symm

theorem edged_passage (cs : List Char) : Edged (passage cs) := by
  unfold passage
  split <;> exact edged_trimChars _

/-- What is kept are lines in a row, and they are kept again. -/
theorem kept_isInfix (lines : List (List Char)) : kept lines <:+: lines :=
  (List.takeWhile_prefix stays).isInfix.trans (List.dropWhile_suffix _).isInfix

theorem kept_kept (lines : List (List Char)) : kept (kept lines) = kept lines := by
  cases h : lines.dropWhile (!opens ·) with
  | nil =>
    unfold kept
    rw [h]
    rfl
  | cons line rest =>
    have hopens := opens_of_dropWhile h
    have hkept : kept lines = line :: rest.takeWhile stays := by
      unfold kept
      rw [h, List.takeWhile_cons_of_pos (stays_of_opens hopens)]
    rw [hkept, kept_cons_of_opens hopens, List.takeWhile_takeWhile]
    simp only [and_self, Bool.decide_eq_true]

/-- A passage that is all of a text is the passage of it. -/
theorem passage_passage (cs : List Char) : passage (passage cs) = passage cs := by
  cases h : kept (splitChars '\n' cs) with
  | nil => rw [passage_of_none h, passage_trimChars, passage_of_none h]
  | cons line lines =>
    have hmem : ∀ piece ∈ line :: lines, '\n' ∉ piece := fun piece hpiece =>
      notMem_of_mem_splitChars ((kept_isInfix _).subset (h ▸ hpiece))
    have hagain : kept (splitChars '\n' (['\n'].intercalate (line :: lines))) = line :: lines := by
      rw [splitChars_intercalate (List.cons_ne_nil line lines) hmem, ← h, kept_kept]
    rw [passage_of_kept h, passage_trimChars, passage_of_kept hagain]

theorem passage_isInfix (cs : List Char) : passage cs <:+: cs := by
  cases h : kept (splitChars '\n' cs) with
  | nil => exact passage_of_none h ▸ trimChars_isInfix cs
  | cons line lines =>
    have hin : ['\n'].intercalate (line :: lines) <:+: cs := by
      rw [← intercalate_splitChars '\n' cs]
      exact intercalate_isInfix (List.cons_ne_nil line lines) (h ▸ kept_isInfix _)
    exact passage_of_kept h ▸ (trimChars_isInfix _).trans hin

/-- The first line of a text that begins with a hyphen does so too. -/
theorem exists_lines_of_hyphen {y : String} (h : beginsWith y "-" = true) :
    ∃ piece pieces, splitChars '\n' y.toList = ('-' :: piece) :: pieces := by
  obtain ⟨rest, hrest⟩ := beginsWith_iff.mp h
  obtain ⟨piece, pieces, hpieces⟩ := exists_splitChars_cons '\n' rest
  refine ⟨piece, pieces, ?_⟩
  rw [← hrest]
  exact splitChars_cons (by decide) hpieces

/-- All lines of a passage stay. -/
theorem stays_of_passage (h : passage cs = cs) (hopens : opens line = true)
    (hlines : splitChars '\n' cs = line :: lines) : ∀ l ∈ line :: lines, stays l = true := by
  have hkept : kept (splitChars '\n' cs) = line :: lines.takeWhile stays := by
    rw [hlines, kept_cons_of_opens hopens]
  have hsplit : line :: lines = (line :: lines.takeWhile stays) ++ lines.dropWhile stays := by
    rw [List.cons_append, List.takeWhile_append_dropWhile]
  -- a line that is not kept would be missing from the passage
  have hrest : lines.dropWhile stays = [] := by
    by_contra hne
    have htrimmed := trimChars_isInfix (['\n'].intercalate (line :: lines.takeWhile stays))
    have hlength := htrimmed.length_le
    rw [← passage_of_kept hkept, h, ← intercalate_splitChars '\n' cs, hlines, hsplit,
      intercalate_append (List.cons_ne_nil _ _) hne, List.length_append,
      List.length_cons] at hlength
    omega
  intro l hl
  rcases List.mem_cons.mp hl with rfl | hl
  · exact stays_of_opens hopens
  · exact List.dropWhile_eq_nil_iff.mp hrest l hl

/-- The passage between lines that do not open one and a line that ends it. -/
theorem kept_between (habove : ∀ l ∈ above, opens l = false) (hopens : opens line = true)
    (hwithin : ∀ l ∈ within, stays l = true)
    (hbelow : ∀ l, below.head? = some l → stays l = false) :
    kept (above ++ (line :: within ++ below)) = line :: within := by
  rw [kept_append habove, List.cons_append, kept_cons_of_opens hopens,
    List.takeWhile_append_of_pos hwithin]
  cases below with
  | nil => rw [List.takeWhile_nil, List.append_nil]
  | cons l below =>
    rw [List.takeWhile_cons_of_neg (by rw [hbelow l rfl]; decide), List.append_nil]

theorem blank_intercalate (h : ∀ l ∈ lines, l.all isBlank = true) :
    ∀ c ∈ ['\n'].intercalate lines, isBlank c = true := by
  induction lines with
  | nil => exact fun _ hc => absurd hc List.not_mem_nil
  | cons line lines ih =>
    have hline := List.all_eq_true.mp (h line List.mem_cons_self)
    cases lines with
    | nil => rwa [List.intercalate_singleton]
    | cons line' lines =>
      intro c hc
      rw [List.intercalate_cons_cons, List.append_assoc, List.mem_append, List.mem_append] at hc
      rcases hc with hc | hc | hc
      · exact hline c hc
      · exact (List.mem_singleton.mp hc) ▸ rfl
      · exact ih (fun l hl => h l (List.mem_cons_of_mem line hl)) c hc

/-! ## Replies -/

theorem toList_unfenced (reply : String) :
    (unfenced reply).toList = trimChars (dropFences reply.toList) := by
  unfold unfenced trim replaceAll dropFences
  rw [String.toList_ofList, String.toList_ofList]

theorem toList_document (reply : String) :
    (document reply).toList = passage (dropFences reply.toList) := by
  have hlines : (Text.lines (unfenced reply)).dropWhile (!isItem ·) =
      ((splitChars '\n' (unfenced reply).toList).dropWhile (!opens ·)).map String.ofList := by
    simp only [Text.lines, List.dropWhile_map, Function.comp_def, opens]
  have hedged := edged_trimChars (dropFences reply.toList)
  rw [← passage_trimChars, ← toList_unfenced] at *
  unfold document
  dsimp only
  rw [hlines]
  cases h : (splitChars '\n' (unfenced reply).toList).dropWhile (!opens ·) with
  | nil =>
    have hnone : kept (splitChars '\n' (unfenced reply).toList) = [] := by
      unfold kept
      rw [h, List.takeWhile_nil]
    rw [passage_of_none hnone, trimChars_of_edged hedged]
    rfl
  | cons line lines =>
    have hopens : opens line = true := opens_of_dropWhile h
    have hkept : kept (splitChars '\n' (unfenced reply).toList) =
        line :: lines.takeWhile stays := by
      unfold kept
      rw [h, List.takeWhile_cons_of_pos (stays_of_opens hopens)]
    have htaken : ((line :: lines).map String.ofList).takeWhile belongs =
        (line :: lines.takeWhile stays).map String.ofList := by
      rw [← List.takeWhile_cons_of_pos (stays_of_opens hopens), List.takeWhile_map]
      rfl
    rw [passage_of_kept hkept, List.map_cons]
    dsimp only
    rw [← List.map_cons, htaken]
    unfold trim
    rw [String.toList_ofList, String.toList_intercalate, List.map_map]
    simp only [Function.comp_def, String.toList_ofList, List.map_id']
    rfl

theorem fenceless_document (reply : String) : Fenceless (document reply).toList := by
  rw [toList_document]
  exact (fenceless_dropFences _).of_isInfix (passage_isInfix _)

/-- A document that is cleaned already is its own passage. -/
theorem passage_of_document (h : document reply = reply) : passage reply.toList = reply.toList := by
  have hfence : Fenceless reply.toList := h ▸ fenceless_document reply
  have hclean := toList_document reply
  rwa [h, dropFences_eq_self hfence, eq_comm] at hclean

theorem document_document (reply : String) : document (document reply) = document reply := by
  rw [← String.toList_inj, toList_document, dropFences_eq_self (fenceless_document reply),
    toList_document, passage_passage]

/-- Between two fences the lines are the same as between two blank lines. -/
theorem dropFences_around {before within behind : List Char} (hbefore : Fenceless before)
    (hwithin : Fenceless within) (hbehind : Fenceless behind) :
    dropFences (before ++ "\n```yaml\n".toList ++ within ++ "\n```\n".toList ++ behind) =
      before ++ '\n' :: '\n' :: (within ++ '\n' :: '\n' :: behind) := by
  have hend : ∀ rest, dropFences ('\n' :: rest) = '\n' :: dropFences rest := fun rest =>
    dropFences_append_newline (a := []) fun h => nomatch List.infix_nil.mp h
  have hopening : ∀ rest, dropFences ("```yaml".toList ++ '\n' :: rest) = '\n' :: dropFences rest :=
    fun rest => (replaceFrom_of_find (n := 6) rfl).trans (hend rest)
  have hclosing : ∀ rest, dropFences ("```".toList ++ '\n' :: rest) = '\n' :: dropFences rest :=
    fun rest => (replaceFrom_of_find (n := 2) rfl).trans (hend rest)
  have hwhole : before ++ "\n```yaml\n".toList ++ within ++ "\n```\n".toList ++ behind =
      before ++ '\n' :: ("```yaml".toList ++ '\n' ::
        (within ++ '\n' :: ("```".toList ++ '\n' :: behind))) := by
    simp only [List.append_assoc]
    rfl
  rw [hwhole, dropFences_append_newline hbefore, hopening, dropFences_append_newline hwithin,
    hclosing, dropFences_eq_self hbehind]

theorem fenceless_of_includes {s : String} (h : includes s "```" = false) :
    Fenceless s.toList := by
  intro hin
  rw [includes_iff.mpr (show "```".toList <:+: s.toList from hin)] at h
  cases h

/-- A passage is found again between lines that do not open one and a line that ends it. -/
theorem passage_around {before within behind : List Char} (hwithin : passage within = within)
    (hlines : splitChars '\n' within = line :: lines) (hopens : opens line = true)
    (hbefore : ∀ l ∈ splitChars '\n' before, opens l = false)
    (hbehind : ∀ l, ((splitChars '\n' behind).dropWhile (·.all isBlank)).head? = some l →
      stays l = false) :
    passage (before ++ '\n' :: '\n' :: (within ++ '\n' :: '\n' :: behind)) = within := by
  generalize hblanks : (splitChars '\n' behind).takeWhile (·.all isBlank) = blanks
  generalize hbelow : (splitChars '\n' behind).dropWhile (·.all isBlank) = below at hbehind
  have hsplit : splitChars '\n' behind = blanks ++ below := by
    rw [← hblanks, ← hbelow, List.takeWhile_append_dropWhile]
  have hblank : ∀ l ∈ [] :: blanks, l.all isBlank = true := by
    intro l hl
    rcases List.mem_cons.mp hl with rfl | hl
    · rfl
    · rw [← hblanks] at hl
      exact List.mem_takeWhile_imp (p := fun l : List Char => l.all isBlank) hl
  have hstays : ∀ l ∈ lines ++ [] :: blanks, stays l = true := by
    intro l hl
    rcases List.mem_append.mp hl with hl | hl
    · exact stays_of_passage hwithin hopens hlines l (List.mem_cons_of_mem line hl)
    · exact stays_of_blank (hblank l hl)
  have habove : ∀ l ∈ splitChars '\n' before ++ [[]], opens l = false := by
    intro l hl
    rcases List.mem_append.mp hl with hl | hl
    · exact hbefore l hl
    · rw [List.mem_singleton.mp hl, opens_nil]
  have hwhole : splitChars '\n' (before ++ '\n' :: '\n' :: (within ++ '\n' :: '\n' :: behind)) =
      (splitChars '\n' before ++ [[]]) ++ (line :: (lines ++ [] :: blanks) ++ below) := by
    rw [splitChars_append, splitChars_cons_separator, splitChars_append, splitChars_cons_separator,
      hlines, hsplit]
    simp only [List.append_assoc, List.cons_append, List.nil_append]
  -- the blank lines behind the passage are kept with it, and go with the blanks at its end
  have hkept := hwhole ▸ kept_between habove hopens hstays hbehind
  rw [passage_of_kept hkept, ← List.cons_append, ← hlines,
    intercalate_append (splitChars_ne_nil _ _) (List.cons_ne_nil _ _), intercalate_splitChars]
  have hend : ∀ c ∈ '\n' :: ['\n'].intercalate ([] :: blanks), isBlank c = true := by
    intro c hc
    rcases List.mem_cons.mp hc with rfl | hc
    · rfl
    · exact blank_intercalate hblank c hc
  rw [trimChars_append hend, trimChars_of_edged (hwithin ▸ edged_passage within)]

/-- Cleaning a reply that has been cleaned changes nothing. And a clean document that begins with a
hyphen is found again, as it is, in a reply that puts it into a block of code, if none of the lines
before the block begins with a hyphen and the first thing behind it is something else than that. -/
theorem document_settled :
    (∀ reply, document (document reply) = document reply) ∧
      ∀ y p q : String, document y = y → beginsWith y "-" = true →
        includes p "```" = false → includes q "```" = false →
        (∀ line ∈ Text.lines p, isItem line = false) →
        (∀ line, (Text.lines q).find? (!isBlankText ·) = some line →
          ∃ c rest, line.toList = c :: rest ∧ isBlank c = false ∧ c ≠ '-') →
        document (p ++ "\n```yaml\n" ++ y ++ "\n```\n" ++ q) = y := by
  refine ⟨document_document, fun y p q hy hfirst hp hq hbefore hbehind => ?_⟩
  have hwithin := passage_of_document hy
  obtain ⟨piece, pieces, hlines⟩ := exists_lines_of_hyphen hfirst
  have hopens : opens ('-' :: piece) = true := opens_of_first rfl
  have hbefore' : ∀ l ∈ splitChars '\n' p.toList, opens l = false := fun l hl =>
    hbefore _ (List.mem_map_of_mem hl)
  have hbehind' : ∀ l, ((splitChars '\n' q.toList).dropWhile (·.all isBlank)).head? = some l →
      stays l = false := by
    intro l hl
    have hfind : (Text.lines q).find? (!isBlankText ·) = some (String.ofList l) := by
      unfold Text.lines
      rw [List.find?_map, ← Option.map_some, ← hl, ← List.find?_not_eq_head?_dropWhile]
      simp only [Function.comp_def, isBlankText, String.toList_ofList]
    obtain ⟨c, rest, hline, hc, hhyphen⟩ := hbehind _ hfind
    rw [String.toList_ofList] at hline
    exact hline ▸ stays_of_first hc hhyphen
  rw [← String.toList_inj, toList_document]
  simp only [String.toList_append]
  rw [dropFences_around (fenceless_of_includes hp) (hy ▸ fenceless_document y)
    (fenceless_of_includes hq), passage_around hwithin hlines hopens hbefore' hbehind']

theorem document_settled_greeting :
    document (document "Sure!\n- press: End\nDone.") = document "Sure!\n- press: End\nDone." ∧
      document ("Sure! One step:" ++ "\n```yaml\n" ++ "- press: End" ++ "\n```\n" ++
        "\nPress it once.") = "- press: End" := by
  have hbehind : (Text.lines "\nPress it once.").find? (!isBlankText ·) =
      some "Press it once." := by decide +kernel
  refine ⟨document_settled.1 _, document_settled.2 "- press: End" "Sure! One step:"
    "\nPress it once." (by decide +kernel) (by decide +kernel) (by decide +kernel)
    (by decide +kernel) (by decide +kernel) fun line hline => ?_⟩
  obtain rfl : "Press it once." = line := Option.some.inj (hbehind.symm.trans hline)
  exact ⟨'P', "ress it once.".toList, rfl, rfl, by decide⟩

end BrowserFlow.Reply
