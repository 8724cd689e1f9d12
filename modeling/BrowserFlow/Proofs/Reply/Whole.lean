import BrowserFlow.Proofs.Document.Joining
import BrowserFlow.Proofs.Reply.Passage
import BrowserFlow.Proofs.Yaml.Frame

/-!
# Replies that are documents

A reply may be a document already, without fences and prose. What cleaning then takes away is all
right if it is nothing that the document says: lines with comments in front of the first step, and
room at the end (`Bare`). The text that is left is read as the whole one was, with the same actions
and the same warnings (`load_document_of_bare`).

Cleaning goes by the lines and not by the language of the document, so it does take away more. It
ends at the first line behind the steps that does not look like part of one, whatever comes after it
(`document_cut`), and a comment between two steps is such a line (`not_document_loads`).
-/

namespace BrowserFlow.Reply

open Text Yaml

variable {t : String} {c : Char} {cs rest : List Char} {line : List Char}
  {lines above below : List (List Char)}

/-- A text of which cleaning takes away nothing but remarks in front and room behind. -/
structure Bare (t : String) : Prop where
  /-- There is no fence. -/
  fence : includes t "```" = false
  /-- The first line with a step is not indented. -/
  first : ∀ line, (Text.lines t).find? isItem = some line → beginsWith line "-" = true
  /-- Nothing is said in front of it. -/
  above : ∀ line, (Text.lines t).find? isItem = some line →
    ∀ l ∈ (Text.lines t).takeWhile (!isItem ·), isRemark l.toList = true
  /-- The lines behind it belong to the steps. -/
  below : ∀ l ∈ (Text.lines t).dropWhile (!isItem ·), belongs l = true
  /-- A text without such a line begins with what it says. -/
  front : (Text.lines t).find? isItem = none →
    ∃ c, t.toList.head? = some c ∧ isBlank c = false ∧ c ≠ '\uFEFF'
  /-- The blanks at the end are spaces and line breaks. -/
  behind : ∀ c ∈ t.toList.reverse.takeWhile isBlank, c ∈ room
  /-- They are no part of the last scalar. -/
  last : ∀ ts, tokens t = .ok ts → settled ts = true

/-! ## What is taken away -/

theorem closedLines_append (above : List (List Char)) (hlines : lines ≠ []) :
    closedLines above ++ ['\n'].intercalate lines = ['\n'].intercalate (above ++ lines) := by
  induction above with
  | nil => rfl
  | cons line above ih =>
    have hne : above ++ lines ≠ [] := List.append_ne_nil_of_right_ne_nil above hlines
    calc closedLines (line :: above) ++ ['\n'].intercalate lines
        = line ++ ['\n'] ++ (closedLines above ++ ['\n'].intercalate lines) := by
          rw [closedLines, List.flatMap_cons, List.append_assoc]
          rfl
      _ = ['\n'].intercalate ([line] ++ (above ++ lines)) := by
          rw [ih, intercalate_append (List.cons_ne_nil _ _) hne, List.intercalate_singleton,
            List.append_assoc]
          rfl

/-- Behind a first character that is not blank, only blanks at the end are trimmed. -/
theorem exists_trimChars_append (hc : isBlank c = false) (cs : List Char) :
    ∃ behind, c :: cs = trimChars (c :: cs) ++ behind ∧ (∀ d ∈ behind, isBlank d = true) ∧
      (trimChars (c :: cs)).head? = some c ∧
      ∃ d, (trimChars (c :: cs)).getLast? = some d ∧ isBlank d = false := by
  obtain ⟨rest, hrest⟩ := trimChars_cons_of_not_blank hc cs
  obtain ⟨front, behind, hsplit, hfront, hedged, hbehind⟩ := trimChars_split (c :: cs)
  obtain rfl : front = [] := by
    cases front with
    | nil => rfl
    | cons d front =>
      obtain rfl : c = d := (List.cons.inj hsplit).1
      rw [hfront c List.mem_cons_self] at hc
      cases hc
  refine ⟨behind, hsplit, hbehind, by rw [hrest, List.head?_cons], ?_⟩
  have hlast := List.getLast?_eq_some_getLast (hrest ▸ List.cons_ne_nil c rest)
  exact ⟨_, hlast, hedged.last _ hlast⟩

/-- Blanks behind a text are among those at its end. -/
theorem mem_takeWhile_reverse {behind : List Char} (hcs : cs = rest ++ behind)
    (hbehind : ∀ d ∈ behind, isBlank d = true) (hc : c ∈ behind) :
    c ∈ cs.reverse.takeWhile isBlank := by
  rw [hcs, List.reverse_append,
    List.takeWhile_append_of_pos fun d hd => hbehind d (List.mem_reverse.mp hd)]
  exact List.mem_append_left _ (List.mem_reverse.mpr hc)

theorem toList_document_of_fence (h : includes t "```" = false) :
    (document t).toList = passage t.toList := by
  rw [toList_document, dropFences_eq_self (fenceless_of_includes h)]

/-- Of lines that stay behind a first one that begins with a hyphen, nothing but blanks at the end
is taken away. -/
theorem exists_passage_append (hlines : splitChars '\n' cs = above ++ ('-' :: line) :: within)
    (habove : ∀ l ∈ above, opens l = false) (hwithin : ∀ l ∈ within, stays l = true) :
    ∃ behind, cs = closedLines above ++ passage cs ++ behind ∧ (∀ d ∈ behind, isBlank d = true) ∧
      (passage cs).head? = some '-' ∧
      ∃ d, (passage cs).getLast? = some d ∧ isBlank d = false := by
  have hopens : opens ('-' :: line) = true := opens_of_first rfl
  have hkept : kept (above ++ (('-' :: line) :: within ++ [])) = ('-' :: line) :: within :=
    kept_between habove hopens hwithin fun _ hl => nomatch hl
  rw [List.append_nil, ← hlines] at hkept
  obtain ⟨rest, hrest⟩ : ∃ rest, ['\n'].intercalate (('-' :: line) :: within) = '-' :: rest := by
    cases within with
    | nil => exact ⟨line, List.intercalate_singleton⟩
    | cons line' within => exact ⟨_, List.intercalate_cons_cons⟩
  obtain ⟨behind, hsplit, hblank, hends⟩ := exists_trimChars_append (c := '-') (by decide) rest
  rw [← hrest] at hsplit hends
  rw [passage_of_kept hkept]
  refine ⟨behind, ?_, hblank, hends⟩
  rw [List.append_assoc, ← hsplit, closedLines_append above (List.cons_ne_nil _ _), ← hlines,
    intercalate_splitChars]

theorem find?_isItem (t : String) : (Text.lines t).find? isItem =
    ((splitChars '\n' t.toList).dropWhile (!opens ·)).head?.map String.ofList := by
  rw [List.find?_eq_head?_dropWhile_not, ← List.head?_map]
  simp only [Text.lines, List.dropWhile_map, Function.comp_def, opens]

/-- Cleaning takes away remarks in front and room behind. -/
theorem Bare.framed (h : Bare t) :
    ∃ lines behind, t.toList = closedLines lines ++ (document t).toList ++ behind ∧
      (∀ line ∈ lines, isRemark line = true) ∧ (∀ c ∈ behind, c ∈ room) ∧
      (document t).toList.head? ≠ some '\uFEFF' ∧
      ∃ c, (document t).toList.getLast? = some c ∧ isBlank c = false := by
  obtain ⟨hfence, hfirst, habove, hbelow, hfront, hbehind, -⟩ := h
  rw [find?_isItem] at hfirst habove hfront
  simp only [Text.lines, List.takeWhile_map, List.dropWhile_map, List.forall_mem_map,
    Function.comp_def, String.toList_ofList] at habove hbelow
  change ∀ line, _ → ∀ l ∈ (splitChars '\n' t.toList).takeWhile (!opens ·), _ at habove
  change ∀ l ∈ (splitChars '\n' t.toList).dropWhile (!opens ·), stays l = true at hbelow
  rw [toList_document_of_fence hfence]
  cases hdrop : (splitChars '\n' t.toList).dropWhile (!opens ·) with
  | nil =>
    rw [hdrop] at hfront
    have hkept : kept (splitChars '\n' t.toList) = [] := by
      rw [kept, hdrop, List.takeWhile_nil]
    obtain ⟨c, hhead, hc, hmark⟩ := hfront rfl
    obtain ⟨rest, hrest⟩ := List.head?_eq_some_iff.mp hhead
    obtain ⟨behind, hsplit, hblank, hhead', hlast⟩ := exists_trimChars_append hc rest
    rw [← hrest] at hsplit hhead' hlast
    rw [passage_of_none hkept]
    refine ⟨[], behind, hsplit, fun _ hl => absurd hl List.not_mem_nil,
      fun d hd => hbehind d (mem_takeWhile_reverse hsplit hblank hd), ?_, hlast⟩
    rw [hhead']
    exact fun hmark' => hmark (Option.some.inj hmark')
  | cons first below =>
    rw [hdrop] at hfirst habove hbelow
    obtain ⟨line, hline⟩ := beginsWith_iff.mp (hfirst _ rfl)
    obtain rfl : '-' :: line = first := hline.trans String.toList_ofList
    have hlines := List.takeWhile_append_dropWhile (p := (!opens ·)) (l := splitChars '\n' t.toList)
    rw [hdrop] at hlines
    obtain ⟨behind, hsplit, hblank, hhead, hlast⟩ := exists_passage_append hlines.symm
      (fun l hl => by simpa using List.mem_takeWhile_imp hl)
      fun l hl => hbelow l (List.mem_cons_of_mem _ hl)
    refine ⟨_, behind, hsplit, habove _ rfl,
      fun d hd => hbehind d (mem_takeWhile_reverse hsplit hblank hd), ?_, hlast⟩
    rw [hhead]
    exact fun hmark => absurd (Option.some.inj hmark) (by decide)

/-- A document ends, for cleaning, in front of the first line that does not look like part of one;
what comes behind that line is lost. -/
theorem document_cut {y l behind : String} (hy : document y = y) (hfirst : beginsWith y "-" = true)
    (hfence : includes (y ++ "\n" ++ l ++ "\n" ++ behind) "```" = false)
    (hnewline : '\n' ∉ l.toList) (hl : belongs l = false) :
    document (y ++ "\n" ++ l ++ "\n" ++ behind) = y := by
  have hwithin := passage_of_document hy
  obtain ⟨piece, pieces, hlines⟩ := exists_lines_of_hyphen hfirst
  have hopens : opens ('-' :: piece) = true := opens_of_first rfl
  have hends : stays l.toList = false := by
    unfold stays
    rw [String.ofList_toList, hl]
  have hwhole : splitChars '\n' (y ++ "\n" ++ l ++ "\n" ++ behind).toList =
      [] ++ (('-' :: piece) :: pieces ++ l.toList :: splitChars '\n' behind.toList) := by
    simp only [String.toList_append, List.append_assoc]
    change splitChars '\n' (y.toList ++ '\n' :: (l.toList ++ '\n' :: behind.toList)) = _
    rw [splitChars_append, hlines, splitChars_append, splitChars_of_notMem hnewline]
    rfl
  have hstays := stays_of_passage hwithin hopens hlines
  have hkept : kept ([] ++ (('-' :: piece) :: pieces ++
      l.toList :: splitChars '\n' behind.toList)) = ('-' :: piece) :: pieces :=
    kept_between (fun _ hmem => absurd hmem List.not_mem_nil) hopens
      (fun line hline => hstays line (List.mem_cons_of_mem _ hline))
      fun line hline => (Option.some.inj hline) ▸ hends
  rw [← hwhole] at hkept
  rw [← String.toList_inj, toList_document_of_fence hfence, passage_of_kept hkept, ← hlines,
    intercalate_splitChars, trimChars_of_edged (hwithin ▸ edged_passage y.toList)]

/-! ## What is left -/

/-- A text is read as actions by its tokens alone. -/
theorem load_of_tokens {registry : Registry} {t' : String} {actions : List Action}
    (htokens : tokens t' = tokens t) (h : (Document.load registry t).2 = .ok actions) :
    Document.load registry t' = Document.load registry t := by
  obtain ⟨entries, hentries, -⟩ := Document.load_ok_iff.mp h
  unfold Document.load
  rw [load_congr htokens, hentries]
  rfl

/-- How many actions a text is read as tells that it is read as actions. -/
theorem exists_actions (registry : Registry) (t : String) (n : Nat)
    (h : ((Document.load registry t).2.toOption.any (·.length == n)) = true) :
    ∃ warnings actions, Document.load registry t = (warnings, .ok actions) ∧
      actions.length = n := by
  cases hload : Document.load registry t with
  | mk warnings result =>
    rw [hload] at h
    cases result with
    | error f => cases h
    | ok actions => exact ⟨warnings, actions, rfl, of_decide_eq_true h⟩

/-- A reply that is nothing but a document is read as the same actions, with the same warnings, when
it has been cleaned. -/
theorem load_document_of_bare {registry : Registry} {warnings : List String} {actions : List Action}
    (hbare : Bare t) (h : Document.load registry t = (warnings, .ok actions)) :
    Document.load registry (document t) = (warnings, .ok actions) := by
  have hactions : (Document.load registry t).2 = .ok actions := by rw [h]
  obtain ⟨entries, hentries, -⟩ := Document.load_ok_iff.mp hactions
  obtain ⟨ts, hts⟩ := exists_tokens_of_load hentries
  obtain ⟨lines, behind, hframe, hlines, hbehind, hmark, hlast⟩ := hbare.framed
  have hdocument := tokens_framed hframe hlines hbehind hmark hlast hts (hbare.last ts hts)
  rw [load_of_tokens (hdocument.trans hts.symm) hactions, h]

/-- Two steps under a comment, with a blank line between them and a line break at the end. -/
theorem load_document_of_bare_commented :
    ∃ warnings actions, actions.length = 2 ∧
      Document.load .standard "# steps\n- press: End\n\n- press: Home\n" =
        (warnings, .ok actions) ∧
      Document.load .standard (document "# steps\n- press: End\n\n- press: Home\n") =
        (warnings, .ok actions) := by
  have hfind : (Text.lines "# steps\n- press: End\n\n- press: Home\n").find? isItem =
      some "- press: End" := by decide +kernel
  have hlast : (tokens "# steps\n- press: End\n\n- press: Home\n").toOption.any settled = true := by
    decide +kernel
  have hends : ("# steps\n- press: End\n\n- press: Home\n".toList.reverse.takeWhile isBlank).all
      room.contains = true := by decide +kernel
  have hbare : Bare "# steps\n- press: End\n\n- press: Home\n" := {
    fence := by decide +kernel
    first := fun line hline => by
      obtain rfl : "- press: End" = line := Option.some.inj (hfind.symm.trans hline)
      decide +kernel
    above := fun _ _ => by decide +kernel
    below := by decide +kernel
    front := fun hnone => by
      rw [hfind] at hnone
      cases hnone
    behind := fun c hc => List.contains_iff_mem.mp (List.all_eq_true.mp hends c hc)
    last := fun ts hts => by
      rw [hts] at hlast
      exact hlast }
  obtain ⟨warnings, actions, hload, hlength⟩ := exists_actions .standard
    "# steps\n- press: End\n\n- press: Home\n" 2 (by decide +kernel)
  exact ⟨warnings, actions, hlength, hload, load_document_of_bare hbare hload⟩

/-- A comment between two steps ends the document. -/
theorem not_document_loads :
    ¬ ∀ t warnings actions, includes t "```" = false →
      Document.load .standard t = (warnings, .ok actions) →
      (Document.load .standard (document t)).2 = .ok actions := by
  intro h
  have hcut : ((Document.load .standard
      (document "- press: End\n# next\n- press: Home")).2.toOption.any (·.length == 1)) = true := by
    decide +kernel
  obtain ⟨warnings, actions, hload, htwo⟩ := exists_actions .standard
    "- press: End\n# next\n- press: Home" 2 (by decide +kernel)
  rw [h _ warnings actions (by decide +kernel) hload] at hcut
  have hone : actions.length = 1 := of_decide_eq_true hcut
  omega

end BrowserFlow.Reply
