import BrowserFlow.Proofs.Yaml.Margin
import BrowserFlow.Yaml.Scalar.Plain

/-!
# Plain scalars within a longer text

A plain scalar at the end of a text is the same in a longer one that goes on with room, because no
word begins in the room and what separates words counts only before another word
(`scan_beside`). Whether a line ended behind the scalar may differ, but only where the text is over.
-/

namespace BrowserFlow.Yaml.Plain

variable {m : Margin} {c c' d : Cursor} {inFlow : Bool} {indent : Int}

/-- The same was read, by cursors that meet again; where the text goes on, its lines ended alike. -/
structure Beside (m : Margin) (a b : List Char × Bool × Cursor) : Prop where
  same : b.1 = a.1
  meets : a.2.2.Meets m b.2.2
  ended : a.2.2.rest ≠ [] → b.2.1 = a.2.1

/-! ## How far is read -/

theorem breaks_reaches (fuel : Nat) (c : Cursor) : c.Reaches (breaks fuel c).2.2 := by
  induction fuel generalizing c with
  | zero => exact .refl c
  | succ fuel ih =>
    unfold breaks
    split
    · exact c.reaches_next.trans (ih c.next)
    split
    · dsimp only
      split
      · exact c.reaches_lineBreak
      · exact c.reaches_lineBreak.trans (ih _)
    · exact .refl c

theorem gap_reaches (c : Cursor) : c.Reaches (gap c).2.2 := by
  have hspaces := c.reaches_skip (c.run (· = ' ')).length
  unfold gap
  dsimp only
  split
  · have hline := hspaces.trans (Cursor.reaches_lineBreak _)
    split
    · exact hline
    · split <;> exact hline.trans (breaks_reaches _ _)
  · exact hspaces

theorem words_reaches (fuel : Nat) (before : List Char) (ended : Bool) (c : Cursor) :
    c.Reaches (words inFlow indent fuel before ended c).2.2 := by
  induction fuel generalizing before ended c with
  | zero => exact .refl c
  | succ fuel ih =>
    unfold words
    split
    · exact .refl c
    dsimp only
    split
    · exact .refl c
    have hgap := (c.reaches_skip (word inFlow c.rest).length).trans (gap_reaches _)
    split
    · exact hgap
    · exact hgap.trans (ih _ _ _)

/-- A scalar that has a word goes on from its first character. -/
theorem scan_reaches (hcomment : ¬c.peek = '#') (hword : word inFlow c.rest ≠ []) :
    c.next.Reaches (scan inFlow indent c).2.2 := by
  obtain ⟨ch, w, hw⟩ := List.exists_cons_of_ne_nil hword
  have hgap : c.next.Reaches (gap (c.skip (ch :: w).length)).2.2 :=
    (c.next.reaches_skip w.length).trans (gap_reaches _)
  rw [scan, words, if_neg hcomment, hw]
  simp only [List.isEmpty_cons, Bool.false_eq_true, if_false]
  split
  · exact hgap
  · exact hgap.trans (words_reaches _ _ _ _)

/-! ## In the middle of the text -/

/-- No word goes on in the room. -/
theorem word_append {behind : List Char} (h : ∀ ch ∈ behind, ch ∈ room) (cs : List Char) :
    word inFlow (cs ++ behind) = word inFlow cs := by
  induction cs with
  | nil =>
    cases behind with
    | nil => rfl
    | cons ch behind =>
      have hgap : isGap ch = true := of_mem_room (by decide) (h ch List.mem_cons_self)
      rw [List.nil_append, word, word, hgap, Bool.true_or, Bool.true_or, if_pos rfl]
  | cons ch cs ih =>
    have hafter : endsKey inFlow ((cs ++ behind).headD '\x00') =
        endsKey inFlow (cs.headD '\x00') := by
      cases cs with
      | cons _ _ => rfl
      | nil =>
        cases behind with
        | nil => rfl
        | cons ch behind =>
          have hgap : isGap ch = true := of_mem_room (by decide) (h ch List.mem_cons_self)
          rw [List.nil_append, List.headD_cons, List.headD_nil, endsKey, endsKey, hgap]
          rfl
    rw [List.cons_append, word, word, hafter, ih]

theorem word_room {cs : List Char} (h : ∀ ch ∈ cs, ch ∈ room) : word inFlow cs = [] :=
  word_append h []

theorem breaks_within {fuel fuel' : Nat} (h : Solid c.rest) (hfuel : c.rest.length < fuel)
    (hfuel' : c.rest.length < fuel') :
    Solid (breaks fuel c).2.2.rest ∧ breaks fuel' (c.within m) =
      ((breaks fuel c).1, (breaks fuel c).2.1, (breaks fuel c).2.2.within m) := by
  induction fuel generalizing fuel' c with
  | zero => exact absurd hfuel (Nat.not_lt_zero _)
  | succ fuel ih =>
    obtain ⟨fuel', rfl⟩ : ∃ n, fuel' = n + 1 := ⟨fuel' - 1, by omega⟩
    obtain ⟨hsolid, hline⟩ := Cursor.lineBreak_within (m := m) h
    rw [breaks, breaks, Cursor.peek_within h.ne_nil, Cursor.next_within h, hline]
    dsimp only
    rw [(Cursor.Meets.inside hsolid).atDocumentMark_eq]
    by_cases hspace : c.peek = ' '
    · simp only [if_pos hspace]
      have hlength := (Cursor.Reaches.refl c.next).length_lt h.ne_nil
      refine ih (Cursor.solid_next h ?_) (by omega) (by omega)
      rw [hspace]
      decide
    simp only [if_neg hspace]
    by_cases hbreak : isBreak c.peek = true
    · simp only [if_pos hbreak]
      by_cases hmark : c.lineBreak.2.atDocumentMark = true
      · simp only [if_pos hmark]
        exact ⟨hsolid, trivial⟩
      · simp only [if_neg hmark]
        have hlength := (Cursor.next_reaches_lineBreak hbreak).length_lt h.ne_nil
        obtain ⟨hmore, heq⟩ := ih hsolid (by omega : _ < fuel) (by omega : _ < fuel')
        exact ⟨hmore, by rw [heq]⟩
    · simp only [if_neg hbreak]
      exact ⟨h, trivial⟩

theorem gap_within (h : Solid c.rest) :
    Solid (gap c).2.2.rest ∧
      gap (c.within m) = ((gap c).1, (gap c).2.1, (gap c).2.2.within m) := by
  obtain ⟨hspaces, hskip⟩ :=
    Cursor.skipWhile_within (m := m) (p := (· = ' ')) h fun _ => isBlank_of_eq_space
  have hrun : (c.within m).run (· = ' ') = c.run (· = ' ') := Cursor.run_within hspaces.ne_nil
  unfold Cursor.skipWhile at hspaces hskip
  rw [hrun] at hskip
  obtain ⟨hsolid, hline⟩ := Cursor.lineBreak_within (m := m) hspaces
  rw [gap, gap, hrun, hskip]
  dsimp only
  rw [Cursor.peek_within hspaces.ne_nil, hline]
  generalize c.skip (c.run (· = ' ')).length = c' at *
  dsimp only
  rw [(Cursor.Meets.inside hsolid).atDocumentMark_eq]
  by_cases hbreak : isBreak c'.peek = true
  · simp only [if_pos hbreak]
    by_cases hmark : c'.lineBreak.2.atDocumentMark = true
    · simp only [if_pos hmark]
      exact ⟨hsolid, trivial⟩
    · simp only [if_neg hmark]
      obtain ⟨hmore, heq⟩ := breaks_within (m := m) hsolid (Nat.lt_succ_self _)
        (Nat.lt_succ_of_le (Cursor.length_le_within m _))
      rw [heq]
      dsimp only
      split <;> exact ⟨hmore, rfl⟩
  · simp only [if_neg hbreak]
    exact ⟨hspaces, trivial⟩

/-! ## To the end of the text -/

theorem gap_over (h : c.rest = []) : gap c = ([], false, c) := by
  have hrun : c.run (· = ' ') = [] := by
    rw [Cursor.run, h, List.takeWhile_nil]
  have hbreak : ¬isBreak c.peek = true := by
    rw [Cursor.peek, h]
    decide
  rw [gap, hrun]
  exact if_neg hbreak

/-- Behind the end of the text there is no further word. -/
theorem words_over (h : ∀ ch ∈ d.rest, ch ∈ room) (fuel : Nat) (before : List Char)
    (ended : Bool) : words inFlow indent fuel before ended d = ([], ended, d) := by
  cases fuel with
  | zero => rfl
  | succ fuel =>
    unfold words
    rw [word_room h]
    split <;> rfl

theorem words_beside {fuel fuel' : Nat} {before : List Char} {ended : Bool} (h : Solid c.rest)
    (hfuel : c.rest.length < fuel) (hfuel' : c.rest.length < fuel') :
    Beside m (words inFlow indent fuel before ended c)
      (words inFlow indent fuel' before ended (c.within m)) := by
  induction fuel generalizing fuel' before ended c with
  | zero => exact absurd hfuel (Nat.not_lt_zero _)
  | succ fuel ih =>
    obtain ⟨fuel', rfl⟩ : ∃ n, fuel' = n + 1 := ⟨fuel' - 1, by omega⟩
    have hword : word inFlow (c.within m).rest = word inFlow c.rest :=
      word_append m.behind_room c.rest
    rw [words, words, Cursor.peek_within h.ne_nil, hword]
    by_cases hcomment : c.peek = '#'
    · simp only [if_pos hcomment]
      exact ⟨rfl, .inside h, fun _ => rfl⟩
    simp only [if_neg hcomment]
    cases hw : word inFlow c.rest with
    | nil => exact ⟨rfl, .inside h, fun _ => rfl⟩
    | cons ch w =>
      simp only [List.isEmpty_cons, Bool.false_eq_true, if_false]
      have hmeets := (Cursor.Meets.inside (m := m) h).skip (ch :: w).length
      have hlength := (c.next.reaches_skip w.length).length_lt h.ne_nil
      change (c.skip (ch :: w).length).rest.length < _ at hlength
      generalize c.skip (ch :: w).length = c' at hmeets hlength ⊢
      generalize (c.within m).skip (ch :: w).length = d' at hmeets ⊢
      by_cases hover : c'.rest = []
      · -- what follows in the longer text is room, and there is no word in it
        have hpast := hmeets.past_of_reaches hover (gap_reaches d')
        simp only [gap_over hover, List.isEmpty_nil, Bool.true_or, if_true,
          words_over (hpast.room_of_over hover), List.append_nil]
        split <;> exact ⟨rfl, hpast, fun hgoes => absurd hover hgoes⟩
      · obtain ⟨hsolid, rfl⟩ := hmeets.solid hover
        obtain ⟨hgap, hwithin⟩ := gap_within (m := m) hsolid
        have hless := (gap_reaches c').length_le
        rw [hwithin]
        dsimp only
        rw [Cursor.peek_within hgap.ne_nil, Cursor.column_within]
        have hmore : Beside m (words inFlow indent fuel (gap c').1 (gap c').2.1 (gap c').2.2)
            (words inFlow indent fuel' (gap c').1 (gap c').2.1 ((gap c').2.2.within m)) :=
          ih hgap (by omega) (by omega)
        split
        · exact ⟨rfl, .inside hgap, fun _ => rfl⟩
        · exact ⟨congrArg (_ ++ ·) hmore.same, hmore.meets, hmore.ended⟩

theorem scan_beside (h : Solid c.rest) :
    Beside m (scan inFlow indent c) (scan inFlow indent (c.within m)) := by
  exact words_beside h (Nat.lt_succ_self _) (Nat.lt_succ_of_le (Cursor.length_le_within m c))

end BrowserFlow.Yaml.Plain
