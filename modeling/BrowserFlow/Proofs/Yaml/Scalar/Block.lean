import BrowserFlow.Proofs.Outcomes
import BrowserFlow.Proofs.Yaml.Margin
import BrowserFlow.Yaml.Scalar.Block

/-!
# Block scalars within a longer text

A block scalar is the one kind of scalar that can keep what stands behind a text: the spaces at the
end of its last line, the break behind that, and with the right mark the empty lines too. So what is
read in the longer text is what is read in the text itself and perhaps some room
(`scan_refines`); it is the same where the text goes on behind the scalar.

A line of the scalar is read first, and then what is between it and the next (`afterLine`). This is
where the two readers part.
-/

namespace BrowserFlow.Yaml.Block

variable {m : Margin} {c c' d : Cursor} {folded : Bool} {indent : Nat}

/-- Only room. -/
def Roomy (cs : List Char) : Prop :=
  ∀ ch ∈ cs, ch ∈ room

theorem Roomy.nil : Roomy [] :=
  fun _ h => nomatch h

theorem Roomy.append {cs ds : List Char} (h : Roomy cs) (h' : Roomy ds) : Roomy (cs ++ ds) :=
  fun ch hch => (List.mem_append.mp hch).elim (h ch) (h' ch)

theorem Roomy.of_suffix {cs ds : List Char} (h : Roomy cs) (hds : ds <:+ cs) : Roomy ds :=
  fun ch hch => h ch (hds.subset hch)

theorem Roomy.singleton {ch : Char} (h : ch ∈ room) : Roomy [ch] :=
  fun _ hch => List.mem_singleton.mp hch ▸ h

theorem roomy_lineBreak (c : Cursor) : Roomy c.lineBreak.1 := by
  unfold Cursor.lineBreak
  split
  · exact .singleton (mem_room_of_isBreak rfl)
  · next ch rest _ _ =>
    split
    · exact .singleton (mem_room_of_isBreak rfl)
    split
    · next hbreak => exact .singleton (mem_room_of_isBreak hbreak)
    · exact .nil
  · exact .nil

/-! ## Indicators -/

/-- The indicators at the cursor, and what is behind them. -/
def indicators (c : Cursor) : Chomping × Option Nat × Cursor :=
  match chomping? c.peek with
  | some k =>
    match increment? c.next.peek with
    | some n => (k, some n, c.next.next)
    | none => (k, none, c.next)
  | none =>
    match increment? c.peek with
    | some n =>
      match chomping? c.next.peek with
      | some k => (k, some n, c.next.next)
      | none => (.clip, some n, c.next)
    | none => (.clip, none, c)

theorem header_eq (c : Cursor) :
    header c =
      if (indicators c).2.1 = some 0 then .error .malformed
      else if isSpaceOrEnd (indicators c).2.2.peek then .ok (indicators c)
      else .error .malformed := by
  unfold header indicators
  dsimp only
  cases chomping? c.peek with
  | some k =>
    cases increment? c.next.peek with
    | some n => dsimp only; split <;> rfl
    | none => rfl
  | none =>
    cases increment? c.peek with
    | some n => cases chomping? c.next.peek <;> (dsimp only; split <;> rfl)
    | none => rfl

/-- The same indicators were read, by cursors that meet again. -/
structure Beside (m : Margin) (a b : Chomping × Option Nat × Cursor) : Prop where
  chomping : a.1 = b.1
  increment : a.2.1 = b.2.1
  meets : a.2.2.Meets m b.2.2

theorem indicators_beside (h : c.Meets m d) : Beside m (indicators c) (indicators d) := by
  have hchomping : ∀ {c d : Cursor}, c.Meets m d → chomping? d.peek = chomping? c.peek :=
    fun h => h.peek_eq (by decide)
  have hincrement : ∀ {c d : Cursor}, c.Meets m d → increment? d.peek = increment? c.peek :=
    fun h => h.peek_eq (by decide)
  unfold indicators
  rw [hchomping h, hchomping h.next, hincrement h, hincrement h.next]
  split
  · split <;> exact ⟨rfl, rfl, by first | exact h.next.next | exact h.next⟩
  · split
    · split <;> exact ⟨rfl, rfl, by first | exact h.next.next | exact h.next⟩
    · exact ⟨rfl, rfl, h⟩

theorem indicators_reaches (c : Cursor) : c.Reaches (indicators c).2.2 := by
  have hnext := c.reaches_next
  have hnext' := hnext.trans c.next.reaches_next
  unfold indicators
  split
  · split <;> assumption
  · split
    · split <;> assumption
    · exact .refl c

theorem header_refines (h : c.Meets m d) : Refines (Beside m) (header c) (header d) := by
  have hbeside := indicators_beside h
  rw [header_eq, header_eq]
  refine .ite ?_ (fun _ => .error) fun _ => .ite ?_ (fun _ => .ok hbeside) fun _ => .error
  · rw [hbeside.increment]
  · rw [hbeside.meets.peek_eq (f := isSpaceOrEnd) (by decide)]

/-! ## Empty lines and indentations -/

theorem leading_reaches (fuel widest : Nat) (c : Cursor) :
    c.Reaches (leading fuel widest c).2.2 := by
  induction fuel generalizing widest c with
  | zero => exact .refl c
  | succ fuel ih =>
    unfold leading
    split
    · exact c.reaches_next.trans (ih _ _)
    split
    · exact c.reaches_lineBreak.trans (ih _ _)
    · exact .refl c

theorem leading_roomy (fuel widest : Nat) (c : Cursor) : Roomy (leading fuel widest c).1 := by
  induction fuel generalizing widest c with
  | zero => exact .nil
  | succ fuel ih =>
    unfold leading
    split
    · exact ih _ _
    split
    · exact (roomy_lineBreak c).append (ih _ _)
    · exact .nil

theorem leading_over (h : c.rest = []) (fuel widest : Nat) :
    leading fuel widest c = ([], widest, c) := by
  cases fuel with
  | zero => rfl
  | succ fuel =>
    unfold leading
    rw [Cursor.peek, h]
    rfl

theorem leading_within {fuel fuel' widest : Nat} (h : Solid c.rest) (hfuel : c.rest.length < fuel)
    (hfuel' : c.rest.length < fuel') :
    Solid (leading fuel widest c).2.2.rest ∧ leading fuel' widest (c.within m) =
      ((leading fuel widest c).1, (leading fuel widest c).2.1,
        (leading fuel widest c).2.2.within m) := by
  induction fuel generalizing fuel' widest c with
  | zero => exact absurd hfuel (Nat.not_lt_zero _)
  | succ fuel ih =>
    obtain ⟨fuel', rfl⟩ : ∃ n, fuel' = n + 1 := ⟨fuel' - 1, by omega⟩
    obtain ⟨hsolid, hline⟩ := Cursor.lineBreak_within (m := m) h
    rw [leading, leading, Cursor.peek_within h.ne_nil, Cursor.next_within h, hline]
    by_cases hspace : c.peek = ' '
    · simp only [if_pos hspace]
      have hlength := (Cursor.Reaches.refl c.next).length_lt h.ne_nil
      refine ih (Cursor.solid_next h ?_) (by omega) (by omega)
      rw [hspace]
      decide
    simp only [if_neg hspace]
    by_cases hbreak : isBreak c.peek = true
    · simp only [if_pos hbreak]
      have hlength := (Cursor.next_reaches_lineBreak hbreak).length_lt h.ne_nil
      obtain ⟨hmore, heq⟩ := ih hsolid (by omega : _ < fuel) (by omega : _ < fuel')
      exact ⟨hmore, by rw [heq]⟩
    · simp only [if_neg hbreak]
      exact ⟨h, trivial⟩

theorem skipIndent_reaches (indent : Nat) (c : Cursor) : c.Reaches (skipIndent indent c) :=
  c.reaches_skip _

theorem skipIndent_over (h : c.rest = []) (indent : Nat) : skipIndent indent c = c :=
  Cursor.skip_eq_self h _

theorem skipIndent_within (indent : Nat) (h : Solid c.rest) :
    Solid (skipIndent indent c).rest ∧
      skipIndent indent (c.within m) = (skipIndent indent c).within m := by
  have hspaces := (Cursor.skipWhile_within (m := m) (p := (· = ' ')) h
    fun _ => isBlank_of_eq_space).1.ne_nil
  unfold skipIndent
  rw [Cursor.run_within hspaces, Cursor.column_within]
  refine Cursor.skip_within h fun hover => ?_
  -- not even all the spaces end the text
  rw [Cursor.skipWhile,
    show (c.run (· = ' ')).length = min (indent - c.column) (c.run (· = ' ')).length +
      ((c.run (· = ' ')).length - min (indent - c.column) (c.run (· = ' ')).length) by omega,
    Cursor.skip_add, Cursor.rest_skip, hover, List.drop_nil] at hspaces
  exact hspaces rfl

theorem emptyLines_reaches (indent fuel : Nat) (c : Cursor) :
    c.Reaches (emptyLines indent fuel c).2 := by
  induction fuel generalizing c with
  | zero => exact .refl c
  | succ fuel ih =>
    unfold emptyLines
    dsimp only
    split
    · exact ((skipIndent_reaches indent c).trans (Cursor.reaches_lineBreak _)).trans (ih _)
    · exact skipIndent_reaches indent c

theorem emptyLines_roomy (indent fuel : Nat) (c : Cursor) :
    Roomy (emptyLines indent fuel c).1 := by
  induction fuel generalizing c with
  | zero => exact .nil
  | succ fuel ih =>
    unfold emptyLines
    dsimp only
    split
    · exact (roomy_lineBreak _).append (ih _)
    · exact .nil

theorem emptyLines_over (h : c.rest = []) (indent fuel : Nat) :
    emptyLines indent fuel c = ([], c) := by
  cases fuel with
  | zero => rfl
  | succ fuel =>
    rw [emptyLines, skipIndent_over h]
    refine if_neg ?_
    rw [Cursor.peek, h]
    decide

theorem emptyLines_within (indent : Nat) {fuel fuel' : Nat} (h : Solid c.rest)
    (hfuel : c.rest.length < fuel) (hfuel' : c.rest.length < fuel') :
    Solid (emptyLines indent fuel c).2.rest ∧ emptyLines indent fuel' (c.within m) =
      ((emptyLines indent fuel c).1, (emptyLines indent fuel c).2.within m) := by
  induction fuel generalizing fuel' c with
  | zero => exact absurd hfuel (Nat.not_lt_zero _)
  | succ fuel ih =>
    obtain ⟨fuel', rfl⟩ : ∃ n, fuel' = n + 1 := ⟨fuel' - 1, by omega⟩
    obtain ⟨hindent, hskip⟩ := skipIndent_within (m := m) indent h
    have hle := (skipIndent_reaches indent c).length_le
    rw [emptyLines, emptyLines, hskip]
    generalize skipIndent indent c = c' at *
    obtain ⟨hsolid, hline⟩ := Cursor.lineBreak_within (m := m) hindent
    dsimp only
    rw [Cursor.peek_within hindent.ne_nil, hline]
    by_cases hbreak : isBreak c'.peek = true
    · simp only [if_pos hbreak]
      have hlength := (Cursor.next_reaches_lineBreak hbreak).length_lt hindent.ne_nil
      obtain ⟨hmore, heq⟩ := ih hsolid (by omega : _ < fuel) (by omega : _ < fuel')
      exact ⟨hmore, by rw [heq]⟩
    · simp only [if_neg hbreak]
      exact ⟨hindent, trivial⟩

/-! ## Lines -/

/-- A text in front of what is read of a scalar. -/
def withText (text : List Char) (r : List Char × List Char × List Char × Cursor) :
    List Char × List Char × List Char × Cursor :=
  (text ++ r.1, r.2)

/-- What stands between two lines. -/
def joint (folded indentedMore : Bool) (br empty : List Char) (next : Char) : List Char :=
  if folded && br = ['\n'] && !indentedMore && !isSpaceOrTab next then
    if empty.isEmpty then [' '] else []
  else br

/-- The scalar from the end of a line on, with the text that has been read. -/
def afterLine (folded : Bool) (indent fuel : Nat) (indentedMore : Bool) (text : List Char)
    (c : Cursor) : List Char × List Char × List Char × Cursor :=
  let (br, c) := c.lineBreak
  let (empty, c) := emptyLines indent (c.rest.length + 1) c
  if c.column = indent && !c.rest.isEmpty then
    withText (text ++ joint folded indentedMore br empty c.peek)
      (lines folded indent fuel empty c)
  else (text, br, empty, c)

theorem lines_succ (folded : Bool) (indent fuel : Nat) (before : List Char) (c : Cursor) :
    lines folded indent (fuel + 1) before c =
      if c.column = indent && !c.rest.isEmpty then
        afterLine folded indent fuel (isSpaceOrTab c.peek) (before ++ c.run (!isBreakOrEnd ·))
          (c.skipWhile (!isBreakOrEnd ·))
      else ([], [], before, c) := by
  rw [lines]
  rfl

theorem lines_reaches (fuel : Nat) (before : List Char) (c : Cursor) :
    c.Reaches (lines folded indent fuel before c).2.2.2 := by
  induction fuel generalizing before c with
  | zero => exact .refl c
  | succ fuel ih =>
    rw [lines_succ]
    split
    · have hline := (c.reaches_skipWhile (!isBreakOrEnd ·)).trans (Cursor.reaches_lineBreak _)
      unfold afterLine
      dsimp only
      split
      · exact (hline.trans (emptyLines_reaches _ _ _)).trans (ih _ _)
      · exact hline.trans (emptyLines_reaches _ _ _)
    · exact .refl c

/-- What is read of a scalar behind the end of the text is room. -/
structure Spent (d : Cursor) (r : List Char × List Char × List Char × Cursor) : Prop where
  text : Roomy r.1
  last : Roomy r.2.1
  tail : Roomy r.2.2.1
  onward : d.Reaches r.2.2.2

theorem roomy_joint {br : List Char} (h : Roomy br) (folded indentedMore : Bool)
    (empty : List Char) (next : Char) : Roomy (joint folded indentedMore br empty next) := by
  unfold joint
  split
  · split
    · exact .singleton List.mem_cons_self
    · exact .nil
  · exact h

theorem withText_append (text more : List Char)
    (r : List Char × List Char × List Char × Cursor) :
    withText (text ++ more) r = withText text (withText more r) :=
  congrArg (·, r.2) (List.append_assoc text more r.1)

theorem afterLine_spent {fuel : Nat}
    (hlines : ∀ before c, Roomy before → Roomy c.rest →
      Spent c (lines folded indent fuel before c))
    (indentedMore : Bool) (text : List Char) (hd : Roomy d.rest) :
    ∃ r, afterLine folded indent fuel indentedMore text d = withText text r ∧ Spent d r := by
  have hline := d.reaches_lineBreak
  have hempty := hline.trans (emptyLines_reaches indent (d.lineBreak.2.rest.length + 1) _)
  unfold afterLine
  dsimp only
  split
  · obtain ⟨hmore, hlast, htail, honward⟩ :=
      hlines _ _ (emptyLines_roomy indent _ _) (hd.of_suffix hempty.rest_suffix)
    refine ⟨_, withText_append text _ _, ?_, hlast, htail, hempty.trans honward⟩
    exact (roomy_joint (roomy_lineBreak d) _ _ _ _).append hmore
  · exact ⟨([], _, _, _), congrArg (·, _) (List.append_nil text).symm, .nil, roomy_lineBreak d,
      emptyLines_roomy indent _ _, hempty⟩

theorem lines_spent (folded : Bool) (indent fuel : Nat) (before : List Char) (d : Cursor)
    (hbefore : Roomy before) (hd : Roomy d.rest) :
    Spent d (lines folded indent fuel before d) := by
  induction fuel generalizing before d with
  | zero => exact ⟨.nil, .nil, hbefore, .refl d⟩
  | succ fuel ih =>
    rw [lines_succ]
    split
    · have hspaces := d.reaches_skipWhile (!isBreakOrEnd ·)
      have hrun : Roomy (d.run (!isBreakOrEnd ·)) := fun ch hch =>
        hd ch (List.takeWhile_subset _ hch)
      obtain ⟨r, hr, hmore, hlast, htail, honward⟩ := afterLine_spent ih (isSpaceOrTab d.peek)
        (before ++ d.run (!isBreakOrEnd ·)) (hd.of_suffix hspaces.rest_suffix)
      rw [hr]
      exact ⟨(hbefore.append hrun).append hmore, hlast, htail, hspaces.trans honward⟩
    · exact ⟨.nil, .nil, hbefore, .refl d⟩

/-- The two readers got to the same place, or the one to the end of its text and the other on into
the room. -/
inductive Alongside (m : Margin) : List Char × List Char × List Char × Cursor →
    List Char × List Char × List Char × Cursor → Prop
  | inside {text last tail : List Char} {c : Cursor} (solid : Solid c.rest) :
      Alongside m (text, last, tail, c) (text, last, tail, c.within m)
  | past {text more last tail : List Char} {c d : Cursor} (hover : c.rest = [])
      (hmeets : c.Meets m d) (hmore : Roomy more) (hlast : Roomy last) (htail : Roomy tail) :
      Alongside m (text, [], [], c) (text ++ more, last, tail, d)

/-- What was read behind the end of the text is what nothing was read of in the text itself. -/
theorem Spent.alongside {r : List Char × List Char × List Char × Cursor} (h : Spent d r)
    (hmeets : c.Meets m d) (hover : c.rest = []) : Alongside m ([], [], [], c) r := by
  obtain ⟨text, last, tail, d'⟩ := r
  obtain ⟨htext, hlast, htail, honward⟩ := h
  rw [← List.nil_append text]
  exact .past hover (hmeets.past_of_reaches hover honward) htext hlast htail

theorem Alongside.withText {r r' : List Char × List Char × List Char × Cursor}
    (h : Alongside m r r') (text : List Char) :
    Alongside m (withText text r) (withText text r') := by
  cases h with
  | inside solid => exact .inside solid
  | past hover hmeets hmore hlast htail =>
    unfold Block.withText
    rw [← List.append_assoc]
    exact .past hover hmeets hmore hlast htail

theorem afterLine_over (h : c.rest = []) (fuel : Nat) (indentedMore : Bool) (text : List Char) :
    afterLine folded indent fuel indentedMore text c = (text, [], [], c) := by
  unfold afterLine
  rw [Cursor.lineBreak_over h]
  dsimp only
  rw [emptyLines_over h, h]
  dsimp only
  rw [List.isEmpty_nil, Bool.not_true, Bool.and_false, if_neg Bool.false_ne_true]

theorem afterLine_within {fuel fuel' : Nat} (h : Solid c.rest) (indentedMore : Bool)
    (text : List Char)
    (hlines : ∀ before c', Solid c'.rest → c'.rest.length ≤ c.lineBreak.2.rest.length →
      Alongside m (lines folded indent fuel before c')
        (lines folded indent fuel' before (c'.within m))) :
    Alongside m (afterLine folded indent fuel indentedMore text c)
      (afterLine folded indent fuel' indentedMore text (c.within m)) := by
  obtain ⟨hsolid, hline⟩ := Cursor.lineBreak_within (m := m) h
  obtain ⟨hempty, hwithin⟩ := emptyLines_within (m := m) indent hsolid
    (Nat.lt_succ_self _) (Nat.lt_succ_of_le (Cursor.length_le_within m _))
  have hle := (emptyLines_reaches indent (c.lineBreak.2.rest.length + 1) c.lineBreak.2).length_le
  unfold afterLine
  rw [hline]
  dsimp only
  rw [hwithin]
  dsimp only
  rw [Cursor.column_within, Cursor.isEmpty_within hempty.ne_nil, Cursor.peek_within hempty.ne_nil]
  split
  · exact (hlines _ _ hempty hle).withText _
  · exact .inside hempty

theorem lines_alongside {fuel fuel' : Nat} {before : List Char} (h : Solid c.rest)
    (hfuel : c.rest.length < fuel) (hfuel' : c.rest.length < fuel') :
    Alongside m (lines folded indent fuel before c)
      (lines folded indent fuel' before (c.within m)) := by
  induction fuel generalizing fuel' before c with
  | zero => exact absurd hfuel (Nat.not_lt_zero _)
  | succ fuel ih =>
    obtain ⟨fuel', rfl⟩ : ∃ n, fuel' = n + 1 := ⟨fuel' - 1, by omega⟩
    rw [lines_succ, lines_succ, Cursor.column_within, Cursor.isEmpty_within h.ne_nil,
      Cursor.peek_within h.ne_nil]
    split
    · next hcond =>
      have hmeets := (Cursor.Meets.inside (m := m) h).skipWhile (!isBreakOrEnd ·)
      by_cases hover : (c.skipWhile (!isBreakOrEnd ·)).rest = []
      · -- the last line of the text may be followed by spaces
        rw [afterLine_over hover, Cursor.run_within_over hover, ← List.append_assoc]
        obtain ⟨r, hr, hmore, hlast, htail, honward⟩ := afterLine_spent
          (lines_spent folded indent fuel') (isSpaceOrTab c.peek)
          (before ++ c.run (!isBreakOrEnd ·) ++ m.behind.takeWhile (!isBreakOrEnd ·))
          (hmeets.room_of_over hover)
        rw [hr, withText, List.append_assoc]
        refine .past hover (hmeets.past_of_reaches hover honward) (.append ?_ hmore) hlast htail
        exact fun ch hch => m.behind_room ch (List.takeWhile_subset _ hch)
      · -- the line ends with a break of its own, and the text goes on behind that
        obtain ⟨hsolid, hskip⟩ := hmeets.solid hover
        rw [hskip, Cursor.run_within hover]
        have hbreak := Cursor.isBreak_of_skipWhile hsolid
        have hline := (Cursor.next_reaches_lineBreak hbreak).length_lt hover
        have hspaces := (c.reaches_skipWhile (!isBreakOrEnd ·)).length_le
        refine afterLine_within hsolid _ _ fun before c' hc' hless => ?_
        exact ih hc' (by omega) (by omega)
    · exact .inside h

/-! ## The scalar -/

/-- What was read in the longer text is what was read in the text itself and perhaps room, which
there is none of unless the text is over. -/
structure Longer (m : Margin) (a b : List Char × Cursor) : Prop where
  meets : a.2.Meets m b.2
  text : ∃ more, Roomy more ∧ b.1 = a.1 ++ more ∧ (a.2.rest ≠ [] → more = [])

/-- The end that a chomping leaves. -/
def ending (chomping : Chomping) (last tail : List Char) : List Char :=
  match chomping with
  | .strip => []
  | .clip => last
  | .keep => last ++ tail

/-- The text of some lines, with the end that a chomping leaves. -/
def chomped (chomping : Chomping) (r : List Char × List Char × List Char × Cursor) :
    List Char × Cursor :=
  (r.1 ++ ending chomping r.2.1 r.2.2.1, r.2.2.2)

theorem Alongside.longer {r r' : List Char × List Char × List Char × Cursor}
    (h : Alongside m r r') (chomping : Chomping) :
    Longer m (chomped chomping r) (chomped chomping r') := by
  unfold chomped
  cases h with
  | inside solid => exact ⟨.inside solid, [], .nil, (List.append_nil _).symm, fun _ => rfl⟩
  | @past text more last tail c d hover hmeets hmore hlast htail =>
    refine ⟨hmeets, more ++ ending chomping last tail, ?_, ?_, fun h => absurd hover h⟩
    · refine hmore.append ?_
      cases chomping with
      | strip => exact .nil
      | clip => exact hlast
      | keep => exact hlast.append htail
    · cases chomping <;> simp only [ending, List.append_nil, List.append_assoc]

/-- The column of the lines and the empty lines before the first, below the header. -/
def start (indent : Int) (increment : Option Nat) (c : Cursor) : List Char × Nat × Cursor :=
  let least : Nat := (max (indent + 1) 1).toNat
  match increment with
  | none =>
    let (before, widest, c) := leading (c.rest.length + 1) 0 c
    (before, max least widest, c)
  | some n =>
    let indent := least + n - 1
    let (before, c) := emptyLines indent (c.rest.length + 1) c
    (before, indent, c)

theorem start_reaches (indent : Int) (increment : Option Nat) (c : Cursor) :
    c.Reaches (start indent increment c).2.2 := by
  unfold start
  cases increment with
  | none => exact leading_reaches _ _ c
  | some n => exact emptyLines_reaches _ _ c

theorem start_roomy (indent : Int) (increment : Option Nat) (c : Cursor) :
    Roomy (start indent increment c).1 := by
  unfold start
  cases increment with
  | none => exact leading_roomy _ _ c
  | some n => exact emptyLines_roomy _ _ c

theorem start_over (h : c.rest = []) (indent : Int) (increment : Option Nat) :
    ∃ column, start indent increment c = ([], column, c) := by
  unfold start
  cases increment with
  | none =>
    dsimp only
    rw [leading_over h]
    exact ⟨_, rfl⟩
  | some n =>
    dsimp only
    rw [emptyLines_over h]
    exact ⟨_, rfl⟩

theorem start_within (h : Solid c.rest) (indent : Int) (increment : Option Nat) :
    Solid (start indent increment c).2.2.rest ∧ start indent increment (c.within m) =
      ((start indent increment c).1, (start indent increment c).2.1,
        (start indent increment c).2.2.within m) := by
  have hfuel := Nat.lt_succ_of_le (Cursor.length_le_within m c)
  unfold start
  cases increment with
  | none =>
    obtain ⟨hsolid, hwithin⟩ := leading_within (m := m) h (Nat.lt_succ_self _) hfuel
    dsimp only
    rw [hwithin]
    exact ⟨hsolid, rfl⟩
  | some n =>
    obtain ⟨hsolid, hwithin⟩ := emptyLines_within (m := m)
      ((max (indent + 1) 1).toNat + n - 1) h (Nat.lt_succ_self _) hfuel
    dsimp only
    rw [hwithin]
    exact ⟨hsolid, rfl⟩

theorem scan_eq (folded : Bool) (indent : Int) (c : Cursor) :
    scan folded indent c = do
      let (chomping, increment, c) ← header c.next
      let c ← c.finishLine
      let (before, indent, c) := start indent increment c
      return chomped chomping (lines folded indent (c.rest.length + 1) before c) := by
  rfl

theorem scan_reaches {indent : Int} {a : List Char × Cursor} (h : scan folded indent c = .ok a) :
    c.next.Reaches a.2 := by
  rw [scan_eq] at h
  obtain ⟨⟨chomping, increment, c'⟩, hheader, h⟩ := bind_eq_ok h
  obtain ⟨c'', hline, h⟩ := bind_eq_ok h
  dsimp only at h
  rw [← Except.ok.inj h]
  have hindicators : c.next.Reaches c' := by
    rw [header_eq] at hheader
    split at hheader
    · cases hheader
    split at hheader
    · have hreaches := indicators_reaches c.next
      rwa [Except.ok.inj hheader] at hreaches
    · cases hheader
  exact ((hindicators.trans (Cursor.finishLine_reaches hline)).trans (start_reaches _ _ c'')).trans
    (lines_reaches _ _ _)

theorem scan_refines (h : Solid c.rest) {indent : Int} :
    Refines (Longer m) (scan folded indent c) (scan folded indent (c.within m)) := by
  rw [scan_eq, scan_eq]
  refine (header_refines (Cursor.Meets.inside h).next).bind ?_
  rintro ⟨chomping, increment, c⟩ ⟨_, _, d⟩ ⟨rfl, rfl, hmeets⟩
  refine Refines.bind (R := fun c d => Cursor.Meets m c d) (fun d' hd' => hmeets.finishLine hd') ?_
  intro c d hmeets
  by_cases hover : c.rest = []
  · -- the scalar has no line in the text itself
    obtain ⟨column, hstart⟩ := start_over hover indent increment
    have hlines : lines folded column (c.rest.length + 1) [] c = ([], [], [], c) := by
      rw [lines_succ, hover, List.isEmpty_nil, Bool.not_true, Bool.and_false,
        if_neg Bool.false_ne_true]
    have hreaches := start_reaches indent increment d
    have hspent := lines_spent folded (start indent increment d).2.1
      ((start indent increment d).2.2.rest.length + 1) (start indent increment d).1
      (start indent increment d).2.2 (start_roomy indent increment d)
      (Roomy.of_suffix (hmeets.room_of_over hover) hreaches.rest_suffix)
    rw [hstart]
    dsimp only
    rw [hlines]
    have halong := hspent.alongside (hmeets.past_of_reaches hover hreaches) hover
    exact .pure (halong.longer chomping)
  · obtain ⟨hsolid, rfl⟩ := hmeets.solid hover
    obtain ⟨hstart, hwithin⟩ := start_within (m := m) hsolid indent increment
    rw [hwithin]
    exact .pure ((lines_alongside hstart (Nat.lt_succ_self _)
      (Nat.lt_succ_of_le (Cursor.length_le_within m _))).longer chomping)

end BrowserFlow.Yaml.Block
