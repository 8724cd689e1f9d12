import BrowserFlow.Proofs.Text.Lines
import BrowserFlow.Yaml.Cursor
import Mathlib.Data.List.TakeWhile

/-!
# A text within another

A text can be read where it stands in a longer one, with lines before it and room behind it, that
is, spaces and line breaks. While a cursor is in the text, the cursor at the same place of the
longer one has the same before it and then the room (`Cursor.within`). Once the text is over, the
one stands at the end and the other somewhere in the room. Either way they meet (`Cursor.Meets`).

Cursors that meet still do after the same moves (`Meets.skip`, `Meets.skipWhile`,
`Meets.lineBreak`), and they cannot be told apart by a property of characters for which room is
like the end (`Meets.peek_eq`). A text whose last character is not blank is `Solid`: what is left
of it is solid too, so it does not end in the middle of blanks (`Solid.dropWhile`).
-/

namespace BrowserFlow.Yaml

/-- What may stand behind a text and not belong to it: a space, or a line break. -/
def room : List Char :=
  [' ', '\n', '\r', '\x85', '\u2028', '\u2029']

/-- Characters of which none reads as the end of the text and the last is not blank. -/
structure Solid (cs : List Char) : Prop where
  proper : '\x00' ∉ cs
  last : ∃ c, cs.getLast? = some c ∧ Text.isBlank c = false

/-- What a text is surrounded by: how many characters and lines come before it, and what stands
behind it. -/
structure Margin where
  index : Nat
  line : Nat
  behind : List Char
  behind_room : ∀ c ∈ behind, c ∈ room

variable {m : Margin} {ch : Char} {cs rest : List Char} {p : Char → Bool}

/-! ## Characters -/

theorem mem_room_of_isBreak (h : isBreak ch = true) : ch ∈ room := by
  simp only [isBreak, Bool.or_eq_true, decide_eq_true_eq] at h
  rcases h with (((rfl | rfl) | rfl) | rfl) | rfl <;> simp [room]

theorem of_mem_room (hp : room.all p = true) (h : ch ∈ room) : p ch = true :=
  List.all_eq_true.mp hp ch h

theorem isBlank_of_mem_room (h : ch ∈ room) : Text.isBlank ch = true :=
  of_mem_room (by decide) h

theorem isBlank_of_isBreak (h : isBreak ch = true) : Text.isBlank ch = true :=
  isBlank_of_mem_room (mem_room_of_isBreak h)

theorem isBlank_of_isSpaceOrTab (h : isSpaceOrTab ch = true) : Text.isBlank ch = true := by
  simp only [isSpaceOrTab, Bool.or_eq_true, decide_eq_true_eq] at h
  rcases h with rfl | rfl <;> decide

theorem isBlank_of_eq_space (h : decide (ch = ' ') = true) : Text.isBlank ch = true := by
  rw [of_decide_eq_true h]
  decide

/-! ## Solid texts -/

theorem Solid.ne_nil (h : Solid cs) : cs ≠ [] := by
  rintro rfl
  obtain ⟨c, hc, -⟩ := h.last
  cases hc

theorem Solid.exists_cons (h : Solid cs) : ∃ c rest, cs = c :: rest :=
  List.exists_cons_of_ne_nil h.ne_nil

/-- What is left of a solid text is solid, if there is anything left. -/
theorem Solid.of_suffix (h : Solid cs) (hrest : rest <:+ cs) (hne : rest ≠ []) : Solid rest := by
  obtain ⟨c, hc, hblank⟩ := h.last
  obtain ⟨before, rfl⟩ := hrest
  refine ⟨fun hmem => h.proper (List.mem_append_right before hmem), c, ?_, hblank⟩
  rw [List.getLast?_append, List.getLast?_eq_some_getLast hne] at hc
  rw [List.getLast?_eq_some_getLast hne]
  exact hc

theorem Solid.tail (h : Solid (ch :: rest)) : rest = [] ∨ Solid rest := by
  by_cases hne : rest = []
  · exact .inl hne
  · exact .inr (h.of_suffix (List.suffix_cons ch rest) hne)

/-- A blank is not the last character. -/
theorem Solid.tail_of_blank (h : Solid (ch :: rest)) (hch : Text.isBlank ch = true) :
    Solid rest := by
  refine h.tail.resolve_left ?_
  rintro rfl
  obtain ⟨d, hd, hblank⟩ := h.last
  obtain rfl : ch = d := Option.some.inj hd
  rw [hch] at hblank
  cases hblank

/-- Blanks do not reach to the end. -/
theorem Solid.dropWhile (h : Solid cs) (hp : ∀ c, p c = true → Text.isBlank c = true) :
    Solid (cs.dropWhile p) := by
  induction cs with
  | nil => exact absurd rfl h.ne_nil
  | cons c cs ih =>
    cases hc : p c with
    | false => rwa [List.dropWhile_cons_of_neg (by rw [hc]; decide)]
    | true =>
      rw [List.dropWhile_cons_of_pos hc]
      exact ih (h.tail_of_blank (hp c hc))

namespace Cursor

variable {c c' c'' d d' : Cursor}

/-! ## Places further on -/

/-- The second place is where the first is, or further on. -/
def Reaches (c c' : Cursor) : Prop :=
  ∃ n, c' = c.skip n

theorem skip_add (c : Cursor) (n k : Nat) : c.skip (n + k) = (c.skip n).skip k := by
  induction n generalizing c with
  | zero => rw [Nat.zero_add]; rfl
  | succ n ih => rw [Nat.succ_add]; exact ih c.next

theorem Reaches.refl (c : Cursor) : c.Reaches c :=
  ⟨0, rfl⟩

theorem Reaches.trans (h : c.Reaches c') (h' : c'.Reaches c'') : c.Reaches c'' := by
  obtain ⟨n, rfl⟩ := h
  obtain ⟨k, rfl⟩ := h'
  exact ⟨n + k, (skip_add c n k).symm⟩

theorem reaches_skip (c : Cursor) (n : Nat) : c.Reaches (c.skip n) :=
  ⟨n, rfl⟩

theorem reaches_next (c : Cursor) : c.Reaches c.next :=
  ⟨1, rfl⟩

theorem reaches_skipWhile (c : Cursor) (p : Char → Bool) : c.Reaches (c.skipWhile p) :=
  ⟨_, rfl⟩

theorem reaches_skipComment (c : Cursor) : c.Reaches c.skipComment := by
  unfold skipComment
  split
  · exact c.reaches_skipWhile _
  · exact .refl c

theorem reaches_lineBreak (c : Cursor) : c.Reaches c.lineBreak.2 := by
  unfold lineBreak
  split
  · exact c.reaches_skip 2
  · split
    · exact c.reaches_next
    · split
      · exact c.reaches_next
      · exact .refl c
  · exact .refl c

theorem rest_next (c : Cursor) : c.next.rest = c.rest.tail := by
  unfold next
  split
  · next h => rw [h]; rfl
  · next h =>
    rw [h]
    dsimp only
    split
    · rfl
    · split <;> rfl

theorem rest_skip (c : Cursor) (n : Nat) : (c.skip n).rest = c.rest.drop n := by
  induction n generalizing c with
  | zero => rfl
  | succ n ih =>
    rw [skip, ih, rest_next, List.drop_tail, Nat.add_comm]

theorem rest_skipWhile (c : Cursor) (p : Char → Bool) :
    (c.skipWhile p).rest = c.rest.dropWhile p := by
  rw [skipWhile, run, rest_skip, List.dropWhile_eq_drop_findIdx_not,
    List.takeWhile_eq_take_findIdx_not, List.length_take, List.drop_eq_drop_iff]
  omega

theorem Reaches.rest_suffix (h : c.Reaches c') : c'.rest <:+ c.rest := by
  obtain ⟨n, rfl⟩ := h
  rw [rest_skip]
  exact List.drop_suffix n c.rest

theorem line_le_next (c : Cursor) : c.line ≤ c.next.line := by
  unfold next
  split
  · exact Nat.le_refl _
  · dsimp only
    split
    · exact Nat.le_succ _
    · split <;> exact Nat.le_refl _

theorem index_le_next (c : Cursor) : c.index ≤ c.next.index := by
  unfold next
  split
  · exact Nat.le_refl _
  · dsimp only
    split
    · exact Nat.le_succ _
    · split <;> exact Nat.le_succ _

theorem Reaches.line_le (h : c.Reaches c') : c.line ≤ c'.line := by
  obtain ⟨n, rfl⟩ := h
  induction n generalizing c with
  | zero => exact Nat.le_refl _
  | succ n ih => exact c.line_le_next.trans (ih (c := c.next))

theorem Reaches.index_le (h : c.Reaches c') : c.index ≤ c'.index := by
  obtain ⟨n, rfl⟩ := h
  induction n generalizing c with
  | zero => exact Nat.le_refl _
  | succ n ih => exact c.index_le_next.trans (ih (c := c.next))

theorem next_eq_self (h : c.rest = []) : c.next = c := by
  unfold next
  rw [h]

theorem skip_eq_self (h : c.rest = []) (n : Nat) : c.skip n = c := by
  induction n with
  | zero => rfl
  | succ n ih => rw [skip, next_eq_self h, ih]

/-- Characters that are skipped are skipped from the first on. -/
theorem next_reaches_skipWhile (h : p c.peek = true) : c.next.Reaches (c.skipWhile p) := by
  cases hrest : c.rest with
  | nil =>
    rw [next_eq_self hrest]
    exact c.reaches_skipWhile p
  | cons ch rest =>
    have hch : p ch = true := by rwa [peek, hrest] at h
    rw [skipWhile, run, hrest, List.takeWhile_cons_of_pos hch, List.length_cons]
    exact c.next.reaches_skip _

theorem skipWhile_eq_self (h : p c.peek = false) : c.skipWhile p = c := by
  cases hrest : c.rest with
  | nil => exact skip_eq_self hrest _
  | cons ch rest =>
    have hch : ¬p ch = true := by
      rw [peek, hrest] at h
      exact Bool.eq_false_iff.mp h
    rw [skipWhile, run, hrest, List.takeWhile_cons_of_neg hch]
    rfl

theorem next_reaches_lineBreak (h : isBreak c.peek = true) : c.next.Reaches c.lineBreak.2 := by
  unfold lineBreak
  split
  · exact c.next.reaches_next
  · next ch rest _ hrest =>
    have hch : isBreak ch = true := by rwa [peek, hrest] at h
    rw [if_pos hch]
    split <;> exact .refl _
  · next hrest =>
    rw [next_eq_self hrest]
    exact .refl c

/-- What is skipped is not found behind it. -/
theorem peek_skipWhile (c : Cursor) (hend : p '\x00' = false) : p (c.skipWhile p).peek = false := by
  rw [peek, rest_skipWhile, List.drop_zero]
  have hhead := List.head?_dropWhile_not p c.rest
  cases hrest : c.rest.dropWhile p with
  | nil => exact hend
  | cons ch rest =>
    rw [hrest] at hhead
    simpa using hhead

/-- One character further on, less of the text is left. -/
theorem Reaches.length_lt (h : c.next.Reaches c') (hne : c.rest ≠ []) :
    c'.rest.length < c.rest.length := by
  have hle := h.rest_suffix.length_le
  have hpos := List.length_pos_iff.mpr hne
  rw [rest_next, List.length_tail] at hle
  omega

theorem Reaches.length_le (h : c.Reaches c') : c'.rest.length ≤ c.rest.length :=
  h.rest_suffix.length_le

/-! ## Places that meet -/

/-- The same place in the text that surrounds the one the cursor is in. -/
def within (m : Margin) (c : Cursor) : Cursor where
  rest := c.rest ++ m.behind
  index := c.index + m.index
  line := c.line + m.line
  column := c.column

@[simp]
theorem column_within (m : Margin) (c : Cursor) : (c.within m).column = c.column :=
  rfl

/-- A cursor in a text and one in the text that surrounds it are at the same place, as far as the
one can tell: either it is in the middle of its text, or that is over and the other stands in the
room behind it. -/
inductive Meets (m : Margin) (c : Cursor) : Cursor → Prop
  | inside (solid : Solid c.rest) : Meets m c (c.within m)
  | past {d : Cursor} (spent : c.rest = []) (room : ∀ ch ∈ d.rest, ch ∈ room)
      (line : c.line + m.line ≤ d.line) (index : c.index + m.index ≤ d.index) : Meets m c d

theorem next_within (h : Solid c.rest) : (c.within m).next = c.next.within m := by
  obtain ⟨ch, rest, hrest⟩ := h.exists_cons
  obtain ⟨_, index, line, column⟩ := c
  obtain rfl : _ = ch :: rest := hrest
  -- only the first half of a two-character break is read together with what follows it
  have hhalf : (ch = '\r' && (rest ++ m.behind).head? = some '\n') =
      (ch = '\r' && rest.head? = some '\n') := by
    by_cases hch : ch = '\r'
    · obtain ⟨d, ds, rfl⟩ := (h.tail_of_blank (hch ▸ by decide)).exists_cons
      rfl
    · rw [decide_eq_false hch, Bool.false_and, Bool.false_and]
  simp only [next, within, List.cons_append, hhalf, Nat.add_right_comm index m.index 1,
    Nat.add_right_comm line m.line 1]
  split
  · rfl
  · split <;> rfl

theorem Meets.solid (h : Meets m c d) (hne : c.rest ≠ []) : Solid c.rest ∧ d = c.within m := by
  cases h with
  | inside solid => exact ⟨solid, rfl⟩
  | past spent => exact absurd spent hne

/-- Behind the end of the text, the outer cursor may go on. -/
theorem Meets.past_of_reaches (h : Meets m c d) (hover : c.rest = []) (hd : d.Reaches d') :
    Meets m c d' := by
  cases h with
  | inside solid => exact absurd hover solid.ne_nil
  | past _ room line index =>
    exact .past hover (fun ch hch => room ch (hd.rest_suffix.subset hch))
      (line.trans hd.line_le) (index.trans hd.index_le)

theorem Meets.room_of_over (h : Meets m c d) (hover : c.rest = []) : ∀ ch ∈ d.rest, ch ∈ room := by
  cases h with
  | inside solid => exact absurd hover solid.ne_nil
  | past _ room => exact room

theorem Meets.of_within (h : c.rest = [] ∨ Solid c.rest) : Meets m c (c.within m) := by
  rcases h with h | h
  · refine .past h ?_ (Nat.le_refl _) (Nat.le_refl _)
    rw [within, h, List.nil_append]
    exact m.behind_room
  · exact .inside h

/-- A blank does not end a solid text. -/
theorem solid_next (h : Solid c.rest) (hblank : Text.isBlank c.peek = true) :
    Solid c.next.rest := by
  obtain ⟨ch, rest, hrest⟩ := h.exists_cons
  rw [peek, hrest] at hblank
  rw [rest_next, hrest]
  exact (hrest ▸ h).tail_of_blank hblank

theorem Meets.next (h : Meets m c d) : Meets m c.next d.next := by
  cases h with
  | inside solid =>
    rw [next_within solid]
    refine .of_within ?_
    obtain ⟨ch, rest, hrest⟩ := solid.exists_cons
    rw [rest_next, hrest, List.tail_cons]
    exact (hrest ▸ solid).tail
  | past spent room line index =>
    rw [next_eq_self spent]
    exact (Meets.past spent room line index).past_of_reaches spent d.reaches_next

theorem Meets.skip (h : Meets m c d) (n : Nat) : Meets m (c.skip n) (d.skip n) := by
  induction n generalizing c d with
  | zero => exact h
  | succ n ih => exact ih h.next

theorem Meets.skipWhile (h : Meets m c d) (p : Char → Bool) :
    Meets m (c.skipWhile p) (d.skipWhile p) := by
  have hmeets := h.skip (c.run p).length
  cases h with
  | inside solid =>
    have hrun : (c.within m).run p = if (c.run p).length = c.rest.length then
        c.rest ++ m.behind.takeWhile p else c.run p :=
      List.takeWhile_append
    rw [Cursor.skipWhile, Cursor.skipWhile, hrun]
    split
    · next hall =>
      -- the text is over; the room may satisfy the property too
      rw [List.length_append, ← hall, skip_add]
      refine hmeets.past_of_reaches ?_ (reaches_skip _ _)
      rw [rest_skip, hall, List.drop_length]
    · exact hmeets
  | past spent room line index =>
    rw [Cursor.skipWhile, skip_eq_self spent]
    exact (Meets.past spent room line index).past_of_reaches spent (d.reaches_skipWhile p)

/-- What a property that room does not have picks out is the same at places that meet. -/
theorem Meets.run_eq (h : Meets m c d) (hp : room.all (!p ·) = true) : d.run p = c.run p := by
  have hroom : ∀ cs : List Char, (∀ ch ∈ cs, ch ∈ room) → cs.takeWhile p = [] := by
    intro cs hcs
    cases cs with
    | nil => rfl
    | cons ch cs =>
      rw [List.takeWhile_cons, if_neg]
      rw [Bool.not_eq_true, ← Bool.not_eq_true']
      exact of_mem_room hp (hcs ch List.mem_cons_self)
  cases h with
  | inside solid =>
    rw [run, within, List.takeWhile_append, hroom m.behind m.behind_room, List.append_nil]
    split
    · next hall => exact ((List.takeWhile_prefix p).eq_of_length hall).symm
    · rfl
  | past spent hd =>
    rw [run, hroom d.rest hd, run, spent, List.takeWhile_nil]

/-- Places that meet look the same to what takes room for the end of the text. -/
theorem Meets.peek_eq {α : Type} [DecidableEq α] {f : Char → α} (h : Meets m c d)
    (hf : room.all (fun ch => f ch = f '\x00') = true) (n : Nat := 0) :
    f (d.peek n) = f (c.peek n) := by
  have hroom : ∀ cs : List Char, (∀ ch ∈ cs, ch ∈ room) → f (cs.headD '\x00') = f '\x00' := by
    intro cs hcs
    cases cs with
    | nil => rfl
    | cons ch cs => exact of_decide_eq_true (of_mem_room hf (hcs ch List.mem_cons_self))
  cases h with
  | inside solid =>
    rw [peek, peek, within, List.drop_append]
    cases hdrop : c.rest.drop n with
    | nil =>
      rw [List.nil_append, List.headD_nil]
      exact hroom _ fun ch hch => m.behind_room ch (List.mem_of_mem_drop hch)
    | cons ch rest => rfl
  | past spent hd =>
    rw [peek, peek, spent, List.drop_nil, List.headD_nil]
    exact hroom _ fun ch hch => hd ch (List.mem_of_mem_drop hch)

theorem peek_within (h : c.rest ≠ []) : (c.within m).peek = c.peek := by
  obtain ⟨ch, rest, hrest⟩ := List.exists_cons_of_ne_nil h
  rw [peek, peek, within, hrest]
  rfl

theorem length_le_within (m : Margin) (c : Cursor) :
    c.rest.length ≤ (c.within m).rest.length := by
  rw [within, List.length_append]
  exact Nat.le_add_right _ _

theorem isEmpty_within (h : c.rest ≠ []) : (c.within m).rest.isEmpty = c.rest.isEmpty := by
  obtain ⟨ch, rest, hrest⟩ := List.exists_cons_of_ne_nil h
  rw [within, hrest]
  rfl

/-- The character behind the one at the cursor is the same if the text goes on so far. -/
theorem Meets.peek_next_eq (h : Meets m c d) (hnext : c.next.rest ≠ []) : d.peek 1 = c.peek 1 := by
  rw [rest_next] at hnext
  cases h with
  | inside solid =>
    obtain ⟨ch, rest, hrest⟩ := solid.exists_cons
    rw [hrest, List.tail_cons] at hnext
    obtain ⟨ch', rest', rfl⟩ := List.exists_cons_of_ne_nil hnext
    rw [peek, peek, within, hrest]
    rfl
  | past spent => exact absurd (by rw [spent]; rfl) hnext

/-- As long as the text is not over, the outer cursor is at the same place. -/
theorem skip_within (h : Solid c.rest) {n : Nat} (hn : (c.skip n).rest ≠ []) :
    Solid (c.skip n).rest ∧ (c.within m).skip n = (c.skip n).within m :=
  ((Meets.inside h).skip n).solid hn

/-- Skipping blanks does not end a solid text. -/
theorem skipWhile_within (h : Solid c.rest) (hp : ∀ ch, p ch = true → Text.isBlank ch = true) :
    Solid (c.skipWhile p).rest ∧ (c.within m).skipWhile p = (c.skipWhile p).within m := by
  refine ((Meets.inside h).skipWhile p).solid ?_
  rw [rest_skipWhile]
  exact (h.dropWhile hp).ne_nil

/-- Where a line ends, and the text does not, there is a line break. -/
theorem isBreak_of_skipWhile (h : Solid (c.skipWhile (!isBreakOrEnd ·)).rest) :
    isBreak (c.skipWhile (!isBreakOrEnd ·)).peek = true := by
  have hpeek := c.peek_skipWhile (p := (!isBreakOrEnd ·)) (by decide)
  generalize c.skipWhile (!isBreakOrEnd ·) = c' at h hpeek ⊢
  -- it is a break or the end, and what reads as the end does not stand in a solid text
  obtain ⟨ch, rest, hrest⟩ := h.exists_cons
  have hend : ch ≠ '\x00' := fun hch => h.proper (hrest ▸ hch ▸ List.mem_cons_self)
  rw [peek, hrest] at hpeek ⊢
  change (!isBreakOrEnd ch) = false at hpeek
  rwa [isBreakOrEnd, isEnd, decide_eq_false hend, Bool.or_false, Bool.not_eq_false'] at hpeek

/-- What a property picks out is the same if the text goes on behind it. -/
theorem run_within (h : (c.skipWhile p).rest ≠ []) : (c.within m).run p = c.run p := by
  rw [rest_skipWhile] at h
  rw [run, within, List.takeWhile_append, if_neg]
  · rfl
  · -- if all of the text were picked out, nothing would be left of it
    intro hall
    have hlength := congrArg List.length (c.rest.takeWhile_append_dropWhile (p := p))
    rw [List.length_append, hall] at hlength
    exact h (List.eq_nil_of_length_eq_zero (by omega))

/-- What a property picks out may go on into the room if it goes on to the end of the text. -/
theorem run_within_over (h : (c.skipWhile p).rest = []) :
    (c.within m).run p = c.run p ++ m.behind.takeWhile p := by
  rw [rest_skipWhile] at h
  have hall : c.rest.takeWhile p = c.rest := by
    have happend := c.rest.takeWhile_append_dropWhile (p := p)
    rwa [h, List.append_nil] at happend
  rw [run, within, List.takeWhile_append, if_pos (by rw [hall]), run, hall]

theorem Meets.skipSpaces (h : Meets m c d) : Meets m c.skipSpaces d.skipSpaces :=
  h.skipWhile _

theorem Meets.peek_eq_iff (h : Meets m c d) {mark : Char}
    (hmark : room.all (fun ch => decide (ch = mark) = decide ('\x00' = mark)) = true)
    (n : Nat := 0) :
    d.peek n = mark ↔ c.peek n = mark := by
  have := h.peek_eq hmark n
  rwa [decide_eq_decide] at this

theorem Meets.skipComment (h : Meets m c d) : Meets m c.skipComment d.skipComment := by
  unfold Cursor.skipComment
  by_cases hc : c.peek = '#'
  · rw [if_pos hc, if_pos ((h.peek_eq_iff (by decide)).mpr hc)]
    exact h.skipWhile _
  · rw [if_neg hc, if_neg fun hd => hc ((h.peek_eq_iff (by decide)).mp hd)]
    exact h

/-- Only a carriage return and a line feed are one break of two characters. -/
theorem lineBreak_of_single (hrest : c.rest = ch :: rest)
    (hpair : ¬(ch = '\r' ∧ rest.head? = some '\n')) :
    c.lineBreak = if ch = '\r' || ch = '\n' || ch = '\x85' then (['\n'], c.next)
      else if isBreak ch then ([ch], c.next) else ([], c) := by
  unfold lineBreak
  split
  · next h =>
    rw [h] at hrest
    obtain ⟨rfl, rfl⟩ := List.cons.inj hrest
    exact absurd ⟨rfl, rfl⟩ hpair
  · next h =>
    obtain ⟨rfl, -⟩ := List.cons.inj (h.symm.trans hrest)
    rfl
  · next h =>
    rw [h] at hrest
    cases hrest

theorem lineBreak_of_pair (hrest : c.rest = '\r' :: '\n' :: rest) :
    c.lineBreak = (['\n'], c.skip 2) := by
  rw [lineBreak, hrest]
  rfl

/-- A line break does not end a solid text. -/
theorem lineBreak_within (h : Solid c.rest) :
    Solid c.lineBreak.2.rest ∧
      (c.within m).lineBreak = (c.lineBreak.1, c.lineBreak.2.within m) := by
  obtain ⟨ch, rest, hrest⟩ := h.exists_cons
  have hwithin : (c.within m).rest = ch :: (rest ++ m.behind) := by
    rw [within, hrest, List.cons_append]
  have htail : isBreak ch = true → Solid rest := fun hch =>
    (hrest ▸ h).tail_of_blank (isBlank_of_isBreak hch)
  by_cases hpair : ch = '\r' ∧ rest.head? = some '\n'
  · obtain ⟨rfl, hhead⟩ := hpair
    obtain ⟨rest', rfl⟩ := List.head?_eq_some_iff.mp hhead
    rw [lineBreak_of_pair hrest, lineBreak_of_pair hwithin]
    have hsolid : Solid (c.skip 2).rest := by
      rw [rest_skip, hrest]
      exact (htail rfl).tail_of_blank (by decide)
    exact ⟨hsolid, congrArg _ (skip_within h hsolid.ne_nil).2⟩
  · have hpair' : ¬(ch = '\r' ∧ (rest ++ m.behind).head? = some '\n') := by
      rintro ⟨rfl, hhead⟩
      obtain ⟨d, ds, rfl⟩ := (htail rfl).exists_cons
      exact hpair ⟨rfl, hhead⟩
    rw [lineBreak_of_single hrest hpair, lineBreak_of_single hwithin hpair', next_within h]
    have hnext : isBreak ch = true → Solid c.next.rest := fun hch => by
      rw [rest_next, hrest]
      exact htail hch
    split
    · next hch =>
      refine ⟨hnext ?_, rfl⟩
      simp only [Bool.or_eq_true, decide_eq_true_eq] at hch
      rcases hch with (rfl | rfl) | rfl <;> rfl
    · split
      · next hch => exact ⟨hnext hch, rfl⟩
      · exact ⟨h, rfl⟩

theorem lineBreak_over (h : c.rest = []) : c.lineBreak = ([], c) := by
  rw [lineBreak, h]

theorem Meets.lineBreak (h : Meets m c d) : Meets m c.lineBreak.2 d.lineBreak.2 := by
  cases h with
  | inside solid =>
    obtain ⟨hsolid, hbreak⟩ := lineBreak_within (m := m) solid
    rw [hbreak]
    exact .inside hsolid
  | past spent room line index =>
    rw [lineBreak_over spent]
    exact (Meets.past spent room line index).past_of_reaches spent d.reaches_lineBreak

theorem Meets.atMark_eq (h : Meets m c d) {mark : Char}
    (hmark : room.all (fun ch => decide (ch = mark) = decide ('\x00' = mark)) = true) :
    d.atMark mark = c.atMark mark := by
  rw [atMark, atMark, h.peek_eq hmark 0, h.peek_eq hmark 1, h.peek_eq hmark 2,
    h.peek_eq (f := isGap) (by decide) 3]

theorem Meets.atDocumentMark_eq (h : Meets m c d) : d.atDocumentMark = c.atDocumentMark := by
  rw [atDocumentMark, atDocumentMark, h.atMark_eq (by decide), h.atMark_eq (by decide)]

theorem Meets.isBreakOrEnd (h : Meets m c d) (hd : isBreakOrEnd d.peek = true) :
    isBreakOrEnd c.peek = true := by
  cases h with
  | inside solid => rwa [peek_within solid.ne_nil] at hd
  | past spent =>
    rw [peek, spent]
    rfl

theorem Meets.finishLine (h : Meets m c d) (hd : d.finishLine = .ok d') :
    ∃ c', c.finishLine = .ok c' ∧ Meets m c' d' := by
  have hline := h.skipSpaces.skipComment
  unfold Cursor.finishLine at hd ⊢
  dsimp only at hd ⊢
  split at hd
  · next hend =>
    cases hd
    exact ⟨_, if_pos (hline.isBreakOrEnd hend), hline.lineBreak⟩
  · cases hd

theorem finishLine_reaches (h : c.finishLine = .ok c') : c.Reaches c' := by
  unfold finishLine at h
  dsimp only at h
  split at h
  · cases h
    exact ((c.reaches_skipWhile _).trans (reaches_skipComment _)).trans (reaches_lineBreak _)
  · cases h

end Cursor

end BrowserFlow.Yaml
