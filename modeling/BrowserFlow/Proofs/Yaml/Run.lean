import BrowserFlow.Proofs.Yaml.Token

/-!
# All tokens within a longer text

The lexer goes from token to token, and past blanks in between. Where the text is over, the lexer of
the surrounding text goes past the room that is left and finds nothing more either; both close what
is open. So the tokens of a text with room behind it are those of the text itself, up to room at the
end of a last scalar (`run_refines`).

Keys need some care at the end: one that is required and has not become a key is an error. The
lexer of the surrounding text may have forgotten it for being on a line before, but it does not
forget a key that is required (`finish_refines`).
-/

namespace BrowserFlow.Yaml

open Block (Roomy)

variable {m : Margin}

namespace Lexer

variable {l l' a b : Lexer}

/-! ## Between tokens -/

/-- Blanks and comments are passed without a change to anything but the place. -/
theorem skipBlank_eq (fuel : Nat) (l : Lexer) :
    ∃ c allowed, skipBlank fuel l = { l with cursor := c, keyAllowed := allowed } ∧
      l.cursor.Reaches c := by
  induction fuel generalizing l with
  | zero => exact ⟨l.cursor, l.keyAllowed, rfl, .refl _⟩
  | succ fuel ih =>
    have hcomment := (l.cursor.reaches_skipWhile (· = ' ')).trans (Cursor.reaches_skipComment _)
    unfold skipBlank
    dsimp only
    split
    · obtain ⟨c, allowed, heq, hreaches⟩ := ih { l with
        cursor := l.cursor.skipSpaces.skipComment.lineBreak.2
        keyAllowed := l.keyAllowed || l.flow == 0 }
      exact ⟨c, allowed, heq, (hcomment.trans (Cursor.reaches_lineBreak _)).trans hreaches⟩
    · exact ⟨_, _, rfl, hcomment⟩

/-- Behind the spaces and the comment of a line there is no space. -/
theorem peek_line_ne_space (c : Cursor) : c.skipSpaces.skipComment.peek ≠ ' ' := by
  unfold Cursor.skipComment
  split
  · have hpeek := c.skipSpaces.peek_skipWhile (p := (!isBreakOrEnd ·)) (by decide)
    intro hspace
    rw [hspace] at hpeek
    cases hpeek
  · exact of_decide_eq_false (c.peek_skipWhile (p := (· = ' ')) (by decide))

/-- Past the end of a line less is left. -/
theorem length_lt_of_line {c : Cursor} (h : isBreak c.skipSpaces.skipComment.peek = true) :
    c.skipSpaces.skipComment.lineBreak.2.rest.length < c.rest.length := by
  have hne : c.skipSpaces.skipComment.rest ≠ [] := by
    intro hover
    rw [Cursor.peek, hover] at h
    cases h
  have hline := (c.reaches_skipWhile (· = ' ')).trans (Cursor.reaches_skipComment _)
  exact ((Cursor.next_reaches_lineBreak h).length_lt hne).trans_le hline.length_le

/-- Past blanks there is neither a space nor a line break. -/
theorem skipBlank_peek {fuel : Nat} (hfuel : l.cursor.rest.length < fuel) :
    (skipBlank fuel l).cursor.peek ∉ room := by
  induction fuel generalizing l with
  | zero => exact absurd hfuel (Nat.not_lt_zero _)
  | succ fuel ih =>
    unfold skipBlank
    dsimp only
    split
    · next hbreak =>
      exact ih ((length_lt_of_line hbreak).trans_le (Nat.le_of_lt_succ hfuel))
    · next hbreak =>
      intro hmem
      have hblank := of_mem_room (p := fun ch => ch = ' ' || isBreak ch) (by decide) hmem
      rw [Bool.or_eq_true, decide_eq_true_eq] at hblank
      rcases hblank with hspace | hroom
      · exact peek_line_ne_space l.cursor hspace
      · exact hbreak hroom

theorem skipBlank_meets {fuel fuel' : Nat} (h : Meets m a b) (hfuel : a.cursor.rest.length < fuel)
    (hfuel' : b.cursor.rest.length < fuel') :
    Meets m (skipBlank fuel a) (skipBlank fuel' b) := by
  induction fuel generalizing fuel' a b with
  | zero => exact absurd hfuel (Nat.not_lt_zero _)
  | succ fuel ih =>
    by_cases hover : a.cursor.rest = []
    · obtain ⟨c, allowed, heq, n, hreaches⟩ := skipBlank_eq (fuel + 1) a
      rw [Cursor.skip_eq_self hover] at hreaches
      obtain ⟨d, allowed', heq', hreaches'⟩ := skipBlank_eq fuel' b
      rw [heq, heq', hreaches]
      exact ⟨h.cursor.past_of_reaches hover hreaches', h.flow, h.indent, h.outer, h.keys, h.tokens,
        fun hne => absurd hover hne⟩
    obtain ⟨hsolid, rfl⟩ := h.eq_within hover
    obtain ⟨fuel', rfl⟩ : ∃ n, fuel' = n + 1 := ⟨fuel' - 1, by omega⟩
    have hline := (Cursor.Meets.inside (m := m) hsolid).skipSpaces.skipComment
    have hle := ((a.cursor.reaches_skipWhile (· = ' ')).trans
      (Cursor.reaches_skipComment _)).length_le
    unfold skipBlank
    change a.cursor.skipSpaces.skipComment.rest.length ≤ _ at hle
    change Cursor.Meets m _ (a.within m).cursor.skipSpaces.skipComment at hline
    generalize a.cursor.skipSpaces.skipComment = c at hline hle ⊢
    generalize (a.within m).cursor.skipSpaces.skipComment = d at hline ⊢
    dsimp only
    by_cases hover' : c.rest = []
    · -- a comment has ended the text
      have hend : ¬isBreak c.peek = true := by
        rw [Cursor.peek, hover']
        decide
      have hpast : ∀ d allowed, Cursor.Meets m c d →
          Meets m { a with cursor := c } { a.within m with cursor := d, keyAllowed := allowed } :=
        fun d allowed hd =>
          ⟨hd, rfl, rfl, rfl, rfl, .inl rfl, fun hne => absurd hover' hne⟩
      rw [if_neg hend]
      split
      · obtain ⟨d', allowed, heq, hreaches⟩ := skipBlank_eq fuel' { a.within m with
          cursor := d.lineBreak.2
          keyAllowed := (a.within m).keyAllowed || (a.within m).flow == 0 }
        rw [heq]
        exact hpast d' allowed (hline.past_of_reaches hover' (d.reaches_lineBreak.trans hreaches))
      · exact hpast d _ hline
    · obtain ⟨hsolid, rfl⟩ := hline.solid hover'
      obtain ⟨hbreak, heq⟩ := Cursor.lineBreak_within (m := m) hsolid
      rw [Cursor.peek_within hover', heq]
      by_cases hends : isBreak c.peek = true
      · rw [if_pos hends, if_pos hends]
        have hless := (Cursor.next_reaches_lineBreak hends).length_lt hover'
        have hshort : c.lineBreak.2.rest.length < a.cursor.rest.length := hless.trans_le hle
        refine ih (meets_within (l := { a with
          cursor := c.lineBreak.2, keyAllowed := a.keyAllowed || a.flow == 0 }) hbreak) ?_ ?_
        · exact hshort.trans_le (Nat.le_of_lt_succ hfuel)
        · change (a.cursor.within m).rest.length < _ at hfuel'
          change (c.lineBreak.2.within m).rest.length < _
          rw [Cursor.within, List.length_append] at hfuel' ⊢
          omega
      · rw [if_neg hends, if_neg hends]
        exact meets_within (l := { a with cursor := c }) hsolid

/-- Whether a place can no longer be a key. -/
def stale (c : Cursor) (k : KeyPlace) : Bool :=
  k.line != c.line || 1024 < c.index - k.index

theorem forgetStale_eq (l : Lexer) :
    l.forgetStale =
      if l.keys.any fun k => stale l.cursor k.2 && k.2.required then .error .malformed
      else .ok { l with keys := l.keys.filter fun k => !stale l.cursor k.2 } :=
  rfl

theorem stale_within (c : Cursor) (k : KeyPlace) :
    stale (c.within m) (k.within m) = stale c k := by
  have hline : (k.line + m.line != c.line + m.line) = (k.line != c.line) := by
    rw [Bool.eq_iff_iff, bne_iff_ne, bne_iff_ne]
    omega
  unfold stale Cursor.within KeyPlace.within
  dsimp only
  rw [Nat.add_sub_add_right, hline]

theorem forgetStale_kept (l : Lexer) :
    Refines (Kept m l) l.forgetStale (l.within m).forgetStale := by
  rw [forgetStale_eq, forgetStale_eq]
  have hkeys : (l.within m).keys = l.keys.map fun k => (k.1, k.2.within m) := rfl
  have hcursor : (l.within m).cursor = l.cursor.within m := rfl
  rw [hkeys, List.any_map, List.filter_map, hcursor]
  simp only [Function.comp_def, stale_within]
  refine .ite Iff.rfl (fun _ => .error) fun _ => .ok ⟨rfl, rfl, fun k hk => ?_⟩
  exact .inl (List.mem_filter.mp hk).1

/-! ## The end -/

/-- What is done where the text is over. -/
def finish (l : Lexer) : Except Error Lexer := do
  let l ← l.forgetStale
  ((l.unwind l.cursor.column).unwind (-1)).forgetKey

theorem closeBlocks_outer (column : Int) (l : Lexer) (outer outer' : List Int) :
    closeBlocks column { l with outer := outer' } outer = closeBlocks column l outer := by
  induction outer generalizing l with
  | nil => rfl
  | cons o outer ih =>
    unfold closeBlocks
    dsimp only
    split
    · exact ih { l.push .blockEnd with indent := o }
    · rfl

/-- What is closed anyway may be closed before. -/
theorem closeBlocks_closeBlocks {column column' : Int} (hcolumn : column' ≤ column) (l : Lexer)
    (outer : List Int) :
    closeBlocks column' (closeBlocks column l outer) (closeBlocks column l outer).outer =
      closeBlocks column' l outer := by
  induction outer generalizing l with
  | nil => exact closeBlocks_outer column' l [] []
  | cons o outer ih =>
    by_cases hindent : column < l.indent
    · have hindent' : column' < l.indent := Int.lt_of_le_of_lt hcolumn hindent
      rw [closeBlocks, if_pos hindent, closeBlocks, if_pos hindent']
      exact ih { l.push .blockEnd with indent := o }
    · rw [closeBlocks, if_neg hindent]
      exact closeBlocks_outer column' l (o :: outer) (o :: outer)

theorem flow_closeBlocks (column : Int) (l : Lexer) (outer : List Int) :
    (closeBlocks column l outer).flow = l.flow := by
  induction outer generalizing l with
  | nil => rfl
  | cons o outer ih =>
    unfold closeBlocks
    split
    · exact ih { l.push .blockEnd with indent := o }
    · rfl

theorem flow_unwind (column : Int) (l : Lexer) : (l.unwind column).flow = l.flow := by
  unfold unwind
  split
  · exact flow_closeBlocks column l l.outer
  · rfl

theorem unwind_unwind (column : Nat) (l : Lexer) :
    (l.unwind column).unwind (-1) = l.unwind (-1) := by
  have hflow := flow_unwind column l
  unfold unwind at hflow ⊢
  by_cases hopen : (l.flow == 0) = true
  · rw [if_pos hopen] at hflow
    rw [if_pos hopen, hflow, if_pos hopen, if_pos hopen]
    exact closeBlocks_closeBlocks (by omega) l l.outer
  · rw [if_neg hopen, if_neg hopen]

/-- How many collections are closed. -/
def closings (column : Int) : (indent : Int) → (outer : List Int) → Nat
  | _, [] => 0
  | indent, o :: outer => if column < indent then closings column o outer + 1 else 0

theorem tokens_closeBlocks (column : Int) (l : Lexer) (outer : List Int) :
    (closeBlocks column l outer).tokens =
      l.tokens ++ Array.replicate (closings column l.indent outer) .blockEnd := by
  induction outer generalizing l with
  | nil => simp [closeBlocks, closings]
  | cons o outer ih =>
    unfold closeBlocks closings
    split
    · rw [ih { l.push .blockEnd with indent := o }]
      apply Array.toList_inj.mp
      simp [push, List.replicate_succ]
    · simp

/-- Both have closed the same collections. -/
def Ended (a b : Array Token) : Prop :=
  ∃ (ts ts' : Array Token) (n : Nat), LastLonger ts ts' ∧
    a = ts ++ Array.replicate n .blockEnd ∧ b = ts' ++ Array.replicate n .blockEnd

theorem tokens_unwind (column : Int) (l : Lexer) :
    (l.unwind column).tokens = l.tokens ++ Array.replicate
      (if l.flow == 0 then closings column l.indent l.outer else 0) .blockEnd := by
  unfold unwind
  split
  · exact tokens_closeBlocks column l l.outer
  · simp

theorem forgetKey_eq (l : Lexer) :
    l.forgetKey = if l.keys.any fun k => k.1 == l.flow && k.2.required then .error .malformed
      else .ok { l with keys := l.keys.filter fun k => k.1 != l.flow } :=
  rfl

/-- The lexer may finish unless a key is required and missing. -/
def Finished (l : Lexer) : Prop :=
  ∀ k ∈ l.keys, k.2.required = true → stale l.cursor k.2 = false ∧ k.1 ≠ l.flow

theorem finish_ok (h : l.Finished) :
    ∃ r, l.finish = .ok r ∧ r.tokens = (l.unwind (-1)).tokens := by
  have hstale : ¬(l.keys.any fun k => stale l.cursor k.2 && k.2.required) = true := by
    rw [List.any_eq_true]
    rintro ⟨k, hk, hboth⟩
    obtain ⟨hst, hreq⟩ := Bool.and_eq_true_iff.mp hboth
    rw [(h k hk hreq).1] at hst
    cases hst
  -- closing down to the column and then the rest is closing all at once
  rw [finish, forgetStale_eq, if_neg hstale]
  change ∃ r, Lexer.forgetKey _ = _ ∧ _
  rw [unwind_unwind, forgetKey_eq, (unwind_still _ _).2, flow_unwind, if_neg]
  · exact ⟨_, rfl, by rw [tokens_unwind, tokens_unwind]⟩
  · rw [List.any_eq_true]
    rintro ⟨k, hk, hboth⟩
    obtain ⟨hflow, hreq⟩ := Bool.and_eq_true_iff.mp hboth
    exact (h k (List.mem_filter.mp hk).1 hreq).2 (beq_iff_eq.mp hflow)

theorem of_finish_ok {r : Lexer} (h : l.finish = .ok r) :
    l.Finished ∧ r.tokens = (l.unwind (-1)).tokens := by
  rw [finish] at h
  obtain ⟨l₁, hl₁, h⟩ := bind_eq_ok h
  rw [unwind_unwind, forgetKey_eq, (unwind_still _ _).2, flow_unwind] at h
  rw [forgetStale_eq] at hl₁
  split at hl₁
  · cases hl₁
  · next hstale =>
    rw [← Except.ok.inj hl₁] at h
    split at h
    · cases h
    · next hrequired =>
      rw [← Except.ok.inj h]
      refine ⟨fun k hk hreq => ?_, by rw [tokens_unwind, tokens_unwind]⟩
      have hfresh : stale l.cursor k.2 = false := by
        refine Bool.eq_false_iff.mpr fun hst => hstale ?_
        exact List.any_eq_true.mpr ⟨k, hk, Bool.and_eq_true_iff.mpr ⟨hst, hreq⟩⟩
      refine ⟨hfresh, fun hflow => hrequired ?_⟩
      refine List.any_eq_true.mpr ⟨k, List.mem_filter.mpr ⟨hk, ?_⟩, ?_⟩
      · rw [hfresh]
        rfl
      · exact Bool.and_eq_true_iff.mpr ⟨beq_iff_eq.mpr hflow, hreq⟩

/-- A place that is too far back for a key is so for the lexer that has gone on. -/
theorem stale_past {c d : Cursor} {k : KeyPlace} (h : c.Meets m d) (hover : c.rest = [])
    (hk : k.line ≤ c.line) (hstale : stale c k = true) : stale d (k.within m) = true := by
  cases h with
  | inside solid => exact absurd hover solid.ne_nil
  | past _ _ hline hindex =>
    unfold stale KeyPlace.within at *
    simp only [Bool.or_eq_true, bne_iff_ne, decide_eq_true_eq] at hstale ⊢
    omega

theorem finish_refines (h : Meets m a b) (hover : a.cursor.rest = [])
    (hkeys : ∀ k ∈ a.keys, k.2.line ≤ a.cursor.line) :
    Refines (fun a b => Ended a.tokens b.tokens) a.finish b.finish := by
  intro r' hr'
  obtain ⟨hfinished, htokens'⟩ := of_finish_ok hr'
  have hready : a.Finished := by
    intro k hk hreq
    obtain ⟨hfresh, hflow⟩ := hfinished (k.1, k.2.within m) (h.keys ▸ List.mem_map_of_mem hk) hreq
    refine ⟨Bool.eq_false_iff.mpr fun hst => ?_, fun hk => hflow (hk.trans h.flow.symm)⟩
    rw [stale_past h.cursor hover (hkeys k hk) hst] at hfresh
    cases hfresh
  obtain ⟨r, hr, htokens⟩ := finish_ok hready
  refine ⟨r, hr, a.tokens, b.tokens, _, h.tokens, htokens.trans (tokens_unwind _ a), ?_⟩
  rw [htokens', tokens_unwind, h.flow, h.indent, h.outer]

/-! ## The run -/

theorem run_succ (fuel : Nat) (l : Lexer) :
    run (fuel + 1) l =
      if (skipBlank (l.cursor.rest.length + 1) l).cursor.rest.isEmpty then
        (skipBlank (l.cursor.rest.length + 1) l).finish
      else (do
        let l ← (skipBlank (l.cursor.rest.length + 1) l).forgetStale
        let l ← (l.unwind l.cursor.column).token
        run fuel l) := by
  rw [run]
  generalize skipBlank (l.cursor.rest.length + 1) l = l'
  rw [finish]
  cases hstale : l'.forgetStale with
  | error e => split <;> rfl
  | ok l₂ =>
    have hcursor : l₂.cursor = l'.cursor := by
      rw [forgetStale_eq] at hstale
      split at hstale
      · cases hstale
      · cases hstale
        rfl
    change (if (l₂.unwind l₂.cursor.column).cursor.rest.isEmpty = true then
        ((l₂.unwind l₂.cursor.column).unwind (-1)).forgetKey
      else (l₂.unwind l₂.cursor.column).token >>= run fuel) = _
    rw [(unwind_still _ l₂).1, hcursor]
    refine ite_congr rfl (fun _ => ?_) fun _ => ?_
    · rw [← hcursor]
      rfl
    · rw [← hcursor]
      rfl

theorem run_refines {fuel fuel' : Nat} (h : Meets m a b) (hfuel : a.cursor.rest.length < fuel)
    (hkeys : ∀ k ∈ a.keys, k.2.line ≤ a.cursor.line) :
    Refines (fun a b => Ended a.tokens b.tokens) (run fuel a) (run fuel' b) := by
  induction fuel generalizing fuel' a b with
  | zero => exact absurd hfuel (Nat.not_lt_zero _)
  | succ fuel ih =>
    cases fuel' with
    | zero => exact .error
    | succ fuel' =>
      have hblank := skipBlank_meets h (Nat.lt_succ_self _) (Nat.lt_succ_self _)
      obtain ⟨c, allowed, heq, hreaches⟩ := skipBlank_eq (a.cursor.rest.length + 1) a
      have hpeek := skipBlank_peek (l := b) (Nat.lt_succ_self _)
      rw [run_succ, run_succ]
      have hblankKeys : ∀ k ∈ (skipBlank (a.cursor.rest.length + 1) a).keys,
          k.2.line ≤ (skipBlank (a.cursor.rest.length + 1) a).cursor.line := by
        rw [heq]
        exact fun k hk => (hkeys k hk).trans hreaches.line_le
      have hlength : (skipBlank (a.cursor.rest.length + 1) a).cursor.rest.length ≤
          a.cursor.rest.length := by
        rw [heq]
        exact hreaches.length_le
      clear heq
      generalize skipBlank (a.cursor.rest.length + 1) a = a' at *
      generalize skipBlank (b.cursor.rest.length + 1) b = b' at *
      by_cases hover : a'.cursor.rest = []
      · -- what is left of the longer text is room, and the blanks of it have been passed
        have hover' : b'.cursor.rest = [] := by
          refine Classical.byContradiction fun hne => hpeek ?_
          obtain ⟨ch, rest, hrest⟩ := List.exists_cons_of_ne_nil hne
          rw [Cursor.peek, hrest]
          exact hblank.cursor.room_of_over hover ch (hrest ▸ List.mem_cons_self)
        rw [hover, hover']
        exact finish_refines hblank hover hblankKeys
      · obtain ⟨hsolid, rfl⟩ := hblank.eq_within hover
        have hempty : (a'.within m).cursor.rest.isEmpty = a'.cursor.rest.isEmpty :=
          Cursor.isEmpty_within hover
        rw [hempty, if_neg (by simpa using hover), if_neg (by simpa using hover)]
        refine (forgetStale_kept a').bind ?_
        rintro l _ ⟨rfl, hcursor, hkeys'⟩
        have hunwind := unwind_still l.cursor.column l
        rw [show (l.within m).cursor.column = l.cursor.column from rfl, unwind_within]
        rw [hcursor] at hunwind ⊢
        refine (token_taken (by rw [hunwind.1]; exact hsolid)).bind ?_
        rintro a₂ b₂ ⟨hmeets, honward, htaken⟩
        rw [hunwind.1] at honward htaken
        rw [hunwind.2] at htaken
        -- a token takes at least one character, and keys that it leaves are not on later lines
        refine ih hmeets ?_ ?_
        · exact (honward.length_lt hover).trans_le (hlength.trans (Nat.le_of_lt_succ hfuel))
        · intro k hk
          have honward' := (a'.cursor.reaches_next.trans honward).line_le
          rcases htaken k hk with hmem | hline
          · rcases hkeys' k hmem with hmem | hline
            · exact (hblankKeys k hmem).trans honward'
            · exact hline.trans_le honward'
          · exact hline.trans_le honward'

end Lexer

end BrowserFlow.Yaml
