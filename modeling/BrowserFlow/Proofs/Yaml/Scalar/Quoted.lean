import BrowserFlow.Proofs.Outcomes
import BrowserFlow.Proofs.Yaml.Margin
import BrowserFlow.Yaml.Scalar.Quoted

/-!
# Quoted scalars within a longer text

A quoted scalar ends at its closing quote. Neither the end of the text nor room is one, so a scalar
that is read in the longer text is read in the text itself, with the same characters
(`scan_refines`). In the middle of a scalar the readers stand at the same place; only behind the
last character of the text they part, and there no scalar is read to its end (`body_over`).
-/

namespace BrowserFlow.Yaml.Quoted

variable {m : Margin} {c c' d : Cursor} {double : Bool}

/-- The same was read, and the text is not over. -/
structure Inside {α : Type} (m : Margin) (a b : α × Cursor) : Prop where
  same : a.1 = b.1
  solid : Solid a.2.rest
  within : b.2 = a.2.within m

/-- The same was read, by cursors that meet again. -/
structure Beside {α : Type} (m : Margin) (a b : α × Cursor) : Prop where
  same : a.1 = b.1
  meets : a.2.Meets m b.2

theorem Inside.beside {α : Type} {a b : α × Cursor} (h : Inside m a b) : Beside m a b :=
  ⟨h.same, h.within ▸ .inside h.solid⟩

/-! ## How far is read -/

theorem breaks_reaches {fuel : Nat} {a : List Char × Cursor} (h : breaks fuel c = .ok a) :
    c.Reaches a.2 := by
  induction fuel generalizing c a with
  | zero => cases h
  | succ fuel ih =>
    unfold breaks at h
    dsimp only at h
    split at h
    · cases h
    split at h
    · obtain ⟨b, hb, ha⟩ := bind_eq_ok h
      cases ha
      have hmore := ih hb
      exact ((c.reaches_skipWhile _).trans (Cursor.reaches_lineBreak _)).trans hmore
    · cases h
      exact c.reaches_skipWhile _

/-- Blanks and breaks are read from their first on. -/
theorem gap_reaches {a : List Char × Cursor} (h : gap c = .ok a)
    (hc : (isSpaceOrTab c.peek || isBreak c.peek) = true) : c.next.Reaches a.2 := by
  have hbreak : isSpaceOrTab c.peek = false → isBreak (c.skipWhile isSpaceOrTab).peek = true := by
    intro hspace
    rwa [Cursor.skipWhile_eq_self hspace, ← Bool.false_or (isBreak c.peek), ← hspace]
  unfold gap at h
  dsimp only at h
  change (if isBreak (c.skipWhile isSpaceOrTab).peek = true then _ else _) = _ at h
  cases hspace : isSpaceOrTab c.peek with
  | true =>
    have hspaces := Cursor.next_reaches_skipWhile hspace
    split at h
    · obtain ⟨b, hb, ha⟩ := bind_eq_ok h
      cases ha
      have hmore := breaks_reaches hb
      exact (hspaces.trans (Cursor.reaches_lineBreak _)).trans hmore
    · cases h
      exact hspaces
  | false =>
    have hb := hbreak hspace
    rw [if_pos hb] at h
    rw [Cursor.skipWhile_eq_self hspace] at hb
    obtain ⟨b, hb', ha⟩ := bind_eq_ok h
    cases ha
    have hmore := breaks_reaches hb'
    rw [show c.skip (c.run isSpaceOrTab).length = c from Cursor.skipWhile_eq_self hspace] at hmore
    exact (Cursor.next_reaches_lineBreak hb).trans hmore

theorem codeChar_reaches {code : Nat} {a : Char × Cursor} (h : codeChar code c = .ok a) :
    c.Reaches a.2 := by
  unfold codeChar at h
  split at h
  · cases h
  split at h
  · cases h
  split at h
  · split at h
    · split at h
      · rw [← Except.ok.inj h]
        exact c.reaches_skip 6
      · cases h
        exact .refl c
    · cases h
      exact .refl c
  split at h
  · cases h
    exact .refl c
  · cases h
    exact .refl c

theorem escape_reaches {a : List Char × Cursor} (h : escape c = .ok a) : c.Reaches a.2 := by
  unfold escape at h
  split at h
  · cases h
    exact c.reaches_next
  · split at h
    · cases h
    · obtain ⟨b, hb, ha⟩ := bind_eq_ok h
      cases ha
      exact (c.reaches_skip _).trans (codeChar_reaches hb)
  · split at h
    · exact c.reaches_lineBreak.trans (breaks_reaches h)
    · cases h

/-! ## One character, escape or gap -/

/-- What stands for the next characters of a scalar that does not end here. -/
def part (double : Bool) (c : Cursor) : Except Error (List Char × Cursor) :=
  if double && c.peek = '\\' then escape c.next
  else if isSpaceOrTab c.peek || isBreak c.peek then gap c
  else .ok ([c.peek], c.next)

theorem body_succ (double : Bool) (fuel : Nat) (c : Cursor) :
    body double (fuel + 1) c =
      if c.rest.isEmpty then .error .malformed
      else if !double && c.peek = '\'' && c.peek 1 = '\'' then do
        let (more, c) ← body double fuel (c.skip 2)
        return ('\'' :: more, c)
      else if c.peek = (if double then '"' else '\'') then .ok ([], c.next)
      else do
        let (found, c) ← part double c
        let (more, c) ← body double fuel c
        return (found ++ more, c) := by
  rw [body]
  dsimp only
  refine ite_congr rfl (fun _ => rfl) fun _ => ite_congr rfl (fun _ => rfl) fun _ =>
    ite_congr rfl (fun _ => rfl) fun _ => ?_
  unfold part
  split
  · rfl
  · split <;> rfl

theorem part_reaches {a : List Char × Cursor} (h : part double c = .ok a) :
    c.next.Reaches a.2 := by
  unfold part at h
  split at h
  · exact escape_reaches h
  split at h
  · next hc => exact gap_reaches h hc
  · cases h
    exact .refl _

theorem body_reaches {fuel : Nat} {a : List Char × Cursor} (h : body double fuel c = .ok a) :
    c.next.Reaches a.2 := by
  induction fuel generalizing c a with
  | zero => cases h
  | succ fuel ih =>
    rw [body_succ] at h
    split at h
    · cases h
    split at h
    · obtain ⟨b, hb, ha⟩ := bind_eq_ok h
      cases ha
      have hmore := ih hb
      exact (c.next.reaches_skip 2).trans hmore
    by_cases hclose : c.peek = if double then '"' else '\''
    · rw [if_pos hclose] at h
      cases h
      exact .refl _
    · rw [if_neg hclose] at h
      obtain ⟨found, hfound, h⟩ := bind_eq_ok h
      obtain ⟨more, hmore, ha⟩ := bind_eq_ok h
      cases ha
      have hbehind := ih hmore
      exact ((part_reaches hfound).trans found.2.reaches_next).trans hbehind

/-! ## In the middle of the text -/

theorem breaks_within {fuel fuel' : Nat} (h : Solid c.rest) (hfuel : c.rest.length < fuel) :
    Refines (Inside m) (breaks fuel c) (breaks fuel' (c.within m)) := by
  induction fuel generalizing fuel' c with
  | zero => exact absurd hfuel (Nat.not_lt_zero _)
  | succ fuel ih =>
    cases fuel' with
    | zero => exact .error
    | succ fuel' =>
      obtain ⟨hspaces, hwithin⟩ :=
        Cursor.skipWhile_within (m := m) (p := isSpaceOrTab) h fun _ => isBlank_of_isSpaceOrTab
      unfold breaks
      dsimp only
      rw [(Cursor.Meets.inside h).atDocumentMark_eq, hwithin, Cursor.peek_within hspaces.ne_nil]
      refine .ite Iff.rfl (fun _ => .error) fun _ => .ite Iff.rfl (fun hbreak => ?_) fun _ =>
        .ok ⟨rfl, hspaces, rfl⟩
      -- a break is blank, so the text goes on behind it
      obtain ⟨hsolid, hline⟩ := Cursor.lineBreak_within (m := m) hspaces
      rw [hline]
      have hlength := (Cursor.next_reaches_lineBreak hbreak).length_lt hspaces.ne_nil
      have hle := (c.reaches_skipWhile isSpaceOrTab).length_le
      refine (ih hsolid (by omega)).bind ?_
      rintro ⟨more, c'⟩ ⟨_, d'⟩ ⟨rfl, h', rfl⟩
      exact .pure ⟨rfl, h', rfl⟩

theorem gap_within (h : Solid c.rest) : Refines (Inside m) (gap c) (gap (c.within m)) := by
  obtain ⟨hspaces, hwithin⟩ :=
    Cursor.skipWhile_within (m := m) (p := isSpaceOrTab) h fun _ => isBlank_of_isSpaceOrTab
  have hrun : (c.within m).run isSpaceOrTab = c.run isSpaceOrTab :=
    Cursor.run_within hspaces.ne_nil
  unfold Cursor.skipWhile at hwithin hspaces
  rw [hrun] at hwithin
  unfold gap
  dsimp only
  rw [hrun, hwithin, Cursor.peek_within hspaces.ne_nil]
  refine .ite Iff.rfl (fun _ => ?_) fun _ => .ok ⟨rfl, hspaces, rfl⟩
  obtain ⟨hsolid, hline⟩ := Cursor.lineBreak_within (m := m) hspaces
  rw [hline]
  refine (breaks_within hsolid (Nat.lt_succ_self _)).bind ?_
  rintro ⟨more, c'⟩ ⟨_, d'⟩ ⟨rfl, h', rfl⟩
  exact .pure ⟨rfl, h', rfl⟩

theorem mapM_hexDigit_room {digits : List Char} {ch : Char} (hch : ch ∈ digits)
    (hroom : ch ∈ room) : digits.mapM hexDigit? = none := by
  induction digits with
  | nil => cases hch
  | cons digit digits ih =>
    rw [List.mapM_cons]
    rcases List.mem_cons.mp hch with rfl | hch
    · have hnone := of_mem_room (p := fun ch => (hexDigit? ch).isNone) (by decide) hroom
      rw [Option.isNone_iff_eq_none.mp hnone]
      rfl
    · rw [ih hch]
      cases hexDigit? digit <;> rfl

/-- Room is no part of a code. -/
theorem code?_append_room {digits behind : List Char} (h : ∀ ch ∈ behind, ch ∈ room) (n : Nat) :
    code? ((digits ++ behind).take n) n = code? (digits.take n) n := by
  by_cases hn : n ≤ digits.length
  · rw [List.take_append_of_le_length hn]
  have hshort : (digits.take n).length < n := by
    rw [List.length_take]
    omega
  rw [code?, code?, if_pos hshort]
  split
  · rfl
  · next hlong =>
    -- some of the room would have to be read as digits
    have htake : (digits ++ behind).take n = digits ++ behind.take (n - digits.length) := by
      rw [List.take_append, List.take_of_length_le (by omega)]
    rw [htake] at hlong ⊢
    obtain ⟨ch, more, hmore⟩ : ∃ ch more, behind.take (n - digits.length) = ch :: more := by
      refine List.exists_cons_of_ne_nil fun hnil => ?_
      rw [hnil, List.append_nil] at hlong
      omega
    have hch : ch ∈ behind.take (n - digits.length) := hmore ▸ List.mem_cons_self
    rw [mapM_hexDigit_room (List.mem_append_right digits hch) (h ch (List.mem_of_mem_take hch))]
    rfl

theorem code?_eq (h : c.Meets m d) (k n : Nat) :
    code? ((d.rest.drop k).take n) n = code? ((c.rest.drop k).take n) n := by
  cases h with
  | inside solid =>
    rw [Cursor.within, List.drop_append]
    exact code?_append_room (fun ch hch => m.behind_room ch (List.mem_of_mem_drop hch)) n
  | past spent hd =>
    rw [spent, ← List.nil_append (d.rest.drop k), List.drop_nil]
    exact code?_append_room (fun ch hch => hd ch (List.mem_of_mem_drop hch)) n

/-- What the first half of a pair stands for, with the second half or without it. -/
theorem codeChar_half {code : Nat} (h : (0xD800 ≤ code && code < 0xDC00) = true) (c : Cursor) :
    codeChar code c =
      if c.peek = '\\' ∧ c.peek 1 = 'u' then
        match code? ((c.rest.drop 2).take 4) 4 with
        | some second =>
          if 0xDC00 ≤ second && second < 0xE000 then
            .ok (Char.ofNat (0x10000 + (code - 0xD800) * 0x400 + (second - 0xDC00)), c.skip 6)
          else .ok ('\uFFFD', c)
        | none => .ok ('\uFFFD', c)
      else .ok ('\uFFFD', c) := by
  have hcode := h
  simp only [Bool.and_eq_true, decide_eq_true_eq] at hcode
  unfold codeChar
  rw [if_neg (by omega), if_neg (by omega), if_pos h]
  by_cases hescape : c.peek = '\\' ∧ c.peek 1 = 'u'
  · rw [if_pos hescape, hescape.1, hescape.2]
    cases code? ((c.rest.drop 2).take 4) 4 <;> rfl
  · rw [if_neg hescape]
    split
    · next hfirst hsecond _ => exact absurd ⟨hfirst, hsecond⟩ hescape
    · rfl

theorem codeChar_refines (code : Nat) (h : c.Meets m d) :
    Refines (Beside m) (codeChar code c) (codeChar code d) := by
  cases hhalf : (0xD800 ≤ code && code < 0xDC00 : Bool) with
  | true =>
    rw [codeChar_half hhalf, codeChar_half hhalf]
    refine .ite ?_ (fun _ => ?_) fun _ => .ok ⟨rfl, h⟩
    · exact and_congr (h.peek_eq_iff (by decide)).symm (h.peek_eq_iff (by decide) 1).symm
    rw [code?_eq h]
    split
    · exact .ite Iff.rfl (fun _ => .ok ⟨rfl, h.skip 6⟩) fun _ => .ok ⟨rfl, h⟩
    · exact .ok ⟨rfl, h⟩
  | false =>
    unfold codeChar
    simp only [hhalf, Bool.false_eq_true, if_false]
    refine .ite Iff.rfl (fun _ => .error) fun _ => .ite Iff.rfl (fun _ => .error) fun _ => ?_
    exact .ite Iff.rfl (fun _ => .ok ⟨rfl, h⟩) fun _ => .ok ⟨rfl, h⟩

/-- An escape is read alike from its letter on. -/
theorem escape_within (h : Solid c.rest) :
    Refines (Beside m) (escape c) (escape (c.within m)) := by
  have hmeets : c.Meets m (c.within m) := .inside h
  unfold escape
  rw [Cursor.peek_within h.ne_nil]
  split
  · exact .ok ⟨rfl, hmeets.next⟩
  · next length _ _ =>
    -- no digit is room, so a code that is complete is complete in the text itself
    rw [code?_eq hmeets 1 length]
    split
    · exact .error
    · refine (codeChar_refines _ (hmeets.skip (length + 1))).bind ?_
      rintro ⟨ch, c'⟩ ⟨_, d'⟩ ⟨rfl, h'⟩
      exact .pure ⟨rfl, h'⟩
  · refine .ite Iff.rfl (fun _ => ?_) fun _ => .error
    obtain ⟨hsolid, hline⟩ := Cursor.lineBreak_within (m := m) h
    rw [hline]
    have hfuel := Nat.lt_succ_of_le c.reaches_lineBreak.length_le
    exact (breaks_within hsolid hfuel).mono fun _ _ => Inside.beside

/-! ## To the closing quote -/

/-- Behind the end of the text there is no closing quote. -/
theorem body_over {fuel : Nat} (h : c.Meets m d) (hover : c.rest = [])
    (a : List Char × Cursor) : body double fuel d ≠ .ok a := by
  induction fuel generalizing d a with
  | zero => exact fun ha => nomatch ha
  | succ fuel ih =>
    have hend : c.peek = '\x00' := by rw [Cursor.peek, hover, List.drop_nil, List.headD_nil]
    have hdouble : d.peek ≠ '"' := by
      rw [ne_eq, h.peek_eq_iff (by decide), hend]
      decide
    have hsingle : d.peek ≠ '\'' := by
      rw [ne_eq, h.peek_eq_iff (by decide), hend]
      decide
    intro ha
    rw [body_succ, if_neg (c := (_ && _ && _) = true), if_neg (c := d.peek = _)] at ha
    · split at ha
      · cases ha
      obtain ⟨found, hfound, ha⟩ := bind_eq_ok ha
      obtain ⟨more, hmore, -⟩ := bind_eq_ok ha
      -- what is read instead of a quote is room, and the rest of it is room again
      have hpast := h.past_of_reaches hover (d.reaches_next.trans (part_reaches hfound))
      exact ih hpast more hmore
    · cases double with
      | true => exact hdouble
      | false => exact hsingle
    · rw [decide_eq_false hsingle, Bool.and_false, Bool.false_and]
      exact Bool.false_ne_true

theorem part_refines (h : Solid c.rest) (hnext : c.peek = '\\' → c.next.rest ≠ []) :
    Refines (Beside m) (part double c) (part double (c.within m)) := by
  unfold part
  rw [Cursor.peek_within h.ne_nil]
  refine .ite Iff.rfl (fun hescape => ?_) fun _ => .ite Iff.rfl (fun _ => ?_) fun _ =>
    .ok ⟨rfl, (Cursor.Meets.inside h).next⟩
  · have hpeek : c.peek = '\\' := by
      simpa using And.right (Bool.and_eq_true_iff.mp hescape)
    obtain ⟨hsolid, hwithin⟩ := (Cursor.Meets.inside (m := m) h).next.solid (hnext hpeek)
    rw [hwithin]
    exact escape_within hsolid
  · exact (gap_within h).mono fun _ _ => Inside.beside

theorem body_refines {fuel fuel' : Nat} (h : c.Meets m d) (hfuel : c.rest.length < fuel) :
    Refines (Beside m) (body double fuel c) (body double fuel' d) := by
  induction fuel generalizing fuel' c d with
  | zero => exact absurd hfuel (Nat.not_lt_zero _)
  | succ fuel ih =>
    by_cases hover : c.rest = []
    · exact .of_not_ok (body_over h hover)
    obtain ⟨hsolid, rfl⟩ := h.solid hover
    cases fuel' with
    | zero => exact .error
    | succ fuel' =>
      -- each of the four ways of going on leaves less of the text than there is fuel
      have hless : ∀ c', c.next.Reaches c' → c'.rest.length < fuel := fun c' h' =>
        (h'.length_lt hover).trans_le (Nat.le_of_lt_succ hfuel)
      rw [body_succ, body_succ]
      refine .ite ?_ (fun _ => .error) fun _ => .ite ?_ (fun _ => ?_) fun _ => .ite ?_
        (fun _ => .ok ⟨rfl, h.next⟩) fun _ => ?_
      · rw [Cursor.isEmpty_within hover]
      · rw [Cursor.peek_within hover, h.peek_eq (f := fun ch => decide (ch = '\'')) (by decide) 1]
      · refine (ih (h.skip 2) (hless _ (c.next.reaches_next))).bind ?_
        rintro ⟨more, c'⟩ ⟨_, d'⟩ ⟨rfl, h'⟩
        exact .pure ⟨rfl, h'⟩
      · rw [Cursor.peek_within hover]
      by_cases hescape : c.peek = '\\' ∧ c.next.rest = []
      · -- the text ends with the mark of an escape
        refine .of_not_ok fun a ha => ?_
        obtain ⟨found, hfound, ha⟩ := bind_eq_ok ha
        obtain ⟨more, hmore, -⟩ := bind_eq_ok ha
        have hpast := h.next.past_of_reaches hescape.2 (part_reaches hfound)
        exact body_over hpast hescape.2 more hmore
      · refine (part_refines hsolid fun hpeek hnext => hescape ⟨hpeek, hnext⟩).bind_of_ok ?_
        rintro ⟨found, c'⟩ ⟨_, d'⟩ hfound ⟨rfl, h'⟩
        refine (ih h' (hless c' (part_reaches hfound))).bind ?_
        rintro ⟨more, c''⟩ ⟨_, d''⟩ ⟨rfl, h''⟩
        exact .pure ⟨rfl, h''⟩

theorem scan_refines (h : Solid c.rest) :
    Refines (Beside m) (scan c) (scan (c.within m)) := by
  unfold scan
  rw [Cursor.peek_within h.ne_nil]
  refine body_refines (Cursor.Meets.inside h).next ?_
  exact Nat.lt_succ_of_le c.reaches_next.length_le

end BrowserFlow.Yaml.Quoted
