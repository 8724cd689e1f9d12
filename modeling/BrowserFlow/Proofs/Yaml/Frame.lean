import BrowserFlow.Proofs.Yaml.Run
import BrowserFlow.Yaml.Tree

/-!
# Documents between remarks and room

A document may have lines in front of it that are empty or hold a comment, and spaces and line
breaks behind it. None of that is read: the lexer passes the lines (`Lexer.skipBlank_remarks`) and
is then at the beginning of the document, within what surrounds it. So the text and the document in
it have the same tokens and the same value (`tokens_framed`, `load_framed`), unless the document
ends with a scalar that takes the room for its own (`settled`).
-/

namespace BrowserFlow.Yaml

/-- Whether a line holds nothing but spaces and perhaps a comment. -/
def isRemark (line : List Char) : Bool :=
  let rest := line.dropWhile (· = ' ')
  let rest := if rest.head? = some '#' then rest.dropWhile (!isBreakOrEnd ·) else rest
  rest.isEmpty || rest = ['\r']

/-- Some lines, each with its end. -/
def closedLines (lines : List (List Char)) : List Char :=
  lines.flatMap (· ++ ['\n'])

/-- Whether the last scalar, if nothing follows it and it is not a plain one, ends without room. -/
def settled (ts : List Token) : Bool :=
  match ts.reverse.dropWhile (· == .blockEnd) with
  | .scalar text false :: _ => !text.toList.getLast?.any room.contains
  | _ => true

variable {m : Margin}

/-! ## Remarks -/

theorem dropWhile_append_cons {p : Char → Bool} {ch : Char} (hch : p ch = false)
    (xs ys : List Char) : (xs ++ ch :: ys).dropWhile p = xs.dropWhile p ++ ch :: ys := by
  rw [List.dropWhile_append, List.dropWhile_cons_of_neg (by rw [hch]; exact Bool.false_ne_true)]
  split
  · next hempty => rw [List.isEmpty_iff.mp hempty, List.nil_append]
  · rfl

namespace Cursor

/-- Behind a line feed the next line begins. -/
theorem column_next {c : Cursor} {rest : List Char} (hc : c.rest = '\n' :: rest) :
    c.next.column = 0 := by
  unfold next
  rw [hc]
  rfl

/-- Behind a remark the next line begins. -/
theorem lineBreak_remark {c : Cursor} {line rest : List Char} (h : isRemark line = true)
    (hc : c.rest = line ++ '\n' :: rest) :
    isBreak c.skipSpaces.skipComment.peek = true ∧
      c.skipSpaces.skipComment.lineBreak.2.rest = rest ∧
      c.skipSpaces.skipComment.lineBreak.2.column = 0 := by
  have hspaces : c.skipSpaces.rest = line.dropWhile (· = ' ') ++ '\n' :: rest := by
    rw [skipSpaces, rest_skipWhile, hc, dropWhile_append_cons (by decide)]
  have hend : c.skipSpaces.skipComment.rest = '\n' :: rest ∨
      c.skipSpaces.skipComment.rest = '\r' :: '\n' :: rest := by
    unfold isRemark at h
    generalize line.dropWhile (· = ' ') = behind at h hspaces
    generalize c.skipSpaces = c' at hspaces ⊢
    have hpeek : c'.peek = '#' ↔ behind.head? = some '#' := by
      rw [peek, hspaces]
      cases behind with
      | nil => exact ⟨fun h => absurd h (by decide : ¬ '\n' = '#'), fun h => by cases h⟩
      | cons ch behind => exact Option.some_inj.symm
    have hrest : c'.skipComment.rest =
        (if behind.head? = some '#' then behind.dropWhile (!isBreakOrEnd ·) else behind) ++
          '\n' :: rest := by
      unfold skipComment
      by_cases hcomment : behind.head? = some '#'
      · rw [if_pos (hpeek.mpr hcomment), if_pos hcomment, rest_skipWhile, hspaces,
          dropWhile_append_cons (by decide)]
      · rw [if_neg (hcomment ∘ hpeek.mp), if_neg hcomment, hspaces]
    rw [hrest]
    rcases Bool.or_eq_true_iff.mp h with hempty | hreturn
    · rw [List.isEmpty_iff.mp hempty]
      exact .inl rfl
    · rw [of_decide_eq_true hreturn]
      exact .inr rfl
  generalize c.skipSpaces.skipComment = c' at hend ⊢
  rcases hend with hrest | hrest
  · rw [lineBreak_of_single hrest fun hpair => absurd hpair.1 (by decide)]
    refine ⟨by rw [peek, hrest]; rfl, ?_, column_next hrest⟩
    change c'.next.rest = rest
    rw [rest_next, hrest, List.tail_cons]
  · rw [lineBreak_of_pair hrest]
    have hnext : c'.next.rest = '\n' :: rest := by rw [rest_next, hrest, List.tail_cons]
    refine ⟨by rw [peek, hrest]; rfl, ?_, column_next hnext⟩
    change (c'.skip 2).rest = rest
    rw [rest_skip, hrest]
    rfl

end Cursor

namespace Lexer

/-- How far blanks are passed does not depend on the fuel, if there is enough. -/
theorem skipBlank_fuel {fuel fuel' : Nat} {l : Lexer} (hfuel : l.cursor.rest.length < fuel)
    (hfuel' : l.cursor.rest.length < fuel') : skipBlank fuel l = skipBlank fuel' l := by
  induction fuel generalizing fuel' l with
  | zero => exact absurd hfuel (Nat.not_lt_zero _)
  | succ fuel ih =>
    obtain ⟨fuel', rfl⟩ : ∃ n, fuel' = n + 1 := ⟨fuel' - 1, by omega⟩
    unfold skipBlank
    dsimp only
    split
    · next hbreak =>
      have hless := length_lt_of_line hbreak
      exact ih (hless.trans_le (Nat.le_of_lt_succ hfuel))
        (hless.trans_le (Nat.le_of_lt_succ hfuel'))
    · rfl

/-- Remarks are passed, and then there is what stands behind them. -/
theorem skipBlank_remarks {lines : List (List Char)} {rest : List Char} {fuel : Nat} {l : Lexer}
    (hlines : ∀ line ∈ lines, isRemark line = true)
    (hrest : l.cursor.rest = closedLines lines ++ rest) (hcolumn : l.cursor.column = 0)
    (hallowed : l.keyAllowed = true) (hfuel : l.cursor.rest.length < fuel) :
    ∃ index line, skipBlank fuel l =
      skipBlank (rest.length + 1) { l with cursor := ⟨rest, index, line, 0⟩ } := by
  -- each remark is passed with its line break, and the next line begins in the first column
  induction lines generalizing l fuel with
  | nil =>
    obtain ⟨⟨_, index, line, column⟩, _, _, _, _, _, _⟩ := l
    obtain rfl : column = 0 := hcolumn
    obtain rfl : _ = rest := hrest
    exact ⟨index, line, skipBlank_fuel hfuel (Nat.lt_succ_self _)⟩
  | cons first lines ih =>
    obtain ⟨fuel, rfl⟩ : ∃ n, fuel = n + 1 := ⟨fuel - 1, by omega⟩
    have hfirst : l.cursor.rest = first ++ '\n' :: (closedLines lines ++ rest) := by
      rw [hrest, closedLines, List.flatMap_cons, List.append_assoc, List.append_assoc]
      rfl
    obtain ⟨hbreak, hnext, hcolumn'⟩ :=
      Cursor.lineBreak_remark (hlines first List.mem_cons_self) hfirst
    unfold skipBlank
    dsimp only
    rw [if_pos hbreak, hallowed, Bool.true_or]
    obtain ⟨index, line, heq⟩ := ih (l := { l with
        cursor := l.cursor.skipSpaces.skipComment.lineBreak.2, keyAllowed := true })
      (fun line hline => hlines line (List.mem_cons_of_mem _ hline)) hnext hcolumn' rfl
      ((length_lt_of_line hbreak).trans_le (Nat.le_of_lt_succ hfuel))
    refine ⟨index, line, heq.trans ?_⟩
    obtain ⟨_, _, _, _, _, allowed, _⟩ := l
    obtain rfl : allowed = true := hallowed
    rfl

/-- The run begins behind the blanks. -/
theorem run_of_skipBlank {fuel : Nat} {l l' : Lexer}
    (h : skipBlank (l.cursor.rest.length + 1) l = skipBlank (l'.cursor.rest.length + 1) l') :
    run (fuel + 1) l = run (fuel + 1) l' := by
  rw [run_succ, run_succ, h]

end Lexer

/-! ## Tokens and values -/

theorem settled_of_lastLonger {ts ts' : Array Token} {n : Nat} (h : LastLonger ts ts')
    (hsettled : settled (ts' ++ Array.replicate n Token.blockEnd).toList = true) : ts' = ts := by
  rcases h with h | ⟨front, text, more, hmore, rfl, rfl⟩
  · exact h
  cases hlast : more.getLast? with
  | none => rw [List.getLast?_eq_none_iff.mp hlast, List.append_nil]
  | some ch =>
    -- the last character of the scalar would be room
    have hend : ((front.push (Token.scalar (String.ofList (text ++ more)) false) ++
        Array.replicate n Token.blockEnd).toList.reverse.dropWhile (· == .blockEnd)) =
        .scalar (String.ofList (text ++ more)) false :: front.toList.reverse := by
      rw [Array.toList_append, Array.toList_push, Array.toList_replicate, List.reverse_append,
        List.reverse_replicate, List.dropWhile_append_of_pos (by simp), List.reverse_append]
      rfl
    rw [settled, hend] at hsettled
    simp only [String.toList_ofList, List.getLast?_append, hlast, Option.some_or,
      Option.any_some] at hsettled
    rw [List.contains_iff_mem.mpr (hmore ch (List.mem_of_getLast? hlast))] at hsettled
    cases hsettled

/-- What it takes for a text that does not begin with a byte-order mark to have some tokens. -/
theorem tokens_eq_ok_iff {t : String} {ts : List Token} (hmark : t.toList.head? ≠ some '\uFEFF') :
    tokens t = .ok ts ↔ t.toList.all isAllowed = true ∧ ∃ l : Lexer,
      Lexer.run (t.toList.length + 2) { cursor := { rest := t.toList } } = .ok l ∧
        l.tokens.toList = ts := by
  have hpeek : ¬({ rest := t.toList } : Cursor).peek = '\uFEFF' := by
    intro hpeek
    cases hrest : t.toList with
    | nil =>
      rw [hrest] at hpeek
      exact absurd hpeek (by decide)
    | cons ch rest =>
      rw [hrest] at hpeek hmark
      exact hmark (congrArg some hpeek)
  unfold tokens
  dsimp only
  rw [if_neg hpeek]
  by_cases hall : t.toList.all isAllowed = true
  · rw [hall]
    constructor
    · intro h
      obtain ⟨l, hl, h⟩ := bind_eq_ok h
      exact ⟨rfl, l, hl, Except.ok.inj h⟩
    · rintro ⟨-, l, hl, rfl⟩
      change (Lexer.run _ _ >>= fun l => .ok l.tokens.toList) = _
      rw [hl]
      rfl
  · rw [Bool.eq_false_iff.mpr hall]
    constructor
    · intro h
      cases h
    · rintro ⟨h, -⟩
      cases h

/-- A remark does not begin with a byte-order mark. -/
theorem head?_ne_mark_of_isRemark {line : List Char} (h : isRemark line = true) :
    line.head? ≠ some '\uFEFF' := by
  cases line with
  | nil => exact fun h => nomatch h
  | cons ch line =>
    rintro ⟨⟩
    cases h

/-- The document is read as it is where it stands between remarks and room. -/
theorem tokens_framed {t body : String} {lines : List (List Char)} {behind : List Char}
    (ht : t.toList = closedLines lines ++ body.toList ++ behind)
    (hlines : ∀ line ∈ lines, isRemark line = true) (hbehind : ∀ ch ∈ behind, ch ∈ room)
    (hmark : body.toList.head? ≠ some '\uFEFF')
    (hlast : ∃ ch, body.toList.getLast? = some ch ∧ Text.isBlank ch = false)
    {ts : List Token} (hts : tokens t = .ok ts) (hsettled : settled ts = true) :
    tokens body = .ok ts := by
  have hmark' : t.toList.head? ≠ some '\uFEFF' := by
    rw [ht]
    cases lines with
    | nil =>
      obtain ⟨ch, rest, hbody⟩ : ∃ ch rest, body.toList = ch :: rest := by
        obtain ⟨ch, hch, -⟩ := hlast
        exact List.exists_cons_of_ne_nil fun hnil => by rw [hnil] at hch; cases hch
      rw [hbody] at hmark ⊢
      exact hmark
    | cons first lines =>
      have hfirst := head?_ne_mark_of_isRemark (hlines first List.mem_cons_self)
      cases first with
      | nil => exact fun h => absurd (Option.some.inj h) (by decide)
      | cons d first => exact hfirst
  obtain ⟨hallowed, l, hrun, htokens⟩ := (tokens_eq_ok_iff hmark').mp hts
  have hallowed' : body.toList.all isAllowed = true := by
    rw [ht, List.all_append, List.all_append] at hallowed
    exact (Bool.and_eq_true_iff.mp (Bool.and_eq_true_iff.mp hallowed).1).2
  have hsolid : Solid body.toList := by
    refine ⟨fun hmem => ?_, hlast⟩
    exact absurd (List.all_eq_true.mp hallowed' _ hmem) (by decide)
  -- the lexer passes the lines in front and is then at the beginning of the document
  rw [List.append_assoc] at ht
  obtain ⟨index, line, hblank⟩ := Lexer.skipBlank_remarks
    (l := { cursor := { rest := t.toList } }) hlines ht rfl rfl (Nat.lt_succ_self _)
  rw [Lexer.run_of_skipBlank hblank] at hrun
  have hmeets := Lexer.meets_within (m := ⟨index, line, behind, hbehind⟩)
    (l := { cursor := { rest := body.toList } }) hsolid
  have hwithin : Lexer.within ⟨index, line, behind, hbehind⟩ { cursor := { rest := body.toList } } =
      { cursor := ⟨body.toList ++ behind, index, line, 0⟩ } := by
    simp only [Lexer.within, Cursor.within, Nat.zero_add, List.map_nil]
  rw [hwithin] at hmeets
  obtain ⟨l', hrun', read, read', n, hlonger, hl', hl⟩ := Lexer.run_refines hmeets
    (show body.toList.length < body.toList.length + 2 by omega) (fun k hk => by cases hk) l hrun
  -- the last scalar would have kept the room, if it had got any
  obtain rfl : read' = read :=
    settled_of_lastLonger hlonger (by rw [← hl, htokens]; exact hsettled)
  exact (tokens_eq_ok_iff hmark).mpr ⟨hallowed', l', hrun', by rw [hl', ← hl, htokens]⟩

/-- The value of a text is that of its tokens. -/
theorem load_congr {t t' : String} (h : tokens t = tokens t') : load t = load t' := by
  unfold load loadTree Node.ofText
  rw [h]

theorem exists_tokens_of_load {t : String} {v : Value} (h : load t = .ok v) :
    ∃ ts, tokens t = .ok ts := by
  cases hts : tokens t with
  | ok ts => exact ⟨ts, rfl⟩
  | error e =>
    unfold load loadTree Node.ofText at h
    rw [hts] at h
    cases h

end BrowserFlow.Yaml
