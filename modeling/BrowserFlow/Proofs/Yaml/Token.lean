import BrowserFlow.Proofs.Yaml.Names
import BrowserFlow.Proofs.Yaml.Scalar.Block
import BrowserFlow.Proofs.Yaml.Scalar.Plain
import BrowserFlow.Proofs.Yaml.Scalar.Quoted
import BrowserFlow.Yaml.Token.Lexer

/-!
# One token within a longer text

A lexer in a text is compared with the lexer at the same place of the longer text
(`Lexer.within`). The two have the same tokens, the same collections open and the same keys in
mind, whose places are those of the longer text. What does not move the cursor keeps them so
(`Kept`). Reading a token moves both on, and they meet again (`Lexer.token_taken`): in the middle of
the text with everything the same, and at its end with a last scalar that may be longer by some room
(`LastLonger`).
-/

namespace BrowserFlow.Yaml

open Block (Roomy)

variable {m : Margin}

/-- The place of a key in the surrounding text. -/
def KeyPlace.within (m : Margin) (k : KeyPlace) : KeyPlace :=
  { k with index := k.index + m.index, line := k.line + m.line }

/-- The same tokens, up to room at the end of the last if that is a scalar and not a plain one. -/
def LastLonger (ts ts' : Array Token) : Prop :=
  ts' = ts ∨ ∃ (front : Array Token) (text more : List Char), Roomy more ∧
    ts = front.push (.scalar (String.ofList text) false) ∧
    ts' = front.push (.scalar (String.ofList (text ++ more)) false)

namespace Lexer

variable {l l' a b : Lexer}

/-- The lexer at the same place of the surrounding text. -/
def within (m : Margin) (l : Lexer) : Lexer :=
  { l with
    cursor := l.cursor.within m
    keys := l.keys.map fun k => (k.1, k.2.within m) }

/-- The lexers are at the same place as far as the first can tell, and got there with the same
tokens. -/
structure Meets (m : Margin) (a b : Lexer) : Prop where
  cursor : a.cursor.Meets m b.cursor
  flow : b.flow = a.flow
  indent : b.indent = a.indent
  outer : b.outer = a.outer
  keys : b.keys = a.keys.map fun k => (k.1, k.2.within m)
  tokens : LastLonger a.tokens b.tokens
  going : a.cursor.rest ≠ [] → b.tokens = a.tokens ∧ b.keyAllowed = a.keyAllowed

/-- Nothing was read, and the two lexers are the same but for the place. -/
structure Kept (m : Margin) (l a b : Lexer) : Prop where
  within : b = a.within m
  cursor : a.cursor = l.cursor
  keys : ∀ k ∈ a.keys, k ∈ l.keys ∨ k.2.line = l.cursor.line

/-- Something was read by both. -/
structure Taken (m : Margin) (l a b : Lexer) : Prop where
  meets : Meets m a b
  onward : l.cursor.next.Reaches a.cursor
  keys : ∀ k ∈ a.keys, k ∈ l.keys ∨ k.2.line = l.cursor.line

theorem Meets.eq_within (h : Meets m a b) (hne : a.cursor.rest ≠ []) :
    Solid a.cursor.rest ∧ b = a.within m := by
  obtain ⟨hsolid, hcursor⟩ := h.cursor.solid hne
  obtain ⟨htokens, hallowed⟩ := h.going hne
  obtain ⟨-, hflow, hindent, houter, hkeys, -, -⟩ := h
  obtain ⟨cursor, tokens, flow, indent, outer, keyAllowed, keys⟩ := b
  dsimp only at *
  subst hcursor htokens hflow hindent houter hallowed hkeys
  exact ⟨hsolid, rfl⟩

theorem meets_within (h : Solid l.cursor.rest) : Meets m l (l.within m) where
  cursor := .inside h
  flow := rfl
  indent := rfl
  outer := rfl
  keys := rfl
  tokens := .inl rfl
  going _ := ⟨rfl, rfl⟩

/-! ## What does not move the cursor -/

theorem forgetKey_kept (l : Lexer) : Refines (Kept m l) l.forgetKey (l.within m).forgetKey := by
  unfold forgetKey
  refine .ite ?_ (fun _ => .error) fun _ => .ok ⟨?_, rfl, fun k hk => ?_⟩
  · rw [within, List.any_map]
    rfl
  · unfold within
    rw [List.filter_map]
    rfl
  · exact .inl (List.mem_filter.mp hk).1

theorem Kept.trans {a' b' : Lexer} (h : Kept m l a b) (h' : Kept m a a' b') : Kept m l a' b' where
  within := h'.within
  cursor := h'.cursor.trans h.cursor
  keys k hk := (h'.keys k hk).elim (h.keys k) fun hline => .inr (hline.trans (by rw [h.cursor]))

theorem rememberKey_kept (l : Lexer) :
    Refines (Kept m l) l.rememberKey (l.within m).rememberKey := by
  unfold rememberKey
  refine .ite Iff.rfl (fun _ => ?_) fun _ => .ok ⟨rfl, rfl, fun k hk => .inl hk⟩
  refine (forgetKey_kept l).bind ?_
  rintro a _ ⟨rfl, hcursor, hkeys⟩
  refine .pure ⟨rfl, hcursor, fun k hk => ?_⟩
  rcases List.mem_cons.mp hk with rfl | hk
  · exact .inr rfl
  · exact hkeys k hk

theorem closeBlocks_within (column : Int) (l : Lexer) (outer : List Int) :
    closeBlocks column (l.within m) outer = (closeBlocks column l outer).within m := by
  induction outer generalizing l with
  | nil => rfl
  | cons o outer ih =>
    unfold closeBlocks
    by_cases hcolumn : column < l.indent
    · rw [if_pos hcolumn, if_pos (show column < (l.within m).indent from hcolumn)]
      exact ih { l.push .blockEnd with indent := o }
    · rw [if_neg hcolumn, if_neg (show ¬column < (l.within m).indent from hcolumn)]
      rfl

theorem unwind_within (column : Int) (l : Lexer) :
    (l.within m).unwind column = (l.unwind column).within m := by
  unfold unwind
  split
  · next hflow => 
    rw [if_pos (show (l.flow == 0) = true from hflow)]
    exact closeBlocks_within column l l.outer
  · next hflow =>
    rw [if_neg (show ¬(l.flow == 0) = true from hflow)]

theorem openBlock_within (column : Nat) (t : Token) (position : Option Nat) (l : Lexer) :
    (l.within m).openBlock column t position = (l.openBlock column t position).within m := by
  unfold openBlock
  by_cases hindent : l.indent < column
  · rw [if_pos hindent, if_pos (show (l.within m).indent < column from hindent)]
    rfl
  · rw [if_neg hindent, if_neg (show ¬(l.within m).indent < column from hindent)]

/-- Blocks are closed without a look at the text. -/
theorem closeBlocks_still (column : Int) (l : Lexer) (outer : List Int) :
    (closeBlocks column l outer).cursor = l.cursor ∧
      (closeBlocks column l outer).keys = l.keys := by
  induction outer generalizing l with
  | nil => exact ⟨rfl, rfl⟩
  | cons o outer ih =>
    unfold closeBlocks
    split
    · exact ih { l.push .blockEnd with indent := o }
    · exact ⟨rfl, rfl⟩

theorem unwind_still (column : Int) (l : Lexer) :
    (l.unwind column).cursor = l.cursor ∧ (l.unwind column).keys = l.keys := by
  unfold unwind
  split
  · exact closeBlocks_still column l l.outer
  · exact ⟨rfl, rfl⟩

theorem openBlock_still (column : Nat) (t : Token) (position : Option Nat) (l : Lexer) :
    (l.openBlock column t position).cursor = l.cursor ∧
      (l.openBlock column t position).keys = l.keys := by
  unfold openBlock
  split <;> exact ⟨rfl, rfl⟩

theorem Kept.of_still (h : Kept m l' a b) (hstill : l'.cursor = l.cursor ∧ l'.keys = l.keys) :
    Kept m l a b :=
  ⟨h.within, h.cursor.trans hstill.1, hstill.1 ▸ hstill.2 ▸ h.keys⟩

theorem endDocument_kept (l : Lexer) :
    Refines (Kept m l) l.endDocument (l.within m).endDocument := by
  unfold endDocument
  rw [unwind_within]
  refine (forgetKey_kept _).bind fun a b hk => ?_
  obtain ⟨rfl, hcursor, hkeys⟩ := hk.of_still (unwind_still (-1) l)
  exact .pure ⟨rfl, hcursor, hkeys⟩

/-! ## Marks -/

/-- A mark is read, one or more characters long. -/
theorem Kept.take (h : Kept m l a b) (hsolid : Solid l.cursor.rest) (n : Nat) (t : Token)
    (flow : Nat) (allowed : Bool) :
    Taken m l { a.take (n + 1) t with flow := flow, keyAllowed := allowed }
      { b.take (n + 1) t with flow := flow, keyAllowed := allowed } := by
  obtain ⟨rfl, hcursor, hkeys⟩ := h
  refine ⟨⟨?_, rfl, rfl, rfl, rfl, .inl rfl, fun _ => ⟨rfl, rfl⟩⟩, ?_, hkeys⟩
  · exact (Cursor.Meets.inside (hcursor ▸ hsolid)).skip (n + 1)
  · change l.cursor.next.Reaches (a.cursor.skip (n + 1))
    rw [hcursor]
    exact l.cursor.next.reaches_skip n

theorem openFlow_taken (h : Solid l.cursor.rest) (t : Token) :
    Refines (Taken m l) (l.openFlow t) ((l.within m).openFlow t) := by
  unfold openFlow
  refine (rememberKey_kept l).bind ?_
  rintro a _ ⟨rfl, hcursor, hkeys⟩
  exact .pure (Kept.take ⟨rfl, hcursor, hkeys⟩ h 0 t _ _)

theorem closeFlow_taken (h : Solid l.cursor.rest) (t : Token) :
    Refines (Taken m l) (l.closeFlow t) ((l.within m).closeFlow t) := by
  unfold closeFlow
  refine .ite Iff.rfl (fun _ => .throw_bind) fun _ => (forgetKey_kept l).bind ?_
  rintro a _ ⟨rfl, hcursor, hkeys⟩
  exact .pure (Kept.take ⟨rfl, hcursor, hkeys⟩ h 0 t _ _)

theorem flowEntry_taken (h : Solid l.cursor.rest) :
    Refines (Taken m l) l.flowEntry (l.within m).flowEntry := by
  unfold flowEntry
  refine (forgetKey_kept l).bind ?_
  rintro a _ ⟨rfl, hcursor, hkeys⟩
  exact .pure (Kept.take ⟨rfl, hcursor, hkeys⟩ h 0 .flowEntry _ _)

/-- Opens a block collection at the cursor unless a flow collection is open. -/
def opened (t : Token) (l : Lexer) : Lexer :=
  if l.flow == 0 then l.openBlock l.cursor.column t none else l

theorem opened_within (t : Token) (l : Lexer) :
    (l.within m).opened t = (l.opened t).within m := by
  unfold opened
  by_cases hflow : (l.flow == 0) = true
  · rw [if_pos hflow, if_pos (show ((l.within m).flow == 0) = true from hflow)]
    exact openBlock_within _ _ _ l
  · rw [if_neg hflow, if_neg (show ¬((l.within m).flow == 0) = true from hflow)]

theorem opened_still (t : Token) (l : Lexer) :
    (l.opened t).cursor = l.cursor ∧ (l.opened t).keys = l.keys := by
  unfold opened
  split
  · exact openBlock_still _ _ _ l
  · exact ⟨rfl, rfl⟩

/-- A mark that may open a block collection and has no key in front of it. -/
theorem opened_taken (h : Solid l.cursor.rest) (opening mark : Token) (allowed : Nat → Bool) :
    Refines (Taken m l)
      (do
        let l ← (l.opened opening).forgetKey
        return { l.take 1 mark with keyAllowed := allowed l.flow })
      (do
        let l ← ((l.within m).opened opening).forgetKey
        return { l.take 1 mark with keyAllowed := allowed l.flow }) := by
  rw [opened_within]
  refine (forgetKey_kept _).bind fun a b hk => .pure ?_
  obtain ⟨rfl, hcursor, hkeys⟩ := hk.of_still (opened_still opening l)
  exact Kept.take ⟨rfl, hcursor, hkeys⟩ h 0 mark _ _

theorem blockEntry_taken (h : Solid l.cursor.rest) :
    Refines (Taken m l) l.blockEntry (l.within m).blockEntry := by
  unfold blockEntry
  refine .ite Iff.rfl (fun _ => .throw_bind) fun _ => ?_
  exact opened_taken h .blockSequenceStart .blockEntry fun _ => true

theorem explicitKey_taken (h : Solid l.cursor.rest) :
    Refines (Taken m l) l.explicitKey (l.within m).explicitKey := by
  unfold explicitKey
  refine .ite Iff.rfl (fun _ => .throw_bind) fun _ => ?_
  exact opened_taken h .blockMappingStart .key (· == 0)

/-- What is in front of a colon has become a key: it is no longer remembered, there is a token in
front of it, and a block mapping is open there unless a flow collection is. -/
def keyed (place : KeyPlace) (l : Lexer) : Lexer :=
  let l := { l with keys := l.keys.filter fun k => k.1 != l.flow }.insertAt place.position .key
  if l.flow == 0 then l.openBlock place.column .blockMappingStart (some place.position) else l

theorem keyed_within (place : KeyPlace) (l : Lexer) :
    (l.within m).keyed (place.within m) = (l.keyed place).within m := by
  have hinsert :
      { l.within m with
        keys := (l.within m).keys.filter fun k => k.1 != (l.within m).flow }.insertAt
        (place.within m).position .key =
      ({ l with keys := l.keys.filter fun k => k.1 != l.flow }.insertAt place.position .key).within
        m := by
    unfold within insertAt
    rw [List.filter_map]
    rfl
  unfold keyed
  dsimp only
  rw [hinsert]
  generalize { l with keys := l.keys.filter fun k => k.1 != l.flow }.insertAt place.position
    .key = l'
  by_cases hflow : (l'.flow == 0) = true
  · rw [if_pos hflow, if_pos (show ((l'.within m).flow == 0) = true from hflow)]
    exact openBlock_within _ _ _ l'
  · rw [if_neg hflow, if_neg (show ¬((l'.within m).flow == 0) = true from hflow)]

theorem keyed_kept (place : KeyPlace) (l : Lexer) :
    Kept m l (l.keyed place) ((l.keyed place).within m) := by
  have hstill : (l.keyed place).cursor = l.cursor ∧
      (l.keyed place).keys = l.keys.filter fun k => k.1 != l.flow := by
    unfold keyed
    dsimp only
    split
    · exact openBlock_still _ _ _ _
    · exact ⟨rfl, rfl⟩
  refine ⟨rfl, hstill.1, fun k hk => .inl ?_⟩
  rw [hstill.2] at hk
  exact (List.mem_filter.mp hk).1

theorem value_taken (h : Solid l.cursor.rest) :
    Refines (Taken m l) l.value (l.within m).value := by
  have hfind : (l.within m).keys.find? (fun k => k.1 == l.flow) =
      (l.keys.find? fun k => k.1 == l.flow).map fun k => (k.1, k.2.within m) := by
    unfold within
    rw [List.find?_map]
    rfl
  unfold value
  rw [show (l.within m).flow = l.flow from rfl, hfind]
  -- what stands in front of the colon is a key if its place is still remembered
  cases l.keys.find? (fun k => k.1 == l.flow) with
  | some k =>
    obtain ⟨depth, place⟩ := k
    change Refines _ (.ok { (l.keyed place).take 1 .value with keyAllowed := false })
      (.ok { ((l.within m).keyed (place.within m)).take 1 .value with keyAllowed := false })
    rw [keyed_within]
    exact .ok ((keyed_kept place l).take h 0 .value _ false)
  | none =>
    dsimp only [Option.map_none]
    refine .ite Iff.rfl (fun _ => .throw_bind) fun _ => ?_
    exact opened_taken h .blockMappingStart .value (· == 0)

/-! ## Scalars and names -/

/-- What was read behind the places that were kept. -/
theorem Kept.push (hk : Kept m l a b) {c d : Cursor} (hmeets : c.Meets m d)
    (honward : l.cursor.next.Reaches c) (t : Token) {allowed allowed' : Bool}
    (hallowed : c.rest ≠ [] → allowed' = allowed) :
    Taken m l { a.push t with cursor := c, keyAllowed := allowed }
      { b.push t with cursor := d, keyAllowed := allowed' } := by
  obtain ⟨rfl, hcursor, hkeys⟩ := hk
  exact ⟨⟨hmeets, rfl, rfl, rfl, rfl, .inl rfl, fun hne => ⟨rfl, hallowed hne⟩⟩, honward, hkeys⟩

theorem scalarLike_taken {scan : Cursor → Except Error (Token × Cursor)}
    (hscan : Refines (Read m l.cursor.next) (scan l.cursor) (scan (l.cursor.within m))) :
    Refines (Taken m l) (l.scalarLike scan) ((l.within m).scalarLike scan) := by
  unfold scalarLike
  refine (rememberKey_kept l).bind fun a b hk => ?_
  rw [hk.within, hk.cursor, show (a.within m).cursor = a.cursor.within m from rfl, hk.cursor]
  refine hscan.bind ?_
  rintro ⟨t, c⟩ ⟨_, d⟩ ⟨rfl, hmeets, honward⟩
  exact .pure (hk.within ▸ hk.push hmeets honward t fun _ => rfl)

theorem quoted_taken (h : Solid l.cursor.rest) :
    Refines (Taken m l) l.quoted (l.within m).quoted := by
  refine scalarLike_taken fun b hb => ?_
  obtain ⟨⟨text, d⟩, hscan, hb⟩ := bind_eq_ok hb
  obtain ⟨⟨text', c⟩, hscan', hsame, hmeets⟩ := Quoted.scan_refines h _ hscan
  obtain rfl : text' = text := hsame
  cases hb
  refine ⟨(.scalar (String.ofList text') false, c), by rw [hscan']; rfl, rfl, hmeets, ?_⟩
  exact l.cursor.next.reaches_next.trans (Quoted.body_reaches hscan')

/-- Where a plain scalar starts there is a word. -/
theorem word_of_plainStarts (h : l.plainStarts = true) :
    ¬l.cursor.peek = '#' ∧ Plain.word (l.flow != 0) l.cursor.rest ≠ [] := by
  cases hrest : l.cursor.rest with
  | nil =>
    rw [plainStarts, Cursor.peek, hrest] at h
    simp [isGap, isSpaceOrEnd, isBreakOrEnd, isEnd] at h
  | cons ch rest =>
    have hpeek : l.cursor.peek = ch := by rw [Cursor.peek, hrest]; rfl
    have hnext : l.cursor.peek 1 = rest.headD '\x00' := by rw [Cursor.peek, hrest]; rfl
    simp only [plainStarts, hpeek, hnext, Bool.or_eq_true, Bool.and_eq_true, Bool.not_eq_true',
      decide_eq_true_eq, Bool.or_eq_false_iff, beq_iff_eq] at h
    suffices hword : ¬ch = '#' ∧ (isGap ch || (ch = ':' && Plain.endsKey (l.flow != 0)
        (rest.headD '\x00')) || (l.flow != 0 && (Plain.isFlowMark ch || ch = '?'))) = false by
      rw [hpeek, Plain.word, hword.2]
      exact ⟨hword.1, List.cons_ne_nil ch _⟩
    rcases h with ⟨hgap, hmarks⟩ | ⟨hafter, hmark⟩
    · -- none of the marks, and so neither a colon nor the punctuation of a flow collection
      have hne : ∀ mark : Char, "-?:,[]\x7b\x7d#&*!|>'\"%@\x60".toList.contains mark = true →
          ¬ch = mark := by
        rintro mark hmark rfl
        rw [hmarks] at hmark
        cases hmark
      simp only [hgap, Plain.isFlowMark, hne '#' (by decide), hne ':' (by decide),
        hne ',' (by decide), hne '[' (by decide), hne ']' (by decide), hne '\x7b' (by decide),
        hne '\x7d' (by decide), hne '?' (by decide), decide_false, Bool.false_and, Bool.and_false,
        Bool.or_false, not_false_iff, and_self]
    · rcases hmark with rfl | ⟨hflow, rfl | rfl⟩
      · exact ⟨by decide, by cases l.flow != 0 <;> rfl⟩
      · rw [hflow]
        exact ⟨by decide, rfl⟩
      · rw [hflow, Plain.endsKey, hafter]
        exact ⟨by decide, rfl⟩

theorem rememberKey_flow (h : l.rememberKey = .ok a) : a.flow = l.flow := by
  unfold rememberKey at h
  split at h
  · obtain ⟨b, hb, h⟩ := bind_eq_ok h
    cases h
    unfold forgetKey at hb
    split at hb
    · cases hb
    · cases hb
      rfl
  · cases h
    rfl

theorem plain_taken (h : Solid l.cursor.rest) (hstarts : l.plainStarts = true) :
    Refines (Taken m l) l.plain (l.within m).plain := by
  unfold plain
  refine (rememberKey_kept l).bind_of_ok ?_
  rintro a _ ha ⟨rfl, hcursor, hkeys⟩
  obtain ⟨hcomment, hword⟩ := word_of_plainStarts hstarts
  rw [← rememberKey_flow ha] at hword
  have hscan : Plain.Beside m (Plain.scan (a.flow != 0) (a.indent + 1) l.cursor)
      (Plain.scan (a.flow != 0) (a.indent + 1) (l.cursor.within m)) := Plain.scan_beside h
  have honward : l.cursor.next.Reaches (Plain.scan (a.flow != 0) (a.indent + 1) l.cursor).2.2 :=
    Plain.scan_reaches hcomment hword
  change Refines _ _ (.ok { (a.within m).push (.scalar (String.ofList
    (Plain.scan (a.flow != 0) (a.indent + 1) (a.cursor.within m)).1) true) with
    cursor := (Plain.scan (a.flow != 0) (a.indent + 1) (a.cursor.within m)).2.2
    keyAllowed := (Plain.scan (a.flow != 0) (a.indent + 1) (a.cursor.within m)).2.1 })
  rw [hcursor, hscan.same]
  exact .ok (Kept.push ⟨rfl, hcursor, hkeys⟩ hscan.meets honward _ hscan.ended)

theorem block_taken (h : Solid l.cursor.rest) (folded : Bool) :
    Refines (Taken m l) (l.block folded) ((l.within m).block folded) := by
  unfold block
  refine (forgetKey_kept l).bind ?_
  rintro a _ ⟨rfl, hcursor, hkeys⟩
  rw [show (a.within m).cursor = a.cursor.within m from rfl, hcursor]
  refine (Block.scan_refines h).bind_of_ok ?_
  rintro ⟨text, c⟩ ⟨text', d⟩ hscan ⟨hmeets, more, hmore, htext, hgoing⟩
  dsimp only at htext hgoing
  refine .pure ⟨⟨hmeets, rfl, rfl, rfl, rfl, ?_, fun hne => ⟨?_, rfl⟩⟩, Block.scan_reaches hscan,
    hkeys⟩
  · -- only here the tokens may differ, and only where the text is over behind the scalar
    exact .inr ⟨a.tokens, text, more, hmore, rfl, by rw [← htext]; rfl⟩
  · obtain rfl : text' = text := by rw [htext, hgoing hne, List.append_nil]
    rfl

theorem directive_taken (h : Solid l.cursor.rest) :
    Refines (Taken m l)
      (do
        let l ← l.endDocument
        let (t, cursor) ← scanDirective l.cursor
        return { l.push t with cursor })
      (do
        let l ← (l.within m).endDocument
        let (t, cursor) ← scanDirective l.cursor
        return { l.push t with cursor }) := by
  refine (endDocument_kept l).bind ?_
  rintro a _ ⟨rfl, hcursor, hkeys⟩
  rw [show (a.within m).cursor = a.cursor.within m from rfl, hcursor]
  refine (scanDirective_abreast (.inside h)).bind ?_
  rintro ⟨t, c⟩ ⟨_, d⟩ ⟨rfl, hmeets, honward⟩
  exact .pure (Kept.push ⟨rfl, hcursor, hkeys⟩ hmeets honward t fun _ => rfl)

/-! ## A token -/

/-- The name of an anchor or an alias as a token. -/
theorem scanName_token (h : Solid l.cursor.rest) (token : String → Token) :
    Refines (Read m l.cursor.next)
      (do
        let (name, c) ← scanName l.cursor
        return (token name, c))
      (do
        let (name, c) ← scanName (l.cursor.within m)
        return (token name, c)) := by
  refine (scanName_abreast (.inside h)).bind ?_
  rintro ⟨name, c⟩ ⟨_, d⟩ ⟨rfl, h'⟩
  exact .pure ⟨rfl, h'⟩

/-- A mark between documents. -/
theorem documentMark_taken (h : Solid l.cursor.rest) (mark : Token) :
    Refines (Taken m l) (do return (← l.endDocument).take 3 mark)
      (do return (← (l.within m).endDocument).take 3 mark) := by
  refine (endDocument_kept l).bind ?_
  rintro a _ ⟨rfl, hcursor, hkeys⟩
  exact .pure (Kept.take ⟨rfl, hcursor, hkeys⟩ h 2 mark a.flow a.keyAllowed)

/-- What is read as a token in the surrounding text is read as that token in the text itself. -/
theorem token_taken (h : Solid l.cursor.rest) :
    Refines (Taken m l) l.token (l.within m).token := by
  have hmeets : l.cursor.Meets m (l.within m).cursor := .inside h
  have hstarts : (l.within m).plainStarts = l.plainStarts := by
    unfold plainStarts
    rw [show (l.within m).cursor.peek = l.cursor.peek from Cursor.peek_within h.ne_nil,
      hmeets.peek_eq (f := isGap) (by decide) 1]
    rfl
  unfold token
  dsimp only
  rw [show (l.within m).cursor.peek = l.cursor.peek from Cursor.peek_within h.ne_nil,
    show (l.within m).flow = l.flow from rfl,
    show (l.within m).cursor.column = l.cursor.column from rfl,
    hmeets.peek_eq (f := isGap) (by decide) 1, hmeets.atMark_eq (by decide),
    hmeets.atMark_eq (by decide), hstarts]
  split
  · exact .ite Iff.rfl (fun _ => directive_taken h) fun _ => .throw
  · exact openFlow_taken h _
  · exact openFlow_taken h _
  · exact closeFlow_taken h _
  · exact closeFlow_taken h _
  · exact flowEntry_taken h
  · exact scalarLike_taken (scanName_token h .alias)
  · exact scalarLike_taken (scanName_token h .anchor)
  · exact scalarLike_taken (scanTag_abreast (.inside h))
  · exact quoted_taken h
  · exact quoted_taken h
  · refine .ite Iff.rfl (fun _ => documentMark_taken h _) fun _ =>
      .ite Iff.rfl (fun _ => documentMark_taken h _) fun _ =>
      .ite Iff.rfl (fun _ => blockEntry_taken h) fun _ =>
      .ite Iff.rfl (fun _ => explicitKey_taken h) fun _ =>
      .ite Iff.rfl (fun _ => value_taken h) fun _ =>
      .ite Iff.rfl (fun _ => block_taken h _) fun _ =>
      .ite Iff.rfl (fun _ => block_taken h _) fun _ =>
      .ite Iff.rfl (fun hplain => plain_taken h hplain) fun _ => .throw

end Lexer

end BrowserFlow.Yaml
