import BrowserFlow.Proofs.Json.Edges
import BrowserFlow.Proofs.Json.Lasting
import BrowserFlow.Proofs.Json.Locality
import Mathlib.Data.List.TakeWhile

/-!
# Values that are read back from their text

A value is read back from its JSON text, on one line and spread over lines alike, if it is made of
lists and of records whose names differ, and its numbers are read back (`Proper.read_text`). The
text of a value is put together from the texts of its parts as `Spells` takes a text apart, so that
the proof is an induction over the value: each part is read wherever it stands, and the white space
around it makes no difference (`Spelt`).
-/

namespace BrowserFlow.Json

/-! ## Strings -/

theorem unit?_control : ∀ n < 0x20, unit? (Text.hexDigits 4 n) = some (n, []) := by
  decide

theorem unit?_hexDigits {n : Nat} (h : n < 0x20) (tail : List Char) :
    unit? (Text.hexDigits 4 n ++ tail) = some (n, tail) := by
  obtain ⟨a, b, c, d, hdigits, hread⟩ := unit?_eq_some (unit?_control n h)
  rw [hdigits]
  exact hread tail

variable {c : Char}

theorem stringTail_letter {d letter : Char} (hd : d = c) (h : letterEscape? letter = some c)
    (fuel : Nat) (cs : List Char) :
    stringTail (fuel + 1) (['\\', letter] ++ cs) =
      (stringTail fuel cs >>= fun p => pure (d :: p.1, p.2)) := by
  have hu : letter ≠ 'u' := by
    rintro rfl
    cases h
  rw [List.cons_append, List.singleton_append, stringTail, h, hd]
  exact hu

theorem stringTail_control (h : c.toNat < 0x20) (fuel : Nat) (cs : List Char) :
    stringTail (fuel + 1) (charEscape c ++ cs) =
      (stringTail fuel cs >>= fun p => pure (c :: p.1, p.2)) := by
  have hescape : charEscape c = '\\' :: 'u' :: Text.hexDigits 4 c.toNat := by
    unfold charEscape unitEscape
    exact if_pos (by omega)
  have hchar : unitChar c.toNat cs = (c, cs) := by
    have hhigh : ¬ (0xD800 ≤ c.toNat && c.toNat < 0xDC00) = true := by
      simp
      omega
    have hlow : ¬ (0xDC00 ≤ c.toNat && c.toNat < 0xE000) = true := by
      simp
      omega
    unfold unitChar
    rw [if_neg hhigh, if_neg hlow, Char.ofNat_toNat]
  rw [hescape, List.cons_append, List.cons_append, stringTail, unit?_hexDigits h]
  dsimp only
  rw [hchar]

theorem stringTail_plain (hquote : c ≠ '"') (hescape : c ≠ '\\') (h : ¬ c.toNat < 0x20)
    (fuel : Nat) (cs : List Char) :
    stringTail (fuel + 1) ([c] ++ cs) =
      (stringTail fuel cs >>= fun p => pure (c :: p.1, p.2)) := by
  have hplain : ¬ (c.toNat < 0x20 || c = '\\') = true := by
    simp only [Bool.or_eq_true, decide_eq_true_eq, not_or]
    exact ⟨h, hescape⟩
  rw [List.singleton_append, stringTail, if_neg hplain]
  · exact hquote
  · intro rest hc
    exact absurd hc hescape
  · intro d rest hc
    exact absurd hc hescape

/-- A character is read back from what stands for it in a string. -/
theorem stringTail_stringChar (c : Char) (fuel : Nat) (cs : List Char) :
    stringTail (fuel + 1) (stringChar false c ++ cs) =
      (stringTail fuel cs >>= fun p => pure (c :: p.1, p.2)) := by
  unfold stringChar
  split_ifs with hquote hescape h h h h h hcontrol
  · exact stringTail_letter hquote rfl fuel cs
  · exact stringTail_letter hescape rfl fuel cs
  · exact stringTail_letter h rfl fuel cs
  · exact stringTail_letter h rfl fuel cs
  · exact stringTail_letter h rfl fuel cs
  · exact stringTail_letter h rfl fuel cs
  · exact stringTail_letter h rfl fuel cs
  · exact stringTail_control (by simpa using hcontrol) fuel cs
  · exact stringTail_plain hquote hescape (by simpa using hcontrol) fuel cs

theorem stringChar_pos (ascii : Bool) (c : Char) : 0 < (stringChar ascii c).length := by
  unfold stringChar charEscape unitEscape
  dsimp only
  split_ifs
  all_goals simp

/-- The characters of a text are read back from the string. -/
theorem closes_flatMap (cs : List Char) : Closes (cs.flatMap (stringChar false) ++ ['"']) cs := by
  induction cs with
  | nil => exact closes_quote
  | cons c cs ih =>
    rw [List.flatMap_cons, List.append_assoc]
    exact ih.cons (stringChar_pos false c) fun fuel tail => stringTail_stringChar c fuel _

/-! ## Whole numbers -/

theorem isDigit_toDigits (n : Nat) : ∀ c ∈ Nat.toDigits 10 n, isDigit c = true :=
  fun _ hc => Nat.isDigit_of_mem_toDigits (by decide) (by decide) hc

/-- Only the number zero begins with a zero. -/
theorem head?_toDigits {n : Nat} (h : 0 < n) : (Nat.toDigits 10 n).head? ≠ some '0' := by
  induction n using Nat.strongRecOn with
  | ind n ih =>
    by_cases hsmall : n < 10
    · have hdigits : ∀ m < 10, 0 < m → m.digitChar ≠ '0' := by decide
      rw [Nat.toDigits_of_lt_base hsmall, List.head?_cons]
      exact fun heq => hdigits n hsmall h (Option.some.inj heq)
    · rw [Nat.toDigits_of_base_le (by decide) (by omega),
        List.head?_append_of_ne_nil _ Nat.toDigits_ne_nil]
      exact ih (n / 10) (by omega) (by omega)

theorem wholePart_toDigits (n : Nat) :
    wholePart (Nat.toDigits 10 n) = (Nat.toDigits 10 n, []) := by
  cases n with
  | zero => rfl
  | succ n =>
    have hhead := head?_toDigits (Nat.succ_pos n)
    have hdigits := isDigit_toDigits (n + 1)
    generalize Nat.toDigits 10 (n + 1) = ds at hhead hdigits
    unfold wholePart
    split
    · exact absurd rfl hhead
    · rw [List.takeWhile_eq_self_iff.2 hdigits, List.dropWhile_eq_nil_iff.2 hdigits]

theorem ofDigits_digitValues (cs : List Char) (m : Nat) :
    (digitValues cs).foldl (fun acc d => acc * 10 + d) m = Nat.ofDigitChars 10 cs m := by
  induction cs generalizing m with
  | nil => rfl
  | cons c cs ih =>
    rw [Nat.ofDigitChars_cons, Nat.mul_comm 10 m]
    exact ih _

/-- The digits of a number are read as the number, unless they are too many. -/
theorem number_toDigits (negative : Bool) {n : Nat} (h : (Nat.toDigits 10 n).length ≤ 4300) :
    number negative (Nat.toDigits 10 n) = .ok (.int (Decimal.withSign negative n), []) := by
  have hvalue : Decimal.ofDigits 10 (digitValues (Nat.toDigits 10 n)) = n :=
    (ofDigits_digitValues _ 0).trans Nat.ofDigitChars_ten_toDigits
  have hsome : (Nat.toDigits 10 n).isEmpty = false := by
    rw [List.isEmpty_eq_false_iff]
    exact Nat.toDigits_ne_nil
  rw [number_eq (wholePart_toDigits n) rfl rfl]
  unfold ofParts
  rw [hsome, hvalue, if_neg (Nat.not_lt.2 h)]
  rfl

/-- A whole number is read back from its text, unless it has too many digits. -/
theorem value_int {n : Int} (h : (Nat.toDigits 10 n.natAbs).length ≤ 4300) :
    value 1 (toString n).toList = .ok (.int n, []) := by
  rw [Int.toString_eq_repr, Int.repr_eq_if]
  split
  · rename_i hpos
    have hn : Decimal.withSign false n.toNat = n := Int.toNat_of_nonneg hpos
    have habs : n.natAbs = n.toNat := by omega
    rw [habs] at h
    have hnumber := number_toDigits false h
    have hdigits := isDigit_toDigits n.toNat
    rw [Nat.toList_repr]
    rw [hn] at hnumber
    generalize Nat.toDigits 10 n.toNat = ds at hnumber hdigits
    cases ds with
    | nil => cases hnumber
    | cons d ds => rw [value_digit (hdigits d List.mem_cons_self), hnumber]
  · rename_i hneg
    have hn : Decimal.withSign true (-n).toNat = n := by
      show -((-n).toNat : Int) = n
      omega
    have habs : n.natAbs = (-n).toNat := by omega
    rw [habs] at h
    have hnumber := number_toDigits true h
    have hdigits := isDigit_toDigits (-n).toNat
    rw [String.toList_append, Nat.toList_repr]
    rw [hn] at hnumber
    generalize Nat.toDigits 10 (-n).toNat = ds at hnumber hdigits
    cases ds with
    | nil => cases hnumber
    | cons d ds =>
      show value 1 ('-' :: d :: ds) = _
      rw [value_minus (hdigits d List.mem_cons_self), hnumber]

/-! ## What is spelt -/

/-- Some characters spell a value and end in white space. -/
def Spelt (cs : List Char) (v : Value) : Prop :=
  ∃ used ws, cs = used ++ ws ∧ (∀ c ∈ ws, isSpace c = true) ∧ Spells value EndsNumber used v

variable {cs ws before between behind : List Char} {v : Value} {s : String}

theorem Spells.spelt (h : Spells value EndsNumber cs v) : Spelt cs v :=
  ⟨cs, [], (List.append_nil cs).symm, List.forall_mem_nil _, h⟩

/-- What is read of some characters to their end is spelt by them. -/
theorem spells_of_value {fuel : Nat} (h : value fuel cs = .ok (v, [])) :
    Spells value EndsNumber cs v := by
  obtain ⟨used, hused, -, hspells⟩ := (reads fuel).value h
  rwa [hused, List.append_nil]

theorem spelt_word {word : String} {cs : List Char} (hword : word.toList = cs)
    (h : value 1 cs = .ok (v, [])) : Spelt word.toList v := by
  rw [hword]
  exact (spells_of_value h).spelt

theorem spelt_stringText (s : String) : Spelt (stringText false s).toList (.text s) := by
  have hclosed := closes_flatMap s.toList
  unfold stringText
  rw [String.toList_ofList, List.cons_append]
  refine Spells.spelt (spells_of_succ (by simp) fun fuel tail _ _ => ?_)
  rw [List.cons_append, value_quote, hclosed _ tail (by simp)]
  show Except.ok (Value.text (String.ofList s.toList), tail) = _
  rw [String.ofList_toList]

theorem endsNumber_spaces (hws : ∀ c ∈ ws, isSpace c = true) : EndsNumber ws := by
  rintro c rest rfl
  have hc := hws c List.mem_cons_self
  constructor
  · cases hdigit : isDigit c with
    | false => rfl
    | true => exact absurd hc (by rw [isSpace_of_isDigit hdigit]; decide)
  · intro hmark
    have hmarks : ∀ d ∈ ['.', 'e', 'E'], isSpace d = false := by simp [isSpace]
    rw [hmarks c hmark] at hc
    cases hc

theorem skipSpace_spaces (hws : ∀ c ∈ ws, isSpace c = true) : skipSpace ws = [] :=
  List.dropWhile_eq_nil_iff.2 hws

/-- A text is read as a value exactly if it spells it. -/
theorem read_eq_ok_iff : read s = .ok v ↔ Spelt s.toList v := by
  unfold read
  constructor
  · intro h
    obtain ⟨⟨v', rest⟩, hvalue, h⟩ := bind_eq_ok h
    dsimp only at h
    split at h
    · rename_i hrest
      cases h
      obtain ⟨used, hused, -, hspells⟩ := (reads _).value hvalue
      obtain ⟨ws, hws, hspaces⟩ := skipSpace_split rest
      rw [List.isEmpty_iff.1 hrest, List.append_nil] at hws
      rw [hws] at hused
      exact ⟨used, ws, hused, hspaces, hspells⟩
    · cases h
  · rintro ⟨used, ws, hs, hws, hspells⟩
    have hvalue := hspells (2 * (used ++ ws).length + 2) ws
      (by rw [List.length_append]; omega) (endsNumber_spaces hws)
    rw [hs]
    dsimp only
    rw [hvalue]
    show (if (skipSpace ws).isEmpty then Except.ok v else _) = _
    rw [skipSpace_spaces hws]
    rfl

/-! ## Lists and objects -/

theorem items_append (h : ∀ c ∈ ws, isSpace c = true) (fuel : Nat) (cs : List Char) :
    items fuel (ws ++ cs) = items fuel cs := by
  cases fuel with
  | zero => rfl
  | succ fuel => rw [items, items, value_append h]

theorem entries_append (h : ∀ c ∈ ws, isSpace c = true) (fuel : Nat) (done : List (Value × Value))
    (cs : List Char) : entries fuel done (ws ++ cs) = entries fuel done cs := by
  cases fuel with
  | zero => rfl
  | succ fuel => rw [entries_succ, entries_succ, skipSpace_append h]

/-- Where items are read the list is not closed at once. -/
theorem value_items {fuel : Nat} {vs : List Value} {rest : List Char}
    (h : items fuel cs = .ok (vs, rest)) : value (fuel + 1) ('[' :: cs) = .ok (.list vs, rest) := by
  rw [value_bracket]
  split
  · rename_i after hclosed
    obtain ⟨ws, rfl, hws, -⟩ := skipSpace_eq_cons hclosed
    rw [items_append hws] at h
    cases fuel with
    | zero => cases h
    | succ fuel =>
      cases fuel with
      | zero => cases h
      | succ fuel => cases h
  · rw [h]
    rfl

/-- Where entries are read the object is not closed at once. -/
theorem value_entries {fuel : Nat} {es : List (Value × Value)} {rest : List Char}
    (h : entries fuel [] cs = .ok (es, rest)) :
    value (fuel + 1) ('\x7b' :: cs) = .ok (.map es, rest) := by
  rw [value_brace]
  split
  · rename_i after hclosed
    obtain ⟨ws, rfl, hws, -⟩ := skipSpace_eq_cons hclosed
    rw [entries_append hws] at h
    cases fuel with
    | zero => cases h
    | succ fuel => cases h
  · rw [h]
    rfl

theorem spells_list {vs : List Value} (hbefore : ∀ c ∈ before, isSpace c = true)
    (h : Spells items (fun _ => True) (cs ++ (behind ++ [']'])) vs) :
    Spells value EndsNumber ('[' :: (before ++ (cs ++ (behind ++ [']'])))) (.list vs) := by
  refine spells_of_succ (by simp) fun fuel tail hfuel _ => ?_
  have hlength : 2 * (cs ++ (behind ++ [']'])).length ≤ fuel := by
    simp only [List.length_cons, List.length_append] at hfuel ⊢
    omega
  rw [List.cons_append, List.append_assoc]
  refine value_items ?_
  rw [items_append hbefore]
  exact h fuel tail hlength trivial

theorem spells_map {es : List (Value × Value)} (hbefore : ∀ c ∈ before, isSpace c = true)
    (h : Spells (entries · []) (fun _ => True) (cs ++ (behind ++ ['\x7d'])) es) :
    Spells value EndsNumber ('\x7b' :: (before ++ (cs ++ (behind ++ ['\x7d'])))) (.map es) := by
  refine spells_of_succ (by simp) fun fuel tail hfuel _ => ?_
  have hlength : 2 * (cs ++ (behind ++ ['\x7d'])).length ≤ fuel := by
    simp only [List.length_cons, List.length_append] at hfuel ⊢
    omega
  rw [List.cons_append, List.append_assoc]
  refine value_entries ?_
  rw [entries_append hbefore]
  exact h fuel tail hlength trivial

section

variable (hbetween : ∀ c ∈ between, isSpace c = true) (hbehind : ∀ c ∈ behind, isSpace c = true)

include hbetween hbehind

/-- Items with commas between them are read up to the closing bracket. -/
theorem spells_items {f : Value → List Char} {vs : List Value} (hne : vs ≠ [])
    (h : ∀ v ∈ vs, Spelt (f v) v) :
    Spells items (fun _ => True)
      ((',' :: between).intercalate (vs.map f) ++ (behind ++ [']'])) vs := by
  induction vs with
  | nil => exact absurd rfl hne
  | cons v vs ih =>
    obtain ⟨hv, hvs⟩ := List.forall_mem_cons.1 h
    obtain ⟨used, ws, hused, hws, hspells⟩ := hv
    refine spells_of_succ (List.length_pos_iff.mpr (by simp)) fun fuel tail hfuel _ => ?_
    cases vs with
    | nil =>
      have happend : (',' :: between).intercalate ([v].map f) ++ (behind ++ [']']) ++ tail =
          used ++ ((ws ++ behind) ++ ']' :: tail) := by
        simp [hused]
      have hlength : 2 * used.length ≤ fuel := by
        simp only [List.map_cons, List.map_nil, List.intercalate_singleton, hused,
          List.length_append, List.length_cons] at hfuel
        omega
      have hspaces := List.forall_mem_append.2 ⟨hws, hbehind⟩
      rw [happend, items_eq (hspells fuel _ hlength (endsNumber_behind hspaces (by decide) _)),
        itemsBehind_closing hspaces]
    | cons v' vs =>
      have ih := ih (List.cons_ne_nil _ _) hvs
      have hsplit : (',' :: between).intercalate ((v :: v' :: vs).map f) =
          used ++ (ws ++ ',' :: (between ++ (',' :: between).intercalate ((v' :: vs).map f))) := by
        simp only [List.map_cons, List.intercalate_cons_cons, hused]
        simp
      rw [hsplit] at hfuel ⊢
      generalize (',' :: between).intercalate ((v' :: vs).map f) = others at ih hfuel ⊢
      have happend : used ++ (ws ++ ',' :: (between ++ others)) ++ (behind ++ [']']) ++ tail =
          used ++ (ws ++ ',' :: (between ++ (others ++ (behind ++ [']']) ++ tail))) := by
        simp
      have hlengths : 2 * used.length ≤ fuel ∧ 2 * (others ++ (behind ++ [']'])).length ≤ fuel := by
        simp only [List.length_append, List.length_cons] at hfuel ⊢
        omega
      rw [happend, items_eq (hspells fuel _ hlengths.1 (endsNumber_behind hws (by decide) _)),
        itemsBehind_comma hws, items_append hbetween, ih fuel tail hlengths.2 trivial]
      rfl

/-- Some characters spell an entry and end in white space. -/
def SpeltEntry (cs : List Char) (f : String × Value) : Prop :=
  ∃ used ws, cs = used ++ ws ∧ (∀ c ∈ ws, isSpace c = true) ∧ Entry used f.1.toList f.2

/-- Entries with commas between them are read up to the closing brace, and put behind those that
have been read. -/
theorem spells_entries {g : String × Value → List Char} {done fields : Table Value}
    (hne : fields ≠ []) (hnames : ((done ++ fields).map (·.1)).Nodup)
    (h : ∀ f ∈ fields, SpeltEntry (g f) f) :
    Spells (entries · (done.map entryOf)) (fun _ => True)
      ((',' :: between).intercalate (fields.map g) ++ (behind ++ ['\x7d']))
      ((done ++ fields).map entryOf) := by
  induction fields generalizing done with
  | nil => exact absurd rfl hne
  | cons f fields ih =>
    obtain ⟨hf, hfields⟩ := List.forall_mem_cons.1 h
    obtain ⟨used, ws, hused, hws, hentry⟩ := hf
    have hput : Value.putEntry (done.map entryOf) (.text (String.ofList f.1.toList)) f.2 =
        (done ++ [f]).map entryOf := by
      rw [String.ofList_toList]
      exact putEntry_field hnames f.2
    have hlast : done ++ f :: fields = (done ++ [f]) ++ fields := by simp
    refine spells_of_succ (List.length_pos_iff.mpr (by simp)) fun fuel tail hfuel _ => ?_
    cases fields with
    | nil =>
      have happend : (',' :: between).intercalate ([f].map g) ++ (behind ++ ['\x7d']) ++ tail =
          used ++ ((ws ++ behind) ++ '\x7d' :: tail) := by
        simp [hused]
      have hlength : 2 * used.length ≤ fuel + 1 := by
        simp only [List.map_cons, List.map_nil, List.intercalate_singleton, hused,
          List.length_append, List.length_cons] at hfuel
        omega
      have hspaces := List.forall_mem_append.2 ⟨hws, hbehind⟩
      rw [happend, hentry.read hlength (endsNumber_behind hspaces (by decide) _), hput]
      unfold entriesBehind
      rw [skipSpace_append hspaces, skipSpace_cons (by decide)]
      rfl
    | cons f' fields =>
      rw [hlast] at hnames ⊢
      have ih := ih (List.cons_ne_nil _ _) hnames hfields
      have hsplit : (',' :: between).intercalate ((f :: f' :: fields).map g) =
          used ++ (ws ++
            ',' :: (between ++ (',' :: between).intercalate ((f' :: fields).map g))) := by
        simp only [List.map_cons, List.intercalate_cons_cons, hused]
        simp
      rw [hsplit] at hfuel ⊢
      generalize (',' :: between).intercalate ((f' :: fields).map g) = others at ih hfuel ⊢
      have happend : used ++ (ws ++ ',' :: (between ++ others)) ++ (behind ++ ['\x7d']) ++ tail =
          used ++ (ws ++ ',' :: (between ++ (others ++ (behind ++ ['\x7d']) ++ tail))) := by
        simp
      have hlengths :
          2 * used.length ≤ fuel + 1 ∧ 2 * (others ++ (behind ++ ['\x7d'])).length ≤ fuel := by
        simp only [List.length_append, List.length_cons] at hfuel ⊢
        omega
      rw [happend, hentry.read hlengths.1 (endsNumber_behind hws (by decide) _), hput]
      unfold entriesBehind
      rw [skipSpace_append hws, skipSpace_cons (by decide)]
      show entries fuel _ (between ++ _) = _
      rw [entries_append hbetween]
      exact ih fuel tail hlengths.2 trivial

end

/-- The text of a field spells it if the text of its value does. -/
theorem speltEntry_text (name : String) {text : String} (h : Spelt text.toList v) :
    SpeltEntry (stringText false name ++ ": " ++ text).toList (name, v) := by
  obtain ⟨used, ws, htext, hws, hspells⟩ := h
  have hcolon : ": ".toList = [':', ' '] := by decide
  refine ⟨'"' ::
      (name.toList.flatMap (stringChar false) ++ ['"'] ++ ([] ++ ':' :: ([' '] ++ used))),
    ws, ?_, hws, [], _, [], [' '] ++ used, rfl, List.forall_mem_nil _, closes_flatMap _,
    List.forall_mem_nil _, hspells.append (List.forall_mem_singleton.2 rfl)⟩
  unfold stringText
  rw [String.toList_append, String.toList_append, String.toList_ofList, htext, hcolon]
  simp

/-! ## Values -/

/-- The white space that a layout puts around items and between them. -/
theorem toList_enclosed (layout : Layout) (depth : Nat) :
    ∃ before between behind : List Char, (∀ c ∈ before, isSpace c = true) ∧
      (∀ c ∈ between, isSpace c = true) ∧ (∀ c ∈ behind, isSpace c = true) ∧
      ∀ (left right : String) (texts : List String), texts ≠ [] →
        (enclosed layout depth left right texts).toList = left.toList ++ (before ++
          ((',' :: between).intercalate (texts.map String.toList) ++ (behind ++ right.toList))) := by
  have hnewline : ∀ n, ∀ c ∈ (newline n).toList, isSpace c = true := by
    intro n c hc
    unfold newline at hc
    rw [String.toList_ofList] at hc
    rcases List.mem_cons.1 hc with rfl | hc
    · decide
    · rw [List.eq_of_mem_replicate hc]
      decide
  cases hspread : layout.spread with
  | true =>
    refine ⟨(newline (depth + 1)).toList, (newline (depth + 1)).toList, (newline depth).toList,
      hnewline _, hnewline _, hnewline _, fun left right texts hne => ?_⟩
    unfold enclosed
    rw [if_neg (by simpa using hne), if_pos hspread]
    simp [String.toList_intercalate]
  | false =>
    refine ⟨[], [' '], [], List.forall_mem_nil _, List.forall_mem_singleton.2 rfl,
      List.forall_mem_nil _, fun left right texts hne => ?_⟩
    unfold enclosed
    rw [if_neg (by simpa using hne), hspread, if_neg Bool.false_ne_true]
    simp [String.toList_intercalate]

/-- A value of lists and records whose names differ, with numbers of some kind. -/
inductive Proper (number : Value → Prop) : Value → Prop
  | null : Proper number .null
  | bool (b : Bool) : Proper number (.bool b)
  | text (s : String) : Proper number (.text s)
  | int {n : Int} (h : number (.int n)) : Proper number (.int n)
  | float {x : Float} (h : number (.float x)) : Proper number (.float x)
  | list {items : List Value} (h : ∀ v ∈ items, Proper number v) : Proper number (.list items)
  | record {fields : Table Value} (names : (fields.map (·.1)).Nodup)
      (h : ∀ f ∈ fields, Proper number f.2) : Proper number (.record fields)

/-- A proper value lasts in a file. -/
theorem Proper.lasting {number : Value → Prop} (h : Proper number v) : Lasting v := by
  induction h with
  | null => exact lasting_null
  | bool b => exact ⟨rfl, rfl⟩
  | text s => exact lasting_text s
  | int h => exact lasting_int _
  | float h => exact ⟨rfl, rfl⟩
  | list h ih => exact lasting_list ih
  | record names h ih => exact lasting_record names ih

/-- A number can be read back: a whole number if it has not too many digits, and any other if its
text is a text of it. -/
def ReadBack : Value → Prop
  | .int n => (Nat.toDigits 10 n.natAbs).length ≤ 4300
  | .float x => read (floatText x) = .ok (.float x)
  | _ => True

theorem itemTexts_eq (layout : Layout) (depth : Nat) (vs : List Value) :
    itemTexts layout depth vs = vs.map (textAt layout depth) := by
  induction vs with
  | nil => rfl
  | cons v vs ih => rw [itemTexts, ih, List.map_cons]

theorem entryTexts_fields (layout : Layout) (depth : Nat) (fields : Table Value) :
    entryTexts layout depth (fields.map entryOf) = fields.map fun f =>
      stringText layout.ascii f.1 ++ ": " ++ textAt layout depth f.2 := by
  induction fields with
  | nil => rfl
  | cons f fields ih =>
    rw [List.map_cons, List.map_cons, ← ih]
    rfl

theorem spelt_list {layout : Layout} (depth : Nat) {vs : List Value}
    (h : ∀ v ∈ vs, Spelt (textAt layout (depth + 1) v).toList v) :
    Spelt (textAt layout depth (.list vs)).toList (.list vs) := by
  show Spelt (enclosed layout depth "[" "]" (itemTexts layout (depth + 1) vs)).toList (.list vs)
  rw [itemTexts_eq]
  by_cases hne : vs = []
  · rw [hne]
    exact spelt_word (show "[]".toList = ['[', ']'] by decide) rfl
  · obtain ⟨before, between, behind, hbefore, hbetween, hbehind, henclosed⟩ :=
      toList_enclosed layout depth
    rw [henclosed _ _ _ (by simpa using hne), List.map_map]
    exact (spells_list hbefore (spells_items hbetween hbehind hne h)).spelt

theorem spelt_record {layout : Layout} (hascii : layout.ascii = false) (depth : Nat)
    {fields : Table Value} (names : (fields.map (·.1)).Nodup)
    (h : ∀ f ∈ fields, Spelt (textAt layout (depth + 1) f.2).toList f.2) :
    Spelt (textAt layout depth (.record fields)).toList (.record fields) := by
  show Spelt (enclosed layout depth "\x7b" "\x7d"
    (entryTexts layout (depth + 1) (fields.map entryOf))).toList (.map (fields.map entryOf))
  rw [entryTexts_fields, hascii]
  by_cases hne : fields = []
  · rw [hne]
    exact spelt_word (show "\x7b\x7d".toList = ['\x7b', '\x7d'] by decide) rfl
  · obtain ⟨before, between, behind, hbefore, hbetween, hbehind, henclosed⟩ :=
      toList_enclosed layout depth
    rw [henclosed _ _ _ (by simpa using hne), List.map_map]
    have hentries : ∀ f ∈ fields, SpeltEntry
        (stringText false f.1 ++ ": " ++ textAt layout (depth + 1) f.2).toList f :=
      fun f hf => speltEntry_text f.1 (h f hf)
    have hnames : (([] ++ fields : Table Value).map (·.1)).Nodup := names
    exact (spells_map hbefore (spells_entries hbetween hbehind hne hnames hentries)).spelt

/-- A proper value is spelt by its text. -/
theorem Proper.spelt (h : Proper ReadBack v) {layout : Layout} (hascii : layout.ascii = false)
    (depth : Nat) : Spelt (textAt layout depth v).toList v := by
  induction h generalizing depth with
  | null => exact spelt_word (show "null".toList = ['n', 'u', 'l', 'l'] by decide) rfl
  | bool b =>
    cases b with
    | true => exact spelt_word (show "true".toList = ['t', 'r', 'u', 'e'] by decide) rfl
    | false => exact spelt_word (show "false".toList = ['f', 'a', 'l', 's', 'e'] by decide) rfl
  | text s =>
    show Spelt (stringText layout.ascii s).toList (.text s)
    rw [hascii]
    exact spelt_stringText s
  | int h => exact (spells_of_value (value_int h)).spelt
  | float h => exact read_eq_ok_iff.1 h
  | list h ih => exact spelt_list depth fun v hv => ih v hv (depth + 1)
  | record names h ih => exact spelt_record hascii depth names fun f hf => ih f hf (depth + 1)

theorem Proper.read_textAt (h : Proper ReadBack v) {layout : Layout}
    (hascii : layout.ascii = false) (depth : Nat) : read (textAt layout depth v) = .ok v :=
  read_eq_ok_iff.2 (h.spelt hascii depth)

end BrowserFlow.Json
