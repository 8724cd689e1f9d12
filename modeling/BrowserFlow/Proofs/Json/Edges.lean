import BrowserFlow.Json.Text
import BrowserFlow.Proofs.Text.Scan
import Mathlib.Data.List.Infix

/-!
# The JSON text of a list on one line

On one line the text of a value does not depend on its depth, so that the text of a list is made of
the texts of its items, with commas and blanks between them (`text_list`). The text of a value never
begins with a closing bracket or ends with an opening one (`edged_text`). So two brackets in a row
occur in the text of a list that is not empty only if they do in the text of an item
(`brackets_isInfix_list`), and so does what is neither a bracket nor a separator at its ends
(`isInfix_list`).
-/

namespace BrowserFlow

/-! ## Numbers -/

/-- A character other than the brackets of a list. -/
def Json.NoBracket (c : Char) : Prop :=
  c ≠ '[' ∧ c ≠ ']'

instance (c : Char) : Decidable (Json.NoBracket c) :=
  inferInstanceAs (Decidable (_ ∧ _))

/-- The characters of a fixed text are looked at one by one. -/
theorem Json.noBracket_of_all {cs : List Char} (h : cs.all (fun c => decide (NoBracket c)) = true) :
    ∀ c ∈ cs, NoBracket c :=
  fun c hc => of_decide_eq_true (List.all_eq_true.1 h c hc)

namespace Decimal

open Json (NoBracket noBracket_of_all)

theorem noBracket_digits (n : Nat) : ∀ c ∈ Nat.toDigits 10 n, NoBracket c := by
  intro c hc
  have hdigit := Nat.isDigit_of_mem_toDigits (by decide) (by decide) hc
  constructor
  · rintro rfl
    exact absurd hdigit (by decide)
  · rintro rfl
    exact absurd hdigit (by decide)

theorem noBracket_zeros (n : Nat) : ∀ c ∈ List.replicate n '0', NoBracket c := by
  intro c hc
  rw [List.eq_of_mem_replicate hc]
  exact ⟨by decide, by decide⟩

theorem noBracket_text (s : Scaled) : ∀ c ∈ s.text.toList, NoBracket c := by
  have hdigits := noBracket_digits s.normalize.digits
  unfold Scaled.text
  rw [String.toList_ofList]
  dsimp only
  split
  · split
    · exact List.forall_mem_cons.2 ⟨by decide, List.forall_mem_cons.2 ⟨by decide,
        List.forall_mem_append.2 ⟨noBracket_zeros _, hdigits⟩⟩⟩
    · split
      · exact List.forall_mem_append.2
          ⟨List.forall_mem_append.2 ⟨hdigits, noBracket_zeros _⟩,
            noBracket_of_all (by decide)⟩
      · exact List.forall_mem_append.2 ⟨fun c hc => hdigits c (List.mem_of_mem_take hc),
          List.forall_mem_cons.2 ⟨by decide, fun c hc => hdigits c (List.mem_of_mem_drop hc)⟩⟩
  · refine List.forall_mem_append.2 ⟨?_, List.forall_mem_cons.2 ⟨by decide,
      List.forall_mem_cons.2 ⟨?_, List.forall_mem_append.2 ⟨?_, noBracket_digits _⟩⟩⟩⟩
    · split
      · rename_i heq
        exact heq ▸ hdigits
      · rename_i heq
        rw [heq] at hdigits
        obtain ⟨hd, hrest⟩ := List.forall_mem_cons.1 hdigits
        exact List.forall_mem_cons.2 ⟨hd, List.forall_mem_cons.2 ⟨by decide, hrest⟩⟩
      · exact List.forall_mem_nil _
    · split <;> decide
    · split <;> exact noBracket_of_all (by decide)

theorem text_ne_empty (s : Scaled) : s.text.toList ≠ [] := by
  unfold Scaled.text
  rw [String.toList_ofList]
  dsimp only
  split
  · split
    · exact List.cons_ne_nil _ _
    · split <;> simp
  · simp

end Decimal

namespace Json

/-- Characters that are some, of which the first is no closing and the last no opening bracket. -/
structure Edged (cs : List Char) : Prop where
  ne_nil : cs ≠ []
  first : cs.head? ≠ some ']'
  last : cs.getLast? ≠ some '['

theorem edged_of_noBracket {cs : List Char} (hne : cs ≠ []) (h : ∀ c ∈ cs, NoBracket c) :
    Edged cs :=
  ⟨hne, fun hfirst => (h _ (List.mem_of_mem_head? hfirst)).2 rfl,
    fun hlast => (h _ (List.mem_of_getLast? hlast)).1 rfl⟩

theorem edged_enclosed {c d : Char} (hc : c ≠ ']') (hd : d ≠ '[') (cs : List Char) :
    Edged (c :: cs ++ [d]) := by
  refine ⟨List.cons_ne_nil _ _, ?_, ?_⟩
  · rw [List.cons_append, List.head?_cons]
    exact fun h => hc (Option.some.inj h)
  · rw [List.getLast?_concat]
    exact fun h => hd (Option.some.inj h)

theorem edged_stringText (ascii : Bool) (s : String) : Edged (stringText ascii s).toList := by
  unfold stringText
  rw [String.toList_ofList]
  exact edged_enclosed (by decide) (by decide) _

theorem edged_floatText (x : Float) : Edged (floatText x).toList := by
  unfold floatText
  split
  · split
    · exact edged_of_noBracket (by decide) (noBracket_of_all (by decide))
    · exact edged_of_noBracket (by decide) (noBracket_of_all (by decide))
  · exact edged_of_noBracket (by decide) (noBracket_of_all (by decide))
  · unfold Decimal.floatText
    split
    · split
      · exact edged_of_noBracket (by decide) (noBracket_of_all (by decide))
      · exact edged_of_noBracket (by decide) (noBracket_of_all (by decide))
    · rename_i negative m e _ _
      rw [String.toList_append]
      refine edged_of_noBracket ?_ ?_
      · exact List.append_ne_nil_of_right_ne_nil _ (Decimal.text_ne_empty _)
      · refine List.forall_mem_append.2 ⟨?_, Decimal.noBracket_text _⟩
        split <;> exact noBracket_of_all (by decide)
    · split
      · exact edged_of_noBracket (by decide) (noBracket_of_all (by decide))
      · exact edged_of_noBracket (by decide) (noBracket_of_all (by decide))
    · exact edged_of_noBracket (by decide) (noBracket_of_all (by decide))

theorem edged_int (n : Int) : Edged (toString n).toList := by
  have hnat : ∀ m : Nat, ∀ c ∈ m.repr.toList, NoBracket c := fun m => by
    rw [Nat.toList_repr]
    exact Decimal.noBracket_digits m
  have hne : ∀ m : Nat, m.repr.toList ≠ [] := fun m => by
    rw [Nat.toList_repr]
    exact Nat.toDigits_ne_nil
  rw [Int.toString_eq_repr, Int.repr_eq_if]
  split
  · exact edged_of_noBracket (hne _) (hnat _)
  · rw [String.toList_append]
    exact edged_of_noBracket (List.append_ne_nil_of_right_ne_nil _ (hne _))
      (List.forall_mem_append.2 ⟨noBracket_of_all (by decide), hnat _⟩)

/-! ## Texts on one line -/

theorem enclosed_line (depth : Nat) (left right : String) (items : List String) :
    enclosed .line depth left right items = left ++ ", ".intercalate items ++ right := by
  unfold enclosed
  cases items with
  | nil =>
    show left ++ right = left ++ "" ++ right
    rw [String.append_empty]
  | cons s rest => rfl

mutual

/-- On one line the depth of a value makes no difference. -/
theorem textAt_line (depth depth' : Nat) :
    ∀ v : Value, textAt .line depth v = textAt .line depth' v
  | .null | .bool _ | .int _ | .float _ | .text _ => rfl
  | .bytes _ | .date _ | .moment _ | .set _ => rfl
  | .list items => by
    simp only [textAt, enclosed_line, itemTexts_line (depth + 1) (depth' + 1) items]
  | .pair a b => by
    simp only [textAt, enclosed_line, textAt_line (depth + 1) (depth' + 1) a,
      textAt_line (depth + 1) (depth' + 1) b]
  | .map entries => by
    simp only [textAt, enclosed_line, entryTexts_line (depth + 1) (depth' + 1) entries]
termination_by structural v => v

theorem itemTexts_line (depth depth' : Nat) :
    ∀ vs : List Value, itemTexts .line depth vs = itemTexts .line depth' vs
  | [] => rfl
  | v :: vs => by rw [itemTexts, itemTexts, textAt_line depth depth' v,
      itemTexts_line depth depth' vs]
termination_by structural vs => vs

theorem entryTexts_line (depth depth' : Nat) :
    ∀ es : List (Value × Value), entryTexts .line depth es = entryTexts .line depth' es
  | [] => rfl
  | (k, v) :: es => by rw [entryTexts, entryTexts, textAt_line depth depth' v,
      entryTexts_line depth depth' es]
termination_by structural es => es

end

theorem text_list (items : List Value) :
    text .line (.list items) = "[" ++ ", ".intercalate (items.map (text .line)) ++ "]" := by
  have hitems : itemTexts .line 1 items = items.map (text .line) := by
    induction items with
    | nil => rfl
    | cons v vs ih =>
      rw [itemTexts, ih, List.map_cons]
      exact congrArg (· :: _) (textAt_line 1 0 v)
  show enclosed .line 0 "[" "]" (itemTexts .line 1 items) = _
  rw [enclosed_line, hitems]

theorem edged_text (v : Value) : Edged (text .line v).toList := by
  have hbetween : ∀ (c d : Char) (s : String), c ≠ ']' → d ≠ '[' →
      Edged (String.singleton c ++ s ++ String.singleton d).toList := by
    intro c d s hc hd
    rw [String.toList_append, String.toList_append, String.toList_singleton,
      String.toList_singleton]
    exact edged_enclosed hc hd s.toList
  unfold text
  cases v with
  | null => exact edged_of_noBracket (by decide) (noBracket_of_all (by decide))
  | bool b => cases b <;> exact edged_of_noBracket (by decide) (noBracket_of_all (by decide))
  | int n => exact edged_int n
  | float x => exact edged_floatText x
  | list items =>
    rw [textAt, enclosed_line]
    exact hbetween '[' ']' _ (by decide) (by decide)
  | pair a b =>
    rw [textAt, enclosed_line]
    exact hbetween '[' ']' _ (by decide) (by decide)
  | map entries =>
    rw [textAt, enclosed_line]
    exact hbetween '\x7b' '\x7d' _ (by decide) (by decide)
  | _ => exact edged_stringText _ _

/-! ## What occurs in the text of a list -/

/-- Items that are edged, with commas between them, are edged. -/
theorem edged_intercalate {items : List (List Char)} (hne : items ≠ [])
    (h : ∀ cs ∈ items, Edged cs) : Edged ([',', ' '].intercalate items) := by
  induction items with
  | nil => exact absurd rfl hne
  | cons first rest ih =>
    obtain ⟨hfirst, hrest⟩ := List.forall_mem_cons.1 h
    cases rest with
    | nil =>
      rw [List.intercalate_singleton]
      exact hfirst
    | cons second rest =>
      have hlater := ih (List.cons_ne_nil _ _) hrest
      rw [List.intercalate_cons_cons, List.append_assoc]
      refine ⟨List.append_ne_nil_of_left_ne_nil hfirst.ne_nil _, ?_, ?_⟩
      · rw [List.head?_append_of_ne_nil _ hfirst.ne_nil]
        exact hfirst.first
      · rw [← List.append_assoc, List.getLast?_append_of_ne_nil _ hlater.ne_nil]
        exact hlater.last

/-- Two brackets in a row do not occur between items. -/
theorem brackets_isInfix_intercalate {items : List (List Char)} (h : ∀ cs ∈ items, Edged cs)
    (hoccurs : ['[', ']'] <:+: [',', ' '].intercalate items) :
    ∃ cs ∈ items, ['[', ']'] <:+: cs := by
  induction items with
  | nil => exact absurd hoccurs (by decide)
  | cons first rest ih =>
    obtain ⟨hfirst, hrest⟩ := List.forall_mem_cons.1 h
    cases rest with
    | nil =>
      rw [List.intercalate_singleton] at hoccurs
      exact ⟨first, List.mem_cons_self, hoccurs⟩
    | cons second rest =>
      rw [List.intercalate_cons_cons, List.append_assoc] at hoccurs
      rcases Text.pair_isInfix_append hoccurs with hoccurs | hoccurs | ⟨-, hcomma⟩
      · exact ⟨first, List.mem_cons_self, hoccurs⟩
      · obtain ⟨cs, hcs, hin⟩ := ih hrest (Text.isInfix_of_head_not_mem (by decide) hoccurs)
        exact ⟨cs, List.mem_cons_of_mem _ hcs, hin⟩
      · cases hcomma

/-- What holds no comma and does not begin with a blank does not reach from one item to another. -/
theorem isInfix_intercalate {items : List (List Char)} {a : Char} {word : List Char}
    (hcomma : ',' ∉ a :: word) (hblank : a ≠ ' ')
    (hoccurs : a :: word <:+: [',', ' '].intercalate items) :
    ∃ cs ∈ items, a :: word <:+: cs := by
  induction items with
  | nil => exact absurd (List.infix_nil.1 hoccurs) (List.cons_ne_nil _ _)
  | cons first rest ih =>
    cases rest with
    | nil =>
      rw [List.intercalate_singleton] at hoccurs
      exact ⟨first, List.mem_cons_self, hoccurs⟩
    | cons second rest =>
      rw [List.intercalate_cons_cons, List.append_assoc] at hoccurs
      rcases Text.isInfix_append_cons hcomma hoccurs with hoccurs | hoccurs
      · exact ⟨first, List.mem_cons_self, hoccurs⟩
      · have hlater : a :: word <:+: [' '] ++ [',', ' '].intercalate (second :: rest) := hoccurs
        have hnot : a ∉ [' '] := fun h => hblank (List.mem_singleton.1 h)
        obtain ⟨cs, hcs, hin⟩ := ih (Text.isInfix_of_head_not_mem hnot hlater)
        exact ⟨cs, List.mem_cons_of_mem _ hcs, hin⟩

theorem toList_text_list (items : List Value) :
    (text .line (.list items)).toList =
      ['['] ++ ([',', ' '].intercalate (items.map fun v => (text .line v).toList) ++ [']']) := by
  rw [text_list, String.toList_append, String.toList_append, String.toList_intercalate,
    List.map_map, List.append_assoc]
  rfl

/-- Two brackets in a row in the text of a list that is not empty are in the text of an item. -/
theorem brackets_isInfix_list {items : List Value} (hne : items ≠ [])
    (h : ['[', ']'] <:+: (text .line (.list items)).toList) :
    ∃ v ∈ items, ['[', ']'] <:+: (text .line v).toList := by
  have hedged : ∀ cs ∈ items.map fun v => (text .line v).toList, Edged cs := by
    intro cs hcs
    obtain ⟨v, -, rfl⟩ := List.mem_map.1 hcs
    exact edged_text v
  have hall := edged_intercalate (fun hnil => hne (List.map_eq_nil_iff.1 hnil)) hedged
  rw [toList_text_list] at h
  rcases Text.pair_isInfix_append h with h | h | ⟨-, hfirst⟩
  · exact absurd h (by decide)
  · rcases Text.pair_isInfix_append h with h | h | ⟨hlast, -⟩
    · obtain ⟨cs, hcs, hin⟩ := brackets_isInfix_intercalate hedged h
      obtain ⟨v, hv, rfl⟩ := List.mem_map.1 hcs
      exact ⟨v, hv, hin⟩
    · exact absurd h (by decide)
    · exact absurd hlast hall.last
  · rw [List.head?_append_of_ne_nil _ hall.ne_nil] at hfirst
    exact absurd hfirst hall.first

/-- What holds no comma, begins with no bracket or blank and ends with no bracket is in the text of
an item if it is in that of a list. -/
theorem isInfix_list {items : List Value} {a z : Char} {word front : List Char}
    (hword : a :: word = front ++ [z]) (hcomma : ',' ∉ a :: word) (ha : a ∉ ['[', ' '])
    (hz : z ≠ ']') (h : a :: word <:+: (text .line (.list items)).toList) :
    ∃ v ∈ items, a :: word <:+: (text .line v).toList := by
  have hopening : a ∉ ['['] := fun h =>
    ha (List.mem_cons.2 (Or.inl (List.mem_singleton.1 h)))
  have hclosing : z ∉ [']'] := fun h => hz (List.mem_singleton.1 h)
  rw [toList_text_list] at h
  have hinside := Text.isInfix_of_head_not_mem hopening h
  rw [hword] at hinside
  have hitems := Text.isInfix_of_last_not_mem hclosing hinside
  rw [← hword] at hitems
  have hblank : a ≠ ' ' := fun h => ha (List.mem_cons_of_mem _ (List.mem_singleton.2 h))
  obtain ⟨cs, hcs, hin⟩ := isInfix_intercalate hcomma hblank hitems
  obtain ⟨v, hv, rfl⟩ := List.mem_map.1 hcs
  exact ⟨v, hv, hin⟩

end Json

end BrowserFlow
