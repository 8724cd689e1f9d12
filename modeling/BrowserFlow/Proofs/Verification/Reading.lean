import BrowserFlow.Verification

/-!
# What an answer is read as

An answer is judged by the JSON object in it or by its words, and whatever judgement comes out is
`Proper`. None comes out of an answer whose object gives as its suggestions a value that has no
members, such as a number, or of one whose block holds a whole number with too many digits
(`Unreadable`); these are the only ones (`ofAnswer_ok_iff`).
-/

namespace BrowserFlow

/-! ## Blanks -/

namespace Text

/-- What is left of a list without its last elements that satisfy `p` is nothing, or it has an
element that does not. -/
theorem dropEndWhile_eq_nil_of_all {α : Type} {p : α → Bool} {xs : List α}
    (h : (dropEndWhile p xs).all p = true) : dropEndWhile p xs = [] := by
  unfold dropEndWhile at h ⊢
  rw [List.all_reverse] at h
  cases hdrop : xs.reverse.dropWhile p with
  | nil => rfl
  | cons x rest =>
    have hhead : p x = false := by
      have hnot := List.head?_dropWhile_not p xs.reverse
      rw [hdrop] at hnot
      exact hnot
    rw [hdrop, List.all_cons, hhead] at h
    cases h

/-- A text without the blanks at both ends is empty if it holds nothing but blanks. -/
theorem isEmpty_of_isBlankText_trim {s : String} (h : isBlankText (trim s) = true) :
    (trim s).isEmpty = true := by
  unfold isBlankText trim trimChars at h
  rw [String.toList_ofList] at h
  unfold trim trimChars
  rw [dropEndWhile_eq_nil_of_all h]
  rfl

end Text

namespace Value

/-- A value that is made of others, or a text. -/
def HasMembers : Value → Prop
  | text _ | bytes _ | list _ | pair _ _ | map _ | set _ => True
  | null | bool _ | int _ | float _ | date _ | moment _ => False

theorem members_ok_iff (v : Value) : (∃ items, v.members = .ok items) ↔ v.HasMembers := by
  cases v with
  | text s => exact iff_of_true ⟨_, rfl⟩ trivial
  | bytes data => exact iff_of_true ⟨_, rfl⟩ trivial
  | list items => exact iff_of_true ⟨_, rfl⟩ trivial
  | pair first second => exact iff_of_true ⟨_, rfl⟩ trivial
  | map entries => exact iff_of_true ⟨_, rfl⟩ trivial
  | set items => exact iff_of_true ⟨_, rfl⟩ trivial
  | _ =>
    refine iff_of_false ?_ id
    rintro ⟨items, h⟩
    cases h

end Value

namespace Verification

/-! ## Suggestions -/

/-- The suggestions that are made of the members of a value: those that are not blank. -/
def named (items : List Value) : List String :=
  (items.map fun s => Text.trim s.plainText).filter fun s => !s.isEmpty

theorem named_not_blank {items : List Value} {s : String} (h : s ∈ named items) :
    Text.isBlankText s = false := by
  obtain ⟨hmem, hfull⟩ := List.mem_filter.mp h
  obtain ⟨v, -, rfl⟩ := List.mem_map.mp hmem
  cases hblank : Text.isBlankText (Text.trim v.plainText) with
  | false => rfl
  | true =>
    rw [Text.isEmpty_of_isBlankText_trim hblank] at hfull
    cases hfull

/-- The suggestions of a value that is not false are those of its members. -/
theorem suggestionsOf_eq (v : Value) :
    suggestionsOf v = (if v.truthy then v.members else .ok []).map named := by
  unfold suggestionsOf
  split
  · cases v.members with
    | ok items => rfl
    | error f => rfl
  · rfl

theorem suggestionsOf_ok_iff (v : Value) :
    (∃ suggestions, suggestionsOf v = .ok suggestions) ↔ (v.truthy = true → v.HasMembers) := by
  rw [suggestionsOf_eq, ← Value.members_ok_iff]
  cases v.truthy with
  | false => exact iff_of_true ⟨_, rfl⟩ Bool.noConfusion
  | true =>
    cases v.members with
    | ok items => exact iff_of_true ⟨_, rfl⟩ fun _ => ⟨items, rfl⟩
    | error f =>
      refine iff_of_false ?_ fun h => ?_
      · rintro ⟨suggestions, h⟩
        cases h
      · obtain ⟨items, h⟩ := h rfl
        cases h

theorem suggestionsOf_not_blank {v : Value} {suggestions : List String}
    (h : suggestionsOf v = .ok suggestions) : ∀ s ∈ suggestions, Text.isBlankText s = false := by
  rw [suggestionsOf_eq] at h
  cases hitems : (if v.truthy then v.members else .ok [] : Except Fault (List Value)) with
  | error f =>
    rw [hitems] at h
    cases h
  | ok items =>
    rw [hitems] at h
    cases h
    exact fun s => named_not_blank

/-! ## Judgements -/

/-- What holds of a judgement that was read from an answer. -/
structure Proper (v : Verification) : Prop where
  verdict : v.verdict = if v.success then .verified else .failed
  assumed : v.assumed = false
  /-- A success needs no suggestions. -/
  cleared : v.success = true → v.suggestions = []
  few : v.suggestions.length ≤ 3
  filled : ∀ s ∈ v.suggestions, Text.isBlankText s = false

theorem ofWords_proper (answer : String) : (ofWords answer).Proper := by
  unfold ofWords
  exact ⟨rfl, rfl, fun _ => rfl, Nat.zero_le 3, fun s h => (List.not_mem_nil h).elim⟩

/-- The judgement of an object fails as its suggestions do. -/
theorem ofObject_ok_iff (data : Value) :
    (∃ v, ofObject data = .ok v) ↔
      ∃ suggestions, suggestionsOf (data.field "suggestions") = .ok suggestions := by
  unfold ofObject
  cases suggestionsOf (data.field "suggestions") with
  | ok suggestions => exact iff_of_true ⟨_, rfl⟩ ⟨suggestions, rfl⟩
  | error f =>
    refine iff_of_false ?_ ?_
    · rintro ⟨v, h⟩
      cases h
    · rintro ⟨suggestions, h⟩
      cases h

theorem ofObject_proper {data : Value} {v : Verification} (h : ofObject data = .ok v) :
    v.Proper := by
  obtain ⟨suggestions, hsuggestions⟩ := (ofObject_ok_iff data).1 ⟨v, h⟩
  have hblank := suggestionsOf_not_blank hsuggestions
  unfold ofObject at h
  rw [hsuggestions] at h
  cases h
  refine ⟨rfl, rfl, fun hsuccess => if_pos hsuccess, ?_, ?_⟩
  · dsimp only
    split
    · exact Nat.zero_le 3
    · exact List.length_take_le maxSuggestions suggestions
  · intro s hs
    dsimp only at hs
    split at hs
    · cases hs
    · exact hblank s (List.mem_of_mem_take hs)

/-- No judgement can be read from an answer. -/
inductive Unreadable (answer : String) : Prop
  /-- Its block holds a whole number with more digits than are read. -/
  | tooLong {block : String} {digits : Nat} (found : block? answer = some block)
      (read : Json.read block = .error (.tooLong digits))
  /-- Its block is an object whose suggestions are neither false nor made of anything. -/
  | suggestions {block : String} {entries : List (Value × Value)}
      (found : block? answer = some block) (read : Json.read block = .ok (.map entries))
      (present : ((Value.map entries).field "suggestions").truthy = true)
      (single : ¬ ((Value.map entries).field "suggestions").HasMembers)

/-- An answer is judged by the object in its block, or it has too long a number there, or it is
judged by its words. -/
theorem ofAnswer_cases (answer : String) :
    (∃ block entries, block? answer = some block ∧ Json.read block = .ok (.map entries) ∧
      ofAnswer answer = ofObject (.map entries)) ∨
    (∃ block digits, block? answer = some block ∧ Json.read block = .error (.tooLong digits) ∧
      ofAnswer answer = .error (Json.ReadError.tooLong digits).toFault) ∨
    ((∀ block, block? answer = some block → (∀ entries, Json.read block ≠ .ok (.map entries)) ∧
      ∀ digits, Json.read block ≠ .error (.tooLong digits)) ∧
      ofAnswer answer = .ok (ofWords answer)) := by
  unfold ofAnswer
  cases block? answer with
  | none =>
    refine Or.inr (Or.inr ⟨fun block h => ?_, rfl⟩)
    cases h
  | some block =>
    dsimp only [Option.map_some]
    split
    · rename_i entries hread
      exact Or.inl ⟨block, entries, rfl, Option.some.inj hread, rfl⟩
    · rename_i digits hread
      exact Or.inr (Or.inl ⟨block, digits, rfl, Option.some.inj hread, rfl⟩)
    · rename_i hobject hlong
      refine Or.inr (Or.inr ⟨fun other h => ?_, rfl⟩)
      cases h
      exact ⟨fun entries h => hobject entries (congrArg some h),
        fun digits h => hlong digits (congrArg some h)⟩

theorem ofAnswer_ok_iff (answer : String) :
    (∃ v, ofAnswer answer = .ok v) ↔ ¬ Unreadable answer := by
  rcases ofAnswer_cases answer with
    ⟨block, entries, hfound, hread, hanswer⟩ | ⟨block, digits, hfound, hread, hanswer⟩ |
      ⟨hneither, hanswer⟩
  · rw [hanswer, ofObject_ok_iff, suggestionsOf_ok_iff]
    constructor
    · intro h hunreadable
      cases hunreadable with
      | tooLong found read =>
        rw [hfound] at found
        cases found
        rw [hread] at read
        cases read
      | suggestions found read present single =>
        rw [hfound] at found
        cases found
        rw [hread] at read
        cases read
        exact single (h present)
    · intro h present
      by_cases hmembers : ((Value.map entries).field "suggestions").HasMembers
      · exact hmembers
      · exact absurd (.suggestions hfound hread present hmembers) h
  · rw [hanswer]
    refine iff_of_false ?_ fun h => h (.tooLong hfound hread)
    rintro ⟨v, h⟩
    cases h
  · rw [hanswer]
    refine iff_of_true ⟨_, rfl⟩ fun h => ?_
    cases h with
    | tooLong found read => exact (hneither _ found).2 _ read
    | suggestions found read => exact (hneither _ found).1 _ read

theorem ofAnswer_proper {answer : String} {v : Verification} (h : ofAnswer answer = .ok v) :
    v.Proper := by
  rcases ofAnswer_cases answer with
    ⟨block, entries, -, -, hanswer⟩ | ⟨block, digits, -, -, hanswer⟩ | ⟨-, hanswer⟩
  · exact ofObject_proper (hanswer.symm.trans h)
  · rw [hanswer] at h
    cases h
  · rw [hanswer] at h
    cases h
    exact ofWords_proper answer

end Verification

end BrowserFlow
