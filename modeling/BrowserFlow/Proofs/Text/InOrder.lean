import Mathlib.Data.List.Infix

/-!
# Texts that stand in a text in order

Whether some texts stand in a text one behind the other is decided at either end of it: a text that
begins with the first of them leaves the others to what is behind that (`inOrder_cons_append`), and
one that ends with the last of them leaves the others to what is before (`inOrder_concat_append`).
Either time the argument is that nothing is lost by taking the outermost place.
-/

namespace BrowserFlow.Text

/-- The texts stand in the characters in that order, and none reaches into another one. -/
def InOrder : List String → List Char → Prop
  | [], _ => True
  | p :: ps, s => ∃ u v, s = u ++ p.toList ++ v ∧ InOrder ps v

variable {ps : List String} {p : String} {s v : List Char}

theorem InOrder.of_suffix (h : InOrder ps v) (hv : v <:+ s) : InOrder ps s := by
  cases ps with
  | nil => trivial
  | cons p ps =>
    obtain ⟨u, w, rfl, hw⟩ := h
    obtain ⟨x, rfl⟩ := hv
    refine ⟨x ++ u, w, ?_, hw⟩
    simp only [List.append_assoc]

theorem InOrder.append_right (h : InOrder ps s) (v : List Char) : InOrder ps (s ++ v) := by
  induction ps generalizing s with
  | nil => trivial
  | cons p ps ih =>
    obtain ⟨u, w, rfl, hw⟩ := h
    exact ⟨u, w ++ v, List.append_assoc _ w v, ih hw⟩

/-- Texts that stand in a text in order are no longer than that together. -/
theorem InOrder.length_le (h : InOrder ps s) :
    (ps.flatMap String.toList).length ≤ s.length := by
  induction ps generalizing s with
  | nil => exact Nat.zero_le _
  | cons p ps ih =>
    obtain ⟨u, v, rfl, hv⟩ := h
    have hlater := ih hv
    simp only [List.flatMap_cons, List.length_append]
    omega

/-- The text at the beginning may be taken for the first one. -/
theorem inOrder_cons_append : InOrder (p :: ps) (p.toList ++ s) ↔ InOrder ps s := by
  constructor
  · rintro ⟨u, v, h, hv⟩
    have hlength := congrArg List.length h
    simp only [List.length_append] at hlength
    -- what is behind any place of the first text is behind the beginning as well
    have hsuffix : v <:+ s := by
      refine List.suffix_of_suffix_length_le ?_ (List.suffix_append p.toList s) (by omega)
      exact h ▸ List.suffix_append _ v
    exact hv.of_suffix hsuffix
  · intro h
    exact ⟨[], s, rfl, h⟩

/-- The text at the end may be taken for the last one. -/
theorem inOrder_concat_append : InOrder (ps ++ [p]) (s ++ p.toList) ↔ InOrder ps s := by
  induction ps generalizing s with
  | nil =>
    refine iff_of_true ⟨s, [], ?_, trivial⟩ trivial
    rw [List.append_nil]
  | cons q qs ih =>
    rw [List.cons_append]
    constructor
    · rintro ⟨u, v, h, hv⟩
      -- the last text stands in what is behind the first, so that it ends that
      have hroom : p.toList.length ≤ v.length := by
        have hlength := hv.length_le
        rw [List.flatMap_append, List.length_append, List.flatMap_singleton] at hlength
        omega
      have hends : p.toList <:+ v := by
        refine List.suffix_of_suffix_length_le (List.suffix_append s p.toList) ?_ hroom
        exact h ▸ List.suffix_append _ v
      obtain ⟨w, rfl⟩ := hends
      rw [← List.append_assoc, List.append_cancel_right_eq] at h
      exact ⟨u, w, h, ih.1 hv⟩
    · rintro ⟨u, v, rfl, hv⟩
      refine ⟨u, v ++ p.toList, ?_, ih.2 hv⟩
      rw [List.append_assoc]

end BrowserFlow.Text
