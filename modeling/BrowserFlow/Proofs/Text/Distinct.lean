import BrowserFlow.Digest.Signature
import Mathlib.Data.String.Basic

/-!
# Texts without repetitions

Texts come without repetitions in one of two orders. In alphabetical order the list is determined by
which texts there are (`sorted_congr`), because a list that rises strictly is. In the order in which
they come first, a text behind others is dropped if it is one of them and else keeps its place
(`firsts_append_old`, `firsts_append`): that is how a loop goes on that remembers what it has met.
-/

namespace BrowserFlow

/-! ## In alphabetical order -/

namespace Signature

variable {s t : String} {xs ys : List String}

/-- What has been passed already stands in front of what is still to come. -/
theorem eraseReps_loop (xs passed : List String) :
    List.eraseRepsBy.loop (· == ·) s xs passed =
      passed.reverse ++ List.eraseRepsBy.loop (· == ·) s xs [] := by
  induction xs generalizing s passed with
  | nil => simp [List.eraseRepsBy.loop]
  | cons t xs ih =>
    simp only [List.eraseRepsBy.loop]
    cases s == t with
    | true => exact ih passed
    | false =>
      dsimp only
      rw [ih (s :: passed), ih [s]]
      simp

theorem eraseReps_cons_self : (s :: s :: xs).eraseReps = (s :: xs).eraseReps := by
  simp [List.eraseReps, List.eraseRepsBy, List.eraseRepsBy.loop]

theorem eraseReps_cons_of_ne (h : s ≠ t) :
    (s :: t :: xs).eraseReps = s :: (t :: xs).eraseReps := by
  have hbeq : (s == t) = false := by simpa using h
  simp only [List.eraseReps, List.eraseRepsBy, List.eraseRepsBy.loop, hbeq]
  exact eraseReps_loop xs [s]

theorem mem_eraseReps : t ∈ xs.eraseReps ↔ t ∈ xs := by
  induction xs with
  | nil => rfl
  | cons s xs ih =>
    cases xs with
    | nil => rfl
    | cons u xs =>
      by_cases hsu : s = u
      · subst hsu
        rw [eraseReps_cons_self, ih]
        simp
      · rw [eraseReps_cons_of_ne hsu, List.mem_cons, ih, List.mem_cons (b := s)]

/-- Without repetitions a rising list rises strictly. -/
theorem pairwise_eraseReps (h : xs.Pairwise (· ≤ ·)) : xs.eraseReps.Pairwise (· < ·) := by
  induction xs with
  | nil => exact .nil
  | cons s xs ih =>
    cases xs with
    | nil => exact List.pairwise_singleton _ _
    | cons t xs =>
      obtain ⟨hs, hrest⟩ := List.pairwise_cons.1 h
      by_cases hst : s = t
      · subst hst
        rw [eraseReps_cons_self]
        exact ih hrest
      · rw [eraseReps_cons_of_ne hst]
        have hlt : s < t := lt_of_le_of_ne (hs t List.mem_cons_self) hst
        refine List.pairwise_cons.2 ⟨fun u hu => ?_, ih hrest⟩
        rcases List.mem_cons.1 (mem_eraseReps.1 hu) with rfl | hu
        · exact hlt
        · exact lt_of_lt_of_le hlt ((List.pairwise_cons.1 hrest).1 u hu)

theorem mem_sorted : t ∈ sorted xs ↔ t ∈ xs := by
  rw [sorted, mem_eraseReps, List.mem_mergeSort]

theorem pairwise_sorted (xs : List String) : (sorted xs).Pairwise (· < ·) := by
  refine pairwise_eraseReps ?_
  have htrans : ∀ a b c : String, decide (a ≤ b) = true → decide (b ≤ c) = true →
      decide (a ≤ c) = true := fun a b c hab hbc =>
    decide_eq_true (le_trans (of_decide_eq_true hab) (of_decide_eq_true hbc))
  have htotal : ∀ a b : String, (decide (a ≤ b) || decide (b ≤ a)) = true := fun a b => by
    simpa using le_total a b
  exact (List.pairwise_mergeSort htrans htotal xs).imp of_decide_eq_true

theorem nodup_sorted (xs : List String) : (sorted xs).Nodup :=
  (pairwise_sorted xs).imp fun h => ne_of_lt h

/-- Only which texts there are counts for the texts in order. -/
theorem sorted_congr (h : ∀ t, t ∈ xs ↔ t ∈ ys) : sorted xs = sorted ys := by
  have hperm : (sorted xs).Perm (sorted ys) := by
    rw [List.perm_ext_iff_of_nodup (nodup_sorted xs) (nodup_sorted ys)]
    intro t
    rw [mem_sorted, mem_sorted, h]
  exact hperm.eq_of_pairwise (fun s t _ _ hst hts => absurd hts (lt_asymm hst))
    (pairwise_sorted xs) (pairwise_sorted ys)

end Signature

/-! ## In the order in which they come first -/

namespace Text

variable {s : String} {xs ys : List String}

theorem nodup_firsts (xs : List String) : xs.eraseDups.Nodup := by
  induction hn : xs.length using Nat.strong_induction_on generalizing xs with
  | _ n ih =>
    cases xs with
    | nil => exact .nil
    | cons s xs =>
      have hshorter := List.length_filter_le (fun t => !t == s) xs
      rw [List.length_cons] at hn
      rw [List.eraseDups_cons, List.nodup_cons]
      refine ⟨?_, ih _ (by omega) _ rfl⟩
      simp [List.mem_eraseDups]

/-- Texts of which none is another one come first where they are. -/
theorem firsts_of_nodup (h : xs.Nodup) : xs.eraseDups = xs := by
  induction xs with
  | nil => rfl
  | cons s xs ih =>
    obtain ⟨hs, hxs⟩ := List.nodup_cons.1 h
    have hothers : xs.filter (fun t => !t == s) = xs := by
      rw [List.filter_eq_self]
      rintro t ht
      have hne : t ≠ s := fun hts => hs (hts ▸ ht)
      simpa using hne
    rw [List.eraseDups_cons, hothers, ih hxs]

theorem mem_removeAll : s ∈ ys.removeAll xs ↔ s ∈ ys ∧ s ∉ xs := by
  simp [List.removeAll]

theorem removeAll_cons_old (h : s ∈ xs) : (s :: ys).removeAll xs = ys.removeAll xs := by
  rw [List.cons_removeAll, if_neg (mt Bool.eq_false_iff.1 (not_not.2 (List.contains_iff_mem.2 h)))]

theorem firsts_append_old (h : s ∈ xs) : (xs ++ s :: ys).eraseDups = (xs ++ ys).eraseDups := by
  rw [List.eraseDups_append, List.eraseDups_append, removeAll_cons_old h]

/-- Texts of which none is another one stay in front of whatever follows. -/
theorem firsts_append (h : xs.Nodup) :
    (xs ++ ys).eraseDups = xs ++ (ys.removeAll xs).eraseDups := by
  rw [List.eraseDups_append, firsts_of_nodup h]

/-- A text that has not been met comes first, and has been met from then on. -/
theorem firsts_removeAll_cons (h : s ∉ xs) :
    ((s :: ys).removeAll xs).eraseDups = s :: (ys.removeAll (s :: xs)).eraseDups := by
  have hcons : (s :: ys).removeAll xs = s :: ys.removeAll xs := by
    rw [List.cons_removeAll, if_pos (Bool.eq_false_iff.2 (mt List.contains_iff_mem.1 h))]
  have hothers : (ys.removeAll xs).filter (fun t => !t == s) = ys.removeAll (s :: xs) := by
    rw [List.removeAll_cons, List.removeAll, List.removeAll]
    exact List.filter_comm _ _ ys
  rw [hcons, List.eraseDups_cons, hothers]

end Text

end BrowserFlow
