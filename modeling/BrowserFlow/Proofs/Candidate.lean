import BrowserFlow.Candidate
import BrowserFlow.Proofs.Text.Distinct
import Mathlib.Data.List.Nodup
import Mathlib.Data.Prod.Lex

/-!
# The order and the choice of candidates

Candidates are compared by four things, each of which counts only where those before it are the same
(`precedes_eq`). Candidates in order are those that there were, and those that are worth the same
stay in the order in which they were (`filter_sort`). The score of a candidate that was tried is what
its rounded confidence says (`hundredths_tried`).

The selectors that are tried come from two places, and the second is reached only behind all that
the first has to give (`chosen_selectors`).
-/

namespace BrowserFlow.Candidate

variable {c d : Candidate}

/-! ## Scores -/

theorem score_le (selector : String) (count : Int) (samples : List String) (bulk : Bool) :
    score selector count samples bulk ≤ 100 := by
  unfold score
  split
  · exact Nat.zero_le _
  · split
    · unfold bulkScore
      dsimp only
      omega
    · unfold singleScore
      split
      · decide
      · split <;> decide

theorem hundredths_ofHundredths :
    ∀ n ≤ 100, hundredths { selector := "", count := 0, confidence := ofHundredths n } = n := by
  decide +kernel

/-- Rounding the confidence of a candidate that was tried gives back its score. -/
theorem hundredths_tried (selector : String) (count : Int) (samples : List String) (bulk : Bool) :
    (tried selector count samples bulk).hundredths = score selector count samples bulk :=
  hundredths_ofHundredths _ (score_le selector count samples bulk)

/-! ## Order -/

/-- Less for what stands further in front: whether nothing was matched, and the score, the
specificity and the number of matches, each of them negated. -/
def worth (c : Candidate) : Bool ×ₗ Int ×ₗ Int ×ₗ Int :=
  toLex (c.count == 0, toLex (-c.hundredths, toLex (-c.specificity, -c.count)))

theorem precedes_eq : precedes c d = decide (c.worth ≤ d.worth) := by
  rw [Bool.eq_iff_iff, decide_eq_true_iff]
  unfold precedes worth
  simp only [Prod.Lex.toLex_le_toLex, bne_iff_ne]
  by_cases hfound : (c.count == 0) = (d.count == 0)
  · rw [if_neg (not_not.2 hfound), hfound]
    simp only [lt_irrefl, false_or, true_and]
    split_ifs <;> simp <;> omega
  · rw [if_pos hfound]
    simp only [hfound, false_and, or_false]
    cases hc : c.count == 0 <;> cases hd : d.count == 0 <;> simp_all

theorem precedes_trans (b c d : Candidate) (hbc : precedes b c = true) (hcd : precedes c d = true) :
    precedes b d = true := by
  rw [precedes_eq, decide_eq_true_iff] at hbc hcd ⊢
  exact hbc.trans hcd

theorem precedes_total (c d : Candidate) : (precedes c d || precedes d c) = true := by
  rw [precedes_eq, precedes_eq, Bool.or_eq_true, decide_eq_true_iff, decide_eq_true_iff]
  exact le_total c.worth d.worth

/-- Candidates in order are the same candidates. -/
theorem perm_sort (cs : List Candidate) : (sort cs).Perm cs :=
  List.mergeSort_perm cs precedes

theorem pairwise_sort (cs : List Candidate) : (sort cs).Pairwise fun c d => c.worth ≤ d.worth := by
  refine (List.pairwise_mergeSort precedes_trans precedes_total cs).imp fun {c d} h => ?_
  rwa [precedes_eq, decide_eq_true_iff] at h

/-- Candidates that are worth the same stay in the order in which they were. -/
theorem filter_sort (cs : List Candidate) (k : Bool ×ₗ Int ×ₗ Int ×ₗ Int) :
    (sort cs).filter (fun c => c.worth = k) = cs.filter fun c => c.worth = k := by
  have halike : (cs.filter fun c => c.worth = k).Pairwise fun c d => precedes c d = true := by
    refine List.pairwise_of_forall_mem_list fun c hc d hd => ?_
    have hck : c.worth = k := of_decide_eq_true (List.mem_filter.1 hc).2
    have hdk : d.worth = k := of_decide_eq_true (List.mem_filter.1 hd).2
    rw [precedes_eq, hck, hdk, decide_eq_true_iff]
  have hsub : (cs.filter fun c => c.worth = k).Sublist (sort cs) :=
    List.sublist_mergeSort precedes_trans precedes_total halike List.filter_sublist
  have hsub' := hsub.filter fun c => decide (c.worth = k)
  simp only [List.filter_filter, Bool.and_self] at hsub'
  exact (hsub'.eq_of_length ((perm_sort cs).filter _).length_eq.symm).symm

/-! ## Choice -/

/-- The parts of the selector that failed. -/
def failedParts (failed : Option String) : List String :=
  (failed.map Selector.parts).getD []

/-- The patterns of the page. -/
def patternNames (digest : Option Digest) : List String :=
  (digest.map fun d => d.patterns.map (·.selector)).getD []

theorem foldl_firsts {met : List String} (hmet : met.Nodup) (xs : List String) :
    xs.foldl (fun acc s => if s.isEmpty || acc.contains s then acc else acc ++ [s]) met =
      (met ++ xs.filter (· ≠ "")).eraseDups := by
  induction xs generalizing met with
  | nil => rw [List.foldl_nil, List.filter_nil, List.append_nil, Text.firsts_of_nodup hmet]
  | cons s xs ih =>
    rw [List.foldl_cons]
    by_cases hempty : s = ""
    · subst hempty
      exact ih hmet
    · have hkept : (s :: xs).filter (· ≠ "") = s :: xs.filter (· ≠ "") :=
        List.filter_cons_of_pos (decide_eq_true hempty)
      rw [hkept, Bool.eq_false_iff.2 (mt String.isEmpty_iff.1 hempty), Bool.false_or]
      by_cases hold : s ∈ met
      · rw [if_pos (List.contains_iff_mem.2 hold), ih hmet, Text.firsts_append_old hold]
      · have hnodup : (met ++ [s]).Nodup := List.concat_eq_append ▸ List.Nodup.concat hold hmet
        rw [if_neg (mt List.contains_iff_mem.1 hold), ih hnodup, ← List.append_cons]

theorem selectors_eq (digest : Option Digest) (failed : Option String) (limit : Nat) :
    selectors digest failed limit =
      (((failedParts failed ++ patternNames digest).filter (· ≠ "")).eraseDups).take limit := by
  have hfirsts := foldl_firsts List.nodup_nil (failedParts failed ++ patternNames digest)
  rw [List.nil_append] at hfirsts
  rw [← hfirsts]
  rfl

/-- What is chosen from two places: a limited number of texts without repetitions, those of the
second place behind all that are in the first. -/
structure Chosen (limit : Nat) (firsts seconds chosen : List String) : Prop where
  atMost : chosen.length ≤ limit
  distinct : chosen.Nodup
  notEmpty : "" ∉ chosen
  inOrder : ∃ xs ys, chosen = xs ++ ys ∧ (∀ s ∈ xs, s ∈ firsts) ∧
    (∀ s ∈ ys, s ∈ seconds ∧ s ∉ firsts) ∧ (ys ≠ [] → ∀ s ∈ firsts, s ≠ "" → s ∈ xs)
  /-- Nothing is left out as long as there is room. -/
  full : chosen.length < limit → ∀ s ∈ firsts ++ seconds, s ≠ "" → s ∈ chosen

theorem mem_notEmpty {s : String} {xs : List String} :
    s ∈ (xs.filter (· ≠ "")).eraseDups ↔ s ∈ xs ∧ s ≠ "" := by
  rw [List.mem_eraseDups, List.mem_filter, decide_eq_true_iff]

theorem chosen_take (limit : Nat) (firsts seconds : List String) :
    Chosen limit firsts seconds
      ((((firsts ++ seconds).filter (· ≠ "")).eraseDups).take limit) := by
  constructor
  case atMost => exact List.length_take_le limit _
  case distinct => exact (Text.nodup_firsts _).sublist (List.take_sublist limit _)
  case notEmpty =>
    intro h
    exact (mem_notEmpty.1 (List.mem_of_mem_take h)).2 rfl
  case inOrder =>
    rw [List.filter_append, List.eraseDups_append, List.take_append]
    refine ⟨_, _, rfl, fun s hs => (mem_notEmpty.1 (List.mem_of_mem_take hs)).1, fun s hs => ?_,
      fun hsome => ?_⟩
    · obtain ⟨hseconds, hfirsts⟩ :=
        Text.mem_removeAll.1 (List.mem_eraseDups.1 (List.mem_of_mem_take hs))
      obtain ⟨hs, hne⟩ := List.mem_filter.1 hseconds
      exact ⟨hs, fun h => hfirsts (List.mem_filter.2 ⟨h, hne⟩)⟩
    -- the second place is reached, so there was room for all of the first
    · intro s hs hne
      have hroom : (firsts.filter (· ≠ "")).eraseDups.length ≤ limit := by
        by_contra hfull
        rw [Nat.sub_eq_zero_of_le (by omega)] at hsome
        exact hsome List.take_zero
      rw [List.take_of_length_le hroom]
      exact mem_notEmpty.2 ⟨hs, hne⟩
  case full =>
    intro hroom s hs hne
    rw [List.length_take] at hroom
    rw [List.take_of_length_le (by omega)]
    exact mem_notEmpty.2 ⟨hs, hne⟩

theorem chosen_selectors (digest : Option Digest) (failed : Option String) (limit : Nat) :
    Chosen limit (failedParts failed) (patternNames digest) (selectors digest failed limit) := by
  rw [selectors_eq]
  exact chosen_take limit _ _

end BrowserFlow.Candidate
