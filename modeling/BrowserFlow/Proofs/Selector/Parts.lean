import BrowserFlow.Proofs.Ranking
import BrowserFlow.Proofs.Text.Collapse
import BrowserFlow.Proofs.Text.Lines

/-!
# The parts of a selector that failed

A part of a selector is never empty and has no blanks at its ends (`trimmed_of_mem_parts`), so that
it is tried as it stands. Of the selectors that are tried in place of one that failed, its own parts
are the first (`tried_suggest`).
-/

namespace BrowserFlow

namespace Text

/-- What is found among the finds was found somewhere. -/
theorem exists_of_mem_findAllFrom {α : Type} {step : List Char → Option (α × Nat)} {found : α}
    {skip : Nat} {cs : List Char} (h : found ∈ findAllFrom step skip cs) :
    ∃ rest taken, step rest = some (found, taken) := by
  fun_induction findAllFrom step skip cs with
  | case1 => cases h
  | case2 skip c cs ih => exact ih h
  | case3 c cs found' taken hfind ih =>
    rcases List.mem_cons.1 h with rfl | h
    · exact ⟨_, _, hfind⟩
    · exact ih h
  | case4 c cs hnone ih => exact ih h

end Text

namespace Selector

open Text

variable {s part : String} {c mark : Char} {cs : List Char} {taken : Nat}

/-- Below the limit of ASCII the characters of names are not blank, nor are their small forms. -/
theorem not_blank_of_lt : ∀ n < 128, isNameChar (Char.ofNat n) = true →
    isBlank (Char.ofNat n) = false ∧ isBlank (Char.ofNat n).toLower = false := by
  decide +kernel

theorem lt_of_isNameChar (h : isNameChar c = true) : c.toNat < 128 := by
  have hbound : c.val ≤ 'z'.val := by
    unfold isNameChar Char.isAlphanum Char.isAlpha Char.isUpper Char.isLower Char.isDigit at h
    simp only [Bool.or_eq_true, Bool.and_eq_true, decide_eq_true_eq] at h
    rcases h with (((⟨-, h⟩ | ⟨-, h⟩) | ⟨-, h⟩) | rfl) | rfl
    · exact UInt32.le_trans h (show 'Z'.val ≤ 'z'.val by decide)
    · exact h
    · exact UInt32.le_trans h (show '9'.val ≤ 'z'.val by decide)
    · decide
    · decide
  rw [UInt32.le_iff_toNat_le] at hbound
  exact Nat.lt_of_le_of_lt hbound (by decide)

theorem not_blank_of_isNameChar (h : isNameChar c = true) :
    isBlank c = false ∧ isBlank c.toLower = false := by
  have hascii := not_blank_of_lt c.toNat (lt_of_isNameChar h)
  rw [Char.ofNat_toNat] at hascii
  exact hascii h

/-- A text that is not empty and has no blanks at its ends. -/
def Trimmed (part : String) : Prop :=
  part ≠ "" ∧ Edged part.toList

theorem Trimmed.proposal (h : Trimmed part) : Ranking.proposal (.text part) = part := by
  rw [← String.toList_inj]
  exact (toList_trim part).trans (trimChars_of_edged h.2)

theorem trimmed_ofList (hne : cs ≠ []) (h : Edged cs) : Trimmed (String.ofList cs) := by
  refine ⟨fun hempty => hne ?_, by rwa [String.toList_ofList]⟩
  rw [← String.toList_ofList (l := cs), hempty]
  rfl

theorem trimmed_of_marked? (hmark : isBlank mark = false)
    (h : marked? mark cs = some (part, taken)) : Trimmed part := by
  cases cs with
  | nil => cases h
  | cons c cs =>
    unfold marked? at h
    dsimp only at h
    split at h
    · cases h
      refine trimmed_ofList (List.cons_ne_nil _ _) (edged_run fun d hd => ?_)
      rcases List.mem_cons.1 hd with rfl | hd
      · exact hmark
      · exact (not_blank_of_isNameChar (List.mem_takeWhile_imp hd)).1
    · cases h

theorem trimmed_of_bracketed? (h : bracketed? cs = some (part, taken)) : Trimmed part := by
  unfold bracketed? at h
  split at h
  · dsimp only at h
    split at h
    · cases h
      refine trimmed_ofList (List.cons_ne_nil _ _) ⟨fun c hc => ?_, fun c hc => ?_⟩
      · cases hc
        decide
      · rw [List.getLast?_concat] at hc
        cases hc
        decide
    · cases h
  · cases h

theorem trimmed_of_tag? (h : tag? s = some part) : Trimmed part := by
  unfold tag? at h
  split at h
  · rename_i c cs _
    split at h
    · rename_i hc
      cases h
      have hletter : ∀ {d : Char}, d.isAlphanum = true → isBlank d.toLower = false := by
        intro d hd
        refine (not_blank_of_isNameChar ?_).2
        unfold isNameChar
        rw [hd, Bool.true_or, Bool.true_or]
      refine trimmed_ofList (List.cons_ne_nil _ _) (edged_run fun d hd => ?_)
      rcases List.mem_cons.1 hd with rfl | hd
      · refine hletter ?_
        unfold Char.isAlphanum
        rw [hc, Bool.true_or]
      · obtain ⟨e, he, rfl⟩ := List.mem_map.1 hd
        exact hletter (List.mem_takeWhile_imp he)
    · cases h
  · cases h

/-- The parts of a selector are not empty, and have no blanks at their ends. -/
theorem trimmed_of_mem_parts (h : part ∈ parts s) : Trimmed part := by
  have hfound : ∀ {step : List Char → Option (String × Nat)}, part ∈ findAll step s →
      ∃ rest taken, step rest = some (part, taken) := exists_of_mem_findAllFrom
  unfold parts at h
  rw [List.mem_append, List.mem_append, List.mem_append] at h
  rcases h with ((hclass | hidentifier) | hattribute) | htag
  · obtain ⟨rest, taken, h⟩ := hfound hclass
    exact trimmed_of_marked? (by decide) h
  · obtain ⟨rest, taken, h⟩ := hfound hidentifier
    exact trimmed_of_marked? (by decide) h
  · obtain ⟨rest, taken, h⟩ := hfound hattribute
    exact trimmed_of_bracketed? h
  · exact trimmed_of_tag? (Option.mem_toList.1 htag)

end Selector

namespace Ranking

variable {selector : String} {limit : Nat}

/-- The parts of a selector that failed are chosen first, as far as the limit goes. -/
theorem firsts_isPrefix_selectors (digest : Option Digest) (selector : String) (limit : Nat) :
    ((Selector.parts selector).eraseDups.take limit) <+:
      Candidate.selectors digest (some selector) limit := by
  have hparts : (Candidate.failedParts (some selector)).filter (· ≠ "") =
      Selector.parts selector := by
    refine List.filter_eq_self.2 fun part hpart => ?_
    exact decide_eq_true (Selector.trimmed_of_mem_parts hpart).1
  rw [Candidate.selectors_eq, List.filter_append, hparts, List.eraseDups_append, List.take_append]
  exact List.prefix_append _ _

/-- Texts that are not empty and have no blanks at their ends are proposed as they are. -/
theorem proposals_trimmed {xs : List String} (h : ∀ x ∈ xs, Selector.Trimmed x)
    (ys : List String) :
    proposals ((xs ++ ys).map .text) = xs ++ proposals (ys.map .text) := by
  have hsame : (xs.map Value.text).map proposal = xs := by
    rw [List.map_map]
    refine (List.map_congr_left fun x hx => ?_).trans (List.map_id xs)
    exact (h x hx).proposal
  have hkept : xs.filter (· ≠ "") = xs :=
    List.filter_eq_self.2 fun x hx => decide_eq_true (h x hx).1
  unfold proposals
  rw [List.map_append, List.map_append, List.filter_append, hsame, hkept]

/-- Whatever the page does, candidates are found, and the first that are tried are the parts of the
selector that failed, each of them once. -/
theorem tried_suggest (sampleSize : Int) (digest : Option Digest) (selector : String) (bulk : Bool)
    (limit : Nat) (w : World) :
    ∃ order tested ranked v,
      (suggest sampleSize digest (some selector) bulk limit).run w = (.ok ranked, v) ∧
      Ranks sampleSize bulk order w tested ranked v ∧
      (Selector.parts selector).eraseDups.take limit <+: order := by
  have htexts : ∀ v ∈ (Candidate.selectors digest (some selector) limit).map Value.text,
      Proposes v := by
    intro v hv
    obtain ⟨s, -, rfl⟩ := List.mem_map.1 hv
    exact Or.inl rfl
  obtain ⟨tested, ranked, v, hrun, hranks⟩ := ranks_rank sampleSize bulk htexts w
  refine ⟨_, tested, ranked, v, hrun, hranks, ?_⟩
  obtain ⟨others, hothers⟩ := firsts_isPrefix_selectors digest selector limit
  have htrimmed : ∀ x ∈ (Selector.parts selector).eraseDups.take limit, Selector.Trimmed x :=
    fun x hx => Selector.trimmed_of_mem_parts (List.mem_eraseDups.1 (List.mem_of_mem_take hx))
  have hnodup : ((Selector.parts selector).eraseDups.take limit).Nodup :=
    (Text.nodup_firsts _).sublist (List.take_sublist _ _)
  rw [← hothers, proposals_trimmed htrimmed, Text.firsts_append hnodup]
  exact List.prefix_append _ _

end Ranking

end BrowserFlow
