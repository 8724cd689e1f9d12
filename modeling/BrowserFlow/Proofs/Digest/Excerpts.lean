import BrowserFlow.Digest.Sample
import BrowserFlow.Proofs.Text.Collapse
import BrowserFlow.Proofs.Text.Distinct
import Mathlib.Data.List.Nodup

/-!
# Texts of a page

The texts of a sample are collapsed and cut, and each is picked when it comes first. What the loop
has picked at some point is the beginning of the list of first occurrences (`pickFrom_eq`), so that
what it stops with is the beginning of the wanted length. It looks at the limit only behind a text
that it has picked, and so picks one even if there should be none (`taken_iff`): the texts are what
they should be exactly if at least one is wanted or there is none to be picked.
-/

namespace BrowserFlow.Sample

variable {limits : Digest.Limits} {picked : List String} {items : List Value}

/-- A text with its white space collapsed, cut to a length. -/
def excerpt (length : Nat) (s : String) : String :=
  String.ofList ((Text.spaced (Text.runs s.toList)).take length)

/-- The excerpts of the texts that are not blank. -/
def excerpts (length : Nat) (items : List Value) : List String :=
  ((items.filterMap Value.text?).filter fun s => !Text.isBlankText s).map (excerpt length)

theorem collapse_isEmpty (s : String) : (Text.collapse s).isEmpty = Text.isBlankText s := by
  have hruns : (Text.collapse s).isEmpty = true ↔ Text.runs s.toList = [] := by
    rw [String.isEmpty_iff, ← String.toList_eq_nil_iff, Text.toList_collapse]
    constructor
    · intro h
      by_contra hne
      exact Text.spaced_ne_nil hne (fun run hrun => (Text.of_mem_runs hrun).1) h
    · intro h
      rw [h]
      rfl
  rw [Bool.eq_iff_iff, hruns, Text.runs_eq_nil_iff]
  rfl

/-- The excerpt of a text is what the text is collapsed and cut to. -/
theorem cut_collapse (n : Nat) (s : String) :
    String.ofList (upTo (n : Int) (Text.collapse s).toList) = excerpt n s := by
  rw [Text.toList_collapse, upTo_natCast, excerpt]

theorem excerpts_cons_of_blank (n : Nat) {s : String} (hs : Text.isBlankText s = true) :
    excerpts n (.text s :: items) = excerpts n items := by
  simp [excerpts, Value.text?, hs]

theorem excerpts_cons (n : Nat) {s : String} (hs : Text.isBlankText s = false) :
    excerpts n (.text s :: items) = excerpt n s :: excerpts n items := by
  simp [excerpts, Value.text?, hs]

/-- As long as more may be picked, what will have been picked in the end is the beginning of the
texts that come first among those picked already and those to come. -/
theorem pickFrom_eq {n : Nat} (hn : limits.textLength = n) (hpicked : picked.Nodup)
    (hroom : picked.length < max 1 limits.texts.toNat) (items : List Value) :
    pickFrom limits picked items =
      (picked ++ excerpts n items).eraseDups.take (max 1 limits.texts.toNat) := by
  induction items generalizing picked with
  | nil =>
    rw [pickFrom, show excerpts n [] = [] from rfl, List.append_nil, Text.firsts_of_nodup hpicked,
      List.take_of_length_le (by omega)]
  | cons item items ih =>
    cases item with
    | text s =>
      rw [pickFrom, hn, cut_collapse, collapse_isEmpty]
      cases hs : Text.isBlankText s with
      | true => rw [Bool.true_or, if_pos rfl, ih hpicked hroom, excerpts_cons_of_blank n hs]
      | false =>
        rw [Bool.false_or, excerpts_cons n hs]
        by_cases hold : excerpt n s ∈ picked
        · rw [if_pos (List.contains_iff_mem.2 hold), ih hpicked hroom, Text.firsts_append_old hold]
        · rw [if_neg (mt List.contains_iff_mem.1 hold)]
          have hnodup : (picked ++ [excerpt n s]).Nodup :=
            List.concat_eq_append ▸ List.Nodup.concat hold hpicked
          have hlength : (picked ++ [excerpt n s]).length = picked.length + 1 :=
            List.length_append
          rw [List.append_cons picked (excerpt n s) (excerpts n items)]
          split
          -- it is the last one
          · next hlast =>
            have hmax : max 1 limits.texts.toNat = (picked ++ [excerpt n s]).length := by omega
            rw [Text.firsts_append hnodup, hmax, List.take_left]
          · next hmore => exact ih hnodup (by omega)
    | _ => exact ih hpicked hroom

/-- The texts of a page are the first of its excerpts, and at least one if there is one. -/
theorem texts_eq {n : Nat} (hn : limits.textLength = n) (items : List Value) :
    texts limits items = (excerpts n items).eraseDups.take (max 1 limits.texts.toNat) :=
  pickFrom_eq hn List.nodup_nil (by rw [List.length_nil]; omega) items

/-- The texts that should be picked from a page: a limited number of distinct texts of limited
length, those that come first. -/
structure Picked (limits : Digest.Limits) (items : List Value) (ts : List String) : Prop where
  atMost : (ts.length : Int) ≤ limits.texts
  notEmpty : ∀ t ∈ ts, t ≠ ""
  short : ∀ t ∈ ts, (t.length : Int) ≤ limits.textLength
  distinct : ts.Nodup
  first : ts = (excerpts limits.textLength.toNat items).eraseDups.take limits.texts.toNat

theorem of_mem_excerpts {n : Nat} (hn : 1 ≤ n) {t : String} (h : t ∈ excerpts n items) :
    t ≠ "" ∧ t.length ≤ n := by
  obtain ⟨s, hs, rfl⟩ := List.mem_map.1 h
  have hblank : Text.runs s.toList ≠ [] := by
    rw [ne_eq, Text.runs_eq_nil_iff]
    simpa [Text.isBlankText] using (List.mem_filter.1 hs).2
  have hspaced : Text.spaced (Text.runs s.toList) ≠ [] :=
    Text.spaced_ne_nil hblank fun run hrun => (Text.of_mem_runs hrun).1
  constructor
  · intro hempty
    have htake : (Text.spaced (Text.runs s.toList)).take n = [] := by
      rw [← String.toList_eq_nil_iff, excerpt, String.toList_ofList] at hempty
      exact hempty
    rcases List.take_eq_nil_iff.1 htake with hzero | hnil
    · omega
    · exact hspaced hnil
  · rw [← String.length_toList, excerpt, String.toList_ofList]
    exact List.length_take_le n _

theorem picked_take {n k : Nat} (hn : limits.textLength = n) (hpositive : 1 ≤ n)
    (hk : limits.texts = k) (items : List Value) :
    Picked limits items ((excerpts n items).eraseDups.take k) := by
  have hmem : ∀ t ∈ (excerpts n items).eraseDups.take k, t ∈ excerpts n items := fun t ht =>
    List.mem_eraseDups.1 (List.mem_of_mem_take ht)
  constructor
  case atMost =>
    rw [hk]
    exact_mod_cast List.length_take_le k _
  case notEmpty => exact fun t ht => (of_mem_excerpts hpositive (hmem t ht)).1
  case short =>
    intro t ht
    rw [hn]
    exact_mod_cast (of_mem_excerpts hpositive (hmem t ht)).2
  case distinct => exact (Text.nodup_firsts _).sublist (List.take_sublist k _)
  case first => rw [hn, hk, Int.toNat_natCast, Int.toNat_natCast]

theorem excerpts_eq_nil_iff {n : Nat} :
    excerpts n items = [] ↔ ∀ s, .text s ∈ items → Text.isBlankText s = true := by
  have htexts : ∀ s, s ∈ items.filterMap Value.text? ↔ .text s ∈ items := by
    intro s
    rw [List.mem_filterMap]
    constructor
    · rintro ⟨v, hv, hs⟩
      cases v with
      | text t =>
        cases hs
        exact hv
      | _ => cases hs
    · exact fun hs => ⟨_, hs, rfl⟩
  unfold excerpts
  rw [List.map_eq_nil_iff, List.filter_eq_nil_iff]
  simp [htexts]

/-- The texts picked from a page are the first of its excerpts, but never none of them: they are as
many as they should be exactly if at least one is wanted, or every text of the page is blank. -/
theorem picked_iff (limits : Digest.Limits) (items : List Value) (htexts : 0 ≤ limits.texts)
    (hlength : 1 ≤ limits.textLength) :
    texts limits items = (excerpts limits.textLength.toNat items).eraseDups.take
      (max 1 limits.texts.toNat) ∧
    (Picked limits items (texts limits items) ↔
      1 ≤ limits.texts ∨ ∀ s, .text s ∈ items → Text.isBlankText s = true) := by
  obtain ⟨n, hn⟩ := Int.eq_ofNat_of_zero_le (le_trans Int.one_nonneg hlength)
  obtain ⟨k, hk⟩ := Int.eq_ofNat_of_zero_le htexts
  have heq := texts_eq hn items
  rw [hn, Int.toNat_natCast]
  refine ⟨heq, ?_⟩
  rw [← excerpts_eq_nil_iff (n := n)]
  constructor
  · intro h
    by_cases hnone : k = 0
    -- one text has been picked where there should be none
    · right
      have hfew := h.atMost
      rw [heq, List.length_take, hk] at hfew
      cases hitems : excerpts n items with
      | nil => rfl
      | cons t ts =>
        rw [hitems, List.eraseDups_cons, List.length_cons] at hfew
        omega
    · left
      omega
  · intro h
    have htake : texts limits items = (excerpts n items).eraseDups.take k := by
      rw [heq, hk, Int.toNat_natCast]
      rcases h with hsome | hnone
      · rw [Nat.max_eq_right (by omega)]
      · rw [hnone, List.eraseDups_nil, List.take_nil, List.take_nil]
    rw [htake]
    exact picked_take hn (by omega) hk items

/-- Of two texts one should be picked, the first one cut to five characters. -/
theorem picked_iff_greeting :
    0 ≤ ({ texts := 1, textLength := 5 } : Digest.Limits).texts ∧
    1 ≤ ({ texts := 1, textLength := 5 } : Digest.Limits).textLength ∧
    texts { texts := 1, textLength := 5 } [.text " hello\n world", .text "third"] = ["hello"] ∧
    Picked { texts := 1, textLength := 5 } [.text " hello\n world", .text "third"]
      (texts { texts := 1, textLength := 5 } [.text " hello\n world", .text "third"]) :=
  ⟨by decide, by decide, by decide +kernel,
    (picked_iff { texts := 1, textLength := 5 } [.text " hello\n world", .text "third"] (by decide)
      (by decide)).2.2 (Or.inl (by decide))⟩

/-- Where no text is wanted one is picked. -/
theorem not_picked_none :
    ¬ ∀ (limits : Digest.Limits) (items : List Value), 0 ≤ limits.texts → 1 ≤ limits.textLength →
      Picked limits items (texts limits items) := by
  intro h
  have hfew := (h { texts := 0 } [.text "a"] (by decide) (by decide)).atMost
  have hone : texts { texts := 0 } [.text "a"] = ["a"] := by decide +kernel
  rw [hone] at hfew
  exact absurd hfew (by decide)

end BrowserFlow.Sample
