import BrowserFlow.Proofs.Candidate
import BrowserFlow.Proofs.World.Calls
import BrowserFlow.Ranking
import Mathlib.Data.List.Perm.Subperm

/-!
# What is tried and returned

A selector is tried by asking how many elements it matches and, if the page says so, reading the
first of them (`Probes`). Nothing that the page does can make a trial fail, so that proposals are
tried to the end, each text at its first place (`tries_tryAll`). What is returned are the candidates
that were tried, in their order.
-/

namespace BrowserFlow.Ranking

open Effect

variable {sampleSize : Int} {bulk : Bool} {selector : String} {w u v : World} {n : Int}
  {samples : List String}

/-! ## One selector -/

/-- Trying a selector gives its number of matches and texts of some of them. -/
inductive Probes (sampleSize : Int) (selector : String) (w : World) :
    Int → List String → World → Prop
  /-- The page answered with a number, and the texts were read then. -/
  | answered {n : Int} {samples : List String} {u v : World}
      (hcount : (World.call none (.count (.text selector))).run w = (.ok (.int n), u))
      (hread : (readTexts selector (List.range (min sampleSize n).toNat)).run u =
        (.ok samples, v)) :
      Probes sampleSize selector w n samples v
  /-- Else nothing was matched. -/
  | refused {r : Except Fault Value} {v : World}
      (hcount : (World.call none (.count (.text selector))).run w = (r, v))
      (hrefused : ∀ n, r ≠ .ok (.int n)) : Probes sampleSize selector w 0 [] v

/-- The calls for a selector with a number of matches. -/
def probeCalls (sampleSize : Int) (selector : String) (n : Int) : List PageCall :=
  .count (.text selector) ::
    (List.range (min sampleSize n).toNat).map fun index => .innerText (.text selector) index

/-- Texts are read whatever the page does, each with one call. -/
theorem run_readTexts (selector : String) (places : List Nat) (w : World) :
    ∃ samples v, (readTexts selector places).run w = (.ok samples, v) ∧
      v.calls = w.calls ++ places.map fun index => .innerText (.text selector) index := by
  induction places generalizing w with
  | nil => exact ⟨[], w, rfl, by rw [List.map_nil, List.append_nil]⟩
  | cons index places ih =>
    have hcalls := World.calls_call none (.innerText (.text selector) index) w
    rcases hcall : (World.call none (.innerText (.text selector) index)).run w with ⟨r, u⟩
    rw [hcall] at hcalls
    obtain ⟨samples, v, hread, hv⟩ := ih u
    refine ⟨kept r ++ samples, v, ?_, ?_⟩
    · rw [readTexts, run_bind, run_attempt, hcall]
      dsimp only
      rw [run_bind_ok hread, run_pure]
    · rw [hv, hcalls, List.map_cons, List.append_assoc, List.singleton_append]

theorem probes_probe (sampleSize : Int) (selector : String) (w : World) :
    ∃ n samples v, (probe sampleSize selector).run w = (.ok (n, samples), v) ∧
      Probes sampleSize selector w n samples v := by
  rcases hcount : (World.call none (.count (.text selector))).run w with ⟨r, u⟩
  have hattempt : (attempt (World.call none (.count (.text selector))) :
      Effect Fault World (Except Fault Value)).run w = (.ok r, u) := by
    rw [run_attempt, hcount]
  by_cases hr : ∃ n, r = .ok (.int n)
  · obtain ⟨n, rfl⟩ := hr
    obtain ⟨samples, v, hread, -⟩ :=
      run_readTexts selector (List.range (min sampleSize n).toNat) u
    refine ⟨n, samples, v, ?_, .answered hcount hread⟩
    unfold probe
    rw [run_bind_ok hattempt]
    dsimp only
    rw [run_bind_ok hread, run_pure]
  · refine ⟨0, [], u, ?_, .refused hcount fun n hn => hr ⟨n, hn⟩⟩
    unfold probe
    rw [run_bind_ok hattempt]
    split
    · next n => exact absurd ⟨n, rfl⟩ hr
    · rfl

/-- A trial asks once for the number of matches, and reads no more than the first of them. -/
theorem Probes.calls (h : Probes sampleSize selector w n samples v) :
    v.calls = w.calls ++ probeCalls sampleSize selector n := by
  have hcalls := World.calls_call none (.count (.text selector)) w
  cases h with
  | @answered n samples u v hcount hread =>
    rw [hcount] at hcalls
    obtain ⟨samples', v', hread', hv⟩ :=
      run_readTexts selector (List.range (min sampleSize n).toNat) u
    obtain ⟨-, rfl⟩ := Prod.mk.inj (hread.symm.trans hread')
    rw [hv, hcalls, List.append_assoc]
    rfl
  | refused hcount hrefused =>
    rw [hcount] at hcalls
    have hnone : (min sampleSize 0).toNat = 0 := Int.toNat_of_nonpos (min_le_right sampleSize 0)
    rw [hcalls, probeCalls, hnone]
    rfl

/-! ## One after the other -/

/-- Selectors are tried in order, and each gives a candidate. -/
inductive Tried (sampleSize : Int) (bulk : Bool) :
    World → List String → List Candidate → World → Prop
  | done {w : World} : Tried sampleSize bulk w [] [] w
  | next {w u v : World} {selector : String} {n : Int} {samples : List String}
      {rest : List String} {cs : List Candidate}
      (hprobe : Probes sampleSize selector w n samples u)
      (hrest : Tried sampleSize bulk u rest cs v) :
      Tried sampleSize bulk w (selector :: rest) (.tried selector n samples bulk :: cs) v

variable {order : List String} {tested : List Candidate}

theorem Tried.selectors (h : Tried sampleSize bulk w order tested v) :
    tested.map (·.selector) = order := by
  induction h with
  | done => rfl
  | next hprobe hrest ih => rw [List.map_cons, ih, Candidate.tried]

theorem Tried.calls (h : Tried sampleSize bulk w order tested v) :
    v.calls = w.calls ++ tested.flatMap fun c => probeCalls sampleSize c.selector c.count := by
  induction h with
  | done => rw [List.flatMap_nil, List.append_nil]
  | next hprobe hrest ih =>
    rw [ih, hprobe.calls, List.flatMap_cons, List.append_assoc, Candidate.tried]

/-- A value that can be proposed: a text, or something that stands for none. -/
def Proposes (v : Value) : Prop :=
  v.isText = true ∨ v.truthy = false

/-- What is proposed, without blanks at its ends. -/
def proposal (v : Value) : String :=
  Text.trim (v.textOr "")

/-- What values propose. -/
def proposals (candidates : List Value) : List String :=
  (candidates.map proposal).filter (· ≠ "")

theorem cleaned_eq {v : Value} (h : Proposes v) : cleaned v = .ok (proposal v) := by
  cases v with
  | text s => rfl
  | _ =>
    have hfalsy := h.resolve_left Bool.false_ne_true
    simp only [cleaned, hfalsy]
    rfl

variable {seen : List String} {candidate : Value} {rest candidates : List Value}

/-- What proposes nothing, or nothing new, is passed over. -/
theorem tryAll_cons_old (h : Proposes candidate)
    (hold : proposal candidate = "" ∨ proposal candidate ∈ seen) :
    (tryAll sampleSize bulk seen (candidate :: rest)).run w =
      (tryAll sampleSize bulk seen rest).run w := by
  have hskip : ((proposal candidate).isEmpty || seen.contains (proposal candidate)) = true := by
    simpa using hold
  rw [tryAll, cleaned_eq h, run_bind_ok (run_lift _ w)]
  rw [if_pos hskip]

/-- Else it is tried before the others. -/
theorem tryAll_cons_new (h : Proposes candidate) (hne : proposal candidate ≠ "")
    (hnew : proposal candidate ∉ seen)
    (hprobe : (probe sampleSize (proposal candidate)).run w = (.ok (n, samples), u))
    (hrest : (tryAll sampleSize bulk (proposal candidate :: seen) rest).run u = (.ok tested, v)) :
    (tryAll sampleSize bulk seen (candidate :: rest)).run w =
      (.ok (.tried (proposal candidate) n samples bulk :: tested), v) := by
  have htry : ¬ ((proposal candidate).isEmpty || seen.contains (proposal candidate)) = true := by
    simp [hne, hnew]
  rw [tryAll, cleaned_eq h, run_bind_ok (run_lift _ w)]
  rw [if_neg htry]
  have hone : (tryOne sampleSize bulk (proposal candidate)).run w =
      (.ok (.tried (proposal candidate) n samples bulk), u) := by
    unfold tryOne
    rw [run_bind_ok hprobe]
    rfl
  rw [run_bind_ok hone, run_bind_ok hrest, run_pure]

/-- Everything that is proposed and has not been seen yet is tried, at its first place. -/
theorem tries_tryAll (sampleSize : Int) (bulk : Bool) (h : ∀ v ∈ candidates, Proposes v)
    (seen : List String) (w : World) :
    ∃ tested v, (tryAll sampleSize bulk seen candidates).run w = (.ok tested, v) ∧
      Tried sampleSize bulk w ((proposals candidates).removeAll seen).eraseDups tested v := by
  induction candidates generalizing seen w with
  | nil => exact ⟨[], w, rfl, .done⟩
  | cons candidate rest ih =>
    obtain ⟨hcandidate, hrest⟩ := List.forall_mem_cons.1 h
    by_cases hempty : proposal candidate = ""
    · have hsame : proposals (candidate :: rest) = proposals rest := by
        simp [proposals, hempty]
      rw [tryAll_cons_old hcandidate (Or.inl hempty), hsame]
      exact ih hrest seen w
    · have hcons : proposals (candidate :: rest) = proposal candidate :: proposals rest := by
        simp [proposals, hempty]
      rw [hcons]
      by_cases hseen : proposal candidate ∈ seen
      · rw [tryAll_cons_old hcandidate (Or.inr hseen), Text.removeAll_cons_old hseen]
        exact ih hrest seen w
      · obtain ⟨n, samples, u, hprobe, hprobes⟩ := probes_probe sampleSize (proposal candidate) w
        obtain ⟨tested, v, hrun, htried⟩ := ih hrest (proposal candidate :: seen) u
        rw [Text.firsts_removeAll_cons hseen]
        exact ⟨_, v, tryAll_cons_new hcandidate hempty hseen hprobe hrun, .next hprobes htried⟩

/-! ## What is returned -/

/-- Selectors are tried in order, and the candidates that they gave are returned in the order of
their worth. -/
structure Ranks (sampleSize : Int) (bulk : Bool) (order : List String) (w : World)
    (tested ranked : List Candidate) (v : World) : Prop where
  distinct : order.Nodup
  tried : Tried sampleSize bulk w order tested v
  selectors : tested.map (·.selector) = order
  /-- No other calls are made than those for each of the candidates. -/
  calls : v.calls = w.calls ++ tested.flatMap fun c => probeCalls sampleSize c.selector c.count
  perm : ranked.Perm tested
  scored : ∀ c ∈ ranked, c.hundredths = Candidate.score c.selector c.count c.samples bulk
  ordered : ranked.Pairwise fun c d => c.worth ≤ d.worth
  ties : ∀ k, ranked.filter (fun c => c.worth = k) = tested.filter fun c => c.worth = k

theorem Tried.hundredths_eq (h : Tried sampleSize bulk w order tested v) :
    ∀ c ∈ tested, c.hundredths = Candidate.score c.selector c.count c.samples bulk := by
  induction h with
  | done => exact fun c hc => absurd hc List.not_mem_nil
  | next hprobe hrest ih =>
    exact List.forall_mem_cons.2 ⟨Candidate.hundredths_tried _ _ _ _, ih⟩

theorem Tried.ranks (h : Tried sampleSize bulk w order tested v) (hdistinct : order.Nodup) :
    Ranks sampleSize bulk order w tested (Candidate.sort tested) v where
  distinct := hdistinct
  tried := h
  selectors := h.selectors
  calls := h.calls
  perm := Candidate.perm_sort tested
  scored := fun c hc => h.hundredths_eq c ((Candidate.perm_sort tested).mem_iff.1 hc)
  ordered := Candidate.pairwise_sort tested
  ties := Candidate.filter_sort tested

theorem ranks_rank (sampleSize : Int) (bulk : Bool) (h : ∀ v ∈ candidates, Proposes v) (w : World) :
    ∃ tested ranked v, (rank sampleSize bulk candidates).run w = (.ok ranked, v) ∧
      Ranks sampleSize bulk (proposals candidates).eraseDups w tested ranked v := by
  obtain ⟨tested, v, hrun, htried⟩ := tries_tryAll sampleSize bulk h [] w
  rw [List.removeAll_nil] at htried
  refine ⟨tested, Candidate.sort tested, v, ?_, htried.ranks (Text.nodup_firsts _)⟩
  rw [rank, run_map, hrun]
  rfl

theorem length_firsts_proposals_le (candidates : List Value) :
    (proposals candidates).eraseDups.length ≤ candidates.length := by
  have hfew : (proposals candidates).length ≤ candidates.length := by
    have hfilter := List.length_filter_le (· ≠ "") (candidates.map proposal)
    rwa [List.length_map] at hfilter
  have hfirsts : (proposals candidates).eraseDups.Subperm (proposals candidates) :=
    List.Nodup.subperm (Text.nodup_firsts _) fun s => List.mem_eraseDups.1
  exact hfirsts.length_le.trans hfew

/-- Of everything that is proposed each text is tried once, and returned in its place among the
others. What is proposed for a page is limited, and the parts of the selector that failed come
before the patterns of the page. -/
theorem ranks_proposals (sampleSize : Int) (bulk : Bool) (candidates : List Value)
    (h : ∀ v ∈ candidates, Proposes v) (w : World) :
    (∃ tested ranked v, (rank sampleSize bulk candidates).run w = (.ok ranked, v) ∧
      Ranks sampleSize bulk (proposals candidates).eraseDups w tested ranked v) ∧
    ∀ (digest : Option Digest) (failed : Option String) (limit : Nat), ∃ chosen tested ranked v,
      (suggest sampleSize digest failed bulk limit).run w = (.ok ranked, v) ∧
      Candidate.Chosen limit (Candidate.failedParts failed) (Candidate.patternNames digest) chosen ∧
      Ranks sampleSize bulk (proposals (chosen.map .text)).eraseDups w tested ranked v ∧
      ranked.length ≤ limit := by
  refine ⟨ranks_rank sampleSize bulk h w, fun digest failed limit => ?_⟩
  have hchosen := Candidate.chosen_selectors digest failed limit
  have htexts : ∀ v ∈ (Candidate.selectors digest failed limit).map Value.text, Proposes v := by
    intro v hv
    obtain ⟨s, -, rfl⟩ := List.mem_map.1 hv
    exact Or.inl rfl
  obtain ⟨tested, ranked, v, hrun, hranks⟩ := ranks_rank sampleSize bulk htexts w
  refine ⟨_, tested, ranked, v, hrun, hchosen, hranks, ?_⟩
  have hfew := length_firsts_proposals_le ((Candidate.selectors digest failed limit).map .text)
  rw [← hranks.selectors, List.length_map, List.length_map] at hfew
  exact (hranks.perm.length_eq.trans_le hfew).trans hchosen.atMost

/-- Of a list in which one text stands twice and one entry proposes nothing two are tried. -/
theorem ranks_proposals_repeated :
    (∀ v ∈ [.text " li ", .null, .text "li", .text ".card"], Proposes v) ∧
    ∃ tested ranked v,
      (rank 5 true [.text " li ", .null, .text "li", .text ".card"]).run {} = (.ok ranked, v) ∧
      Ranks 5 true ["li", ".card"] {} tested ranked v := by
  have h : ∀ v ∈ [.text " li ", .null, .text "li", .text ".card"], Proposes v := by
    simp [Proposes, Value.isText, Value.truthy]
  have horder : (proposals [.text " li ", .null, .text "li", .text ".card"]).eraseDups =
      ["li", ".card"] := by decide +kernel
  rw [← horder]
  exact ⟨h, (ranks_proposals 5 true [.text " li ", .null, .text "li", .text ".card"] h {}).1⟩

end BrowserFlow.Ranking
