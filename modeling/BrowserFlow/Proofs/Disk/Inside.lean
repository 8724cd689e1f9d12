import BrowserFlow.Proofs.Disk.Bounds
import Mathlib.Logic.Function.Iterate

/-!
# Paths inside a folder

Names without detours lead on from where one is. Any others come to the same as going up a number of
folders and then on by such names (`exists_climbs`). So what a path leads to is told by these two,
and a path that goes on from a folder leads into it only if it comes down again through all the
folders that it went up (`inside_pathIn_iff`).
-/

namespace BrowserFlow.Disk

variable {folder name path n : String} {c : Nat}
  {here names ms ms' ns base base' more : List String}

/-! ## Going up -/

theorem isName_of_ne (hslash : '/' ∉ n.toList) (hskip : ¬ (n == "" || n == ".") = true)
    (hback : ¬ (n == "..") = true) : IsName n := by
  simp only [Bool.or_eq_true, beq_iff_eq, not_or] at hskip hback
  exact ⟨hskip.1, hskip.2, hback, hslash⟩

theorem no_slash_of_mem_namesOf (h : n ∈ namesOf path) : '/' ∉ n.toList := by
  obtain ⟨piece, hpiece, rfl⟩ := List.mem_map.1 h
  rw [String.toList_ofList]
  exact Text.notMem_of_mem_splitChars hpiece

theorem back_name (hn : IsName n) (here : List String) : back (n :: here) = here := by
  have hroot : n ≠ "/" := by
    rintro rfl
    exact hn.no_slash (by decide)
  simp [back, hn.ne_dots, hroot]

theorem back_replicate (k : Nat) :
    back (List.replicate k "..") = List.replicate (k + 1) ".." := by
  cases k with
  | zero => rfl
  | succ k => rfl

theorem iterate_back_replicate (c k : Nat) :
    back^[c] (List.replicate k "..") = List.replicate (k + c) ".." := by
  induction c with
  | zero => rfl
  | succ c ih => rw [Function.iterate_succ_apply', ih, back_replicate, Nat.add_assoc]

theorem iterate_back_root (c : Nat) : back^[c] ["/"] = ["/"] :=
  Function.iterate_fixed rfl c

/-- Names are left behind first. -/
theorem iterate_back_append (hns : ∀ n ∈ ns, IsName n) (c : Nat) (base : List String) :
    back^[c] (ns ++ base) = ns.drop c ++ back^[c - ns.length] base := by
  induction ns generalizing c with
  | nil => simp
  | cons n ns ih =>
    cases c with
    | zero => simp
    | succ c =>
      rw [List.cons_append, Function.iterate_succ_apply, back_name (hns n List.mem_cons_self),
        ih fun m hm => hns m (List.mem_cons_of_mem _ hm)]
      simp

/-- Names come to the same as going up some folders and then on, wherever one is. -/
theorem exists_trailFrom_eq (hslash : ∀ n ∈ names, '/' ∉ n.toList) :
    ∃ c ms, (∀ n ∈ ms, IsName n) ∧ ∀ here, trailFrom here names = ms ++ back^[c] here := by
  induction names using List.reverseRecOn with
  | nil => exact ⟨0, [], by simp, fun _ => rfl⟩
  | append_singleton names n ih =>
    obtain ⟨c, ms, hms, htrail⟩ := ih fun m hm => hslash m (List.mem_append_left _ hm)
    have hn : '/' ∉ n.toList := hslash n (by simp)
    have hlast : ∀ here, trailFrom here (names ++ [n]) = trailFrom (ms ++ back^[c] here) [n] := by
      intro here
      rw [trailFrom_append, htrail]
    by_cases hskip : (n == "" || n == ".") = true
    · refine ⟨c, ms, hms, fun here => ?_⟩
      rw [hlast, trailFrom, if_pos hskip]
      rfl
    by_cases hback : (n == "..") = true
    · have hup : ∀ here, trailFrom here (names ++ [n]) = back (ms ++ back^[c] here) := by
        intro here
        rw [hlast, trailFrom, if_neg hskip, if_pos hback]
        rfl
      -- the last name is left behind, or there is none and one goes up further
      cases ms with
      | nil => exact ⟨c + 1, [], by simp, fun here => by
          rw [hup, Function.iterate_succ_apply']
          rfl⟩
      | cons m ms => exact ⟨c, ms, fun x hx => hms x (List.mem_cons_of_mem _ hx), fun here => by
          rw [hup, List.cons_append, back_name (hms m List.mem_cons_self)]⟩
    · refine ⟨c, n :: ms, ?_, fun here => ?_⟩
      · intro m hm
        rcases List.mem_cons.1 hm with rfl | hm
        · exact isName_of_ne hn hskip hback
        · exact hms m hm
      · rw [hlast, trailFrom_name (isName_of_ne hn hskip hback)]
        rfl

/-! ## Names at the end -/

/-- The names that a place ends in, behind the last two dots or the root. -/
def within (here : List String) : List String :=
  here.takeWhile fun n => decide (IsName n)

theorem within_append (hms : ∀ n ∈ ms, IsName n) (hbase : ∀ n ∈ base, ¬ IsName n) :
    within (ms ++ base) = ms := by
  have hnone : base.takeWhile (fun n => decide (IsName n)) = [] := by
    cases base with
    | nil => rfl
    | cons n rest =>
      rw [List.takeWhile_cons, if_neg (by simpa using hbase n List.mem_cons_self)]
  unfold within
  rw [List.takeWhile_append_of_pos (by simpa using hms), hnone, List.append_nil]

/-- What names end in and what they begin with can be told from one another. -/
theorem append_inj_of_names (hms : ∀ n ∈ ms, IsName n) (hms' : ∀ n ∈ ms', IsName n)
    (hbase : ∀ n ∈ base, ¬ IsName n) (hbase' : ∀ n ∈ base', ¬ IsName n) :
    ms ++ base = ms' ++ base' ↔ ms = ms' ∧ base = base' := by
  constructor
  · intro h
    have hnames : ms = ms' := by
      rw [← within_append hms hbase, h, within_append hms' hbase']
    subst hnames
    exact ⟨rfl, List.append_cancel_left h⟩
  · rintro ⟨rfl, rfl⟩
    rfl

theorem not_isName_of_mem_replicate {k : Nat} (h : n ∈ List.replicate k "..") : ¬ IsName n := by
  rw [List.eq_of_mem_replicate h]
  decide

theorem not_isName_of_mem_root (h : n ∈ ["/"]) : ¬ IsName n := by
  rw [List.mem_singleton.1 h]
  decide

/-- A path leads by names from the root, or from some folder around the current one. -/
theorem exists_trail_eq (path : String) :
    ∃ base, trail path = within (trail path) ++ base ∧ (∀ n ∈ within (trail path), IsName n) ∧
      (Text.beginsWith path "/" = true ∧ base = ["/"] ∨
        Text.beginsWith path "/" = false ∧ ∃ k, base = List.replicate k "..") := by
  obtain ⟨c, ms, hms, htrail⟩ :=
    exists_trailFrom_eq fun n (hn : n ∈ namesOf path) => no_slash_of_mem_namesOf hn
  cases hroot : Text.beginsWith path "/" with
  | true =>
    have hpath : trail path = ms ++ ["/"] := by
      unfold trail
      rw [hroot, if_pos rfl, htrail, iterate_back_root]
    have hwithin : within (trail path) = ms := by
      rw [hpath, within_append hms fun n => not_isName_of_mem_root]
    rw [hwithin]
    exact ⟨["/"], hpath, hms, Or.inl ⟨rfl, rfl⟩⟩
  | false =>
    have hpath : trail path = ms ++ List.replicate c ".." := by
      have hup := iterate_back_replicate c 0
      rw [Nat.zero_add] at hup
      unfold trail
      rw [hroot, if_neg Bool.false_ne_true, htrail, ← hup]
      rfl
    have hwithin : within (trail path) = ms := by
      rw [hpath, within_append hms fun n => not_isName_of_mem_replicate]
    rw [hwithin]
    exact ⟨_, hpath, hms, Or.inr ⟨rfl, c, rfl⟩⟩

/-! ## Into a folder -/

/-- A path leads where a folder leads, and on by names. -/
def Inside (folder path : String) : Prop :=
  ∃ more, more ≠ [] ∧ (∀ n ∈ more, IsName n) ∧ trail path = more ++ trail folder

theorem inside_of_isName (hn : IsName n) (folder : String) : Inside folder (pathIn folder n) :=
  ⟨[n], List.cons_ne_nil _ _, by simpa using hn, trail_pathIn hn folder⟩

/-- A relative path goes up some folders and then on by names, given from the last to the first. -/
structure Climbs (path : String) (c : Nat) (ms : List String) : Prop where
  names : ∀ n ∈ ms, IsName n
  trail : trailFrom [] (namesOf path) = ms ++ List.replicate c ".."

theorem Climbs.trailFrom (h : Climbs name c ms) (here : List String) :
    trailFrom here (namesOf name) = ms ++ back^[c] here := by
  obtain ⟨c', ms', hms', htrail⟩ :=
    exists_trailFrom_eq fun n (hn : n ∈ namesOf name) => no_slash_of_mem_namesOf hn
  have hup := iterate_back_replicate c' 0
  rw [Nat.zero_add] at hup
  have hfrom : ms ++ List.replicate c ".." = ms' ++ List.replicate c' ".." := by
    rw [← h.trail, htrail, ← hup]
    rfl
  obtain ⟨rfl, hc⟩ := (append_inj_of_names h.names hms' (fun n => not_isName_of_mem_replicate)
    fun n => not_isName_of_mem_replicate).1 hfrom
  rw [htrail, List.replicate_left_inj.1 hc]

theorem Climbs.unique {c' : Nat} (h : Climbs name c ms) (h' : Climbs name c' ms') :
    c = c' ∧ ms = ms' := by
  obtain ⟨hms, hc⟩ := (append_inj_of_names h.names h'.names
    (fun n => not_isName_of_mem_replicate) fun n => not_isName_of_mem_replicate).1
      (h.trail.symm.trans h'.trail)
  exact ⟨List.replicate_left_inj.1 hc, hms⟩

theorem exists_climbs (name : String) : ∃ c ms, Climbs name c ms := by
  obtain ⟨c, ms, hms, htrail⟩ :=
    exists_trailFrom_eq fun n (hn : n ∈ namesOf name) => no_slash_of_mem_namesOf hn
  have hup := iterate_back_replicate c 0
  rw [Nat.zero_add] at hup
  refine ⟨c, ms, hms, ?_⟩
  rw [htrail, ← hup]
  rfl

/-- A relative path goes on from the folder. -/
theorem trail_pathIn_relative (hrelative : Text.beginsWith name "/" = false) (folder : String) :
    trail (pathIn folder name) = trailFrom (trail folder) (namesOf name) := by
  obtain ⟨names, hpath, hfolder, hstart⟩ := namesOf_pathIn_relative hrelative folder
  unfold trail
  rw [hpath, hstart, trailFrom_append]
  rcases hfolder with hfolder | hfolder
  · rw [hfolder]
  · rw [hfolder, trailFrom_append]
    rfl

/-- The folder plays no part for an absolute path. -/
theorem pathIn_absolute (habsolute : Text.beginsWith name "/" = true) (folder : String) :
    pathIn folder name = name := by
  unfold pathIn
  rw [habsolute, Bool.or_true, if_pos rfl]

/-- A name that is given stays inside a folder. It is absolute and leads there by itself, or it goes
up no further than the folder lies below the current one or the root, comes down through the same
folders and goes on. -/
def StaysIn (folder name : String) : Prop :=
  if Text.beginsWith name "/" then Inside folder name
  else ∃ c more, more ≠ [] ∧ Climbs name c (more ++ (within (trail folder)).take c) ∧
    (c ≤ (within (trail folder)).length ∨ Text.beginsWith folder "/" = true)

/-- Going up from a place and on leads into it if what is gone on by comes down again first, and
nothing in front of the place has been left. -/
theorem append_iterate_back_eq_iff (hms : ∀ n ∈ ms, IsName n) (hmore : ∀ n ∈ more, IsName n)
    (hns : ∀ n ∈ ns, IsName n) (hbase : ∀ n ∈ base, ¬ IsName n)
    (hup : ∀ c, ∀ n ∈ back^[c] base, ¬ IsName n) (c : Nat) :
    ms ++ back^[c] (ns ++ base) = more ++ (ns ++ base) ↔
      ms = more ++ ns.take c ∧ back^[c - ns.length] base = base := by
  have hdrop : ∀ n ∈ ms ++ ns.drop c, IsName n := by
    intro n hn
    rcases List.mem_append.1 hn with hn | hn
    · exact hms n hn
    · exact hns n (List.mem_of_mem_drop hn)
  have hall : ∀ n ∈ more ++ ns, IsName n := by
    intro n hn
    rcases List.mem_append.1 hn with hn | hn
    · exact hmore n hn
    · exact hns n hn
  have hdown : ms ++ ns.drop c = more ++ ns ↔ ms = more ++ ns.take c := by
    have hsplit : more ++ ns = more ++ ns.take c ++ ns.drop c := by
      rw [List.append_assoc, List.take_append_drop]
    rw [hsplit, List.append_left_inj]
  rw [iterate_back_append hns, ← List.append_assoc, ← List.append_assoc,
    append_inj_of_names hdrop hall (hup _) hbase, hdown]

/-- Exactly the names that stay inside a folder lead into it. -/
theorem inside_pathIn_iff (folder name : String) :
    Inside folder (pathIn folder name) ↔ StaysIn folder name := by
  unfold StaysIn
  cases hroot : Text.beginsWith name "/" with
  | true => rw [if_pos rfl, pathIn_absolute hroot]
  | false =>
    rw [if_neg Bool.false_ne_true]
    obtain ⟨base, hfolder, hns, hbase⟩ := exists_trail_eq folder
    obtain ⟨c, ms, hclimbs⟩ := exists_climbs name
    unfold Inside
    rw [trail_pathIn_relative hroot, hclimbs.trailFrom]
    generalize within (trail folder) = ns at hfolder hns
    rw [hfolder]
    obtain ⟨hup, hsame⟩ : (∀ c, ∀ n ∈ back^[c] base, ¬ IsName n) ∧
        (back^[c - ns.length] base = base ↔
          c ≤ ns.length ∨ Text.beginsWith folder "/" = true) := by
      rcases hbase with ⟨habsolute, rfl⟩ | ⟨hrelative, k, rfl⟩
      · refine ⟨fun c n hn => ?_, iff_of_true (iterate_back_root _) (Or.inr habsolute)⟩
        rw [iterate_back_root] at hn
        exact not_isName_of_mem_root hn
      · refine ⟨fun c n hn => ?_, ?_⟩
        · rw [iterate_back_replicate] at hn
          exact not_isName_of_mem_replicate hn
        · rw [iterate_back_replicate, List.replicate_left_inj, hrelative]
          simp only [Bool.false_eq_true, or_false]
          omega
    constructor
    · rintro ⟨more, hne, hmore, h⟩
      obtain ⟨rfl, hback⟩ :=
        (append_iterate_back_eq_iff hclimbs.names hmore hns (hup 0) hup c).1 h
      exact ⟨c, more, hne, hclimbs, hsame.1 hback⟩
    · rintro ⟨c', more, hne, hclimbs', hreach⟩
      obtain ⟨rfl, rfl⟩ := hclimbs.unique hclimbs'
      have hmore : ∀ n ∈ more, IsName n := fun n hn =>
        hclimbs.names n (List.mem_append_left _ hn)
      exact ⟨more, hne, hmore,
        (append_iterate_back_eq_iff hclimbs.names hmore hns (hup 0) hup c).2
          ⟨rfl, hsame.2 hreach⟩⟩

end BrowserFlow.Disk
