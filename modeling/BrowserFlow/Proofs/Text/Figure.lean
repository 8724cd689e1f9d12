import BrowserFlow.Value.Whole

/-!
# Figures and numerals

A text of figures is a numeral only if each of them has a place value. Figures are neither blanks
nor signs nor letters (`code_of_isFigure`), so nothing of such a text is taken for anything but a
digit: it is read digit by digit (`wholeDigits?_of_figures`), and what it is read as is told by
`wholeOfText_of_figures`.
-/

namespace BrowserFlow

namespace Text

variable {c : Char}

/-! ## Where figures lie -/

theorem mem_of_inRanges {n : Nat} {ranges : List (Nat × Nat)} (h : inRanges n ranges = true) :
    ∃ r ∈ ranges, r.1 ≤ n ∧ n ≤ r.2 := by
  induction ranges with
  | nil => cases h
  | cons r rest ih =>
    unfold inRanges at h
    split at h
    · cases h
    · rename_i hlow
      rcases Bool.or_eq_true_iff.1 h with hhigh | hlater
      · exact ⟨r, List.mem_cons_self, Nat.not_lt.1 hlow, of_decide_eq_true hhigh⟩
      · obtain ⟨s, hs, hbounds⟩ := ih hlater
        exact ⟨s, List.mem_cons_of_mem _ hs, hbounds⟩

theorem digitValue?_bounds {d : Nat} (h : digitValue? c = some d) :
    d < 10 ∧ ∃ z ∈ zeros, c.toNat = z + d := by
  obtain ⟨z, hz, rfl⟩ := Option.map_eq_some_iff.1 h
  have hbounds := List.find?_some hz
  rw [Bool.and_eq_true, decide_eq_true_eq, decide_eq_true_eq] at hbounds
  exact ⟨by omega, z, List.mem_of_find?_eq_some hz, by omega⟩

/-- There are place values exactly if all characters have one. -/
theorem mapM_digitValue?_eq_none_iff {cs : List Char} :
    cs.mapM digitValue? = none ↔ ∃ c ∈ cs, isDecimal c = false := by
  induction cs with
  | nil => simp
  | cons c rest ih =>
    simp only [List.mem_cons, exists_eq_or_imp, ← ih]
    rw [List.mapM_cons]
    unfold isDecimal
    cases digitValue? c with
    | none => simp
    | some d => cases rest.mapM digitValue? <;> simp

theorem length_of_mapM_digitValue? {cs : List Char} {ds : List Nat}
    (h : cs.mapM digitValue? = some ds) : ds.length = cs.length := by
  induction cs generalizing ds with
  | nil =>
    cases h
    rfl
  | cons c rest ih =>
    rw [List.mapM_cons] at h
    obtain ⟨d, -, h⟩ := Option.bind_eq_some_iff.1 h
    obtain ⟨others, hothers, h⟩ := Option.bind_eq_some_iff.1 h
    cases h
    rw [List.length_cons, List.length_cons, ih hothers]

/-- Figures are apart from white space, from signs and from the letters. -/
theorem code_of_isFigure (h : isFigure c = true) :
    (0x30 ≤ c.toNat ∧ c.toNat ≤ 0x39) ∨ (0xB2 ≤ c.toNat ∧ c.toNat ≤ 0x1371) ∨
      (0x17E0 ≤ c.toNat ∧ c.toNat ≤ 0x1C59) ∨ (0x2070 ≤ c.toNat ∧ c.toNat ≤ 0x2792) ∨
      0xA620 ≤ c.toNat := by
  have hzeros : ∀ z ∈ zeros, z = 0x30 ∨ (0x660 ≤ z ∧ z ≤ 0x1090) ∨
      (0x17E0 ≤ z ∧ z ≤ 0x1C50) ∨ 0xA620 ≤ z := by decide
  have hfigures : ∀ r ∈ figureChars.ranges, (0xB2 ≤ r.1 ∧ r.2 ≤ 0x1371) ∨
      (0x19DA ≤ r.1 ∧ r.2 ≤ 0x19DA) ∨ (0x2070 ≤ r.1 ∧ r.2 ≤ 0x2792) ∨ 0x10A40 ≤ r.1 := by
    decide
  rcases Bool.or_eq_true_iff.1 h with hdecimal | hfigure
  · obtain ⟨d, hd⟩ := Option.isSome_iff_exists.1 hdecimal
    obtain ⟨hten, z, hz, hcode⟩ := digitValue?_bounds hd
    have := hzeros z hz
    omega
  · obtain ⟨r, hr, hlow, hhigh⟩ := mem_of_inRanges hfigure
    have := hfigures r hr
    omega

theorem isFigures_iff {s : String} :
    isFigures s = true ↔ s.toList ≠ [] ∧ ∀ c ∈ s.toList, isFigure c = true := by
  simp [isFigures]

theorem isBlank_of_isFigure (h : isFigure c = true) : isBlank c = false := by
  have hcode := code_of_isFigure h
  rw [← Bool.not_eq_true]
  intro hblank
  simp only [isBlank, Bool.or_eq_true, Bool.and_eq_true, decide_eq_true_eq, beq_iff_eq] at hblank
  omega

end Text

namespace Decimal

open Text

variable {c : Char} {cs : List Char} {s : String}

/-! ## Texts of figures -/

/-- A digit to the base ten is a decimal digit. -/
theorem digitIn?_ten (h : isFigure c = true) : digitIn? 10 c = digitValue? c := by
  have hcode := code_of_isFigure h
  have hletter : ∀ lo hi : Char, 0x41 ≤ lo.toNat → hi.toNat ≤ 0x66 →
      ¬ (lo ≤ c && c ≤ hi) = true := by
    intro lo hi hlo hhi hin
    rw [Bool.and_eq_true, decide_eq_true_eq, decide_eq_true_eq] at hin
    have hlow : lo.toNat ≤ c.toNat := hin.1
    have hhigh : c.toNat ≤ hi.toNat := hin.2
    omega
  unfold digitIn?
  rw [if_neg (hletter 'a' 'f' (by decide) (by decide)),
    if_neg (hletter 'A' 'F' (by decide) (by decide))]
  dsimp only
  cases hvalue : digitValue? c with
  | none => rfl
  | some d => exact Option.filter_some_pos (by simpa using (digitValue?_bounds hvalue).1)

theorem digitRun?_of_figures (h : ∀ c ∈ cs, isFigure c = true) {ready : Bool}
    (hready : ready = true ∨ cs ≠ []) : digitRun? 10 ready cs = cs.mapM digitValue? := by
  induction cs generalizing ready with
  | nil =>
    rw [hready.resolve_right fun hne => hne rfl]
    rfl
  | cons c rest ih =>
    have hfigure : isFigure c = true := h c List.mem_cons_self
    have hbar : c ≠ '_' := by
      rintro rfl
      exact absurd hfigure (by decide)
    have hrest : digitRun? 10 true rest = rest.mapM digitValue? :=
      ih (fun d hd => h d (List.mem_cons_of_mem _ hd)) (Or.inl rfl)
    unfold digitRun?
    rw [if_neg hbar, digitIn?_ten hfigure, hrest, List.mapM_cons]

theorem trimNumeral_of_figures (h : ∀ c ∈ cs, isFigure c = true) : trimNumeral cs = cs := by
  have hkept : ∀ ds : List Char, (∀ c ∈ ds, isFigure c = true) →
      ds.dropWhile isNumeralBlank = ds := by
    intro ds hds
    cases ds with
    | nil => rfl
    | cons d rest =>
      have hblank := isBlank_of_isFigure (hds d List.mem_cons_self)
      simp [isNumeralBlank, hblank]
  unfold trimNumeral dropEndWhile
  rw [hkept cs h, hkept cs.reverse fun c hc => h c (List.mem_reverse.1 hc), List.reverse_reverse]

theorem signed_of_figures (h : ∀ c ∈ cs, isFigure c = true) : signed cs = (false, cs) := by
  unfold signed
  split
  · exact absurd (h '-' List.mem_cons_self) (by decide)
  · exact absurd (h '+' List.mem_cons_self) (by decide)
  · rfl

/-- Numbers to the base ten have no mark. -/
theorem unmarked_ten (cs : List Char) : unmarked 10 cs = cs := by
  unfold unmarked
  split <;> rfl

/-- Nothing around figures is left out, and none of them is a sign or the mark of a base. -/
theorem wholeDigits?_of_figures (h : isFigures s = true) :
    wholeDigits? 10 s = (s.toList.mapM digitValue?).map (false, ·) := by
  obtain ⟨hne, hall⟩ := isFigures_iff.1 h
  unfold wholeDigits?
  rw [trimNumeral_of_figures hall, signed_of_figures hall]
  dsimp only
  rw [unmarked_ten, digitRun?_of_figures hall (Or.inr hne)]
  cases s.toList.mapM digitValue? <;> rfl

/-- A text of figures is a number if each of them has a place value and they are not too many. -/
theorem wholeOfText_of_figures (h : isFigures s = true) (literal : String) :
    wholeOfText 10 s literal =
      match s.toList.mapM digitValue? with
      | none => .error (.numeral 10 literal)
      | some ds =>
        if 4300 < ds.length then .error (.tooLong ds.length) else .ok (ofDigits 10 ds : Nat) := by
  unfold wholeOfText
  rw [wholeDigits?_of_figures h]
  cases s.toList.mapM digitValue? with
  | none => rfl
  | some ds => simp [withSign]

end Decimal

end BrowserFlow
