import BrowserFlow.Proofs.Text.Scan
import BrowserFlow.Text.Case

/-!
# Words in any letter case

A word of small letters occurs in the lower-case form of a text exactly if the text holds it in any
letter case (`includes_lower_iff`). This is said of the letters that are the lower-case form of
themselves and their capitals alone. It does not hold of the `k`, which is that of the Kelvin sign
as well, nor of the `i`, with which that of the dotted capital I begins.
-/

namespace BrowserFlow.Text

variable {c d : Char} {before cs word : List Char}

/-! ## Letters -/

/-- A small letter that is the lower-case form of no other characters but itself and its
capital. -/
def isPlainLetter (d : Char) : Bool :=
  97 ≤ d.toNat && d.toNat ≤ 122 && d.toNat != 105 && d.toNat != 107

theorem isPlainLetter_iff : isPlainLetter d = true ↔
    97 ≤ d.toNat ∧ d.toNat ≤ 122 ∧ d.toNat ≠ 105 ∧ d.toNat ≠ 107 := by
  simp only [isPlainLetter, Bool.and_eq_true, decide_eq_true_eq, bne_iff_ne, and_assoc]

theorem lowerChar_ofNat : ∀ n < 128, lowerChar (Char.ofNat n) = (Char.ofNat n).toLower := by
  decide +kernel

/-- Beyond ASCII nothing is a capital of the alphabet. -/
theorem toLower_of_le (h : 128 ≤ c.toNat) : c.toLower = c := by
  have hz : ¬ c.val ≤ 'Z'.val := by
    rw [UInt32.le_iff_toNat_le]
    exact fun hle => absurd (h.trans hle) (by decide)
  unfold Char.toLower
  rw [dif_neg fun hcapital => hz hcapital.2]

/-- The runs of the table beyond ASCII lead past the small letters of the alphabet, but for that of
the Kelvin sign. -/
theorem caseRuns_beyond : ∀ r ∈ caseRuns, r.last < 128 ∨
    (r.first = r.last ∧ (r.first : Int) + r.shift = 107) ∨ 122 < (r.first : Int) + r.shift := by
  decide +kernel

theorem toNat_ofNat {n : Nat} (h : 0 < (Char.ofNat n).toNat) : (Char.ofNat n).toNat = n := by
  unfold Char.ofNat at h ⊢
  by_cases hvalid : n.isValidChar
  · rw [dif_pos hvalid]
    rfl
  · rw [dif_neg hvalid] at h
    exact absurd h (by decide)

theorem lowerChar_eq_iff (h : isPlainLetter d = true) : lowerChar c = d ↔ c.toLower = d := by
  have hbounds := isPlainLetter_iff.1 h
  rcases Nat.lt_or_ge c.toNat 128 with hascii | hbeyond
  · have hsame := lowerChar_ofNat c.toNat hascii
    rw [Char.ofNat_toNat] at hsame
    rw [hsame]
  · refine iff_of_false (fun heq => ?_) (fun heq => ?_)
    · unfold lowerChar at heq
      split at heq
      · rename_i r hfind
        have hin := List.find?_some hfind
        simp only [Bool.and_eq_true, decide_eq_true_eq] at hin
        have hnat := congrArg Char.toNat heq
        rw [toNat_ofNat (by omega)] at hnat
        rcases caseRuns_beyond r (List.mem_of_find?_eq_some hfind) with hrun | hrun | hrun <;> omega
      · rw [heq] at hbeyond
        omega
    · rw [toLower_of_le hbeyond] at heq
      rw [heq] at hbeyond
      omega

/-! ## Words -/

/-- What the first character is made of: its own lower-case form, or characters among which there is
no such letter, and then it goes to none either. -/
theorem lowerFrom_cons (before : List Char) (c : Char) (cs : List Char) :
    ∃ front, lowerFrom before (c :: cs) = front ++ lowerFrom (c :: before) cs ∧
      (front = [lowerChar c] ∨
        (∀ d, isPlainLetter d = true → d ∉ front) ∧ front ≠ [] ∧
          isPlainLetter c.toLower = false) := by
  have hmarks : ∀ e, isPlainLetter e = false → ∀ d, isPlainLetter d = true → e ≠ d := by
    rintro e he d hd rfl
    rw [he] at hd
    cases hd
  rw [lowerFrom]
  refine ⟨_, rfl, ?_⟩
  split
  · rename_i hsigma
    subst hsigma
    right
    split
    · refine ⟨fun d hd hmem => ?_, List.cons_ne_nil _ _, by decide⟩
      exact hmarks _ (by decide) d hd (List.mem_singleton.1 hmem).symm
    · refine ⟨fun d hd hmem => ?_, List.cons_ne_nil _ _, by decide⟩
      exact hmarks _ (by decide) d hd (List.mem_singleton.1 hmem).symm
  · split
    · rename_i hdotted
      subst hdotted
      right
      refine ⟨fun d hd hmem => ?_, List.cons_ne_nil _ _, by decide⟩
      rcases List.mem_pair.1 hmem with rfl | rfl
      · exact hmarks _ (by decide) _ hd rfl
      · exact hmarks _ (by decide) _ hd rfl
    · exact Or.inl rfl

theorem isPrefix_lowerFrom_iff (hword : ∀ d ∈ word, isPlainLetter d = true) :
    word <+: lowerFrom before cs ↔ ∃ part, part <+: cs ∧ part.map Char.toLower = word := by
  induction word generalizing before cs with
  | nil => exact iff_of_true List.nil_prefix ⟨[], List.nil_prefix, rfl⟩
  | cons d word ih =>
    obtain ⟨hd, hrest⟩ := List.forall_mem_cons.1 hword
    cases cs with
    | nil =>
      refine iff_of_false ?_ ?_
      · rw [lowerFrom, List.prefix_nil]
        exact List.cons_ne_nil _ _
      · rintro ⟨part, hpart, hmap⟩
        rw [List.prefix_nil.1 hpart] at hmap
        cases hmap
    | cons c cs =>
      -- a part that is not empty begins with the first character
      have hparts : (∃ part, part <+: c :: cs ∧ part.map Char.toLower = d :: word) ↔
          c.toLower = d ∧ ∃ part, part <+: cs ∧ part.map Char.toLower = word := by
        constructor
        · rintro ⟨part, hpart, hmap⟩
          cases part with
          | nil => cases hmap
          | cons e part =>
            obtain ⟨rfl, hbehind⟩ := List.cons_prefix_cons.1 hpart
            obtain ⟨he, hmap⟩ := List.cons.inj hmap
            exact ⟨he, part, hbehind, hmap⟩
        · rintro ⟨rfl, part, hpart, rfl⟩
          exact ⟨c :: part, List.cons_prefix_cons.2 ⟨rfl, hpart⟩, rfl⟩
      rw [hparts]
      obtain ⟨front, hsplit, rfl | ⟨hfront, hne, hother⟩⟩ := lowerFrom_cons before c cs
      · rw [hsplit, List.singleton_append, List.cons_prefix_cons, ih hrest, eq_comm,
          lowerChar_eq_iff hd]
      · obtain ⟨f, front, rfl⟩ := List.exists_cons_of_ne_nil hne
        rw [hsplit, List.cons_append, List.cons_prefix_cons]
        refine iff_of_false ?_ ?_
        · rintro ⟨rfl, -⟩
          exact hfront d hd List.mem_cons_self
        · rintro ⟨rfl, -⟩
          rw [hother] at hd
          cases hd

theorem isInfix_lowerFrom_iff (hne : word ≠ []) (hword : ∀ d ∈ word, isPlainLetter d = true) :
    word <:+: lowerFrom before cs ↔ ∃ part, part <:+: cs ∧ part.map Char.toLower = word := by
  induction cs generalizing before with
  | nil =>
    refine iff_of_false ?_ ?_
    · rw [lowerFrom, List.infix_nil]
      exact hne
    · rintro ⟨part, hpart, hmap⟩
      rw [List.infix_nil.1 hpart] at hmap
      exact hne hmap.symm
  | cons c cs ih =>
    have hparts : (∃ part, part <:+: c :: cs ∧ part.map Char.toLower = word) ↔
        (∃ part, part <+: c :: cs ∧ part.map Char.toLower = word) ∨
          ∃ part, part <:+: cs ∧ part.map Char.toLower = word := by
      simp only [List.infix_cons_iff, or_and_right, exists_or]
    have hfirst : word <:+: lowerFrom before (c :: cs) ↔
        word <+: lowerFrom before (c :: cs) ∨ word <:+: lowerFrom (c :: before) cs := by
      obtain ⟨front, hsplit, rfl | ⟨hfront, -, -⟩⟩ := lowerFrom_cons before c cs
      · rw [hsplit]
        exact List.infix_cons_iff
      · rw [hsplit]
        constructor
        · intro h
          obtain ⟨d, word, rfl⟩ := List.exists_cons_of_ne_nil hne
          exact Or.inr (isInfix_of_head_not_mem (hfront d (hword d List.mem_cons_self)) h)
        · rintro (h | h)
          · exact h.isInfix
          · exact h.trans (List.suffix_append _ _).isInfix
    rw [hparts, hfirst, isPrefix_lowerFrom_iff hword, ih]

/-- A word of such letters occurs in a text in lower case exactly if the text holds it in some
letter case. -/
theorem includes_lower_iff {s w : String} (hne : w.toList ≠ [])
    (hword : w.toList.all isPlainLetter = true) :
    includes (lower s) w = true ↔
      ∃ part, part <:+: s.toList ∧ part.map Char.toLower = w.toList := by
  rw [includes_iff, lower, String.toList_ofList]
  exact isInfix_lowerFrom_iff hne (List.all_eq_true.1 hword)

end BrowserFlow.Text
