import BrowserFlow.Json.Reader
import BrowserFlow.Proofs.Outcomes

/-!
# How far a string or a number is read

A string is read as far as its closing quote and a number as far as its last digit. Whatever stands
behind it makes no difference, as long as it does not go on with the number. So the characters that
were read can be cut out and put before others, and the same is read of them: `stringTail_closes`
and `number_local` give these characters.

The one place where the reader looks further is behind the first half of a pair of units. There it
looks at what the string goes on with, and a string that is closed holds the whole of that
(`Closes.lowHalf?`).
-/

namespace BrowserFlow.Json

/-! ## White space -/

theorem skipSpace_append {ws : List Char} (h : ∀ c ∈ ws, isSpace c = true) (cs : List Char) :
    skipSpace (ws ++ cs) = skipSpace cs :=
  List.dropWhile_append_of_pos h

theorem skipSpace_cons {c : Char} (h : isSpace c = false) (cs : List Char) :
    skipSpace (c :: cs) = c :: cs := by
  unfold skipSpace
  rw [List.dropWhile_cons, if_neg (by rw [h]; exact Bool.false_ne_true)]

/-- What stands before the first character that is not white space. -/
theorem skipSpace_eq_cons {cs rest : List Char} {c : Char} (h : skipSpace cs = c :: rest) :
    ∃ ws, cs = ws ++ c :: rest ∧ (∀ d ∈ ws, isSpace d = true) ∧ isSpace c = false := by
  unfold skipSpace at h
  refine ⟨cs.takeWhile isSpace, ?_, fun d hd => ?_, ?_⟩
  · rw [← h]
    exact (List.takeWhile_append_dropWhile).symm
  · exact List.all_eq_true.mp List.all_takeWhile d hd
  · have hnot := List.head?_dropWhile_not isSpace cs
    rw [h] at hnot
    exact hnot

theorem skipSpace_split (cs : List Char) :
    ∃ ws, cs = ws ++ skipSpace cs ∧ ∀ c ∈ ws, isSpace c = true :=
  ⟨cs.takeWhile isSpace, List.takeWhile_append_dropWhile.symm,
    List.all_eq_true.mp List.all_takeWhile⟩

theorem skipSpace_skipSpace (cs : List Char) : skipSpace (skipSpace cs) = skipSpace cs := by
  cases h : skipSpace cs with
  | nil => rfl
  | cons c rest =>
    obtain ⟨-, -, -, hc⟩ := skipSpace_eq_cons h
    exact skipSpace_cons hc rest

/-- Behind a body that does not close a list at once nothing else makes it do so. -/
theorem skipSpace_body {body rest : List Char} {c : Char} (hc : isSpace c = false)
    (h : ∀ after, skipSpace (body ++ c :: rest) ≠ c :: after) (tail after : List Char) :
    skipSpace (body ++ c :: tail) ≠ c :: after := by
  cases hbody : skipSpace body with
  | nil =>
    have hspaces : ∀ d ∈ body, isSpace d = true := by
      have hsplit : body.takeWhile isSpace ++ skipSpace body = body :=
        List.takeWhile_append_dropWhile
      rw [hbody, List.append_nil] at hsplit
      rw [← hsplit]
      exact List.all_eq_true.mp List.all_takeWhile
    refine absurd ?_ (h rest)
    rw [skipSpace_append hspaces, skipSpace_cons hc]
  | cons d more =>
    obtain ⟨ws, rfl, hws, hd⟩ := skipSpace_eq_cons hbody
    have hfront : ∀ x, skipSpace (ws ++ d :: more ++ x) = d :: (more ++ x) := by
      intro x
      rw [List.append_assoc, skipSpace_append hws, List.cons_append, skipSpace_cons hd]
    rw [hfront]
    rintro ⟨⟩
    exact h (more ++ c :: rest) (hfront _)

theorem isSpace_iff {c : Char} : isSpace c = true ↔ c ∈ [' ', '\t', '\n', '\r'] := by
  simp [isSpace, or_assoc]

/-! ## Strings -/

theorem unit?_eq_some {cs after : List Char} {n : Nat} (h : unit? cs = some (n, after)) :
    ∃ a b c d, cs = a :: b :: c :: d :: after ∧
      ∀ tail, unit? (a :: b :: c :: d :: tail) = some (n, tail) := by
  unfold unit? at h
  split at h
  · rename_i a b c d rest
    obtain ⟨digits, hdigits, hn⟩ := Option.bind_eq_some_iff.mp h
    cases hn
    refine ⟨a, b, c, d, rfl, fun tail => ?_⟩
    unfold unit?
    exact Option.bind_eq_some_iff.mpr ⟨digits, hdigits, rfl⟩
  · cases h

/-- The rest of a string is read as far as its closing quote, whatever follows. -/
def Closes (used s : List Char) : Prop :=
  ∀ fuel tail, used.length ≤ fuel → stringTail fuel (used ++ tail) = .ok (s, tail)

theorem closes_quote : Closes ['"'] [] := by
  intro fuel tail hfuel
  cases fuel with
  | zero => cases hfuel
  | succ fuel => rfl

theorem Closes.cons {taken used s : List Char} {c : Char} (hused : Closes used s)
    (htaken : 0 < taken.length)
    (h : ∀ fuel tail, stringTail (fuel + 1) (taken ++ (used ++ tail)) =
      (stringTail fuel (used ++ tail) >>= fun p => pure (c :: p.1, p.2))) :
    Closes (taken ++ used) (c :: s) := by
  intro fuel tail hfuel
  rw [List.length_append] at hfuel
  obtain ⟨fuel, rfl⟩ : ∃ n, fuel = n + 1 := ⟨fuel - 1, by omega⟩
  rw [List.append_assoc, h, hused fuel tail (by omega)]
  rfl

/-- A string that is closed holds the whole of its first escape. -/
theorem Closes.shape {used s : List Char} (h : Closes used s) :
    (∃ c rest, used = c :: rest ∧ c ≠ '\\') ∨
    (∃ c rest, used = '\\' :: c :: rest ∧ c ≠ 'u') ∨
    ∃ rest p, used = '\\' :: 'u' :: rest ∧ unit? rest = some p := by
  have hread := h used.length [] (Nat.le_refl _)
  rw [List.append_nil] at hread
  cases used with
  | nil => cases hread
  | cons c rest =>
    by_cases hc : c = '\\'
    · subst hc
      cases rest with
      | nil => cases hread
      | cons d rest =>
        by_cases hd : d = 'u'
        · subst hd
          cases hunit : unit? rest with
          | none =>
            rw [List.length_cons, stringTail, hunit] at hread
            cases hread
          | some p => exact Or.inr (Or.inr ⟨rest, p, rfl, hunit⟩)
        · exact Or.inr (Or.inl ⟨d, rest, rfl, hd⟩)
    · exact Or.inl ⟨c, rest, rfl, hc⟩

/-- The second unit of a pair, if there is one at the front. -/
def lowHalf? : List Char → Option (Nat × List Char)
  | '\\' :: 'u' :: rest => (unit? rest).filter fun p => 0xDC00 ≤ p.1 && p.1 < 0xE000
  | _ => none

theorem unitChar_eq (first : Nat) (cs : List Char) :
    unitChar first cs =
      if 0xD800 ≤ first && first < 0xDC00 then
        match lowHalf? cs with
        | some (second, after) =>
          (Char.ofNat (0x10000 + (first - 0xD800) * 0x400 + (second - 0xDC00)), after)
        | none => ('\uFFFD', cs)
      else (if 0xDC00 ≤ first && first < 0xE000 then '\uFFFD' else Char.ofNat first, cs) := by
  unfold unitChar
  split
  · split
    · rename_i rest
      have hescape : lowHalf? ('\\' :: 'u' :: rest) =
          (unit? rest).filter fun p => 0xDC00 ≤ p.1 && p.1 < 0xE000 := rfl
      rw [hescape]
      cases unit? rest with
      | none => rfl
      | some p =>
        rw [Option.filter_some]
        dsimp only
        split
        · rfl
        · rfl
    · rename_i hother
      have hnone : lowHalf? cs = none := by
        unfold lowHalf?
        split
        · exact (hother _ rfl).elim
        · rfl
      rw [hnone]
  · split
    · rfl
    · rfl

theorem lowHalf?_eq_some {cs after : List Char} {n : Nat} (h : lowHalf? cs = some (n, after)) :
    ∃ taken, cs = taken ++ after ∧ ∀ tail, lowHalf? (taken ++ tail) = some (n, tail) := by
  unfold lowHalf? at h
  split at h
  · obtain ⟨hunit, hlow⟩ := Option.filter_eq_some_iff.mp h
    obtain ⟨a, b, c, d, rfl, htail⟩ := unit?_eq_some hunit
    refine ⟨['\\', 'u', a, b, c, d], rfl, fun tail => ?_⟩
    exact Option.filter_eq_some_iff.mpr ⟨htail tail, hlow⟩
  · cases h

/-- A string that is closed holds the whole of a unit at its front. -/
theorem Closes.lowHalf? {used s : List Char} (h : Closes used s) (tail : List Char) :
    lowHalf? (used ++ tail) = (lowHalf? used).map fun p => (p.1, p.2 ++ tail) := by
  rcases h.shape with ⟨c, rest, rfl, hc⟩ | ⟨c, rest, rfl, hc⟩ | ⟨rest, ⟨n, after⟩, rfl, hunit⟩
  · simp [Json.lowHalf?, hc]
  · simp [Json.lowHalf?, hc]
  · obtain ⟨a, b, c, d, rfl, htail⟩ := unit?_eq_some hunit
    have hread := htail (after ++ tail)
    simp only [List.cons_append, Json.lowHalf?, hunit, hread, Option.filter_some]
    split
    · rfl
    · rfl

/-- What is read of a unit depends on what follows it only as far as the string goes. -/
theorem unitChar_closes {first : Nat} {after used s rest : List Char} {c : Char}
    (h : unitChar first after = (c, used ++ rest)) (hused : Closes used s) :
    ∃ taken, after = taken ++ (used ++ rest) ∧
      ∀ tail, unitChar first (taken ++ (used ++ tail)) = (c, used ++ tail) := by
  rw [unitChar_eq] at h
  by_cases hhigh : (0xD800 ≤ first && first < 0xDC00) = true
  · rw [if_pos hhigh] at h
    cases hlow : lowHalf? after with
    | some p =>
      obtain ⟨low, behind⟩ := p
      rw [hlow] at h
      obtain ⟨hc, rfl⟩ := Prod.mk.inj h
      obtain ⟨taken, htaken, htail⟩ := lowHalf?_eq_some hlow
      refine ⟨taken, htaken, fun tail => ?_⟩
      rw [unitChar_eq, if_pos hhigh, htail, ← hc]
    | none =>
      rw [hlow] at h
      obtain ⟨hc, rfl⟩ := Prod.mk.inj h
      rw [hused.lowHalf?, Option.map_eq_none_iff] at hlow
      refine ⟨[], rfl, fun tail => ?_⟩
      rw [List.nil_append, unitChar_eq, if_pos hhigh, hused.lowHalf?, hlow, ← hc]
      rfl
  · rw [if_neg hhigh] at h
    obtain ⟨hc, rfl⟩ := Prod.mk.inj h
    refine ⟨[], rfl, fun tail => ?_⟩
    rw [List.nil_append, unitChar_eq, if_neg hhigh, hc]

/-- A string is read as far as its closing quote. -/
theorem stringTail_closes {fuel : Nat} {cs s rest : List Char}
    (h : stringTail fuel cs = .ok (s, rest)) : ∃ used, cs = used ++ rest ∧ Closes used s := by
  fun_induction stringTail fuel cs generalizing s rest with
  | case1 | case2 | case4 | case6 | case8 => cases h
  | case3 fuel after =>
    cases h
    exact ⟨['"'], rfl, closes_quote⟩
  | case5 fuel more first after hunit c kept hchar ih =>
    obtain ⟨⟨s', rest'⟩, hread, hs⟩ := bind_eq_ok h
    cases hs
    obtain ⟨used, rfl, hused⟩ := ih hread
    obtain ⟨taken, rfl, htail⟩ := unitChar_closes hchar hused
    obtain ⟨a, b, c', d, rfl, hunits⟩ := unit?_eq_some hunit
    refine ⟨['\\', 'u', a, b, c', d] ++ taken ++ used, by simp, ?_⟩
    refine hused.cons (by simp) fun fuel tail => ?_
    simp [stringTail, hunits, htail]
  | case7 fuel c more hc d hletter ih =>
    obtain ⟨⟨s', rest'⟩, hread, hs⟩ := bind_eq_ok h
    cases hs
    obtain ⟨used, rfl, hused⟩ := ih hread
    refine ⟨['\\', c] ++ used, rfl, hused.cons (by simp) fun fuel tail => ?_⟩
    simp [stringTail, hletter]
  | case9 fuel c more hquote hunit hescape hplain ih =>
    obtain ⟨⟨s', rest'⟩, hread, hs⟩ := bind_eq_ok h
    cases hs
    obtain ⟨used, rfl, hused⟩ := ih hread
    refine ⟨[c] ++ used, rfl, hused.cons (by simp) fun fuel tail => ?_⟩
    rw [List.singleton_append, stringTail, if_neg hplain]
    · exact hquote
    · intro rest hc
      simp [hc] at hplain
    · intro d rest hc
      simp [hc] at hplain

/-! ## Numbers -/

/-- No digit and none of some marks is next. -/
def Ends (marks cs : List Char) : Prop :=
  ∀ c rest, cs = c :: rest → isDigit c = false ∧ c ∉ marks

theorem Ends.mono {marks more cs : List Char} (h : Ends more cs) (hsub : marks ⊆ more) :
    Ends marks cs := by
  intro c rest hcs
  obtain ⟨hdigit, hmark⟩ := h c rest hcs
  exact ⟨hdigit, fun hmem => hmark (hsub hmem)⟩

/-- A part of a number that is not there, or that begins with a mark, does not change what ends the
part before it. -/
theorem Ends.append {marks begins used tail : List Char} (h : Ends marks tail)
    (hused : used = [] ∨ ∃ c rest, used = c :: rest ∧ c ∈ begins)
    (hbegins : ∀ c ∈ begins, isDigit c = false ∧ c ∉ marks) : Ends marks (used ++ tail) := by
  rcases hused with rfl | ⟨c, rest, rfl, hc⟩
  · exact h
  · rintro d _ ⟨⟩
    exact hbegins c hc

theorem takeWhile_digits {digits tail : List Char} {marks : List Char}
    (h : ∀ c ∈ digits, isDigit c = true) (htail : Ends marks tail) :
    (digits ++ tail).takeWhile isDigit = digits ∧ (digits ++ tail).dropWhile isDigit = tail := by
  rw [List.takeWhile_append_of_pos h, List.dropWhile_append_of_pos h]
  cases tail with
  | nil => simp
  | cons c rest => simp [(htail c rest rfl).1]

theorem isDigit_of_mem_takeWhile {cs : List Char} : ∀ c ∈ cs.takeWhile isDigit, isDigit c = true :=
  List.all_eq_true.mp List.all_takeWhile

theorem isSpace_of_isDigit {c : Char} (h : isDigit c = true) : isSpace c = false := by
  have hdigits : ∀ d ∈ [' ', '\t', '\n', '\r'], isDigit d = false := by simp [isDigit]
  cases hspace : isSpace c with
  | false => rfl
  | true =>
    rw [hdigits c (isSpace_iff.1 hspace)] at h
    cases h

theorem wholePart_local {cs whole rest : List Char} (h : wholePart cs = (whole, rest)) :
    cs = whole ++ rest ∧ (∀ c ∈ whole, isDigit c = true) ∧
      ∀ tail, Ends [] tail → wholePart (whole ++ tail) = (whole, tail) := by
  unfold wholePart at h
  split at h
  · cases h
    exact ⟨rfl, List.forall_mem_singleton.mpr rfl, fun tail _ => rfl⟩
  · rename_i hzero
    obtain ⟨hwhole, hrest⟩ := Prod.mk.inj h
    have hdigits : ∀ c ∈ whole, isDigit c = true := hwhole ▸ isDigit_of_mem_takeWhile
    have hcs : cs = whole ++ rest := by
      rw [← hwhole, ← hrest, List.takeWhile_append_dropWhile]
    refine ⟨hcs, hdigits, fun tail htail => ?_⟩
    unfold wholePart
    split
    · rename_i more heq
      cases whole with
      | nil =>
        have := (htail '0' more heq).1
        exact absurd this (by decide)
      | cons c digits =>
        obtain ⟨rfl, -⟩ := List.cons.inj heq
        exact (hzero _ hcs).elim
    · obtain ⟨htake, hdrop⟩ := takeWhile_digits hdigits htail
      rw [htake, hdrop]

theorem fractionPart_local {cs decimals rest : List Char}
    (h : fractionPart cs = (decimals, rest)) :
    ∃ used, cs = used ++ rest ∧ (used = [] ∨ ∃ c more, used = c :: more ∧ c ∈ ['.']) ∧
      ∀ tail, Ends ['.'] tail → fractionPart (used ++ tail) = (decimals, tail) := by
  have hnone : ∀ tail, Ends ['.'] tail → fractionPart tail = ([], tail) := by
    intro tail htail
    unfold fractionPart
    split
    · rename_i more
      exact absurd (List.mem_singleton.mpr rfl) (htail '.' more rfl).2
    · rfl
  unfold fractionPart at h
  split at h
  · rename_i more
    dsimp only at h
    split at h
    · cases h
      exact ⟨[], rfl, Or.inl rfl, hnone⟩
    · rename_i hempty
      obtain ⟨hdecimals, hrest⟩ := Prod.mk.inj h
      have hdigits : ∀ c ∈ decimals, isDigit c = true := hdecimals ▸ isDigit_of_mem_takeWhile
      refine ⟨'.' :: decimals, ?_, Or.inr ⟨'.', decimals, rfl, List.mem_singleton.mpr rfl⟩, ?_⟩
      · rw [← hdecimals, ← hrest, List.cons_append, List.takeWhile_append_dropWhile]
      · intro tail htail
        obtain ⟨htake, hdrop⟩ := takeWhile_digits hdigits htail
        rw [hdecimals] at hempty
        show (if ((decimals ++ tail).takeWhile isDigit).isEmpty then ([], '.' :: (decimals ++ tail))
          else ((decimals ++ tail).takeWhile isDigit, (decimals ++ tail).dropWhile isDigit)) = _
        rw [htake, hdrop, if_neg hempty]
  · cases h
    exact ⟨[], rfl, Or.inl rfl, hnone⟩

theorem signed_local {cs body : List Char} {negative : Bool}
    (h : Decimal.signed cs = (negative, body)) :
    ∃ sign, cs = sign ++ body ∧ ∀ c tail, isDigit c = true →
      Decimal.signed (sign ++ c :: tail) = (negative, c :: tail) := by
  unfold Decimal.signed at h
  split at h
  · cases h
    exact ⟨['-'], rfl, fun c tail _ => rfl⟩
  · cases h
    exact ⟨['+'], rfl, fun c tail _ => rfl⟩
  · cases h
    refine ⟨[], rfl, fun c tail hc => ?_⟩
    unfold Decimal.signed
    split
    · rename_i heq
      cases heq
      exact absurd hc (by decide)
    · rename_i heq
      cases heq
      exact absurd hc (by decide)
    · rfl

theorem exponentPart_local {cs rest : List Char} {power : Option Int}
    (h : exponentPart cs = (power, rest)) :
    ∃ used, cs = used ++ rest ∧ (used = [] ∨ ∃ c more, used = c :: more ∧ c ∈ ['e', 'E']) ∧
      ∀ tail, Ends ['e', 'E'] tail → exponentPart (used ++ tail) = (power, tail) := by
  have hnone : ∀ tail, Ends ['e', 'E'] tail → exponentPart tail = (none, tail) := by
    intro tail htail
    unfold exponentPart
    split
    · rename_i c more
      have hc := (htail c more rfl).2
      rw [if_neg (by simpa using hc)]
    · rfl
  unfold exponentPart at h
  split at h
  · rename_i c more
    by_cases hc : (decide (c = 'e') || decide (c = 'E')) = true
    · rw [if_pos hc] at h
      dsimp only at h
      generalize hsigned : Decimal.signed more = p at h
      obtain ⟨negative, body⟩ := p
      dsimp only at h
      split at h
      · cases h
        exact ⟨[], rfl, Or.inl rfl, hnone⟩
      · rename_i hempty
        obtain ⟨hpower, hrest⟩ := Prod.mk.inj h
        obtain ⟨sign, rfl, hsign⟩ := signed_local hsigned
        have hdigits : ∀ c ∈ body.takeWhile isDigit, isDigit c = true := isDigit_of_mem_takeWhile
        generalize hds : body.takeWhile isDigit = digits at hempty hpower hdigits
        refine ⟨c :: (sign ++ digits), ?_, Or.inr ⟨c, _, rfl, by simpa using hc⟩,
          fun tail htail => ?_⟩
        · rw [← hds, ← hrest, List.cons_append, List.append_assoc, List.takeWhile_append_dropWhile]
        · obtain ⟨htake, hdrop⟩ := takeWhile_digits hdigits htail
          cases digits with
          | nil => exact absurd rfl hempty
          | cons d ds =>
            unfold exponentPart
            dsimp only [List.cons_append]
            rw [if_pos hc, List.append_assoc, List.cons_append,
              hsign d _ (hdigits d List.mem_cons_self)]
            dsimp only [List.cons_append] at htake hdrop ⊢
            rw [htake, hdrop, ← hpower]
            rfl
    · rw [if_neg hc] at h
      cases h
      exact ⟨[], rfl, Or.inl rfl, hnone⟩
  · cases h
    exact ⟨[], rfl, Or.inl rfl, hnone⟩

/-- The number with these parts. -/
def ofParts (negative : Bool) (whole decimals : List Char) (power : Option Int) :
    Except ReadError Value :=
  if whole.isEmpty then .error .malformed
  else if decimals.isEmpty && power.isNone then
    if 4300 < whole.length then .error (.tooLong whole.length)
    else .ok (.int (Decimal.withSign negative (Decimal.ofDigits 10 (digitValues whole))))
  else
    let digits := Decimal.ofDigits 10 (digitValues (whole ++ decimals))
    .ok (.float (Decimal.toFloat negative digits (power.getD 0 - (decimals.length : Nat))))

theorem number_eq {negative : Bool} {cs whole decimals rest₁ rest₂ rest₃ : List Char}
    {power : Option Int} (hwhole : wholePart cs = (whole, rest₁))
    (hfraction : fractionPart rest₁ = (decimals, rest₂))
    (hexponent : exponentPart rest₂ = (power, rest₃)) :
    number negative cs = (ofParts negative whole decimals power).map fun v => (v, rest₃) := by
  unfold number ofParts
  rw [hwhole]
  dsimp only
  rw [hfraction]
  dsimp only
  rw [hexponent]
  dsimp only
  split
  · rfl
  · split
    · split
      · rfl
      · rfl
    · rfl

/-- A number is read as far as it goes. -/
theorem number_local {negative : Bool} {cs rest : List Char} {v : Value}
    (h : number negative cs = .ok (v, rest)) :
    ∃ c more, cs = (c :: more) ++ rest ∧ isDigit c = true ∧
      ∀ tail, Ends ['.', 'e', 'E'] tail → number negative (c :: more ++ tail) = .ok (v, tail) := by
  generalize hwhole : wholePart cs = p
  obtain ⟨whole, rest₁⟩ := p
  generalize hfraction : fractionPart rest₁ = p
  obtain ⟨decimals, rest₂⟩ := p
  generalize hexponent : exponentPart rest₂ = p
  obtain ⟨power, rest₃⟩ := p
  rw [number_eq hwhole hfraction hexponent] at h
  obtain ⟨v', hparts, hv⟩ := map_eq_ok h
  cases hv
  obtain ⟨rfl, hdigits, hwhole'⟩ := wholePart_local hwhole
  obtain ⟨point, rfl, hpoint, hfraction'⟩ := fractionPart_local hfraction
  obtain ⟨exponent, rfl, hmark, hexponent'⟩ := exponentPart_local hexponent
  cases whole with
  | nil => cases hparts
  | cons c digits =>
    have happend : ∀ tail, c :: (digits ++ (point ++ exponent)) ++ tail =
        c :: digits ++ (point ++ (exponent ++ tail)) := by
      intro tail
      simp
    refine ⟨c, digits ++ (point ++ exponent), (happend _).symm, hdigits c List.mem_cons_self,
      fun tail htail => ?_⟩
    have hpower : Ends ['.'] (exponent ++ tail) :=
      (htail.mono (by simp)).append hmark (by simp [isDigit])
    have hplain : Ends [] (point ++ (exponent ++ tail)) :=
      (hpower.mono (by simp)).append hpoint (by simp [isDigit])
    rw [happend, number_eq (hwhole' _ hplain) (hfraction' _ hpower)
      (hexponent' _ (htail.mono (by simp))), hparts]
    rfl

end BrowserFlow.Json
