import BrowserFlow.Text.Scan
import Mathlib.Data.List.Infix

/-!
# What scanning finds

The beginnings and occurrences that are looked for are those of lists (`dropPrefix?_eq_some`,
`occurs_iff`, `beginsWith_iff`). A replacement goes on behind what it took as if the text began
there (`replaceFrom_skip`), so that a replacement is determined one find at a time.
-/

namespace BrowserFlow.Text

variable {step : List Char → Option (List Char × Nat)} {c : Char} {cs part replacement : List Char}

theorem dropPrefix?_eq_some {start cs rest : List Char} :
    dropPrefix? start cs = some rest ↔ cs = start ++ rest := by
  fun_induction dropPrefix? start cs with
  | case1 cs => simp [eq_comm]
  | case2 => simp
  | case3 p ps cs ih => simpa using ih
  | case4 p ps c cs hne => simp [Ne.symm hne]

theorem occurs_iff : occurs part cs = true ↔ part <:+: cs := by
  induction cs with
  | nil => rw [occurs, List.isEmpty_iff, List.infix_nil]
  | cons c cs ih =>
    rw [occurs, Bool.or_eq_true, List.isPrefixOf_iff_prefix, ih, List.infix_cons_iff]

theorem includes_iff {s part : String} : includes s part = true ↔ part.toList <:+: s.toList :=
  occurs_iff

theorem beginsWith_iff {s start : String} :
    beginsWith s start = true ↔ start.toList <+: s.toList :=
  List.isPrefixOf_iff_prefix

theorem replaceFrom_skip (n : Nat) (cs : List Char) :
    replaceFrom step n cs = replaceFrom step 0 (cs.drop n) := by
  induction cs generalizing n with
  | nil => rw [List.drop_nil]; rfl
  | cons c cs ih =>
    cases n with
    | zero => rfl
    | succ n => exact ih n

theorem replaceFrom_of_find {n : Nat} (h : step (c :: cs) = some (replacement, n + 1)) :
    replaceFrom step 0 (c :: cs) = replacement ++ replaceFrom step 0 (cs.drop n) := by
  rw [← replaceFrom_skip, replaceFrom, h]
  rfl

theorem replaceFrom_of_none (h : step (c :: cs) = none) :
    replaceFrom step 0 (c :: cs) = c :: replaceFrom step 0 cs := by
  rw [replaceFrom, h]

/-- What is in front of the first find is kept. -/
theorem replaceFrom_append {front : List Char}
    (h : ∀ within, within <:+ front → within ≠ [] → step (within ++ cs) = none) :
    replaceFrom step 0 (front ++ cs) = front ++ replaceFrom step 0 cs := by
  induction front with
  | nil => rfl
  | cons c front ih =>
    have hfirst : step (c :: (front ++ cs)) = none := h _ List.suffix_rfl (List.cons_ne_nil c front)
    have hbehind := ih fun within hwithin => h within (hwithin.trans (List.suffix_cons c front))
    rw [List.cons_append, replaceFrom_of_none hfirst, hbehind, List.cons_append]

/-- A text in which nothing is found is left as it is. -/
theorem replaceFrom_eq_self (h : ∀ rest, rest <:+ cs → rest ≠ [] → step rest = none) :
    replaceFrom step 0 cs = cs := by
  have hfront : ∀ within, within <:+ cs → within ≠ [] → step (within ++ []) = none :=
    fun within hwithin hne => by rw [List.append_nil, h within hwithin hne]
  have hkept := replaceFrom_append hfront
  rwa [List.append_nil, show replaceFrom step 0 [] = [] from rfl, List.append_nil] at hkept

/-! ## Occurrences over an edge -/

variable {word u v : List Char} {a b : Char}

/-- An occurrence does not reach over a character that is not in it. -/
theorem isInfix_append_cons (hc : c ∉ word) (h : word <:+: u ++ c :: v) :
    word <:+: u ∨ word <:+: v := by
  rcases List.infix_append_iff_ne_nil.1 h with h | h | ⟨front, back, -, hne, rfl, hfront, hback⟩
  · exact Or.inl h
  · rcases List.infix_cons_iff.1 h with h | h
    · -- a beginning that is not empty would begin with the character
      cases word with
      | nil => exact Or.inl List.nil_infix
      | cons d ds =>
        obtain ⟨rfl, -⟩ := List.cons_prefix_cons.1 h
        exact absurd List.mem_cons_self hc
    · exact Or.inr h
  · cases back with
    | nil => exact absurd rfl hne
    | cons d ds =>
      obtain ⟨rfl, -⟩ := List.cons_prefix_cons.1 hback
      exact absurd (List.mem_append_right front List.mem_cons_self) hc

/-- A beginning ends before a character or goes on behind it. -/
theorem isPrefix_append_cons (h : word <+: u ++ c :: v) :
    word <+: u ∨ ∃ rest, rest <+: v ∧ word = u ++ c :: rest := by
  rcases Nat.lt_or_ge u.length word.length with hlong | hshort
  · have hbehind : u ++ [c] <+: u ++ c :: v :=
      (List.prefix_append_right_inj u).2 (List.cons_prefix_cons.2 ⟨rfl, List.nil_prefix⟩)
    have hfront : u ++ [c] <+: word := List.prefix_of_prefix_length_le hbehind h (by simpa)
    obtain ⟨rest, rfl⟩ := hfront
    rw [List.append_assoc, List.singleton_append] at h ⊢
    have hrest := (List.prefix_append_right_inj u).1 h
    exact Or.inr ⟨rest, (List.cons_prefix_cons.1 hrest).2, rfl⟩
  · exact Or.inl ((List.isPrefix_append_of_length hshort).1 h)

/-- An occurrence does not begin where its first character is missing. -/
theorem isInfix_of_head_not_mem (ha : a ∉ u) (h : a :: word <:+: u ++ v) : a :: word <:+: v := by
  rcases List.infix_append_iff_ne_nil.1 h with h | h | ⟨front, back, hne, -, hword, hfront, -⟩
  · exact absurd (h.subset List.mem_cons_self) ha
  · exact h
  · cases front with
    | nil => exact absurd rfl hne
    | cons d ds =>
      obtain ⟨rfl, -⟩ := List.cons.inj hword
      exact absurd (hfront.subset List.mem_cons_self) ha

/-- An occurrence does not end where its last character is missing. -/
theorem isInfix_of_last_not_mem (ha : a ∉ v) (h : word ++ [a] <:+: u ++ v) :
    word ++ [a] <:+: u := by
  have hlast : ∀ back front, word ++ [a] = front ++ back → back ≠ [] → a ∈ back := by
    intro back front heq hne
    have hback : (front ++ back).getLast? = some a := by
      rw [← heq, List.getLast?_concat]
    rw [List.getLast?_append_of_ne_nil _ hne] at hback
    exact List.mem_of_getLast? hback
  rcases List.infix_append_iff_ne_nil.1 h with h | h | ⟨front, back, -, hne, hword, -, hback⟩
  · exact h
  · exact absurd (h.subset (List.mem_append_right word List.mem_cons_self)) ha
  · exact absurd (hback.subset (hlast back front hword hne)) ha

/-- Two characters in a row stand on one side of an edge or on either side of it. -/
theorem pair_isInfix_append (h : [a, b] <:+: u ++ v) :
    [a, b] <:+: u ∨ [a, b] <:+: v ∨ u.getLast? = some a ∧ v.head? = some b := by
  rcases List.infix_append_iff_ne_nil.1 h with h | h | ⟨front, back, hfront, hback, heq, hu, hv⟩
  · exact Or.inl h
  · exact Or.inr (Or.inl h)
  · have hlength : 2 = front.length + back.length := by
      rw [← List.length_append, ← heq]
      rfl
    have hfront := List.length_pos_of_ne_nil hfront
    have hback := List.length_pos_of_ne_nil hback
    obtain ⟨x, rfl⟩ := List.length_eq_one_iff.1 (show front.length = 1 by omega)
    obtain ⟨y, rfl⟩ := List.length_eq_one_iff.1 (show back.length = 1 by omega)
    cases heq
    obtain ⟨before, rfl⟩ := hu
    obtain ⟨after, rfl⟩ := hv
    exact Or.inr (Or.inr ⟨List.getLast?_concat, rfl⟩)

/-! ## First characters -/

theorem toList_clip (n : Nat) (s : String) : (clip n s).toList = s.toList.take n := by
  simp [clip]

theorem clip_isPrefix (n : Nat) (s : String) : (clip n s).toList <+: s.toList := by
  rw [toList_clip]
  exact List.take_prefix n s.toList

theorem length_clip (n : Nat) (s : String) : (clip n s).length = min n s.length := by
  rw [← String.length_toList, toList_clip, List.length_take, String.length_toList]

theorem length_clip_le (n : Nat) (s : String) : (clip n s).length ≤ n := by
  rw [length_clip]
  exact Nat.min_le_left n s.length

end BrowserFlow.Text
