import BrowserFlow.Proofs.Disk.Place
import BrowserFlow.World.Basic
import Mathlib.Algebra.Group.Nat.Defs

/-!
# Identifiers and names that are made

The numbers that a world draws become six figures, so that no two of the first `16 ^ 6` identifiers
are the same (`World.identifier_inj`). Figures, dates and what is made of them are names without
slashes.
-/

namespace BrowserFlow

namespace Text

theorem mem_hexDigits {width n : Nat} {c : Char} (h : c ∈ hexDigits width n) :
    ∃ k < 16, c = Nat.digitChar k := by
  induction width generalizing n with
  | zero => exact absurd h List.not_mem_nil
  | succ width ih =>
    rcases List.mem_append.1 h with h | h
    · exact ih h
    · exact ⟨n % 16, Nat.mod_lt n (by decide), List.mem_singleton.1 h⟩

theorem no_slash_hexDigits (width n : Nat) : '/' ∉ hexDigits width n := by
  intro h
  obtain ⟨k, hk, heq⟩ := mem_hexDigits h
  have hdigit : ∀ k < 16, '/' ≠ Nat.digitChar k := by decide
  exact hdigit k hk heq

theorem hexDigits_inj {width m n : Nat} (hm : m < 16 ^ width) (hn : n < 16 ^ width) :
    hexDigits width m = hexDigits width n ↔ m = n := by
  refine ⟨fun h => ?_, fun h => by rw [h]⟩
  induction width generalizing m n with
  | zero => omega
  | succ width ih =>
    have hdigit : ∀ j < 16, ∀ k < 16, Nat.digitChar j = Nat.digitChar k → j = k := by decide
    -- the last figure and those before it
    obtain ⟨hbefore, hlast⟩ := List.append_inj' h rfl
    have hlow : m % 16 = n % 16 := hdigit _ (Nat.mod_lt m (by decide)) _
      (Nat.mod_lt n (by decide)) (List.cons.inj hlast).1
    have hhigh : m / 16 = n / 16 := by
      refine ih ?_ ?_ hbefore
      · rw [Nat.pow_succ] at hm
        omega
      · rw [Nat.pow_succ] at hn
        omega
    omega

end Text

theorem Calendar.no_slash_padded (width n : Nat) : '/' ∉ (padded width n).toList := by
  unfold padded
  rw [String.toList_ofList, List.mem_append, not_or]
  constructor
  · intro h
    have hzero := (List.mem_replicate.1 h).2
    exact absurd hzero (by decide)
  · intro h
    have hdigit := Nat.isDigit_of_mem_toDigits (by decide) (by decide) h
    exact absurd hdigit (by decide)

theorem Clock.no_slash_stamp (ms : Nat) : '/' ∉ (stamp ms).toList := by
  have hhyphen : '/' ∉ "-".toList := by decide
  unfold stamp
  simp only [String.toList_append, List.mem_append, not_or]
  exact ⟨⟨⟨⟨⟨⟨Calendar.no_slash_padded _ _, Calendar.no_slash_padded _ _⟩,
    Calendar.no_slash_padded _ _⟩, hhyphen⟩, Calendar.no_slash_padded _ _⟩,
    Calendar.no_slash_padded _ _⟩, Calendar.no_slash_padded _ _⟩

namespace World

theorem toList_figures (n : Nat) : (figures n).toList = Text.hexDigits 6 n :=
  String.toList_ofList

theorem no_slash_figures (n : Nat) : '/' ∉ (figures n).toList := by
  rw [toList_figures]
  exact Text.no_slash_hexDigits 6 n

theorem no_slash_identifier (n : Nat) : '/' ∉ (identifier n).toList := by
  unfold identifier
  rw [String.toList_append, List.mem_append, not_or]
  exact ⟨no_slash_figures n, by decide⟩

theorem identifier_inj {m n : Nat} (hm : m < 16 ^ 6) (hn : n < 16 ^ 6) :
    identifier m = identifier n ↔ m = n := by
  unfold identifier
  rw [String.append_left_inj, ← String.toList_inj, toList_figures, toList_figures]
  exact Text.hexDigits_inj hm hn

end World

end BrowserFlow
