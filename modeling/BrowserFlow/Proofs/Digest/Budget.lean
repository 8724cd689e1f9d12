import BrowserFlow.Digest.Basic
import BrowserFlow.Proofs.Text.Scan
import Mathlib.Logic.Relation
import Mathlib.Tactic.ByContra

/-!
# Digests within a budget

A digest that is too large for its budget is made smaller turn by turn. `loses_of_smaller?` says once
what a turn can take, and everything else comes from it: every turn takes something
(`Trims.extent_lt`), so that the turns come to an end, and a turn keeps to the order in which things
may be taken (`Cut.trims`). `fit_trimmed` puts this together: trimming ends with a digest that fits
the budget or has nothing left, that was cut in this order, and that would not fit with its last item
put back if nothing but items was taken.

No argument here is about the bytes that a character takes. A cut of the address or the title takes
as many characters as there are bytes too many, so at least one, and that is enough for the turns to
end.
-/

namespace BrowserFlow

namespace Digest

variable {budget : Int} {d e f : Digest}

/-- No text, pattern or attribute is in the digest. -/
structure Bare (d : Digest) : Prop where
  texts : d.texts = []
  patterns : d.patterns = []
  attributes : d.attributes = []

/-! ## One turn -/

/-- A turn of trimming: the digest is too large, and something is taken from it. -/
def Trims (budget : Int) (d e : Digest) : Prop :=
  budget < d.size ∧ smaller? budget d = some e

/-- By how many bytes a digest is too large. -/
def excess (budget : Int) (d : Digest) : Nat :=
  ((d.size : Int) - budget).toNat

/-- What a turn can take from a digest. -/
inductive Loses (budget : Int) (d : Digest) : Digest → Prop
  | lastText (htexts : d.texts ≠ []) : Loses budget d { d with texts := d.texts.dropLast }
  | lastPattern (htexts : d.texts = []) (hpatterns : d.patterns ≠ []) :
      Loses budget d { d with patterns := d.patterns.dropLast }
  | lastAttribute (htexts : d.texts = []) (hpatterns : d.patterns = [])
      (hattributes : d.attributes ≠ []) :
      Loses budget d { d with attributes := d.attributes.dropLast }
  | longTitle (hbare : d.Bare) (hlong : titleLength < d.title.length) :
      Loses budget d { d with title := Text.clip titleLength d.title }
  | someUrl (hbare : d.Bare) (hshort : d.title.length ≤ titleLength) (hurl : d.url ≠ "") :
      Loses budget d { d with url := Text.clip (d.url.length - excess budget d) d.url }
  | someTitle (hbare : d.Bare) (hshort : d.title.length ≤ titleLength) (hurl : d.url = "")
      (htitle : d.title ≠ "") :
      Loses budget d { d with title := Text.clip (d.title.length - excess budget d) d.title }

theorem loses_of_smaller? (h : smaller? budget d = some e) : Loses budget d e := by
  unfold smaller? at h
  dsimp only at h
  by_cases htexts : d.texts = []
  · rw [if_neg (by simp [htexts])] at h
    by_cases hpatterns : d.patterns = []
    · rw [if_neg (by simp [hpatterns])] at h
      by_cases hattributes : d.attributes = []
      · rw [if_neg (by simp [hattributes])] at h
        have hbare : d.Bare := ⟨htexts, hpatterns, hattributes⟩
        by_cases hlong : titleLength < d.title.length
        · rw [if_pos hlong] at h
          cases h
          exact .longTitle hbare hlong
        · rw [if_neg hlong] at h
          have hshort := Nat.le_of_not_lt hlong
          by_cases hurl : d.url = ""
          · rw [if_neg (by simp [hurl])] at h
            by_cases htitle : d.title = ""
            · rw [if_neg (by simp [htitle])] at h
              cases h
            · rw [if_pos (by simp [htitle])] at h
              cases h
              exact .someTitle hbare hshort hurl htitle
          · rw [if_pos (by simp [hurl])] at h
            cases h
            exact .someUrl hbare hshort hurl
      · rw [if_pos (by simp [hattributes])] at h
        cases h
        exact .lastAttribute htexts hpatterns hattributes
    · rw [if_pos (by simp [hpatterns])] at h
      cases h
      exact .lastPattern htexts hpatterns
  · rw [if_pos (by simp [htexts])] at h
    cases h
    exact .lastText htexts

/-- Nothing can be taken only from a digest with nothing in it. -/
theorem empty_of_smaller? (h : smaller? budget d = none) : d.Bare ∧ d.url = "" ∧ d.title = "" := by
  unfold smaller? at h
  dsimp only at h
  split at h
  · cases h
  · next htexts =>
    split at h
    · cases h
    · next hpatterns =>
      split at h
      · cases h
      · next hattributes =>
        split at h
        · cases h
        · split at h
          · cases h
          · next hurl =>
            split at h
            · cases h
            · next htitle =>
              refine ⟨⟨?_, ?_, ?_⟩, ?_, ?_⟩
              all_goals simp_all

/-- A text is shorter without as many characters as there are bytes too many. -/
theorem length_cut_lt (hlarge : budget < d.size) {s : String} (hs : s ≠ "") :
    (Text.clip (s.length - excess budget d) s).length < s.length := by
  have hexcess : 0 < excess budget d := by
    unfold excess
    omega
  have hlength : s.length ≠ 0 := fun h => hs (String.length_eq_zero_iff.1 h)
  rw [Text.length_clip]
  omega

/-- Every turn takes something, so that the turns come to an end. -/
theorem Trims.extent_lt (h : Trims budget d e) : e.extent < d.extent := by
  obtain ⟨hlarge, h⟩ := h
  unfold extent
  cases loses_of_smaller? h with
  | lastText htexts =>
    have hpos := List.length_pos_iff.2 htexts
    have hdrop : d.texts.dropLast.length = d.texts.length - 1 := List.length_dropLast
    dsimp only
    omega
  | lastPattern _ hpatterns =>
    have hpos := List.length_pos_iff.2 hpatterns
    have hdrop : d.patterns.dropLast.length = d.patterns.length - 1 := List.length_dropLast
    dsimp only
    omega
  | lastAttribute _ _ hattributes =>
    have hpos := List.length_pos_iff.2 hattributes
    have hdrop : d.attributes.dropLast.length = d.attributes.length - 1 := List.length_dropLast
    dsimp only
    omega
  | longTitle _ hlong =>
    have hclip := Text.length_clip titleLength d.title
    dsimp only
    omega
  | someUrl _ _ hurl =>
    have hcut := length_cut_lt hlarge hurl
    dsimp only
    omega
  | someTitle _ _ _ htitle =>
    have hcut := length_cut_lt hlarge htitle
    dsimp only
    omega

/-! ## Many turns -/

/-- The digest is what is left of another one, from which things were taken in order: patterns only
when there was no text left, attributes only when there was no pattern left, characters only when
there was no item left; of the address only from behind a title of the usual length, and of a title
of that length only when there was no address left. -/
structure Cut (d e : Digest) : Prop where
  timestamp : e.timestamp = d.timestamp
  texts : e.texts <+: d.texts
  patterns : e.patterns <+: d.patterns
  attributes : e.attributes <+: d.attributes
  title : e.title.toList <+: d.title.toList
  url : e.url.toList <+: d.url.toList
  ofPatterns : e.patterns ≠ d.patterns → e.texts = []
  ofAttributes : e.attributes ≠ d.attributes → e.texts = [] ∧ e.patterns = []
  ofTitle : e.title ≠ d.title → e.Bare
  ofUrl : e.url ≠ d.url → e.Bare ∧ e.title.length ≤ titleLength
  ofShortTitle : e.title ≠ d.title → e.title.length < titleLength → e.url = ""

theorem Cut.refl (d : Digest) : Cut d d where
  timestamp := rfl
  texts := List.prefix_rfl
  patterns := List.prefix_rfl
  attributes := List.prefix_rfl
  title := List.prefix_rfl
  url := List.prefix_rfl
  ofPatterns h := absurd rfl h
  ofAttributes h := absurd rfl h
  ofTitle h := absurd rfl h
  ofUrl h := absurd rfl h
  ofShortTitle h := absurd rfl h

/-- A turn keeps to the order. -/
theorem Cut.trims (hcut : Cut d e) (h : Trims budget e f) : Cut d f := by
  cases loses_of_smaller? h.2 with
  | lastText htexts =>
    -- while there is a text nothing else was taken
    exact { hcut with
      texts := (List.dropLast_prefix _).trans hcut.texts
      ofPatterns := fun hne => absurd (hcut.ofPatterns hne) htexts
      ofAttributes := fun hne => absurd (hcut.ofAttributes hne).1 htexts
      ofTitle := fun hne => absurd (hcut.ofTitle hne).texts htexts
      ofUrl := fun hne => absurd (hcut.ofUrl hne).1.texts htexts }
  | lastPattern htexts hpatterns =>
    exact { hcut with
      patterns := (List.dropLast_prefix _).trans hcut.patterns
      ofPatterns := fun _ => htexts
      ofAttributes := fun hne => absurd (hcut.ofAttributes hne).2 hpatterns
      ofTitle := fun hne => absurd (hcut.ofTitle hne).patterns hpatterns
      ofUrl := fun hne => absurd (hcut.ofUrl hne).1.patterns hpatterns }
  | lastAttribute htexts hpatterns hattributes =>
    exact { hcut with
      attributes := (List.dropLast_prefix _).trans hcut.attributes
      ofAttributes := fun _ => ⟨htexts, hpatterns⟩
      ofTitle := fun hne => absurd (hcut.ofTitle hne).attributes hattributes
      ofUrl := fun hne => absurd (hcut.ofUrl hne).1.attributes hattributes }
  | longTitle hbare hlong =>
    have hlength : (Text.clip titleLength e.title).length = titleLength := by
      rw [Text.length_clip]
      omega
    exact { hcut with
      title := (Text.clip_isPrefix _ _).trans hcut.title
      ofTitle := fun _ => ⟨hbare.texts, hbare.patterns, hbare.attributes⟩
      ofUrl := fun _ => ⟨⟨hbare.texts, hbare.patterns, hbare.attributes⟩, Nat.le_of_eq hlength⟩
      ofShortTitle := fun _ hlt => absurd hlength (Nat.ne_of_lt hlt) }
  | someUrl hbare hshort hurl =>
    exact { hcut with
      url := (Text.clip_isPrefix _ _).trans hcut.url
      ofTitle := fun _ => ⟨hbare.texts, hbare.patterns, hbare.attributes⟩
      ofUrl := fun _ => ⟨⟨hbare.texts, hbare.patterns, hbare.attributes⟩, hshort⟩
      ofShortTitle := fun hne hlt => absurd (hcut.ofShortTitle hne hlt) hurl }
  | someTitle hbare hshort hurl htitle =>
    have hlength : (Text.clip (e.title.length - excess budget e) e.title).length ≤ titleLength := by
      rw [Text.length_clip]
      omega
    exact { hcut with
      title := (Text.clip_isPrefix _ _).trans hcut.title
      ofTitle := fun _ => ⟨hbare.texts, hbare.patterns, hbare.attributes⟩
      ofUrl := fun _ => ⟨⟨hbare.texts, hbare.patterns, hbare.attributes⟩, hlength⟩
      ofShortTitle := fun _ _ => hurl }

/-! ## The item that was taken last -/

/-- A digest with the item put back that was taken last, if nothing else was taken from the first
one: an attribute, or else a pattern, or else a text. -/
def putBack (d e : Digest) : Digest :=
  if e.attributes.length < d.attributes.length then
    { e with attributes := d.attributes.take (e.attributes.length + 1) }
  else if e.patterns.length < d.patterns.length then
    { e with patterns := d.patterns.take (e.patterns.length + 1) }
  else { e with texts := d.texts.take (e.texts.length + 1) }

/-- Of a list that is left, all but the last item and one item more is the list itself. -/
theorem take_dropLast {α : Type} {xs ys : List α} (hxs : xs ≠ []) (h : xs <+: ys) :
    ys.take (xs.dropLast.length + 1) = xs ∧ xs.dropLast.length < ys.length := by
  have hpos := List.length_pos_iff.2 hxs
  have hle := h.length_le
  have hlength : xs.dropLast.length + 1 = xs.length := by
    rw [List.length_dropLast]
    omega
  exact ⟨hlength ▸ (List.prefix_iff_eq_take.1 h).symm, by omega⟩

/-- What is shorter than a beginning of a text is not the text. -/
theorem ne_of_shorter {s t u : String} (hlt : s.length < t.length) (h : t.toList <+: u.toList) :
    s ≠ u := by
  have hle := h.length_le
  rw [String.length_toList, String.length_toList] at hle
  rintro rfl
  omega

/-- To put back the item that a turn took gives what there was before. A turn that took no item has
made the title or the address another one. -/
theorem Cut.putBack_trims (hcut : Cut d e) (h : Trims budget e f) :
    putBack d f = e ∨ f.title ≠ d.title ∨ f.url ≠ d.url := by
  cases loses_of_smaller? h.2 with
  | lastText htexts =>
    have hpatterns : e.patterns = d.patterns := by
      by_contra hne
      exact htexts (hcut.ofPatterns hne)
    have hattributes : e.attributes = d.attributes := by
      by_contra hne
      exact htexts (hcut.ofAttributes hne).1
    left
    unfold putBack
    dsimp only
    rw [hattributes, hpatterns, if_neg (Nat.lt_irrefl _), if_neg (Nat.lt_irrefl _),
      (take_dropLast htexts hcut.texts).1, ← hattributes, ← hpatterns]
  | lastPattern htexts hpatterns =>
    have hattributes : e.attributes = d.attributes := by
      by_contra hne
      exact hpatterns (hcut.ofAttributes hne).2
    obtain ⟨htake, hlt⟩ := take_dropLast hpatterns hcut.patterns
    left
    unfold putBack
    dsimp only
    rw [hattributes, if_neg (Nat.lt_irrefl _), if_pos hlt, htake, ← hattributes]
  | lastAttribute htexts hpatterns hattributes =>
    obtain ⟨htake, hlt⟩ := take_dropLast hattributes hcut.attributes
    left
    unfold putBack
    dsimp only
    rw [if_pos hlt, htake]
  | longTitle _ hlong =>
    have hlt : (Text.clip titleLength e.title).length < e.title.length := by
      rw [Text.length_clip]
      omega
    exact .inr (.inl (ne_of_shorter hlt hcut.title))
  | someUrl _ _ hurl => exact .inr (.inr (ne_of_shorter (length_cut_lt h.1 hurl) hcut.url))
  | someTitle _ _ _ htitle =>
    exact .inr (.inl (ne_of_shorter (length_cut_lt h.1 htitle) hcut.title))

/-! ## The end -/

/-- What many turns leave of a digest is cut in order, and if only items were taken the last of them
does not fit. -/
theorem cut_of_turns (h : Relation.ReflTransGen (Trims budget) d e) :
    Cut d e ∧ (e ≠ d → e.title = d.title → e.url = d.url → budget < (putBack d e).size) := by
  induction h with
  | refl => exact ⟨.refl d, fun hne => absurd rfl hne⟩
  | tail _ hturn ih =>
    refine ⟨ih.1.trims hturn, fun _ htitle hurl => ?_⟩
    rcases ih.1.putBack_trims hturn with hback | hne | hne
    · rw [hback]
      exact hturn.1
    · exact absurd htitle hne
    · exact absurd hurl hne

/-- With as many steps as there is to take, trimming goes on until there is no turn any more. -/
theorem fitIn_ends {steps : Nat} (h : d.extent < steps) :
    Relation.ReflTransGen (Trims budget) d (fitIn budget steps d) ∧
      ∀ e, ¬ Trims budget (fitIn budget steps d) e := by
  induction steps generalizing d with
  | zero => exact absurd h (Nat.not_lt_zero _)
  | succ steps ih =>
    unfold fitIn
    split
    · next hfits =>
      refine ⟨.refl, fun e he => ?_⟩
      have hlarge := he.1
      omega
    · next hlarge =>
      cases hs : smaller? budget d with
      | none =>
        refine ⟨.refl, fun e he => ?_⟩
        rw [he.2] at hs
        cases hs
      | some e =>
        have hturn : Trims budget d e := ⟨by omega, hs⟩
        have hlt := hturn.extent_lt
        obtain ⟨hreach, hend⟩ := @ih e (by omega)
        exact ⟨.head hturn hreach, hend⟩

/-- A digest without a turn fits the budget or has nothing in it. -/
theorem fits_or_empty (h : ∀ e, ¬ Trims budget d e) :
    (d.size : Int) ≤ budget ∨ d.Bare ∧ d.url = "" ∧ d.title = "" := by
  by_cases hlarge : budget < d.size
  · right
    cases hs : smaller? budget d with
    | none => exact empty_of_smaller? hs
    | some e => exact absurd ⟨hlarge, hs⟩ (h e)
  · exact .inl (Int.not_lt.1 hlarge)

/-- Trimming a digest to any budget ends: every turn takes something, and what is made of the digest
is reached by turns and has none itself. It fits the budget or has nothing in it, it is cut from the
digest in order, and if only items were taken it does not fit with the last of them put back. -/
theorem fit_trimmed (budget : Int) (d : Digest) :
    (∀ e f, Trims budget e f → f.extent < e.extent) ∧
    Relation.ReflTransGen (Trims budget) d (fit budget d) ∧
    (∀ e, ¬ Trims budget (fit budget d) e) ∧
    (((fit budget d).size : Int) ≤ budget ∨
      (fit budget d).Bare ∧ (fit budget d).url = "" ∧ (fit budget d).title = "") ∧
    Cut d (fit budget d) ∧
    (fit budget d ≠ d → (fit budget d).title = d.title → (fit budget d).url = d.url →
      budget < (putBack d (fit budget d)).size) := by
  obtain ⟨hreach, hend⟩ := @fitIn_ends budget d _ (Nat.lt_succ_self d.extent)
  obtain ⟨hcut, hback⟩ := cut_of_turns hreach
  exact ⟨fun _ _ h => h.extent_lt, hreach, hend, fits_or_empty hend, hcut, hback⟩

/-- Of 123 bytes six are too many: the last text goes, whose quote takes two bytes with its mark. -/
example : (fit 117 { url := "u", title := "t", texts := ["a", "\""], timestamp := .int 0 }).texts =
    ["a"] := by
  decide +kernel

end Digest

end BrowserFlow
