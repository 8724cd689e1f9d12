import BrowserFlow.Proofs.Outcomes
import BrowserFlow.Proofs.Yaml.Margin
import BrowserFlow.Yaml.Token.Basic

/-!
# Names at the end of a text

Tags, anchors, aliases and directives are read from cursors that meet alike: what the reader of the
surrounded text makes of them, the reader of the text itself does too (`scanTag_abreast`,
`scanName_abreast`, `scanDirective_abreast`). A name ends where it ends in either text, because
neither room nor the end can stand in it.
-/

namespace BrowserFlow.Yaml

variable {m : Margin} {s c d : Cursor}

/-- Two cursors that meet, of which the first came from a place before. -/
structure Abreast (m : Margin) (s c d : Cursor) : Prop where
  meets : c.Meets m d
  onward : s.Reaches c

/-- The same was read, by cursors that meet again. -/
structure Read {α : Type} (m : Margin) (s : Cursor) (a b : α × Cursor) : Prop where
  same : a.1 = b.1
  abreast : Abreast m s a.2 b.2

namespace Abreast

theorem skip (h : Abreast m s c d) (n : Nat) : Abreast m s (c.skip n) (d.skip n) :=
  ⟨h.meets.skip n, h.onward.trans (c.reaches_skip n)⟩

theorem next (h : Abreast m s c d) : Abreast m s c.next d.next :=
  h.skip 1

theorem skipWhile (h : Abreast m s c d) (p : Char → Bool) :
    Abreast m s (c.skipWhile p) (d.skipWhile p) :=
  ⟨h.meets.skipWhile p, h.onward.trans (c.reaches_skipWhile p)⟩

theorem skipSpaces (h : Abreast m s c d) : Abreast m s c.skipSpaces d.skipSpaces :=
  h.skipWhile _

theorem finishLine (h : Abreast m s c d) :
    Refines (Abreast m s) c.finishLine d.finishLine := by
  intro d' hd
  obtain ⟨c', hc, hmeets⟩ := h.meets.finishLine hd
  exact ⟨c', hc, hmeets, h.onward.trans (Cursor.finishLine_reaches hc)⟩

end Abreast

theorem scanTagText_abreast (h : Abreast m s c d) :
    Refines (Read m s) (scanTagText c) (scanTagText d) := by
  unfold scanTagText
  rw [h.meets.run_eq (p := isTagChar) (by decide)]
  dsimp only
  split
  · exact .throw_bind
  · refine Refines.bind (R := Eq) (fun text htext => ⟨text, htext, rfl⟩) ?_
    rintro text _ rfl
    exact .pure ⟨rfl, h.skip _⟩

/-- No tag is read behind the end of the text. -/
theorem scanTagText_over (h : c.Meets m d) (hover : c.rest = []) (a : String × Cursor) :
    scanTagText d ≠ .ok a := by
  intro ha
  unfold scanTagText at ha
  rw [h.run_eq (p := isTagChar) (by decide), Cursor.run, hover] at ha
  cases ha

/-- A handle is read alike unless the text ends where its second character would stand. -/
theorem scanHandle_abreast (h : c.Meets m d) (hs : s.Reaches c.next) (hnext : c.next.rest ≠ []) :
    Refines (Read m s) (scanHandle c) (scanHandle d) := by
  have hbehind : Abreast m s c.next d.next := ⟨h.next, hs⟩
  unfold scanHandle
  refine .ite ?_ (fun _ => .error) fun _ => ?_
  · rw [h.peek_eq (f := (· != '!')) (by decide)]
  refine .ite ?_ (fun _ => .ok ⟨rfl, hbehind⟩) fun _ => ?_
  · rw [h.peek_next_eq hnext]
  rw [h.next.run_eq (p := isNameChar) (by decide)]
  have hname := hbehind.skip (c.next.run isNameChar).length
  refine .ite (hname.meets.peek_eq_iff (by decide)).symm (fun _ => ?_) fun _ => .error
  exact .ok ⟨rfl, hname.next⟩

/-- Where the text ends behind the first character of a handle, so does the handle. -/
theorem scanHandle_over (h : c.Meets m d) (hnext : c.next.rest = []) {a : String × Cursor}
    (hd : scanHandle d = .ok a) : a.2 = d.next := by
  unfold scanHandle at hd
  split at hd
  · cases hd
  · split at hd
    · cases hd
      rfl
    · have hname : d.next.run isNameChar = [] := by
        rw [h.next.run_eq (by decide), Cursor.run, hnext, List.takeWhile_nil]
      have hmark : ¬d.next.peek = '!' := by
        rw [h.next.peek_eq_iff (by decide), Cursor.peek, hnext]
        decide
      simp only [hname, List.length_nil, Cursor.skip, if_neg hmark] at hd
      cases hd

theorem hasHandle_eq (h : c.Meets m d) : hasHandle d = hasHandle c := by
  unfold hasHandle
  rw [h.next.run_eq (by decide)]

theorem scanTag_abreast (h : c.Meets m d) :
    Refines (Read m c.next) (scanTag c) (scanTag d) := by
  have hbehind : Abreast m c.next c.next d.next := ⟨h.next, .refl _⟩
  -- the end of a tag is checked alike
  have hend : ∀ (handle : Option String) (suffix : String) (c' d' : Cursor),
      Abreast m c.next c' d' → Refines (Read m c.next)
        (if isSpaceOrEnd c'.peek = true then Pure.pure (Token.tag handle suffix, c')
          else throw Error.malformed : Except Error (Token × Cursor))
        (if isSpaceOrEnd d'.peek = true then Pure.pure (Token.tag handle suffix, d')
          else throw Error.malformed) := by
    intro handle suffix c' d' h'
    refine .ite ?_ (fun _ => .pure ⟨rfl, h'⟩) fun _ => .throw
    rw [h'.meets.peek_eq (f := isSpaceOrEnd) (by decide)]
  unfold scanTag
  dsimp only
  refine .ite (h.peek_eq_iff (by decide) 1).symm (fun _ => ?_) fun _ => .ite ?_ (fun _ => ?_)
    fun hgap => ?_
  · refine (scanTagText_abreast hbehind.next).bind ?_
    rintro ⟨text, c'⟩ ⟨_, d'⟩ ⟨rfl, h'⟩
    refine .ite (h'.meets.peek_eq_iff (by decide)).symm (fun _ => ?_) fun _ => .throw_bind
    exact hend none text _ _ h'.next
  · rw [h.peek_eq (f := isGap) (by decide) 1]
  · exact hend none "!" _ _ hbehind
  · have hrest : ∀ a b : String × Cursor, Read m c.next a b →
        Refines (Read m c.next)
          (do
            let read ← scanTagText a.2
            if isSpaceOrEnd read.2.peek then return (Token.tag (some a.1) read.1, read.2)
            else throw .malformed)
          (do
            let read ← scanTagText b.2
            if isSpaceOrEnd read.2.peek then return (Token.tag (some b.1) read.1, read.2)
            else throw .malformed) := by
      rintro ⟨handle, c⟩ ⟨_, d⟩ ⟨rfl, h⟩
      refine (scanTagText_abreast h).bind ?_
      rintro ⟨text, c⟩ ⟨_, d⟩ ⟨rfl, h⟩
      exact hend (some handle) text _ _ h
    have hnext : c.next.rest ≠ [] := by
      intro hover
      rw [Cursor.peek, List.drop_one, ← Cursor.rest_next, hover] at hgap
      exact hgap rfl
    refine .ite ?_ (fun _ => (scanHandle_abreast h (.refl _) hnext).bind hrest) fun _ =>
      hrest (_, _) (_, _) ⟨rfl, hbehind⟩
    rw [hasHandle_eq h]

theorem scanName_abreast (h : c.Meets m d) :
    Refines (Read m c.next) (scanName c) (scanName d) := by
  have hbehind : Abreast m c.next c.next d.next := ⟨h.next, .refl _⟩
  unfold scanName
  rw [h.next.run_eq (p := isNameChar) (by decide)]
  have hname := hbehind.skip (c.next.run isNameChar).length
  refine .ite ?_ (fun _ => .error) fun _ => .ok ⟨rfl, hname⟩
  rw [hname.meets.peek_eq (f := isGap) (by decide),
    hname.meets.peek_eq (f := "?:,]\x7d%@\x60".toList.contains) (by decide)]

theorem scanVersion_abreast (h : Abreast m s c d) :
    Refines (Read m s) (scanVersion c) (scanVersion d) := by
  unfold scanVersion
  dsimp only
  rw [h.meets.run_eq (p := fun ch => ch.isDigit) (by decide)]
  have hpoint := h.skip (c.run fun ch => ch.isDigit).length
  rw [hpoint.next.meets.run_eq (p := fun ch => ch.isDigit) (by decide)]
  have hafter := hpoint.next.skip
    ((c.skip (c.run fun ch => ch.isDigit).length).next.run fun ch => ch.isDigit).length
  refine .ite ?_ (fun _ => .error) fun _ => .ok ⟨rfl, hafter⟩
  rw [hpoint.meets.peek_eq (f := (· != '.')) (by decide),
    hafter.meets.peek_eq (f := isSpaceOrEnd) (by decide)]

/-- What follows the handle in a tag directive. -/
theorem tagDirective_abreast (handle : String) (h : Abreast m s c d) :
    Refines (Read m s)
      (do
        if c.peek != ' ' then throw .malformed
        let (start, c) ← scanTagText c.skipSpaces
        if !isSpaceOrEnd c.peek then throw .malformed
        return (Token.directive (.tag handle start), ← c.finishLine))
      (do
        if d.peek != ' ' then throw .malformed
        let (start, d) ← scanTagText d.skipSpaces
        if !isSpaceOrEnd d.peek then throw .malformed
        return (Token.directive (.tag handle start), ← d.finishLine)) := by
  by_cases hover : c.rest = []
  · -- a space may follow in the room, but no tag behind it
    refine .of_not_ok fun b hb => ?_
    dsimp only at hb
    split at hb
    · cases hb
    · obtain ⟨a, ha, -⟩ := bind_eq_ok hb
      refine scanTagText_over h.skipSpaces.meets ?_ a ha
      rw [Cursor.skipSpaces, Cursor.rest_skipWhile, hover, List.dropWhile_nil]
  · obtain ⟨-, rfl⟩ := h.meets.solid hover
    refine .ite ?_ (fun _ => .throw_bind) fun _ => (scanTagText_abreast h.skipSpaces).bind ?_
    · rw [Cursor.peek_within hover]
    rintro ⟨start, c⟩ ⟨_, d⟩ ⟨rfl, h⟩
    refine .ite ?_ (fun _ => .throw_bind) fun _ => h.finishLine.bind fun c' d' h' => ?_
    · rw [h.meets.peek_eq (f := isSpaceOrEnd) (by decide)]
    · exact .pure ⟨rfl, h'⟩

theorem scanDirective_abreast (h : c.Meets m d) :
    Refines (Read m c.next) (scanDirective c) (scanDirective d) := by
  have hbehind : Abreast m c.next c.next d.next := ⟨h.next, .refl _⟩
  -- the end of the line is read alike
  have hline : ∀ (x : Directive) (c' d' : Cursor), Abreast m c.next c' d' →
      Refines (Read m c.next) (do return (Token.directive x, ← c'.finishLine))
        (do return (Token.directive x, ← d'.finishLine)) := by
    intro x c' d' h'
    refine h'.finishLine.bind fun c'' d'' h'' => ?_
    exact .pure ⟨rfl, h''⟩
  unfold scanDirective
  simp only [pure_bind]
  rw [h.next.run_eq (p := isNameChar) (by decide)]
  have hname := hbehind.skip (c.next.run isNameChar).length
  refine .ite ?_ (fun _ => .throw_bind) fun _ => ?_
  · rw [hname.meets.peek_eq (f := isSpaceOrEnd) (by decide)]
  refine .ite Iff.rfl (fun _ => ?_) fun _ => ?_
  · refine (scanVersion_abreast hname.skipSpaces).bind ?_
    rintro ⟨major, c'⟩ ⟨_, d'⟩ ⟨rfl, h'⟩
    exact hline _ _ _ h'
  refine .ite Iff.rfl (fun _ => ?_) fun _ => ?_
  · have hhandle := hname.skipSpaces.next
    by_cases hnext : (c.next.skip (c.next.run isNameChar).length).skipSpaces.next.rest = []
    · -- the text ends within the handle, so nothing of a tag is left behind it
      refine .of_not_ok fun b hb => ?_
      obtain ⟨⟨handle, d'⟩, hd', hb⟩ := bind_eq_ok hb
      obtain rfl : d' = _ := scanHandle_over hname.skipSpaces.meets hnext hd'
      obtain ⟨a, ha, -⟩ := tagDirective_abreast handle hhandle b hb
      rw [Cursor.peek, hnext] at ha
      cases ha
    · refine (scanHandle_abreast hname.skipSpaces.meets hhandle.onward hnext).bind ?_
      rintro ⟨handle, c'⟩ ⟨_, d'⟩ ⟨rfl, h'⟩
      exact tagDirective_abreast handle h'
  · exact hline _ _ _ (hname.skipWhile _)

end BrowserFlow.Yaml
