import BrowserFlow.Step.Reader

/-!
# The two notations of a step

The argument of a command is a mapping of options, or a shorthand for one: a text that stands for
the value of one option, a text of a selector with what belongs to it, or the number of milliseconds
to wait. `Shorthand` pairs each shorthand with its options, and `read_shorthand_eq` says that both
notations are read as the same step, or are refused with the same cause.

Each command reads its two notations on its own. What they have in common is how an option is looked
up: `Value.Lists` says all that a reader sees of a mapping, and from it comes one lemma for each
kind of option.
-/

namespace BrowserFlow

/-! ## Options -/

/-- The value is a mapping in which these options are given, in any order, and no others. -/
structure Value.Lists (raw : Value) (fields : Table Value) : Prop where
  isMap : ∃ entries, raw = .map entries
  field? : ∀ key, raw.field? key = fields.get? key

theorem Value.lists_record (fields : Table Value) : (Value.record fields).Lists fields where
  isMap := ⟨_, rfl⟩
  field? key := by
    show Value.lookup (fields.map fun f => (Value.text f.1, f.2)) (.text key) = fields.get? key
    induction fields with
    | nil => rfl
    | cons f rest ih =>
      unfold Value.lookup at ih ⊢
      rw [Table.get?_cons, List.map_cons, List.find?_cons]
      have hsame : (Value.text f.1).same (.text key) = (f.1 == key) := rfl
      rw [hsame]
      by_cases hk : f.1 = key
      · rw [if_pos hk, beq_iff_eq.2 hk]
        rfl
      · rw [if_neg hk, beq_eq_false_iff_ne.2 hk]
        exact ih

namespace Step

section

variable {raw : Value} {fields : Table Value} {key s : String}

theorem field_of_lists (h : raw.Lists fields) (key : String) :
    raw.field key = (fields.get? key).getD .null := by
  unfold Value.field
  rw [h.field?]

theorem ok_bind {α β : Type} (a : α) (f : α → Except StepError β) :
    (Except.ok a >>= f) = f a := rfl

theorem truthy_text (hs : s ≠ "") : (Value.text s).truthy = true := by
  show (!s.isEmpty) = true
  rw [Bool.not_eq_true', Bool.eq_false_iff, Ne, String.isEmpty_iff]
  exact hs

/-- The first of some options is the required one if it is a text that is not empty. -/
theorem required_text (h : raw.field key = .text s) (hs : s ≠ "") (command : String)
    (others : List String) : required command raw (key :: others) = .ok (.text s) := by
  unfold required
  rw [List.findSome?_cons, h]
  simp [hs]

theorem textOption_text (h : raw.field key = .text s) : textOption raw key = some s := by
  unfold textOption
  rw [h]
  rfl

theorem textOption_absent (h : raw.field key = .null) : textOption raw key = none := by
  unfold textOption
  rw [h]

theorem readLimit_absent (h : raw.field "timeout" = .null) : readLimit raw = .ok none := by
  unfold readLimit
  rw [h]

theorem firstTrue_null (v : Value) : firstTrue .null v = v := rfl

theorem firstOf_absent {first second : String} (h₁ : raw.field first = .null)
    (h₂ : raw.field second = .null) (default : Value) :
    firstOf raw first second default = default := by
  unfold firstOf
  rw [h₁, h₂, firstTrue_null, firstTrue_null]

end

/-! ## Shorthands -/

/-- The option for which a text alone stands. -/
def soleOption? : Command → Option String
  | .navigate => some "url"
  | .click | .hover | .assert | .wait => some "selector"
  | .screenshot => some "path"
  | .evaluate => some "script"
  | .press => some "key"
  | _ => none

/-- The option for what follows the selector in a text of two parts. -/
def restOption? : Command → Option String
  | .typeText => some "text"
  | .select | .fillForm => some "value"
  | _ => none

/-- A shorthand of a command with the options for which it stands. A text of two parts is parted at
its first space. -/
inductive Shorthand : Command → Value → Table Value → Prop
  | sole {c : Command} {key s : String} (hkey : soleOption? c = some key) (hs : s ≠ "")
      (htrim : Text.trim s = s) : Shorthand c (.text s) [(key, .text s)]
  | parts {c : Command} {key s selector rest : String} (hkey : restOption? c = some key)
      (htrim : Text.trim s = selector ++ " " ++ rest) (hfirst : ' ' ∉ selector.toList)
      (hselector : selector ≠ "") (hrest : rest ≠ "") :
      Shorthand c (.text s) [("selector", .text selector), (key, .text rest)]
  | whole (n : Int) : Shorthand .wait (.int n) [("time", .int n)]
  | real (x : Float) : Shorthand .wait (.float x) [("time", .float x)]

/-- A text with a space in it is parted at the first one. -/
theorem cutAt_first {selector rest : String} (hfirst : ' ' ∉ selector.toList) :
    Text.cutAt ' ' (selector ++ " " ++ rest) = (selector, some rest) := by
  have hlist : (selector ++ " " ++ rest).toList = selector.toList ++ ' ' :: rest.toList := by simp
  have hbefore : ∀ c ∈ selector.toList, (c != ' ') = true := fun c hc =>
    bne_iff_ne.2 fun h => hfirst (h ▸ hc)
  unfold Text.cutAt
  dsimp only
  rw [hlist, List.dropWhile_append_of_pos hbefore, List.takeWhile_append_of_pos hbefore]
  simp

theorem splitShorthand_parts {s selector rest : String}
    (htrim : Text.trim s = selector ++ " " ++ rest) (hfirst : ' ' ∉ selector.toList)
    (hselector : selector ≠ "") (hrest : rest ≠ "") (command : String) :
    splitShorthand command s = .ok (.text (Selector.normalize selector), rest) := by
  unfold splitShorthand
  rw [htrim, cutAt_first hfirst]
  simp [hselector, hrest]

/-! ## Both notations -/

section

variable {c : Command} {raw : Value}

/-- A text alone is read as the option for which it stands. -/
theorem read_sole {key s : String} (hkey : soleOption? c = some key) (hs : s ≠ "")
    (htrim : Text.trim s = s) (h : raw.Lists [(key, .text s)]) :
    ∃ step, read c (.text s) = .ok step ∧ read c raw = .ok step := by
  have hgiven : raw.field key = .text s := by
    rw [field_of_lists h, Table.get?_cons, if_pos rfl, Option.getD_some]
  have hgiven? : raw.field? key = some (.text s) := by
    rw [h.field?, Table.get?_cons, if_pos rfl]
  have habsent? : ∀ other, key ≠ other → raw.field? other = none := by
    intro other hother
    rw [h.field?, Table.get?_cons, if_neg hother, Table.get?_nil]
  have habsent : ∀ other, key ≠ other → raw.field other = .null := by
    intro other hother
    rw [Value.field, habsent? other hother, Option.getD_none]
  have hrequired := required_text hgiven hs
  have htrue := truthy_text hs
  obtain ⟨entries, rfl⟩ := h.isMap
  cases c <;> cases hkey
  case navigate =>
    have hlimit := readLimit_absent (habsent "timeout" (by decide))
    have hevent := firstOf_absent (habsent "waitUntil" (by decide))
      (habsent "wait_until" (by decide))
    refine ⟨_, rfl, ?_⟩
    simp only [read, readNavigate, options, ok_bind, hrequired, hlimit, hevent]
    rfl
  case click =>
    have hlimit := readLimit_absent (habsent "timeout" (by decide))
    have hclicks := firstOf_absent (habsent "clickCount" (by decide))
      (habsent "click_count" (by decide))
    have hbutton := habsent "button" (by decide)
    refine ⟨_, rfl, ?_⟩
    simp only [read, readClick, options, ok_bind, hrequired, hclicks, hbutton, hlimit]
    rfl
  case wait =>
    have hlimit := readLimit_absent (habsent "timeout" (by decide))
    have hstate := habsent "state" (by decide)
    refine ⟨_, rfl, ?_⟩
    simp only [read, readWait, readWaitOptions, options, ok_bind, hgiven, htrue, if_true, hstate,
      hlimit]
    rfl
  case screenshot =>
    have hfile := habsent "filename" (by decide)
    have hfull := habsent? "fullPage" (by decide)
    have hpage := habsent? "full_page" (by decide)
    have htype := habsent "type" (by decide)
    refine ⟨_, rfl, ?_⟩
    simp only [read, readScreenshot, options, ok_bind, firstOf, hgiven, hfile, hfull, hpage, htype,
      firstTrue, htrue, if_true, htrim]
    rfl
  case evaluate =>
    have hformat := habsent "format" (by decide)
    have hfile := habsent "filename" (by decide)
    refine ⟨_, rfl, ?_⟩
    simp only [read, readEvaluate, options, ok_bind, hrequired, trueOption, hformat, hfile]
    rfl
  case hover =>
    have hlimit := readLimit_absent (habsent "timeout" (by decide))
    have hposition := habsent "position" (by decide)
    refine ⟨_, rfl, ?_⟩
    simp only [read, readHover, options, ok_bind, hrequired, hposition, hlimit]
    rfl
  case assert =>
    have hlimit := readLimit_absent (habsent "timeout" (by decide))
    have htext := textOption_absent (habsent "text" (by decide))
    have hvalue := textOption_absent (habsent "value" (by decide))
    have hvisible := habsent "visible" (by decide)
    refine ⟨_, rfl, ?_⟩
    simp only [read, readAssert, options, ok_bind, hrequired, htext, hvalue, hvisible, hlimit]
    rfl
  case press =>
    have hselector := habsent "selector" (by decide)
    refine ⟨_, rfl, ?_⟩
    simp only [read, readPress, options, ok_bind, hrequired, hselector, htrim]
    rfl

/-- A text of two parts is read as a selector and the option for what follows it. -/
theorem read_parts {key s selector rest : String} (hkey : restOption? c = some key)
    (htrim : Text.trim s = selector ++ " " ++ rest) (hfirst : ' ' ∉ selector.toList)
    (hselector : selector ≠ "") (hrest : rest ≠ "")
    (h : raw.Lists [("selector", .text selector), (key, .text rest)]) :
    ∃ step, read c (.text s) = .ok step ∧ read c raw = .ok step := by
  have hsplit := splitShorthand_parts htrim hfirst hselector hrest
  have hgiven : raw.field "selector" = .text selector := by
    rw [field_of_lists h, Table.get?_cons, if_pos rfl, Option.getD_some]
  have hrequired := required_text hgiven hselector
  have habsent : ∀ other, "selector" ≠ other → key ≠ other → raw.field other = .null := by
    intro other hother hkother
    rw [field_of_lists h, Table.get?_cons, if_neg hother, Table.get?_cons, if_neg hkother,
      Table.get?_nil, Option.getD_none]
  have hbehind : "selector" ≠ key → textOption raw key = some rest := by
    intro hne
    refine textOption_text ?_
    rw [field_of_lists h, Table.get?_cons, if_neg hne, Table.get?_cons, if_pos rfl,
      Option.getD_some]
  obtain ⟨entries, rfl⟩ := h.isMap
  cases c <;> cases hkey
  case typeText =>
    have hlimit := readLimit_absent (habsent "timeout" (by decide) (by decide))
    have hdelay := habsent "delay" (by decide) (by decide)
    have hsubmit := habsent "submit" (by decide) (by decide)
    have henter := habsent "enter" (by decide) (by decide)
    refine ⟨.typeText (.text (Selector.normalize selector)) rest 0 false none, ?_, ?_⟩
    · simp only [read, readType, hsplit, ok_bind]
      rfl
    · simp only [read, readType, options, ok_bind, hbehind (by decide), hrequired, hdelay, hsubmit,
        henter, hlimit]
      rfl
  case select =>
    have hlimit := readLimit_absent (habsent "timeout" (by decide) (by decide))
    refine ⟨.select (.text (Selector.normalize selector)) (.value rest) none, ?_, ?_⟩
    · simp only [read, readSelect, hsplit, ok_bind]
      rfl
    · simp only [read, readSelect, readChoice, options, ok_bind, hbehind (by decide), hrequired,
        hlimit]
      rfl
  case fillForm =>
    have hlimit := readLimit_absent (habsent "timeout" (by decide) (by decide))
    have hform := habsent "form" (by decide) (by decide)
    refine ⟨.fillForm [⟨.text (Selector.normalize selector), rest⟩] none, ?_, ?_⟩
    · simp only [read, readFill, hsplit, ok_bind]
      rfl
    · simp only [read, readFill, options, ok_bind, hform, hbehind (by decide), hrequired, hlimit]
      rfl

/-- A time that is given alone is waited for, if it is a whole number of milliseconds. -/
theorem readWait_time {n : Value} (hn : n.isNull = false) (h : raw.Lists [("time", n)]) :
    readWait raw = (whole n).bind fun ms => .ok (.waitTime ms none) := by
  have hgiven : raw.field "time" = n := by
    rw [field_of_lists h, Table.get?_cons, if_pos rfl, Option.getD_some]
  have habsent : ∀ other, "time" ≠ other → raw.field other = .null := by
    intro other hother
    rw [field_of_lists h, Table.get?_cons, if_neg hother, Table.get?_nil, Option.getD_none]
  have hlimit := readLimit_absent (habsent "timeout" (by decide))
  have hselector : (raw.field "selector").truthy = false := by
    rw [habsent "selector" (by decide)]
    rfl
  obtain ⟨entries, rfl⟩ := h.isMap
  simp only [readWait, readWaitOptions, options, ok_bind, hselector, hgiven, hn, hlimit,
    Bool.false_eq_true, if_false, Bool.not_false, if_true]
  rfl

end

/-- A shorthand and the options for which it stands are read as the same step, with the same
arguments, or are refused with the same cause; a shorthand that is a text is never refused. -/
theorem read_shorthand_eq {c : Command} {short : Value} {fields : Table Value}
    (h : Shorthand c short fields) {raw : Value} (hraw : raw.Lists fields) :
    read c short = read c raw ∧ (short.isText = true → ∃ step, read c short = .ok step) := by
  cases h with
  | sole hkey hs htrim =>
    obtain ⟨step, hshort, hoptions⟩ := read_sole hkey hs htrim hraw
    exact ⟨hshort.trans hoptions.symm, fun _ => ⟨step, hshort⟩⟩
  | parts hkey htrim hfirst hselector hrest =>
    obtain ⟨step, hshort, hoptions⟩ := read_parts hkey htrim hfirst hselector hrest hraw
    exact ⟨hshort.trans hoptions.symm, fun _ => ⟨step, hshort⟩⟩
  | whole n => exact ⟨(readWait_time rfl hraw).symm, fun htext => nomatch htext⟩
  | real x => exact ⟨(readWait_time rfl hraw).symm, fun htext => nomatch htext⟩

/-- Typing what follows the first space, quotes, spaces and all, into the field before it, with the
options in the other order. -/
theorem read_shorthand_eq_quoted :
    let fields := [("text", Value.text " two \"words\""), ("selector", .text "input[name='q']")]
    Shorthand .typeText (.text "input[name='q']  two \"words\"") fields.reverse ∧
      (Value.record fields).Lists fields.reverse ∧
      read .typeText (.text "input[name='q']  two \"words\"") =
        read .typeText (.record fields) ∧
      ∃ step, read .typeText (.text "input[name='q']  two \"words\"") = .ok step := by
  intro fields
  have hshort : Shorthand .typeText (.text "input[name='q']  two \"words\"") fields.reverse :=
    .parts rfl (by decide +kernel) (by decide) (by decide) (by decide)
  have hlists : (Value.record fields).Lists fields.reverse := by
    refine ⟨⟨_, rfl⟩, fun key => ?_⟩
    rw [(Value.lists_record fields).field?]
    show (if "text" = key then _ else if "selector" = key then _ else none) =
      if "selector" = key then _ else if "text" = key then _ else none
    -- of the two names at most one is the key
    by_cases htext : "text" = key
    · rw [if_pos htext, if_neg (by rw [← htext]; decide), if_pos htext]
    · rw [if_neg htext, if_neg htext]
  have hread := read_shorthand_eq hshort hlists
  exact ⟨hshort, hlists, hread.1, hread.2 rfl⟩

end Step

end BrowserFlow
