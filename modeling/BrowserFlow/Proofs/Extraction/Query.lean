import BrowserFlow.Extraction.Query
import BrowserFlow.Proofs.Text.Scan
import Mathlib.Data.List.TakeWhile

/-!
# The look-up that a script is read for

A script can call `querySelector` or `querySelectorAll` many times, and the first call is the one
that is meant to be read (`FirstCall`). It is read at its own place and at none in front of it
(`FirstCall.findFirst?_text`). What is read never holds a quote (`no_quote_of_query?`), so that a
text that holds the other kind of quote is not read as it stands, and a call with blanks before its
bracket is passed over for what comes later (`FirstCall.query?_spaced`).
-/

namespace BrowserFlow.Extraction

open Text

/-- The names by which a script looks for elements. -/
def lookups : List (List Char) :=
  ["querySelector".toList, "querySelectorAll".toList]

/-- In some characters none of the names stands before a bracket. -/
def Uncalled (cs : List Char) : Prop :=
  ∀ name ∈ lookups, ∀ gap, (∀ c ∈ gap, isBlank c = true) → ¬ name ++ gap ++ ['('] <:+: cs

/-- The first look-up of a script, and that has one text in quotes for all its arguments. The text
may hold anything but the quote in which it stands. -/
structure FirstCall (script : String) where
  before : List Char
  name : List Char
  /-- What stands between the name and the bracket. -/
  gap : List Char
  lead : List Char
  quote : Char
  selector : String
  trail : List Char
  behind : List Char
  text : script.toList = before ++ (name ++ (gap ++ '(' ::
    (lead ++ quote :: (selector.toList ++ quote :: (trail ++ ')' :: behind)))))
  first : Uncalled before
  named : name ∈ lookups
  blanks : ∀ c ∈ gap ++ lead ++ trail, isBlank c = true
  quoted : isQuote quote = true
  full : selector ≠ ""
  closed : quote ∉ selector.toList

/-! ## One place -/

variable {cs rest : List Char} {name : List Char}

theorem queryCall?_eq_some :
    queryCall? cs = some rest ↔ ∃ name ∈ lookups, cs = name ++ '(' :: rest := by
  have hbind : queryCall? cs = (dropPrefix? "querySelector".toList cs).bind fun rest =>
      dropPrefix? ['('] ((dropPrefix? "All".toList rest).getD rest) := rfl
  have hall : "querySelectorAll".toList = "querySelector".toList ++ "All".toList := rfl
  have hbracket : ¬ "All".toList <+: '(' :: rest := by
    intro h
    exact absurd (List.cons_prefix_cons.1 h).1 (by decide)
  rw [hbind, Option.bind_eq_some_iff]
  unfold lookups
  simp only [dropPrefix?_eq_some, List.mem_cons, List.not_mem_nil, or_false, exists_eq_or_imp,
    exists_eq_left, hall]
  constructor
  · rintro ⟨behind, rfl, h⟩
    cases hdrop : dropPrefix? "All".toList behind with
    | none =>
      rw [hdrop, Option.getD_none] at h
      exact Or.inl (by rw [h]; rfl)
    | some rest' =>
      rw [hdrop, Option.getD_some] at h
      exact Or.inr (by rw [dropPrefix?_eq_some.1 hdrop, h, List.append_assoc]; rfl)
  · rintro (rfl | rfl)
    · refine ⟨_, rfl, ?_⟩
      have hnone : dropPrefix? "All".toList ('(' :: rest) = none := by
        rw [Option.eq_none_iff_forall_ne_some]
        intro behind h
        exact hbracket ⟨behind, (dropPrefix?_eq_some.1 h).symm⟩
      rw [hnone]
      rfl
    · refine ⟨_, List.append_assoc _ _ _, ?_⟩
      rw [dropPrefix?_eq_some.2 rfl]
      rfl

/-- What is read at a place stands behind a name, and holds no quote. -/
theorem of_queryHere? {selector : String} (h : queryHere? cs = some selector) :
    (∃ rest, queryCall? cs = some rest) ∧ ∀ c ∈ selector.toList, isQuote c = false := by
  unfold queryHere? at h
  obtain ⟨rest, hcall, h⟩ := Option.bind_eq_some_iff.1 h
  refine ⟨⟨rest, hcall⟩, ?_⟩
  dsimp only at h
  split at h
  · split at h
    · cases h
    · split at h
      · split at h
        · cases h
          rw [String.toList_ofList]
          intro c hc
          simpa using List.mem_takeWhile_imp hc
        · cases h
      · cases h
  · cases h

/-- At a name that its bracket follows the text in quotes is read, if it holds no quote. -/
theorem queryHere?_eq {lead trail behind : List Char} {quote : Char} {selector : String}
    (hname : name ∈ lookups) (hlead : ∀ c ∈ lead, isBlank c = true)
    (htrail : ∀ c ∈ trail, isBlank c = true) (hquote : isQuote quote = true)
    (hfull : selector ≠ "") (hplain : ∀ c ∈ selector.toList, isQuote c = false) :
    queryHere? (name ++ '(' :: (lead ++ quote :: (selector.toList ++ quote ::
      (trail ++ ')' :: behind)))) = some selector := by
  have hcall : ∀ rest, queryCall? (name ++ '(' :: rest) = some rest :=
    fun rest => queryCall?_eq_some.2 ⟨name, hname, rfl⟩
  have hnotBlank : ¬ isBlank quote = true := by
    unfold isQuote at hquote
    rw [Bool.or_eq_true, decide_eq_true_iff, decide_eq_true_iff] at hquote
    rcases hquote with rfl | rfl <;> decide
  have hopen : ∀ rest, (lead ++ quote :: rest).dropWhile isBlank = quote :: rest := fun rest => by
    rw [List.dropWhile_append_of_pos hlead, List.dropWhile_cons_of_neg hnotBlank]
  have hclose : (trail ++ ')' :: behind).dropWhile isBlank = ')' :: behind := by
    rw [List.dropWhile_append_of_pos htrail, List.dropWhile_cons_of_neg (by decide)]
  have hinside : ∀ c ∈ selector.toList, (!isQuote c) = true := fun c hc => by
    rw [hplain c hc, Bool.not_false]
  have hend : (!isQuote quote) = false := by rw [hquote]; rfl
  have htake : ∀ rest, (selector.toList ++ quote :: rest).takeWhile (!isQuote ·) =
      selector.toList := fun rest => by
    rw [List.takeWhile_append_of_pos hinside, List.takeWhile_cons, hend]
    exact List.append_nil _
  have hdrop : ∀ rest, (selector.toList ++ quote :: rest).dropWhile (!isQuote ·) =
      quote :: rest := fun rest => by
    rw [List.dropWhile_append_of_pos hinside, List.dropWhile_cons, hend]
    rfl
  have hsome : selector.toList.isEmpty = false := by
    rw [List.isEmpty_eq_false_iff]
    exact mt String.toList_eq_nil_iff.1 hfull
  unfold queryHere?
  rw [hcall, Option.bind_eq_bind, Option.bind_some]
  simp only [hopen, hquote, htake, hdrop, hsome, hclose, String.ofList_toList]
  rfl

/-! ## A whole script -/

theorem findFirst?_append {α : Type} {step : List Char → Option α} {front : List Char}
    (h : ∀ within, within <:+ front → within ≠ [] → step (within ++ cs) = none) :
    findFirst? step (front ++ cs) = findFirst? step cs := by
  induction front with
  | nil => rfl
  | cons c front ih =>
    have hfirst : step (c :: (front ++ cs)) = none := h _ List.suffix_rfl (List.cons_ne_nil c front)
    rw [List.cons_append, findFirst?, hfirst]
    exact ih fun within hwithin => h within (hwithin.trans (List.suffix_cons c front))

theorem exists_of_findFirst? {α : Type} {step : List Char → Option α} {found : α}
    (h : findFirst? step cs = some found) : ∃ rest, rest <:+ cs ∧ step rest = some found := by
  induction cs with
  | nil => exact ⟨[], List.suffix_rfl, h⟩
  | cons c cs ih =>
    rw [findFirst?] at h
    split at h
    · next hfirst => exact ⟨c :: cs, List.suffix_rfl, hfirst.trans h⟩
    · obtain ⟨rest, hrest, hstep⟩ := ih h
      exact ⟨rest, hrest.trans (List.suffix_cons c cs), hstep⟩

/-- What a script is read for never holds a quote. -/
theorem no_quote_of_query? {script selector : String} (h : query? script = some selector) :
    ∀ c ∈ selector.toList, isQuote c = false := by
  obtain ⟨rest, -, hrest⟩ := exists_of_findFirst? h
  exact (of_queryHere? hrest).2

theorem findFirst?_of_some {α : Type} {step : List Char → Option α} {found : α}
    (h : step cs = some found) : findFirst? step cs = some found := by
  cases cs with
  | nil => exact h
  | cons c cs => rw [findFirst?, h]

namespace FirstCall

variable {script : String} (F : FirstCall script)

/-- From the bracket on. -/
def arguments : List Char :=
  '(' :: (F.lead ++ F.quote :: (F.selector.toList ++ F.quote :: (F.trail ++ ')' :: F.behind)))

/-- The text holds no quote of either kind. -/
def Plain : Prop :=
  ∀ c ∈ F.selector.toList, isQuote c = false

instance : Decidable F.Plain :=
  decidable_of_iff (F.selector.toList.all (!isQuote ·) = true) (by
    rw [Plain, List.all_eq_true]
    simp only [Bool.not_eq_true'])

theorem toList_eq : script.toList = F.before ++ (F.name ++ (F.gap ++ F.arguments)) :=
  F.text

/-- In front of the first look-up nothing is read: a name begins with a letter that is nowhere else
in it, so that no name in front reaches into that of the look-up. -/
theorem findFirst?_text :
    query? script = findFirst? queryHere? (F.name ++ (F.gap ++ F.arguments)) := by
  have hhead : ∀ name ∈ lookups, ∃ tail, name = 'q' :: tail ∧ 'q' ∉ tail ++ ['('] := by
    unfold lookups
    simp only [List.mem_cons, List.not_mem_nil, or_false, forall_eq_or_imp, forall_eq]
    exact ⟨⟨_, rfl, by decide⟩, ⟨_, rfl, by decide⟩⟩
  unfold query?
  rw [F.toList_eq]
  refine findFirst?_append fun within hwithin hne => ?_
  rw [Option.eq_none_iff_forall_ne_some]
  intro selector hread
  obtain ⟨⟨rest, hcall⟩, -⟩ := of_queryHere? hread
  obtain ⟨name, hname, hsplit⟩ := queryCall?_eq_some.1 hcall
  obtain ⟨tail, htail, -⟩ := hhead F.name F.named
  have hprefix : name ++ ['('] <+: within ++ 'q' :: (tail ++ (F.gap ++ F.arguments)) := by
    refine ⟨rest, ?_⟩
    rw [List.append_assoc, List.singleton_append, ← hsplit, htail, List.cons_append]
  rcases isPrefix_append_cons hprefix with hfront | ⟨rest, -, hacross⟩
  · refine F.first name hname [] (by simp) ?_
    rw [List.append_nil]
    exact hfront.isInfix.trans hwithin.isInfix
  · obtain ⟨tail, rfl, hnone⟩ := hhead name hname
    cases within with
    | nil => exact hne rfl
    | cons c within =>
      have htail : tail ++ ['('] = within ++ 'q' :: rest := (List.cons.inj hacross).2
      rw [htail] at hnone
      exact hnone (List.mem_append_right within List.mem_cons_self)

variable {F}

theorem query?_of_plain (hgap : F.gap = []) (hplain : F.Plain) :
    query? script = some F.selector := by
  have hblank : ∀ {c : Char}, c ∈ F.lead ∨ c ∈ F.trail → isBlank c = true := by
    intro c hc
    refine F.blanks c ?_
    simp only [List.mem_append]
    rcases hc with hc | hc
    · exact Or.inl (Or.inr hc)
    · exact Or.inr hc
  rw [F.findFirst?_text, hgap, List.nil_append]
  exact findFirst?_of_some (queryHere?_eq F.named (fun c hc => hblank (Or.inl hc))
    (fun c hc => hblank (Or.inr hc)) F.quoted F.full hplain)

/-- If the bracket follows the name at once, the text is read exactly if it holds no quote. -/
theorem query?_eq_iff (hgap : F.gap = []) : query? script = some F.selector ↔ F.Plain :=
  ⟨no_quote_of_query?, query?_of_plain hgap⟩

/-- If there are blanks before the bracket, what comes behind is read instead. -/
theorem query?_spaced (hgap : F.gap ≠ []) :
    query? script = findFirst? queryHere? F.arguments := by
  have hnames : ∀ name ∈ lookups, '(' ∉ name ∧ ∀ c ∈ name, isBlank c = false := by
    have hall : (lookups.all fun name => !name.contains '(' && name.all (!isBlank ·)) = true := by
      decide
    simpa using hall
  have hgapBlank : ∀ c ∈ F.gap, isBlank c = true := fun c hc =>
    F.blanks c (List.mem_append_left _ (List.mem_append_left _ hc))
  have hbracket : '(' ∉ F.name ++ F.gap := by
    rw [List.mem_append, not_or]
    refine ⟨(hnames F.name F.named).1, fun hmem => ?_⟩
    exact absurd (hgapBlank _ hmem) (by decide)
  rw [F.findFirst?_text, ← List.append_assoc]
  refine findFirst?_append fun within hwithin hne => ?_
  rw [Option.eq_none_iff_forall_ne_some]
  intro selector hread
  obtain ⟨⟨rest, hcall⟩, -⟩ := of_queryHere? hread
  obtain ⟨name, hname, hsplit⟩ := queryCall?_eq_some.1 hcall
  obtain ⟨hopen, hletters⟩ := hnames name hname
  have hprefix : name ++ ['('] <+: within ++ F.arguments :=
    ⟨rest, by rw [hsplit, List.append_assoc, List.singleton_append]⟩
  -- the brackets are the same one, so that the name would end in a blank
  rcases isPrefix_append_cons hprefix with hin | ⟨args, -, hname'⟩
  · exact hbracket (hwithin.subset (hin.subset (List.mem_append_right name List.mem_cons_self)))
  obtain ⟨rfl, -⟩ := (List.append_cons_inj_of_notMem hopen List.not_mem_nil).1 hname'
  obtain ⟨c, hc⟩ := Option.isSome_iff_exists.1 (List.getLast?_isSome.2 hgap)
  have hlast : name.getLast? = some c := by
    obtain ⟨front, hfront⟩ := hwithin
    have hwhole : (front ++ name).getLast? = some c := by
      rw [hfront, List.getLast?_append_of_ne_nil _ hgap, hc]
    rwa [List.getLast?_append_of_ne_nil _ hne] at hwhole
  have hblank := hgapBlank c (List.mem_of_getLast? hc)
  rw [hletters c (List.mem_of_getLast? hlast)] at hblank
  cases hblank

end FirstCall

end BrowserFlow.Extraction
