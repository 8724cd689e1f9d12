import BrowserFlow.Proofs.Document.Refusal

/-!
# Documents that are joined

Two documents are joined by writing the steps of both as one list. If what was written is read back
(`Kept`), then the actions of the joined document are those of the first and then those of the
second, with their places counted on (`load_join`). Steps are read apart from each other, except
for their places (`readSteps_append`, `readSteps_numbered`), and that the steps of the two documents
are given new numbers before they are written changes no value (`value_renumber`).
-/

namespace BrowserFlow

namespace Yaml.Tree

mutual

theorem value_renumber (f : Nat → Nat) : ∀ t : Tree, (t.renumber f).value = t.value
  | .leaf _ _ => rfl
  | .list _ items => congrArg Value.list (values_renumberAll f items)
  | .pair a b => by
    show Value.pair (a.renumber f).value (b.renumber f).value = .pair a.value b.value
    rw [value_renumber f a, value_renumber f b]
  | .map _ entries => congrArg Value.map (entryValues_renumberEntries f entries)
  | .set _ items => congrArg Value.set (values_renumberAll f items)
  | .within _ => rfl
termination_by structural t => t

theorem values_renumberAll (f : Nat → Nat) : ∀ ts : List Tree, values (renumberAll f ts) = values ts
  | [] => rfl
  | t :: ts => by
    show (t.renumber f).value :: values (renumberAll f ts) = t.value :: values ts
    rw [value_renumber f t, values_renumberAll f ts]
termination_by structural ts => ts

theorem entryValues_renumberEntries (f : Nat → Nat) :
    ∀ es : List (Tree × Tree), entryValues (renumberEntries f es) = entryValues es
  | [] => rfl
  | (k, v) :: es => by
    show ((k.renumber f).value, (v.renumber f).value) :: entryValues (renumberEntries f es) =
      (k.value, v.value) :: entryValues es
    rw [value_renumber f k, value_renumber f v, entryValues_renumberEntries f es]
termination_by structural es => es

end

theorem values_append (ts us : List Tree) : values (ts ++ us) = values ts ++ values us := by
  induction ts with
  | nil => rfl
  | cons t ts ih => exact congrArg (value t :: ·) ih

end Yaml.Tree

namespace Document

variable {registry : Registry}

/-! ## Places -/

/-- Actions with their places counted from a number on. -/
def numbered (first : Nat) : List Action → List Action
  | [] => []
  | a :: rest => { a with index := first } :: numbered (first + 1) rest

@[simp] theorem length_numbered (first : Nat) (as : List Action) :
    (numbered first as).length = as.length := by
  induction as generalizing first with
  | nil => rfl
  | cons a rest ih => exact congrArg (· + 1) (ih (first + 1))

theorem numbered_append (first : Nat) (as bs : List Action) :
    numbered first (as ++ bs) = numbered first as ++ numbered (first + as.length) bs := by
  induction as generalizing first with
  | nil => rfl
  | cons a rest ih =>
    have hplace : first + (a :: rest).length = first + 1 + rest.length := by
      simp only [List.length_cons]
      omega
    rw [hplace]
    exact congrArg ({ a with index := first } :: ·) (ih (first + 1))

/-- What counts is the number that was given last. -/
theorem numbered_numbered (first other : Nat) (as : List Action) :
    numbered first (numbered other as) = numbered first as := by
  induction as generalizing first other with
  | nil => rfl
  | cons a rest ih => exact congrArg ({ a with index := first } :: ·) (ih (first + 1) (other + 1))

theorem numbered_append_numbered (first other : Nat) (as bs : List Action) :
    numbered first (numbered other as ++ bs) = numbered first (as ++ bs) := by
  rw [numbered_append, numbered_append, numbered_numbered, length_numbered]

/-- A step is read in the same way in any place. -/
theorem readStep_place {place : Nat} {entry : Value} {a : Action}
    (h : readStep registry place entry = .ok a) (other : Nat) :
    a.index = place ∧ readStep registry other entry = .ok { a with index := other } := by
  unfold readStep at h ⊢
  split at h
  · dsimp only at h ⊢
    split at h
    · cases h
    · split at h
      · cases h
        exact ⟨rfl, rfl⟩
      · cases h
  · cases h

theorem readSteps_numbered {place : Nat} {entries : List Value} {as : List Action}
    (h : (readSteps registry place entries).2 = .ok as) (other : Nat) :
    as.length = entries.length ∧
      (readSteps registry other entries).2 = .ok (numbered other as) := by
  induction entries generalizing place other as with
  | nil =>
    cases h
    exact ⟨rfl, rfl⟩
  | cons entry rest ih =>
    rw [readSteps_cons] at h
    cases hstep : readStep registry place entry with
    | error f =>
      rw [hstep] at h
      cases h
    | ok a =>
      rw [hstep] at h
      change (readSteps registry (place + 1) rest).2.map (a :: ·) = _ at h
      cases hrest : (readSteps registry (place + 1) rest).2 with
      | error f =>
        rw [hrest] at h
        cases h
      | ok bs =>
        rw [hrest] at h
        cases h
        obtain ⟨hlength, hread⟩ := ih hrest (other + 1)
        refine ⟨congrArg (· + 1) hlength, ?_⟩
        rw [readSteps_cons, (readStep_place hstep other).2]
        show (readSteps registry (other + 1) rest).2.map _ = _
        rw [hread]
        rfl

/-- Steps behind others are read from the place behind these on. -/
theorem readSteps_append {place : Nat} {entries more : List Value} {as bs : List Action}
    (has : (readSteps registry place entries).2 = .ok as)
    (hbs : (readSteps registry (place + entries.length) more).2 = .ok bs) :
    (readSteps registry place (entries ++ more)).2 = .ok (as ++ bs) := by
  induction entries generalizing place as with
  | nil =>
    cases has
    exact hbs
  | cons entry rest ih =>
    rw [readSteps_cons] at has
    cases hstep : readStep registry place entry with
    | error f =>
      rw [hstep] at has
      cases has
    | ok a =>
      rw [hstep] at has
      change (readSteps registry (place + 1) rest).2.map (a :: ·) = _ at has
      cases hrest : (readSteps registry (place + 1) rest).2 with
      | error f =>
        rw [hrest] at has
        cases has
      | ok cs =>
        rw [hrest] at has
        cases has
        have hplace : place + (entry :: rest).length = place + 1 + rest.length := by
          simp only [List.length_cons]
          omega
        rw [hplace] at hbs
        have hread := ih hrest hbs
        rw [List.cons_append, readSteps_cons, hstep]
        show (readSteps registry (place + 1) (rest ++ more)).2.map _ = _
        rw [hread]
        rfl

/-! ## Texts -/

/-- A text is read as actions by the steps that it spells out. -/
theorem load_ok_iff {text : String} {as : List Action} :
    (load registry text).2 = .ok as ↔
      ∃ entries, Yaml.load text = .ok (.list entries) ∧
        (readSteps registry 1 entries).2 = .ok as := by
  unfold load
  cases Yaml.load text with
  | error e =>
    refine iff_of_false (fun h => ?_) ?_
    · cases e <;> cases h
    · rintro ⟨entries, h, -⟩
      cases h
  | ok document =>
    dsimp only
    unfold read
    split
    · rename_i entries
      refine ⟨fun h => ⟨entries, rfl, h⟩, ?_⟩
      rintro ⟨_, h, hread⟩
      cases h
      exact hread
    · rename_i hnot
      refine iff_of_false (fun h => ?_) ?_
      · cases h
      · rintro ⟨entries, h, -⟩
        exact hnot entries (Except.ok.inj h)

/-- The places of a document are counted from one. -/
theorem numbered_load {text : String} {as : List Action} (h : (load registry text).2 = .ok as) :
    numbered 1 as = as := by
  obtain ⟨entries, -, hread⟩ := load_ok_iff.1 h
  exact Except.ok.inj ((readSteps_numbered hread 1).2.symm.trans hread)

/-- The list that is written for the steps of two documents. -/
def joined (xs ys : List Yaml.Tree) : Yaml.Tree :=
  .list 0 (Yaml.Tree.renumberAll (fun n => 2 * n + 1) xs ++
    Yaml.Tree.renumberAll (fun n => 2 * n + 2) ys)

theorem value_joined (xs ys : List Yaml.Tree) :
    (joined xs ys).value = .list (Yaml.Tree.values xs ++ Yaml.Tree.values ys) := by
  unfold joined
  rw [Yaml.Tree.value, Yaml.Tree.values_append, Yaml.Tree.values_renumberAll,
    Yaml.Tree.values_renumberAll]

/-- What is written for two documents that are joined is read back as it was. -/
def Kept (existing added : String) : Prop :=
  ∀ a b xs ys, Yaml.loadTree existing = .ok a → Yaml.loadTree added = .ok b →
    steps? a = some xs → steps? b = some ys →
    Yaml.load (Yaml.dumpTree (joined xs ys)) = .ok (joined xs ys).value

/-- The steps of a document that is read as a list are the items of that list. -/
theorem values_steps {text : String} {t : Option Yaml.Tree} {xs : List Yaml.Tree}
    {entries : List Value} (htree : Yaml.loadTree text = .ok t) (hsteps : steps? t = some xs)
    (hload : Yaml.load text = .ok (.list entries)) : Yaml.Tree.values xs = entries := by
  unfold Yaml.load at hload
  rw [htree] at hload
  have hvalue : (t.map Yaml.Tree.value).getD .null = .list entries := Except.ok.inj hload
  cases t with
  | none => cases hvalue
  | some t =>
    have hlist : t.value = .list entries := hvalue
    cases t with
    | list id items =>
      cases hsteps
      cases hlist
      rfl
    | leaf id v =>
      have hv : v = .list entries := hlist
      subst hv
      cases entries with
      | nil =>
        cases hsteps
        rfl
      | cons entry rest => cases hsteps
    | pair a b => cases hlist
    | map id es => cases hlist
    | set id items => cases hlist
    | within id => cases hlist

/-- Two documents that are joined, by their steps. -/
theorem join_ok {existing added document : String} (h : join existing added = .ok document) :
    ∃ a b xs ys, Yaml.loadTree existing = .ok a ∧ Yaml.loadTree added = .ok b ∧
      steps? a = some xs ∧ steps? b = some ys ∧ document = Yaml.dumpTree (joined xs ys) := by
  unfold join at h
  cases ha : Yaml.loadTree existing with
  | error e =>
    rw [ha] at h
    cases h
  | ok a =>
    cases hb : Yaml.loadTree added with
    | error e =>
      rw [ha, hb] at h
      cases h
    | ok b =>
      rw [ha, hb, Effect.mapError_ok, Effect.mapError_ok] at h
      dsimp only [bind, Except.bind] at h
      cases hxs : steps? a with
      | none =>
        rw [hxs] at h
        cases h
      | some xs =>
        cases hys : steps? b with
        | none =>
          rw [hxs, hys] at h
          cases h
        | some ys =>
          rw [hxs, hys] at h
          cases h
          exact ⟨a, b, xs, ys, rfl, rfl, hxs, hys, rfl⟩

/-- Two documents are kept if the one that they are joined to spells out the steps of both. -/
theorem kept_of_load {existing added document : String} {entries more : List Value}
    (hexisting : Yaml.load existing = .ok (.list entries))
    (hadded : Yaml.load added = .ok (.list more)) (hjoin : join existing added = .ok document)
    (hload : Yaml.load document = .ok (.list (entries ++ more))) : Kept existing added := by
  intro a b xs ys ha hb hxs hys
  obtain ⟨a', b', xs', ys', ha', hb', hxs', hys', rfl⟩ := join_ok hjoin
  cases ha.symm.trans ha'
  cases hb.symm.trans hb'
  cases hxs.symm.trans hxs'
  cases hys.symm.trans hys'
  rw [hload, value_joined, values_steps ha hxs hexisting, values_steps hb hys hadded]

/-- The actions of two documents that are joined. -/
theorem load_join {existing added document : String} {as bs : List Action}
    (hjoin : join existing added = .ok document) (hkept : Kept existing added)
    (has : (load registry existing).2 = .ok as) (hbs : (load registry added).2 = .ok bs) :
    (load registry document).2 = .ok (numbered 1 (as ++ bs)) := by
  obtain ⟨a, b, xs, ys, ha, hb, hxs, hys, rfl⟩ := join_ok hjoin
  obtain ⟨entries, hentries, hreads⟩ := load_ok_iff.1 has
  obtain ⟨more, hmore, hreadsMore⟩ := load_ok_iff.1 hbs
  have hjoined : (joined xs ys).value = .list (entries ++ more) := by
    rw [value_joined, values_steps ha hxs hentries, values_steps hb hys hmore]
  refine load_ok_iff.2 ⟨entries ++ more, ?_, ?_⟩
  · rw [← hjoined]
    exact hkept a b xs ys ha hb hxs hys
  · have hlength := (readSteps_numbered hreads 1).1
    have hbehind := (readSteps_numbered hreadsMore (1 + entries.length)).2
    rw [numbered_append, numbered_load has, hlength]
    exact readSteps_append hreads hbehind

/-! ## Clicks -/

/-- The targets of some steps, if each is a click on a text. -/
def targets? : List Value → Option (List String)
  | [] => some []
  | .map [(.text "click", .text target)] :: rest => (targets? rest).map (target :: ·)
  | _ => none

theorem targets?_eq_some {entries : List Value} {targets : List String}
    (h : targets? entries = some targets) :
    entries = targets.map fun target => .map [(.text "click", .text target)] := by
  fun_induction targets? entries generalizing targets with
  | case1 =>
    cases h
    rfl
  | case2 target rest ih =>
    obtain ⟨others, hothers, rfl⟩ := Option.map_eq_some_iff.mp h
    exact congrArg (_ :: ·) (ih hothers)
  | case3 => cases h

/-- The targets of the clicks that a text spells out, if it spells out nothing else. -/
def clicks? (text : String) : Option (List String) :=
  match Yaml.load text with
  | .ok (.list entries) => targets? entries
  | _ => none

theorem clicks?_eq_some {text : String} {targets : List String} (h : clicks? text = some targets) :
    Yaml.load text =
      .ok (.list (targets.map fun target => .map [(.text "click", .text target)])) := by
  unfold clicks? at h
  split at h
  · rename_i entries hload
    rw [hload, targets?_eq_some h]
  · cases h

/-- Documents of clicks are kept if their targets are. -/
theorem kept_of_clicks {existing added : String} {xs ys : List String}
    (hexisting : clicks? existing = some xs) (hadded : clicks? added = some ys)
    (hjoined : (join existing added).toOption.bind clicks? = some (xs ++ ys)) :
    Kept existing added := by
  cases hjoin : join existing added with
  | error f =>
    rw [hjoin] at hjoined
    cases hjoined
  | ok document =>
    rw [hjoin] at hjoined
    refine kept_of_load (clicks?_eq_some hexisting) (clicks?_eq_some hadded) hjoin ?_
    rw [← List.map_append]
    exact clicks?_eq_some hjoined

theorem kept_click_click : Kept "- click: a" "- click: b" := by
  have hexisting : clicks? "- click: a" = some ["a"] := by decide +kernel
  have hadded : clicks? "- click: b" = some ["b"] := by decide +kernel
  exact kept_of_clicks hexisting hadded (by decide +kernel)

end Document

end BrowserFlow
