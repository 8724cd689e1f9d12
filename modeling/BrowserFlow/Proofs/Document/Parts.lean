import BrowserFlow.Proofs.Document.Joining

/-!
# Documents in parts

A step is read by itself. Its place goes into the action, or into the refusal, and decides nothing
(`readStep_onward`), so a list of steps is read as its first part is, and behind that as the other
part with all places counted on (`readSteps_parts`). The name of a command decides nothing either,
except which handler it finds (`readStep_renamed`).
-/

namespace BrowserFlow

/-- An action as many places further on. -/
def Action.onward (n : Nat) (a : Action) : Action :=
  { a with index := a.index + n }

/-- A refusal whose step is as many places further on. -/
def Failure.onward (n : Nat) : Failure → Failure
  | document d => document { d with place := d.place.map (· + (n : Int)) }
  | f => f

/-- A refusal without the text or the value at fault. -/
def Failure.unsourced : Failure → Failure
  | document d => document { d with source := none }
  | f => f

namespace Document

variable {registry : Registry}

/-! ## Places -/

theorem argumentFailure_onward (place n : Nat) (entry : Value) (cause : StepError) :
    argumentFailure (place + n) entry cause = (argumentFailure place entry cause).onward n := by
  unfold argumentFailure
  split <;> rfl

theorem readStep_onward (place n : Nat) (entry : Value) :
    readStep registry (place + n) entry =
      ((readStep registry place entry).map (Action.onward n)).mapError (Failure.onward n) := by
  unfold readStep
  split
  · dsimp only
    split
    · rfl
    · split
      · rfl
      · exact congrArg Except.error (argumentFailure_onward ..)
  · rfl

/-- Steps are read in the same way further on. -/
theorem readSteps_onward (place n : Nat) (entries : List Value) :
    (readSteps registry (place + n) entries).2 =
      ((readSteps registry place entries).2.map (List.map (Action.onward n))).mapError
        (Failure.onward n) := by
  induction entries generalizing place with
  | nil => rfl
  | cons entry rest ih =>
    have hrest := ih (place + 1)
    rw [Nat.add_right_comm] at hrest
    rw [readSteps_cons, readSteps_cons, readStep_onward, hrest]
    cases readStep registry place entry with
    | error f => rfl
    | ok a => cases (readSteps registry (place + 1) rest).2 <;> rfl

/-- The steps of a second part are only come to if those of the first are read. -/
theorem readSteps_parts (place : Nat) (entries more : List Value) :
    (readSteps registry place (entries ++ more)).2 =
      (readSteps registry place entries).2.bind fun as =>
        (readSteps registry (place + entries.length) more).2.map (as ++ ·) := by
  induction entries generalizing place with
  | nil =>
    show (readSteps registry place more).2 = (readSteps registry place more).2.map ([] ++ ·)
    cases (readSteps registry place more).2 <;> rfl
  | cons entry rest ih =>
    have hplace : place + (entry :: rest).length = place + 1 + rest.length := by
      simp only [List.length_cons]
      omega
    rw [List.cons_append, readSteps_cons, readSteps_cons, hplace, ih (place + 1)]
    cases readStep registry place entry with
    | error f => rfl
    | ok a =>
      cases (readSteps registry (place + 1) rest).2 with
      | error f => rfl
      | ok as => cases (readSteps registry (place + 1 + rest.length) more).2 <;> rfl

theorem indices_numbered (first : Nat) (as : List Action) :
    (numbered first as).map (·.index) = List.range' first as.length := by
  induction as generalizing first with
  | nil => rfl
  | cons a rest ih => exact congrArg (first :: ·) (ih (first + 1))

/-- The actions of some steps are counted from the place of the first on. -/
theorem indices_readSteps {place : Nat} {entries : List Value} {as : List Action}
    (h : (readSteps registry place entries).2 = .ok as) :
    as.map (·.index) = List.range' place entries.length := by
  obtain ⟨hlength, hread⟩ := readSteps_numbered h place
  have hnumbered : numbered place as = as := Except.ok.inj (hread.symm.trans h)
  rw [← hlength, ← indices_numbered, hnumbered]

/-- The place of a refusal is that of one of the steps. -/
theorem place_readSteps {place : Nat} {entries : List Value} {d : DocumentFailure}
    (h : (readSteps registry place entries).2 = .error (.document d)) :
    ∃ i : Nat, d.place = some (i : Int) ∧ place ≤ i ∧ i < place + entries.length := by
  induction entries generalizing place with
  | nil => cases h
  | cons entry rest ih =>
    rw [readSteps_cons] at h
    cases hstep : readStep registry place entry with
    | error f =>
      rw [hstep] at h
      cases h
      refine ⟨place, ?_, Nat.le_refl place, Nat.lt_add_of_pos_right (Nat.succ_pos _)⟩
      unfold readStep at hstep
      split at hstep
      · dsimp only at hstep
        split at hstep
        · cases hstep
          rfl
        · split at hstep
          · cases hstep
          · unfold argumentFailure at hstep
            split at hstep
            · cases hstep
            · cases hstep
              rfl
      · cases hstep
        rfl
    | ok a =>
      rw [hstep] at h
      change (readSteps registry (place + 1) rest).2.map (a :: ·) = _ at h
      cases hrest : (readSteps registry (place + 1) rest).2 with
      | ok as =>
        rw [hrest] at h
        cases h
      | error f =>
        rw [hrest] at h
        cases h
        obtain ⟨i, hi, hfrom, hto⟩ := ih hrest
        rw [List.length_cons]
        exact ⟨i, hi, by omega, by omega⟩

/-! ## Names -/

/-- A command is read in the same way under each of its names. -/
theorem readStep_renamed {key key' : Value} {handler : Handler}
    (hkey : registry.get? key.plainText = some handler)
    (hkey' : registry.get? key'.plainText = some handler) (place : Nat) (argument : Value) :
    (readStep registry place (.map [(key, argument)])).mapError Failure.unsourced =
      (readStep registry place (.map [(key', argument)])).mapError Failure.unsourced := by
  simp only [readStep, hkey, hkey']
  cases Step.read handler.command argument with
  | ok step => rfl
  | error cause =>
    refine congrArg Except.error ?_
    unfold argumentFailure
    split <;> rfl

/-- Steps that are read in the same way can stand for each other among other steps. -/
theorem readSteps_replaced {place : Nat} {entry entry' : Value} (before behind : List Value)
    (h : ∀ place, (readStep registry place entry).mapError Failure.unsourced =
      (readStep registry place entry').mapError Failure.unsourced) :
    (readSteps registry place (before ++ entry :: behind)).2.mapError Failure.unsourced =
      (readSteps registry place (before ++ entry' :: behind)).2.mapError Failure.unsourced := by
  rw [readSteps_parts, readSteps_parts]
  cases (readSteps registry place before).2 with
  | error f => rfl
  | ok as =>
    have hentry := h (place + before.length)
    simp only [Except.bind, readSteps_cons]
    cases hread : readStep registry (place + before.length) entry with
    | error f =>
      rw [hread] at hentry
      cases hread' : readStep registry (place + before.length) entry' with
      | error f' =>
        rw [hread'] at hentry
        exact congrArg Except.error (Except.error.inj hentry)
      | ok a =>
        rw [hread'] at hentry
        cases hentry
    | ok a =>
      rw [hread] at hentry
      cases hread' : readStep registry (place + before.length) entry' with
      | error f' =>
        rw [hread'] at hentry
        cases hentry
      | ok a' =>
        rw [hread'] at hentry
        cases hentry
        rfl

/-! ## Both -/

/-- Reading two lists of steps as one gives the refusal of the first; else the actions of both, or
the refusal of the second, with the places of the second counted on. The actions of a list are
counted from one, and the place of a refusal is that of one of its steps. A step of one command may
call it by any name that finds the same handler: the actions are the same, and so is a refusal
except for the value that it shows. -/
theorem read_by_parts (registry : Registry) (source : Option String) (entries more : List Value) :
    (read registry source (.list (entries ++ more))).2 =
      ((read registry source (.list entries)).2.bind fun as =>
        ((read registry source (.list more)).2.map fun bs =>
          as ++ bs.map (Action.onward entries.length)).mapError
            (Failure.onward entries.length)) ∧
    (∀ as, (read registry source (.list entries)).2 = .ok as →
      as.map (·.index) = List.range' 1 entries.length) ∧
    (∀ f, (read registry source (.list entries)).2 = .error f → (∃ g, f = .fault g) ∨
      ∃ d, f = .document d ∧ ∃ i : Nat, d.place = some (i : Int) ∧ 1 ≤ i ∧ i ≤ entries.length) ∧
    ∀ key key' argument handler, registry.get? key.plainText = some handler →
      registry.get? key'.plainText = some handler →
      (read registry source
          (.list (entries ++ .map [(key, argument)] :: more))).2.mapError Failure.unsourced =
        (read registry source
          (.list (entries ++ .map [(key', argument)] :: more))).2.mapError Failure.unsourced := by
  refine ⟨?_, fun as h => indices_readSteps h, fun f h => ?_, ?_⟩
  · show (readSteps registry 1 (entries ++ more)).2 = _
    rw [readSteps_parts, readSteps_onward]
    show (readSteps registry 1 entries).2.bind _ = (readSteps registry 1 entries).2.bind _
    cases (readSteps registry 1 entries).2 with
    | error f => rfl
    | ok as =>
      show _ = ((readSteps registry 1 more).2.map _).mapError _
      cases (readSteps registry 1 more).2 <;> rfl
  · have h : (readSteps registry 1 entries).2 = .error f := h
    rcases readSteps_error h with ⟨d, rfl⟩ | ⟨g, rfl⟩
    · obtain ⟨i, hi, hfrom, hto⟩ := place_readSteps h
      exact Or.inr ⟨d, rfl, i, hi, hfrom, by omega⟩
    · exact Or.inl ⟨g, rfl⟩
  · intro key key' argument handler hkey hkey'
    exact readSteps_replaced entries more fun place => readStep_renamed hkey hkey' place argument

/-- An address is gone to by either name of the command, in the second step as well. -/
theorem read_by_parts_goto :
    Registry.standard.get? "goto" = some Command.navigate.handler ∧
      Registry.standard.get? "navigate" = some Command.navigate.handler ∧
      (read .standard none (.list ([.map [(.text "press", .text "End")]] ++
          .map [(.text "goto", .text "a.example")] :: []))).2.mapError Failure.unsourced =
        (read .standard none (.list ([.map [(.text "press", .text "End")]] ++
          .map [(.text "navigate", .text "a.example")] :: []))).2.mapError Failure.unsourced := by
  have hgoto : Registry.standard.get? "goto" = some Command.navigate.handler := by decide
  have hnavigate : Registry.standard.get? "navigate" = some Command.navigate.handler := by decide
  obtain ⟨-, -, -, hnames⟩ :=
    read_by_parts .standard none [.map [(.text "press", .text "End")]] []
  exact ⟨hgoto, hnavigate, hnames (.text "goto") (.text "navigate") (.text "a.example") _ hgoto
    hnavigate⟩

end Document

end BrowserFlow
