import BrowserFlow.Proofs.Execution.Completion
import BrowserFlow.Proofs.World.Onward

/-!
# How a run advances

A run takes its actions one after the other, and how it does so depends on its strictness only in
where it ends. `Advances` says what comes of some actions that are all reported on: what was taken,
the table and the world to which that leads. Two runs that differ in their strictness alone advance
alike. `exists_ending` tells the three ways in which a run ends after it has advanced: it has taken
all of its actions, there is no report on the next one, or it is strict and the next one has failed.
-/

namespace BrowserFlow.Execution

variable {e : Executor} {request : RunRequest} {instruction : Option String} {total number : Nat}
  {context context' : Table Value} {w w' : World}

/-! ## One step -/

/-- An action whose command nobody handles is refused. -/
theorem take_unhandled {a : Action} (h : ¬ (e.registry.get? a.kind).isSome) (number : Nat)
    (w : World) : (take e instruction number a).run w =
      (.error (.document { cause := .unknownCommand a.kind, place := some number }), w) := by
  have hnone : (e.registry.get? a.kind).isNone = true := by
    simpa using h
  unfold take
  rw [if_pos hnone]
  rfl

/-- The failure of an action that is taken carries its number and its kind, and no report. -/
theorem take_failure {a : Action} {f : ActionFailure}
    (h : ((take e instruction number a).run w).1 = .error (.action f)) :
    f.place = number ∧ f.kind = a.kind ∧ f.result = none := by
  by_cases hhandled : (e.registry.get? a.kind).isSome
  · rw [take_eq hhandled] at h
    generalize ((act e instruction a).run w).1 = outcome at h
    cases outcome with
    | ok o => cases h
    | error g =>
      cases hnameable : a.step.isNameable with
      | false =>
        obtain ⟨m, hm⟩ := failureOf_unnameable hnameable number (a.step.timeout e.timeoutMs) g
        rw [Effect.mapError_error, hm] at h
        cases h
      | true =>
        unfold failureOf at h
        split at h
        · cases h
        · split at h
          · cases h
            exact ⟨rfl, rfl, rfl⟩
          · cases h
  · -- a command that nobody handles is not the failure of a step
    rw [take_unhandled hhandled] at h
    cases h

/-- What is reported of an action: what it did, or how it failed. -/
theorem report_cases {a : Action} {u : World} {t : Taken}
    (h : (report e instruction total number a).run w = (.ok t, u)) :
    ∃ ms : Int,
      (∃ o, ((take e instruction number a).run w).1 = .ok o ∧
        t = { report := { number, kind := a.kind, success := true, durationMs := ms
                          arguments := .record a.step.arguments
                          output := some (Text.clip outputLength o.output) }
              stored := o.stored }) ∨
      ∃ f, ((take e instruction number a).run w).1 = .error (.action f) ∧
        t = { report := { number, kind := a.kind, success := false, durationMs := ms
                          arguments := .record a.step.arguments
                          error := some f.message }
              failure := some f } := by
  rw [report_eq] at h
  dsimp only at h
  generalize (take e instruction number a).run w = taken at h ⊢
  obtain ⟨outcome, v⟩ := taken
  cases outcome with
  | ok o =>
    cases h
    exact ⟨_, Or.inl ⟨o, rfl, rfl⟩⟩
  | error f =>
    cases f with
    | action f =>
      cases h
      exact ⟨_, Or.inr ⟨f, rfl, rfl⟩⟩
    | _ => cases h

/-- The failure of a step does not keep it from being reported. -/
theorem report_ne_action {a : Action} {u : World} {f : Failure}
    (h : (report e instruction total number a).run w = (.error f, u)) (g : ActionFailure) :
    f ≠ .action g := by
  rintro rfl
  rw [report_eq] at h
  dsimp only at h
  generalize (take e instruction number a).run w = taken at h
  obtain ⟨outcome, v⟩ := taken
  cases outcome with
  | ok o => cases h
  | error f => cases f <;> cases h

/-- A report on an action is in order: it carries the number, the kind and the arguments of the
action, and it tells either what the action did or how it failed. -/
structure Taken.Proper (number : Nat) (a : Action) (t : Taken) : Prop where
  numbered : t.report.number = number
  kind : t.report.kind = a.kind
  arguments : t.report.arguments = .record a.step.arguments
  success : t.report.success = true ↔ t.failure = none
  done : t.failure = none →
    t.report.error = none ∧ ∃ s, t.report.output = some (Text.clip outputLength s)
  failed : ∀ f, t.failure = some f →
    t.report.error = some f.message ∧ t.report.output = none ∧ t.stored = none ∧
      f.place = number ∧ f.kind = a.kind ∧ f.result = none

theorem report_proper {a : Action} {u : World} {t : Taken}
    (h : (report e instruction total number a).run w = (.ok t, u)) : t.Proper number a := by
  obtain ⟨ms, ⟨o, -, rfl⟩ | ⟨f, hf, rfl⟩⟩ := report_cases h
  · exact
      { numbered := rfl, kind := rfl, arguments := rfl
        success := iff_of_true rfl rfl
        done := fun _ => ⟨rfl, o.output, rfl⟩
        failed := fun f hf => nomatch hf }
  · obtain ⟨hplace, hkind, hresult⟩ := take_failure hf
    refine
      { numbered := rfl, kind := rfl, arguments := rfl
        success := iff_of_false Bool.false_ne_true fun hnone => nomatch hnone
        done := fun hnone => nomatch hnone
        failed := ?_ }
    rintro g ⟨⟩
    exact ⟨rfl, rfl, rfl, hplace, hkind, hresult⟩

/-! ## One step after the other -/

/-- From some number on, in some table and world, some actions are taken one after the other and
all of them are reported on, which leads to another table and world. -/
inductive Advances (e : Executor) (request : RunRequest) (total : Nat) :
    Nat → Table Value → World → List Action → List Taken → Table Value → World → Prop
  | nil (number : Nat) (context : Table Value) (w : World) :
      Advances e request total number context w [] [] context w
  | cons {number : Nat} {context context' : Table Value} {w u w' : World} {a : Action} {t : Taken}
      {rest : List Action} {ts : List Taken}
      (reported : (report e request.instruction total number (fill request context a)).run w =
        (.ok t, u))
      (later : Advances e request total (number + 1) (keep context t.stored)
        (pause e total number u) rest ts context' w') :
      Advances e request total number context w (a :: rest) (t :: ts) context' w'

namespace Advances

variable {actions : List Action} {ts : List Taken}

theorem length_eq (h : Advances e request total number context w actions ts context' w') :
    ts.length = actions.length := by
  induction h with
  | nil => rfl
  | cons _ _ ih => rw [List.length_cons, List.length_cons, ih]

/-- How a run advances does not depend on its strictness. -/
theorem with_strict (h : Advances e request total number context w actions ts context' w')
    (strict : Bool) :
    Advances e { request with strict } total number context w actions ts context' w' := by
  induction h with
  | nil number context w => exact .nil number context w
  | cons reported _ ih => exact .cons reported ih

/-- It advances through the first of its actions and then through the others. -/
theorem split {ts' : List Taken}
    (h : Advances e request total number context w actions (ts ++ ts') context' w') :
    ∃ xs ys c u, actions = xs ++ ys ∧ Advances e request total number context w xs ts c u ∧
      Advances e request total (number + xs.length) c u ys ts' context' w' := by
  induction ts generalizing number context w actions with
  | nil => exact ⟨[], actions, context, w, rfl, .nil number context w, h⟩
  | cons t ts ih =>
    cases h with
    | @cons _ _ _ _ u _ a _ rest _ reported later =>
      obtain ⟨xs, ys, c, v, rfl, hfirst, hlater⟩ := ih later
      refine ⟨a :: xs, ys, c, v, rfl, .cons reported hfirst, ?_⟩
      have hnumber : number + (a :: xs).length = number + 1 + xs.length := by
        rw [List.length_cons]
        omega
      rw [hnumber]
      exact hlater

/-- What comes of some actions is one thing only. -/
theorem unique {ts' : List Taken} {c : Table Value} {u : World}
    (h : Advances e request total number context w actions ts context' w')
    (h' : Advances e request total number context w actions ts' c u) :
    ts' = ts ∧ c = context' ∧ u = w' := by
  induction h generalizing ts' with
  | nil =>
    cases h'
    exact ⟨rfl, rfl, rfl⟩
  | cons reported _ ih =>
    cases h' with
    | cons again later =>
      rw [reported] at again
      cases again
      obtain ⟨rfl, rfl, rfl⟩ := ih later
      exact ⟨rfl, rfl, rfl⟩

/-- The last of some actions is reported on where the others lead to. -/
theorem last {a : Action} {t : Taken}
    (h : Advances e request total number context w (actions ++ [a]) (ts ++ [t]) context' w') :
    ∃ c u v, Advances e request total number context w actions ts c u ∧
      (report e request.instruction total (number + actions.length) (fill request c a)).run u =
        (.ok t, v) ∧
      context' = keep c t.stored ∧ w' = pause e total (number + actions.length) v := by
  obtain ⟨xs, ys, c, u, hactions, hfirst, hlast⟩ := h.split
  have hlength : actions.length = xs.length := by
    have htotal := h.length_eq
    rw [List.length_append, List.length_append, hfirst.length_eq] at htotal
    simpa using htotal.symm
  obtain ⟨rfl, rfl⟩ := List.append_inj hactions hlength
  cases hlast with
  | cons reported rest =>
    cases rest
    exact ⟨c, u, _, hfirst, reported, rfl, rfl⟩

/-- A run goes on behind what has been taken, if nothing of it ends the run. -/
theorem runFrom_append (h : Advances e request total number context w actions ts context' w')
    (hgoesOn : request.strict = false ∨ ∀ t ∈ ts, t.failure = none) (rest : List Action) :
    runFrom e request total number context (actions ++ rest) w =
      let later := runFrom e request total (number + actions.length) context' rest w'
      ({ later.1 with steps := ts.map (·.report) ++ later.1.steps }, later.2) := by
  induction h with
  | nil => rfl
  | @cons number context context' w u w' a t xs ts reported _ ih =>
    have hfirst : request.strict = false ∨ t.failure = none :=
      hgoesOn.imp_right fun hnone => hnone t List.mem_cons_self
    have hothers : request.strict = false ∨ ∀ t ∈ ts, t.failure = none :=
      hgoesOn.imp_right fun hnone t ht => hnone t (List.mem_cons_of_mem _ ht)
    have hnumber : number + (a :: xs).length = number + 1 + xs.length := by
      rw [List.length_cons]
      omega
    rw [List.cons_append, runFrom_cons_ok hfirst reported, ih hothers, hnumber]
    rfl

/-- A run that takes all of its actions reports on them. -/
theorem runFrom_eq (h : Advances e request total number context w actions ts context' w')
    (hgoesOn : request.strict = false ∨ ∀ t ∈ ts, t.failure = none) :
    runFrom e request total number context actions w =
      ({ steps := ts.map (·.report), context := context' }, w') := by
  have happend := h.runFrom_append hgoesOn []
  rw [List.append_nil] at happend
  rw [happend]
  simp [runFrom]

/-- What is reported of each action is in order. -/
theorem proper (h : Advances e request total number context w actions ts context' w') {t : Taken}
    (ht : t ∈ ts) : ∃ n a, t.Proper n a := by
  induction h with
  | nil => cases ht
  | cons reported _ ih =>
    rcases List.mem_cons.1 ht with rfl | ht
    · exact ⟨_, _, report_proper reported⟩
    · exact ih ht

theorem success_iff (h : Advances e request total number context w actions ts context' w')
    {t : Taken} (ht : t ∈ ts) : t.report.success = true ↔ t.failure = none := by
  obtain ⟨n, a, hproper⟩ := h.proper ht
  exact hproper.success

/-- The numbers of the reports go up by one. -/
theorem numbers_eq (h : Advances e request total number context w actions ts context' w') :
    ts.map (·.report.number) =
      (List.range' number actions.length).map (fun n : Nat => (n : Int)) := by
  induction h with
  | nil => rfl
  | cons reported _ ih =>
    rw [List.map_cons, ih, (report_proper reported).numbered, List.length_cons, List.range'_succ,
      List.map_cons]

/-- The reports are of the kinds of the actions. -/
theorem kinds_eq (h : Advances e request total number context w actions ts context' w') :
    ts.map (·.report.kind) = actions.map (·.kind) := by
  induction h with
  | nil => rfl
  | cons reported _ ih =>
    rw [List.map_cons, ih, (report_proper reported).kind, List.map_cons]
    rfl

/-- One action more is taken behind the others. -/
theorem concat {a : Action} {t : Taken} {u : World}
    (h : Advances e request total number context w actions ts context' w')
    (reported : (report e request.instruction total (number + actions.length)
      (fill request context' a)).run w' = (.ok t, u)) :
    Advances e request total number context w (actions ++ [a]) (ts ++ [t])
      (keep context' t.stored) (pause e total (number + actions.length) u) := by
  induction h with
  | nil number context w => exact .cons reported (.nil _ _ _)
  | @cons number context context' w u w' b s rest ts first _ ih =>
    have hnumber : number + (b :: rest).length = number + 1 + rest.length := by
      rw [List.length_cons]
      omega
    rw [hnumber] at reported ⊢
    exact .cons first (ih reported)

end Advances

/-! ## What a run takes -/

section

variable {a b : Action} {rest : List Action} {u x : World} {t : Taken}
  (reported : (report e request.instruction total number (fill request context a)).run w =
    (.ok t, u))

include reported

/-- Behind an action on which there is a report a run takes what comes next, if it goes on. -/
theorem takes_cons_iff (hgoesOn : request.strict = false ∨ t.failure = none) :
    Takes e request total number context (a :: rest) w b x ↔
      (b = fill request context a ∧ x = w) ∨
        Takes e request total (number + 1) (keep context t.stored) rest (pause e total number u)
          b x := by
  constructor
  · intro h
    cases h with
    | here => exact Or.inl ⟨rfl, rfl⟩
    | later again _ htakes =>
      rw [reported] at again
      cases again
      exact Or.inr htakes
  · rintro (⟨rfl, rfl⟩ | h)
    · exact .here number context a rest x
    · exact .later reported hgoesOn h

/-- A strict run takes nothing behind an action that has failed. -/
theorem takes_cons_failed_iff (hstrict : request.strict = true) (hfailure : t.failure ≠ none) :
    Takes e request total number context (a :: rest) w b x ↔
      b = fill request context a ∧ x = w := by
  constructor
  · intro h
    cases h with
    | here => exact ⟨rfl, rfl⟩
    | later again hgoesOn _ =>
      rw [reported] at again
      cases again
      rw [hstrict] at hgoesOn
      exact absurd (hgoesOn.resolve_left (by decide)) hfailure
  · rintro ⟨rfl, rfl⟩
    exact .here number context a rest x

end

/-- A run takes nothing behind an action on which there is no report. -/
theorem takes_cons_error_iff {a b : Action} {rest : List Action} {u x : World} {f : Failure}
    (h : (report e request.instruction total number (fill request context a)).run w =
      (.error f, u)) :
    Takes e request total number context (a :: rest) w b x ↔
      b = fill request context a ∧ x = w := by
  constructor
  · intro htakes
    cases htakes with
    | here => exact ⟨rfl, rfl⟩
    | later reported _ _ =>
      rw [h] at reported
      cases reported
  · rintro ⟨rfl, rfl⟩
    exact .here number context a rest x

theorem not_takes_nil {b : Action} {x : World} :
    ¬ Takes e request total number context [] w b x := by
  intro h
  cases h

namespace Advances

variable {xs ys : List Action} {ts : List Taken} {b : Action} {x : World}

/-- What a run takes that goes on behind some actions is taken among these or behind them. -/
theorem takes_append_iff (h : Advances e request total number context w xs ts context' w')
    (hgoesOn : request.strict = false ∨ ∀ t ∈ ts, t.failure = none) :
    Takes e request total number context (xs ++ ys) w b x ↔
      Takes e request total number context xs w b x ∨
        Takes e request total (number + xs.length) context' ys w' b x := by
  induction h with
  | nil number context w =>
    simp [not_takes_nil]
  | @cons number context context' w u w' a t rest ts reported _ ih =>
    have hfirst : request.strict = false ∨ t.failure = none :=
      hgoesOn.imp_right fun hnone => hnone t List.mem_cons_self
    have hlater := ih (hgoesOn.imp_right fun hnone t ht => hnone t (List.mem_cons_of_mem _ ht))
    have hnumber : number + (a :: rest).length = number + 1 + rest.length := by
      rw [List.length_cons]
      omega
    rw [hnumber, List.cons_append, takes_cons_iff reported hfirst, takes_cons_iff reported hfirst,
      hlater, or_assoc]

/-- As long as nothing fails, runs take the same whether they are strict or not. -/
theorem takes_strict_iff (h : Advances e request total number context w xs ts context' w')
    (hnone : ∀ t ∈ ts, t.failure = none) (strict : Bool) :
    Takes e { request with strict } total number context xs w b x ↔
      Takes e request total number context xs w b x := by
  induction h with
  | nil number context w =>
    simp [not_takes_nil]
  | @cons number context context' w u w' a t rest ts reported _ ih =>
    have hfirst : t.failure = none := hnone t List.mem_cons_self
    have hlater := ih fun t ht => hnone t (List.mem_cons_of_mem _ ht)
    have hcons : Takes e { request with strict } total number context (a :: rest) w b x ↔
        (b = fill request context a ∧ x = w) ∨
          Takes e { request with strict } total (number + 1) (keep context t.stored) rest
            (pause e total number u) b x :=
      takes_cons_iff reported (Or.inr hfirst)
    rw [hcons, hlater, takes_cons_iff reported (Or.inr hfirst)]

end Advances

/-! ## Where a run ends -/

/-- The ways in which the run of some actions ends, with its progress and the world in the end. -/
inductive Ending (e : Executor) (request : RunRequest) (total number : Nat) (context : Table Value)
    (w : World) : List Action → Progress × World → Prop
  /-- All actions have been taken. -/
  | finished {actions : List Action} {ts : List Taken} {c : Table Value} {u : World}
      (advances : Advances e request total number context w actions ts c u)
      (goesOn : request.strict = false ∨ ∀ t ∈ ts, t.failure = none) :
      Ending e request total number context w actions
        ({ steps := ts.map (·.report), context := c }, u)
  /-- There is no report on an action. -/
  | broken {actions rest : List Action} {ts : List Taken} {c : Table Value} {u v : World}
      {a : Action} {f : Failure}
      (advances : Advances e request total number context w actions ts c u)
      (goesOn : request.strict = false ∨ ∀ t ∈ ts, t.failure = none)
      (reported : (report e request.instruction total (number + actions.length)
        (fill request c a)).run u = (.error f, v)) :
      Ending e request total number context w (actions ++ a :: rest)
        ({ steps := ts.map (·.report), context := c, ended := some f }, v)
  /-- The run is strict, and an action has failed. -/
  | aborted {actions rest : List Action} {ts : List Taken} {c : Table Value} {u v : World}
      {a : Action} {t : Taken} {f : ActionFailure} (strict : request.strict = true)
      (advances : Advances e request total number context w actions ts c u)
      (goesOn : ∀ t ∈ ts, t.failure = none)
      (reported : (report e request.instruction total (number + actions.length)
        (fill request c a)).run u = (.ok t, v))
      (failure : t.failure = some f) :
      Ending e request total number context w (actions ++ a :: rest)
        ({ steps := ts.map (·.report) ++ [t.report], context := c, ended := some (.action f) }, v)

/-- What ends behind an action that is taken ends behind it and the others. -/
theorem Ending.cons {a : Action} {t : Taken} {u : World} {rest : List Action} {p : Progress × World}
    (reported : (report e request.instruction total number (fill request context a)).run w =
      (.ok t, u))
    (hgoesOn : request.strict = false ∨ t.failure = none)
    (h : Ending e request total (number + 1) (keep context t.stored) (pause e total number u)
      rest p) :
    Ending e request total number context w (a :: rest)
      ({ p.1 with steps := t.report :: p.1.steps }, p.2) := by
  have hcons : ∀ {ts : List Taken}, (request.strict = false ∨ ∀ t ∈ ts, t.failure = none) →
      request.strict = false ∨ ∀ s ∈ t :: ts, s.failure = none := by
    intro ts hts
    rcases hgoesOn with hlenient | hnone
    · exact Or.inl hlenient
    · exact hts.imp_right fun hts => List.forall_mem_cons.2 ⟨hnone, hts⟩
  have hnumber : ∀ xs : List Action, number + 1 + xs.length = number + (a :: xs).length := by
    intro xs
    rw [List.length_cons]
    omega
  cases h with
  | finished advances goesOn => exact .finished (.cons reported advances) (hcons goesOn)
  | broken advances goesOn last =>
    rw [hnumber] at last
    exact .broken (.cons reported advances) (hcons goesOn) last
  | aborted strict advances goesOn last failure =>
    have hnone : t.failure = none := hgoesOn.resolve_left (by rw [strict]; decide)
    rw [hnumber] at last
    exact .aborted strict (.cons reported advances) (List.forall_mem_cons.2 ⟨hnone, goesOn⟩) last
      failure

/-- Every run ends in one of these ways. -/
theorem exists_ending (e : Executor) (request : RunRequest) (total number : Nat)
    (context : Table Value) (actions : List Action) (w : World) :
    Ending e request total number context w actions
      (runFrom e request total number context actions w) := by
  induction actions generalizing number context w with
  | nil => exact .finished (.nil number context w) (Or.inr fun t ht => nomatch ht)
  | cons a rest ih =>
    rcases hrep : (report e request.instruction total number (fill request context a)).run w with
      ⟨f | t, u⟩
    · rw [runFrom_cons_error hrep]
      exact .broken (.nil number context w) (Or.inr fun t ht => nomatch ht) hrep
    · rcases goesOn_or_failed request t with hgoesOn | ⟨hstrict, f, hfailure⟩
      · rw [runFrom_cons_ok hgoesOn hrep]
        exact .cons hrep hgoesOn (ih _ _ _)
      · rw [runFrom_cons_failed hstrict hfailure hrep]
        exact .aborted hstrict (.nil number context w) (fun t ht => nomatch ht) hrep hfailure

/-- A run that has not ended early has taken all of its actions. -/
theorem exists_advances {actions : List Action}
    (h : (runFrom e request total number context actions w).1.ended = none) :
    ∃ ts c u, Advances e request total number context w actions ts c u ∧
      (request.strict = false ∨ ∀ t ∈ ts, t.failure = none) ∧
      runFrom e request total number context actions w =
        ({ steps := ts.map (·.report), context := c }, u) := by
  have hending := exists_ending e request total number context actions w
  generalize runFrom e request total number context actions w = p at h hending ⊢
  cases hending with
  | finished advances goesOn => exact ⟨_, _, _, advances, goesOn, rfl⟩
  | broken => cases h
  | aborted => cases h

/-- A run leads to a world in a relation that allows what a step does, if all that it takes does. -/
theorem leads_runFrom {R : World → World → Prop} [IsPreorder World R] (h : Onward R)
    {actions : List Action}
    (hreport : ∀ a x n, Takes e request total number context actions w a x →
      R x ((report e request.instruction total n a).run x).2) :
    R w (runFrom e request total number context actions w).2 := by
  induction actions generalizing number context w with
  | nil => exact refl_of R w
  | cons a rest ih =>
    have hfirst : R w
        ((report e request.instruction total number (fill request context a)).run w).2 :=
      hreport _ _ number (.here number context a rest w)
    rcases hrep : (report e request.instruction total number (fill request context a)).run w with
      ⟨f | t, u⟩
    · rw [hrep] at hfirst
      rw [runFrom_cons_error hrep]
      exact hfirst
    · rw [hrep] at hfirst
      rcases goesOn_or_failed request t with hgoesOn | ⟨hstrict, f, hfailure⟩
      · rw [runFrom_cons_ok hgoesOn hrep]
        refine trans_of R hfirst (trans_of R (h.leads_pause total number u) (ih fun b x n hb => ?_))
        exact hreport b x n (.later hrep hgoesOn hb)
      · rw [runFrom_cons_failed hstrict hfailure hrep]
        exact hfirst

end BrowserFlow.Execution
