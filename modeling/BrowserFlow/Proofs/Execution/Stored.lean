import BrowserFlow.Proofs.Disk.Bounds
import BrowserFlow.Proofs.Execution.Advance
import BrowserFlow.Proofs.Template

/-!
# What the steps of a run see

Between its steps a run carries a table of stored values. A step whose placeholders are filled in
has its own arguments with the placeholders filled in from the variables and, over them, from the
table as it is before the step (`Step.arguments_substitute`). A step that is told to store a value
and succeeds puts it into the table: what it has read from the page, or the text of it without the
blanks around it. Every other step leaves the table as it is, whether it succeeds or fails. So the
table before a step holds just what the successful steps before it have stored, over what was there
at the beginning (`steps_see_stores`).
-/

namespace BrowserFlow

open Effect

/-! ## Filling in arguments -/

namespace Step

theorem Choice.toValue_substitute (env : Env) (c : BrowserFlow.Choice) :
    (Choice.substitute env c).toValue = Template.fill env c.toValue := by
  cases c with
  | value s => rfl
  | label s => rfl
  | index n => rfl

/-- A time limit has no placeholders. -/
theorem map_fill_limit (env : Env) (t : Option Int) :
    (limit t).map (fun f => (f.1, Template.fill env f.2)) = limit t := by
  cases t <;> rfl

theorem map_toValue_fields (env : Env) (fields : List FormField) :
    (fields.map fun f => FormField.mk (Template.fill env f.selector)
      (Template.fillText env f.value)).map FormField.toValue =
        Template.fillItems env (fields.map FormField.toValue) := by
  rw [Template.fillItems_eq, List.map_map, List.map_map]
  rfl

/-- The arguments of a step whose placeholders are filled in are its arguments with their
placeholders filled in. -/
theorem arguments_substitute (env : Env) (s : Step) :
    (s.substitute env).arguments = s.arguments.map fun f => (f.1, Template.fill env f.2) := by
  -- the texts by which a way of waiting is named stay as they are
  have htime : Template.fillText env "time" = "time" := Template.fillText_of_not_mem (by decide)
  have hselector : Template.fillText env "selector" = "selector" :=
    Template.fillText_of_not_mem (by decide)
  have hurl : Template.fillText env "url" = "url" := Template.fillText_of_not_mem (by decide)
  cases s with
  | waitTime ms t => simp [substitute, arguments, map_fill_limit, Template.fill, htime]
  | waitElement s state t => simp [substitute, arguments, map_fill_limit, Template.fill, hselector]
  | waitUrl url t => simp [substitute, arguments, map_fill_limit, Template.fill, hurl]
  | select s c t => simp [substitute, arguments, map_fill_limit, Choice.toValue_substitute]
  | fillForm fields t =>
    simp only [substitute, arguments, map_toValue_fields, List.map_cons, map_fill_limit,
      Template.fill]
  | evaluate script format filename => cases format <;> cases filename <;> rfl
  | assert s text value visible t => cases text <;> cases value <;> cases t <;> rfl
  | navigate url w t => simp [substitute, arguments, map_fill_limit, Template.fill]
  | click s b n t => simp [substitute, arguments, map_fill_limit, Template.fill]
  | typeText s text d submit t => simp [substitute, arguments, map_fill_limit, Template.fill]
  | hover s p t => simp [substitute, arguments, map_fill_limit]
  | _ => rfl

end Step
/-! ## Values over variables -/

namespace Table

variable {α : Type}

/-- What is in the upper table wins. -/
theorem get?_overlay {t upper : Table α} (h : upper.keys.Nodup) (key : String) :
    (overlay t upper).get? key = (upper.get? key).or (t.get? key) := by
  unfold overlay
  induction upper generalizing t with
  | nil => rfl
  | cons e rest ih =>
    obtain ⟨k, v⟩ := e
    obtain ⟨hk, hrest⟩ := List.nodup_cons.1 h
    rw [List.foldl_cons, ih hrest, get?_put, get?_cons]
    by_cases heq : k = key
    · subst heq
      have hnone : get? rest k = none := by
        have hmem : ¬ (get? rest k).isSome = true := mem_keys_iff.not.1 hk
        simpa using hmem
      rw [if_pos rfl, if_pos rfl, hnone]
      rfl
    · rw [if_neg heq, if_neg heq]

section

-- tables that follow one another, and what is put at each step
variable {n : Nat} {C : Nat → Table α} {S : Nat → String → α → Prop}
  (hput : ∀ i < n, ∀ k v, S i k v → C (i + 1) = (C i).put k v)
  (hkept : ∀ i < n, (∀ k v, ¬ S i k v) → C (i + 1) = C i)

include hput hkept

/-- A step puts a value in a place, or the value that is there stays. -/
theorem get?_step {i : Nat} (hi : i < n) (k : String) (v : α) :
    (C (i + 1)).get? k = some v ↔ S i k v ∨ (∀ u, ¬ S i k u) ∧ (C i).get? k = some v := by
  by_cases hthere : ∃ u, S i k u
  · obtain ⟨u, hu⟩ := hthere
    have hget : ∀ x, S i k x → (C (i + 1)).get? k = some x := by
      intro x hx
      rw [hput i hi k x hx, get?_put, if_pos rfl]
    constructor
    · intro hv
      rw [hget u hu] at hv
      cases hv
      exact Or.inl hu
    · rintro (hv | ⟨hnone, -⟩)
      · exact hget v hv
      · exact absurd hu (hnone u)
  · have hnone : ∀ u, ¬ S i k u := fun u hu => hthere ⟨u, hu⟩
    have hsame : (C (i + 1)).get? k = (C i).get? k := by
      by_cases hother : ∃ k' u, S i k' u
      · obtain ⟨k', u, hu⟩ := hother
        have hne : k' ≠ k := by
          rintro rfl
          exact hnone u hu
        rw [hput i hi k' u hu, get?_put, if_neg hne]
      · rw [hkept i hi fun k' u hu => hother ⟨k', u, hu⟩]
    rw [hsame]
    simp [hnone]

/-- What is in a place is what was put there last, or what was there at the beginning. -/
theorem get?_steps {i : Nat} (hi : i ≤ n) (k : String) (v : α) :
    (C i).get? k = some v ↔
      (∃ j < i, S j k v ∧ ∀ l, j < l → l < i → ∀ u, ¬ S l k u) ∨
        (∀ l < i, ∀ u, ¬ S l k u) ∧ (C 0).get? k = some v := by
  induction i with
  | zero => simp
  | succ i ih =>
    rw [get?_step hput hkept (by omega), ih (by omega)]
    constructor
    · rintro (hv | ⟨hnone, ⟨j, hj, hv, hlast⟩ | ⟨hnever, hv⟩⟩)
      · exact Or.inl ⟨i, by omega, hv, fun l hl hl' => by omega⟩
      · refine Or.inl ⟨j, by omega, hv, fun l hl hl' u hu => ?_⟩
        rcases Nat.lt_succ_iff_lt_or_eq.1 hl' with hlt | rfl
        · exact hlast l hl hlt u hu
        · exact hnone u hu
      · refine Or.inr ⟨fun l hl u hu => ?_, hv⟩
        rcases Nat.lt_succ_iff_lt_or_eq.1 hl with hlt | rfl
        · exact hnever l hlt u hu
        · exact hnone u hu
    · rintro (⟨j, hj, hv, hlast⟩ | ⟨hnever, hv⟩)
      · rcases Nat.lt_succ_iff_lt_or_eq.1 hj with hlt | rfl
        · refine Or.inr ⟨hlast i hlt (by omega), Or.inl ⟨j, hlt, hv, fun l hl hl' => ?_⟩⟩
          exact hlast l hl (by omega)
        · exact Or.inl hv
      · refine Or.inr ⟨hnever i (by omega), Or.inr ⟨fun l hl => hnever l (by omega), hv⟩⟩

/-- Keys stay different from one another. -/
theorem nodup_steps (h : (C 0).keys.Nodup) {i : Nat} (hi : i ≤ n) : (C i).keys.Nodup := by
  induction i with
  | zero => exact h
  | succ i ih =>
    by_cases hthere : ∃ k v, S i k v
    · obtain ⟨k, v, hv⟩ := hthere
      rw [hput i (by omega) k v hv]
      exact nodup_keys_put (ih (by omega)) k v
    · rw [hkept i (by omega) fun k v hv => hthere ⟨k, v, hv⟩]
      exact ih (by omega)

end

end Table

/-! ## What a step stores -/

namespace Step

/-- The name under which a step stores a value, and the call of the page by which it reads it. -/
def reads? : Step → Option (String × PageCall)
  | storeElement name s property attributeName =>
    some (name, if attributeName.truthy then .readAttribute s attributeName
      else .readProperty s property)
  | storeScript name script => some (name, .evaluate script none)
  | _ => none

variable {scene : Scene} {limit : Option Nat} {timeout : Int} {s : Step}

/-- A step that reads a value is done with it, and the value is what is to be stored. -/
theorem perform_reads {name : String} {c : PageCall} (hreads : s.reads? = some (name, c))
    {w u : World} {o : StepOutcome}
    (h : (s.perform scene limit timeout).run w = (.ok o, u)) :
    ∃ v, (World.call limit c).run w = (.ok v, u) ∧ o.stored = some (name, trimmed v) := by
  cases s with
  | storeElement name' s property attributeName =>
    cases hreads
    change Effect.run (ite _ _ _) w = _ at h
    split at h
    · obtain ⟨x, t, hthrow, -⟩ := bind_ok h
      cases hthrow
    · obtain ⟨v, t, hcall, hpure⟩ := bind_ok h
      cases hpure
      exact ⟨v, hcall, rfl⟩
  | storeScript name' script =>
    cases hreads
    obtain ⟨v, t, hcall, hpure⟩ := bind_ok h
    cases hpure
    exact ⟨v, hcall, rfl⟩
  | _ => cases hreads

/-- Nothing is to be stored. -/
def Storeless (o : StepOutcome) : Prop :=
  o.stored = none

theorem storeless_extract (script : String) (format filename : Option String) :
    Yields Storeless (extract scene limit script format filename) := by
  refine yields_bind fun result => ?_
  dsimp only
  split
  · refine yields_bind fun saved => ?_
    cases saved with
    | ok path => exact yields_pure rfl
    | error f =>
      exact yields_ite (yields_bind fun _ => yields_bind fun _ => yields_pure rfl)
        (yields_bind fun _ => yields_pure rfl)
  · exact yields_pure rfl

/-- A step that reads no value has none to store. -/
theorem storeless_perform (hreads : s.reads? = none) :
    Yields Storeless (s.perform scene limit timeout) := by
  cases s with
  | storeElement => cases hreads
  | storeScript => cases hreads
  | evaluate script format filename => exact storeless_extract script format filename
  | typeText s text delay submit =>
    refine yields_bind fun _ => ?_
    cases submit with
    | true => exact yields_bind fun _ => yields_pure rfl
    | false => exact yields_pure rfl
  | waitElement s =>
    show Yields Storeless (ite _ _ _)
    exact yields_ite (yields_bind fun _ => yields_pure rfl) (yields_pure rfl)
  | waitUrl url =>
    show Yields Storeless (ite _ _ _)
    exact yields_ite (yields_bind fun _ => yields_pure rfl) (yields_pure rfl)
  | scrollElement s =>
    show Yields Storeless (ite _ _ _)
    exact yields_ite (yields_bind fun _ => yields_bind fun _ => yields_pure rfl)
      (yields_bind fun _ => yields_pure rfl)
  | assert s text value visible =>
    refine yields_bind fun _ => ?_
    cases visible with
    | false => exact yields_pure rfl
    | true =>
      cases text <;> cases value
      · exact yields_pure rfl
      · exact yields_bind fun _ => yields_pure rfl
      · exact yields_bind fun _ => yields_pure rfl
      · exact yields_bind fun _ => yields_bind fun _ => yields_pure rfl
  | _ => exact yields_bind fun _ => yields_pure rfl

end Step

namespace Execution

variable {e : Executor} {request : RunRequest} {instruction : Option String} {total number : Nat}
  {context context' : Table Value} {actions : List Action} {w w' : World}

/-- The reading of a value from the page, within the usual time of a step. -/
def reading (e : Executor) (c : PageCall) : Effect Fault World Value :=
  World.within (e.timeoutMs + graceMs) fun limit => World.call limit c

/-- What is done within some time has been done with some limit. -/
theorem exists_of_within {α : Type} {ms : Int} {x : Option Nat → Effect Fault World α} {a : α}
    {u : World} (h : (World.within ms x).run w = (.ok a, u)) :
    ∃ limit, (x limit).run w = (.ok a, u) ∧
      ∀ {β : Type} (y : Option Nat → Effect Fault World β),
        (World.within ms y).run w = (y limit).run w := by
  unfold World.within at h ⊢
  split at h
  · obtain ⟨b, t, hthrow, -⟩ := bind_ok h
    cases hthrow
  · rename_i hms
    refine ⟨_, h, fun y => ?_⟩
    rw [if_neg hms]
    rfl

/-- An action that is taken has been carried out within its time. -/
theorem exists_perform_of_take {a : Action} {o : StepOutcome}
    (h : ((take e instruction number a).run w).1 = .ok o) :
    ∃ limit u, (a.step.perform ⟨e.data, instruction⟩ limit (a.step.timeout e.timeoutMs)).run w =
        (.ok o, u) ∧
      ∀ {β : Type} (y : Option Nat → Effect Fault World β),
        (World.within (a.step.timeout e.timeoutMs + graceMs) y).run w = (y limit).run w := by
  have hact : ∃ u, (act e instruction a).run w = (.ok o, u) := by
    by_cases hhandled : (e.registry.get? a.kind).isSome
    · rw [take_eq hhandled] at h
      rcases hrun : (act e instruction a).run w with ⟨f | o', u⟩
      · rw [hrun] at h
        cases h
      · rw [hrun] at h
        cases h
        exact ⟨u, rfl⟩
    · rw [take_unhandled hhandled] at h
      cases h
  obtain ⟨u, hact⟩ := hact
  unfold act at hact
  dsimp only at hact
  split at hact
  · obtain ⟨b, t, hthrow, -⟩ := bind_ok hact
    cases hthrow
  · obtain ⟨limit, hperform, hwithin⟩ := exists_of_within hact
    exact ⟨limit, u, hperform, hwithin⟩

/-- A step that is told to store a value and succeeds has read it. -/
theorem report_reads {a : Action} {name : String} {c : PageCall} {u : World} {t : Taken}
    (hreads : a.step.reads? = some (name, c))
    (h : (report e instruction total number a).run w = (.ok t, u)) (hnone : t.failure = none) :
    ∃ v, ((reading e c).run w).1 = .ok v ∧ t.stored = some (name, Step.trimmed v) := by
  obtain ⟨ms, ⟨o, ho, rfl⟩ | ⟨f, -, rfl⟩⟩ := report_cases h
  · obtain ⟨limit, u, hperform, hwithin⟩ := exists_perform_of_take ho
    obtain ⟨v, hcall, hstored⟩ := Step.perform_reads hreads hperform
    refine ⟨v, ?_, hstored⟩
    -- such a step has no time of its own
    have htimeout : a.step.timeout e.timeoutMs = e.timeoutMs := by
      cases hs : a.step with
      | storeElement => rfl
      | storeScript => rfl
      | _ =>
        rw [hs] at hreads
        cases hreads
    rw [htimeout] at hwithin
    unfold reading
    rw [hwithin, hcall]
  · cases hnone

/-- Any other step stores nothing. -/
theorem report_storeless {a : Action} {u : World} {t : Taken}
    (h : (report e instruction total number a).run w = (.ok t, u))
    (hother : t.failure ≠ none ∨ a.step.reads? = none) : t.stored = none := by
  obtain ⟨ms, ⟨o, ho, rfl⟩ | ⟨f, -, rfl⟩⟩ := report_cases h
  · obtain ⟨limit, u, hperform, -⟩ := exists_perform_of_take ho
    have hreads : a.step.reads? = none := hother.resolve_left fun hne => hne rfl
    exact Step.storeless_perform hreads w o u hperform
  · rfl

/-! ## The table along a run -/

/-- The table after the first steps of a run. -/
def contextAt (e : Executor) (request : RunRequest) (context : Table Value) (actions : List Action)
    (w : World) (i : Nat) : Table Value :=
  (runFrom e request actions.length 1 context (actions.take i) w).1.context

/-- The world after the first steps of a run. -/
def worldAt (e : Executor) (request : RunRequest) (context : Table Value) (actions : List Action)
    (w : World) (i : Nat) : World :=
  (runFrom e request actions.length 1 context (actions.take i) w).2

/-- A step of a run is one that stores a value, and it has succeeded: this is the value that was
read from the page, without the blanks around it if it is a text. -/
def Stores (e : Executor) (request : RunRequest) (context : Table Value) (actions : List Action)
    (w : World) (r : Report) (i : Nat) (name : String) (v : Value) : Prop :=
  ∃ a s c x, actions[i]? = some a ∧ r.steps[i]? = some s ∧ s.success = true ∧
    (fill request (contextAt e request context actions w i) a).step.reads? = some (name, c) ∧
    ((reading e c).run (worldAt e request context actions w i)).1 = .ok x ∧ v = Step.trimmed x

section

variable {ts : List Taken} {after : Table Value} {u : World}
  (h : Advances e request actions.length 1 context w actions ts after u)
  (hgoesOn : request.strict = false ∨ ∀ t ∈ ts, t.failure = none)

include h hgoesOn

/-- The first steps of a run are a run by themselves. -/
theorem Advances.take {i : Nat} (hi : i ≤ actions.length) :
    Advances e request actions.length 1 context w (actions.take i) (ts.take i)
      (contextAt e request context actions w i) (worldAt e request context actions w i) := by
  have hsplit : Advances e request actions.length 1 context w actions (ts.take i ++ ts.drop i)
      after u := by
    rw [List.take_append_drop]
    exact h
  obtain ⟨xs, ys, c, v, hactions, hfirst, -⟩ := hsplit.split
  have hlength : xs.length = i := by
    rw [← hfirst.length_eq, List.length_take, h.length_eq]
    exact Nat.min_eq_left hi
  have hxs : actions.take i = xs := by
    rw [hactions, ← hlength, List.take_left]
  have hrun := hfirst.runFrom_eq (hgoesOn.imp_right fun hnone t ht =>
    hnone t (List.mem_of_mem_take ht))
  unfold contextAt worldAt
  rw [hxs, hrun]
  exact hfirst

/-- A run goes through its stages: each action is reported on in the table and the world after
those before it, and what it stores is in the table after it. -/
theorem Advances.stage {i : Nat} {a : Action} (ha : actions[i]? = some a) :
    ∃ t v, ts[i]? = some t ∧
      (report e request.instruction actions.length (1 + i)
        (fill request (contextAt e request context actions w i) a)).run
          (worldAt e request context actions w i) = (.ok t, v) ∧
      contextAt e request context actions w (i + 1) =
        keep (contextAt e request context actions w i) t.stored := by
  have hi : i < actions.length := (List.getElem?_eq_some_iff.1 ha).1
  have hfirst := h.take hgoesOn (Nat.le_of_lt hi)
  have hnext := h.take hgoesOn hi
  have hactions : actions.take (i + 1) = actions.take i ++ [a] := by
    rw [List.take_add_one, ha]
    rfl
  have hts : ∃ t, ts[i]? = some t := by
    rw [← h.length_eq] at hi
    exact ⟨_, List.getElem?_eq_getElem hi⟩
  obtain ⟨t, ht⟩ := hts
  have hsteps : ts.take (i + 1) = ts.take i ++ [t] := by
    rw [List.take_add_one, ht]
    rfl
  rw [hactions, hsteps] at hnext
  obtain ⟨c, x, v, hagain, reported, hcontext, -⟩ := hnext.last
  obtain ⟨-, rfl, rfl⟩ := hfirst.unique hagain
  rw [List.length_take, Nat.min_eq_left (Nat.le_of_lt hi)] at reported
  exact ⟨t, v, ht, reported, hcontext⟩

end

/-- Behind its steps a run stores nothing. -/
theorem context_run (e : Executor) (request : RunRequest) (context : Table Value)
    (actions : List Action) (w : World) :
    (run e request context actions w).1.2 =
      (runFrom e request actions.length 1 context actions w).1.context := by
  unfold run
  dsimp only
  split <;> rfl

/-- How the table of stored values goes through a run that gives a report. -/
structure Threads (e : Executor) (request : RunRequest) (context : Table Value)
    (actions : List Action) (w : World) (r : Report) (after : Table Value) : Prop where
  first : contextAt e request context actions w 0 = context
  last : contextAt e request context actions w actions.length = after
  /-- The placeholders of a step are filled in from the variables and, over them, from the table. -/
  arguments : ∀ i a s, actions[i]? = some a → r.steps[i]? = some s →
    s.arguments = Template.fill
      (Table.overlay request.env (contextAt e request context actions w i))
      (.record a.step.arguments)
  /-- A step that is told to store a value and succeeds stores one. -/
  stored : ∀ i a s name c, actions[i]? = some a → r.steps[i]? = some s → s.success = true →
    (fill request (contextAt e request context actions w i) a).step.reads? = some (name, c) →
      ∃ v, Stores e request context actions w r i name v
  put : ∀ i < actions.length, ∀ name v, Stores e request context actions w r i name v →
    contextAt e request context actions w (i + 1) =
      (contextAt e request context actions w i).put name v
  kept : ∀ i < actions.length, (∀ name v, ¬ Stores e request context actions w r i name v) →
    contextAt e request context actions w (i + 1) = contextAt e request context actions w i

section

variable {ts : List Taken} {after : Table Value} {u : World} {r : Report}
  (h : Advances e request actions.length 1 context w actions ts after u)
  (hgoesOn : request.strict = false ∨ ∀ t ∈ ts, t.failure = none)
  (hsteps : r.steps = ts.map (·.report))

include h hgoesOn hsteps

/-- What a step stores is what is kept of it. -/
theorem Advances.stores_iff {i : Nat} {t : Taken} (ht : ts[i]? = some t) (name : String)
    (v : Value) :
    Stores e request context actions w r i name v ↔ t.stored = some (name, v) := by
  have hs : r.steps[i]? = some t.report := by
    rw [hsteps, List.getElem?_map, ht]
    rfl
  constructor
  · rintro ⟨a, s, c, x, ha, hs', hsuccess, hreads, hx, rfl⟩
    obtain ⟨t', u, ht', reported, -⟩ := h.stage hgoesOn ha
    cases ht.symm.trans ht'
    cases hs.symm.trans hs'
    have hdone := (report_proper reported).success.1 hsuccess
    obtain ⟨y, hy, hstored⟩ := report_reads hreads reported hdone
    cases hx.symm.trans hy
    exact hstored
  · intro hstored
    have hi : i < actions.length := by
      rw [← h.length_eq]
      exact (List.getElem?_eq_some_iff.1 ht).1
    have ha : actions[i]? = some actions[i] := List.getElem?_eq_getElem hi
    obtain ⟨t', u, ht', reported, -⟩ := h.stage hgoesOn ha
    cases ht.symm.trans ht'
    have hnone : t.failure = none := by
      by_contra hfailure
      rw [report_storeless reported (Or.inl hfailure)] at hstored
      cases hstored
    cases hreads : (fill request (contextAt e request context actions w i) actions[i]).step.reads?
      with
    | none =>
      rw [report_storeless reported (Or.inr hreads)] at hstored
      cases hstored
    | some reads =>
      obtain ⟨name', c⟩ := reads
      obtain ⟨x, hx, hkept⟩ := report_reads hreads reported hnone
      rw [hkept] at hstored
      cases hstored
      exact ⟨_, _, c, x, ha, hs, (report_proper reported).success.2 hnone, hreads, hx, rfl⟩

/-- So it goes where all actions are taken. -/
theorem Advances.threads : Threads e request context actions w r after where
  first := rfl
  last := by
    have hall := h.runFrom_eq hgoesOn
    unfold contextAt
    rw [List.take_length, hall]
  arguments := by
    intro i a s ha hs
    obtain ⟨t, v, ht, reported, -⟩ := h.stage hgoesOn ha
    rw [hsteps, List.getElem?_map, ht] at hs
    cases hs
    rw [(report_proper reported).arguments, Template.fill_record, ← Step.arguments_substitute]
    rfl
  stored := by
    intro i a s name c ha hs hsuccess hreads
    obtain ⟨t, v, ht, reported, -⟩ := h.stage hgoesOn ha
    rw [hsteps, List.getElem?_map, ht] at hs
    cases hs
    have hdone := (report_proper reported).success.1 hsuccess
    obtain ⟨x, hx, hstored⟩ := report_reads hreads reported hdone
    exact ⟨Step.trimmed x, (h.stores_iff hgoesOn hsteps ht name _).2 hstored⟩
  put := by
    intro i hi name v hstores
    obtain ⟨t, u, ht, -, hkeep⟩ := h.stage hgoesOn (List.getElem?_eq_getElem hi)
    rw [hkeep, (h.stores_iff hgoesOn hsteps ht name v).1 hstores]
    rfl
  kept := by
    intro i hi hnever
    obtain ⟨t, u, ht, -, hkeep⟩ := h.stage hgoesOn (List.getElem?_eq_getElem hi)
    rw [hkeep]
    cases hstored : t.stored with
    | none => rfl
    | some entry =>
      exact absurd ((h.stores_iff hgoesOn hsteps ht entry.1 entry.2).2 hstored) (hnever _ _)

end

/-- A run that gives a report fills in each step from the variables and from the table of stored
values as it is before the step, where the table wins. The table goes from what was given at the
beginning to what is left in the end, and only successful steps that store a value change it: it
holds in each place what was stored there last, or else what was given. -/
theorem steps_see_stores (e : Executor) (request : RunRequest) (context : Table Value)
    (actions : List Action) (w : World) {r : Report} {after : Table Value} {w' : World}
    (hreturns : run e request context actions w = ((.ok r, after), w')) :
    Threads e request context actions w r after ∧
    (∀ i ≤ actions.length, ∀ name v,
      (contextAt e request context actions w i).get? name = some v ↔
        (∃ j < i, Stores e request context actions w r j name v ∧
          ∀ l, j < l → l < i → ∀ u, ¬ Stores e request context actions w r l name u) ∨
        (∀ l < i, ∀ u, ¬ Stores e request context actions w r l name u) ∧
          context.get? name = some v) ∧
    (context.keys.Nodup → ∀ i ≤ actions.length, ∀ name,
      (Table.overlay request.env (contextAt e request context actions w i)).get? name =
        ((contextAt e request context actions w i).get? name).or (request.env.get? name)) := by
  have hok : (run e request context actions w).1.1 = .ok r := by rw [hreturns]
  obtain ⟨hended, hr⟩ := (run_ok_iff context actions w r).1 hok
  obtain ⟨ts, c, u, hadvances, hgoesOn, hrun⟩ := exists_advances hended
  have hsteps : r.steps = ts.map (·.report) := by
    rw [hr, hrun]
    rfl
  have hafter : c = after := by
    have hcontext := context_run e request context actions w
    rw [hreturns, hrun] at hcontext
    exact hcontext.symm
  subst hafter
  have hthreads := hadvances.threads hgoesOn hsteps
  refine ⟨hthreads, ?_, ?_⟩
  · intro i hi name v
    have hsteps := Table.get?_steps hthreads.put hthreads.kept hi name v
    rw [hthreads.first] at hsteps
    exact hsteps
  · intro hnodup i hi name
    refine Table.get?_overlay ?_ name
    refine Table.nodup_steps hthreads.put hthreads.kept ?_ hi
    rw [hthreads.first]
    exact hnodup

/-- A value is stored, and the next step is a script that names it. -/
def storeThenScript : List Action :=
  [⟨"store", .storeScript "tea" "brew()", 1⟩,
    ⟨"evaluate", .evaluate "drink($\x7btea\x7d)" none none, 2⟩]

/-- A page on which the first script returns a text. -/
def brewing : World :=
  { page := { results := [.value (.text " black ")] } }

/-- What is stored wins over the variable of its name. -/
theorem steps_see_stores_tea :
    ∃ r after w', run {} { env := [("tea", .text "green")] } [] storeThenScript brewing =
        ((.ok r, after), w') ∧
      Threads {} { env := [("tea", .text "green")] } [] storeThenScript brewing r after ∧
      ((Table.overlay [("tea", .text "green")]
        (contextAt {} { env := [("tea", .text "green")] } [] storeThenScript brewing 1)).get?
          "tea").map Value.plainText = some "black" := by
  have hok : (run {} { env := [("tea", .text "green")] } [] storeThenScript brewing).1.1.isOk =
      true := by
    decide +kernel
  have hstored : ((contextAt {} { env := [("tea", .text "green")] } [] storeThenScript brewing
      1).get? "tea").map Value.plainText = some "black" := by
    decide +kernel
  rcases hrun : run {} { env := [("tea", .text "green")] } [] storeThenScript brewing with
    ⟨⟨g | r, after⟩, w'⟩
  · rw [hrun] at hok
    cases hok
  · obtain ⟨hthreads, -, hsees⟩ := steps_see_stores {} _ [] storeThenScript brewing hrun
    refine ⟨r, after, w', rfl, hthreads, ?_⟩
    have hnodup : (Table.keys ([] : Table Value)).Nodup := List.nodup_nil
    rw [hsees hnodup 1 (by decide) "tea"]
    obtain ⟨v, hv, htext⟩ := Option.map_eq_some_iff.1 hstored
    rw [hv, Option.some_or, Option.map_some, htext]

end Execution

end BrowserFlow
