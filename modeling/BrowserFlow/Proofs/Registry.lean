import BrowserFlow.Document

/-!
# Finding handlers

A registry is consistent if every handler that some name finds is also found under its own kind.
That is so for every registry of commands under their own names (`ofCommands_consistent`), because
none of these names is an alias of a command. The actions of a document that was read with a
consistent registry find the handlers by which they were read (`read_handled`).
-/

namespace BrowserFlow

namespace Registry

/-- Every handler is found under its own kind: no alias stands in its way. -/
def Consistent (r : Registry) : Prop :=
  ∀ name h, r.get? name = some h → r.get? h.kind = some h

/-- What registries hold that are made of commands under their own names. -/
structure Plain (r : Registry) : Prop where
  ofKind : ∀ kind h, r.handlers.get? kind = some h → kind = h.kind ∧ h = h.command.handler
  ofAlias : ∀ name kind, r.aliases.get? name = some kind → ∃ c : Command, name ∈ c.aliases

/-- Names that are put for a kind stand for it, and every other name for what it did before. -/
theorem get?_foldl_put_eq (names : List String) (kind name : String) (t : Table String) :
    (names.foldl (fun t a => t.put a kind) t).get? name =
      if name ∈ names then some kind else t.get? name := by
  induction names generalizing t with
  | nil => rfl
  | cons a rest ih =>
    rw [List.foldl_cons, ih, Table.get?_put]
    by_cases hr : name ∈ rest
    · rw [if_pos hr, if_pos (List.mem_cons_of_mem a hr)]
    · by_cases ha : a = name
      · rw [if_neg hr, if_pos ha, if_pos (ha ▸ List.mem_cons_self)]
      · rw [if_neg hr, if_neg ha, if_neg]
        exact fun hm => (List.mem_cons.mp hm).elim (fun h => ha h.symm) hr

/-- A name that stands for a kind did so before or is one of those put for it. -/
theorem get?_foldl_put {names : List String} {kind name k : String} {t : Table String}
    (h : (names.foldl (fun t a => t.put a kind) t).get? name = some k) :
    name ∈ names ∨ t.get? name = some k := by
  rw [get?_foldl_put_eq] at h
  split at h
  · next hm => exact Or.inl hm
  · exact Or.inr h

theorem Plain.register {r : Registry} (hr : r.Plain) (c : Command) :
    (r.register c.handler).Plain := by
  constructor
  · intro kind h hk
    have hk : (r.handlers.put c.handler.kind c.handler).get? kind = some h := hk
    rw [Table.get?_put] at hk
    by_cases hc : c.handler.kind = kind
    · rw [if_pos hc] at hk
      cases hk
      exact ⟨hc.symm, rfl⟩
    · rw [if_neg hc] at hk
      exact hr.ofKind kind h hk
  · intro name kind hk
    rcases get?_foldl_put hk with hm | hg
    · exact ⟨c, hm⟩
    · exact hr.ofAlias name kind hg

theorem ofCommands_plain (cs : List Command) : (ofCommands cs).Plain := by
  suffices ∀ r : Registry, r.Plain → (cs.foldl (fun r c => r.register c.handler) r).Plain from
    this {} ⟨fun _ _ h => (Option.some_ne_none _ h.symm).elim,
      fun _ _ h => (Option.some_ne_none _ h.symm).elim⟩
  induction cs with
  | nil => exact fun _ hr => hr
  | cons c rest ih => exact fun r hr => ih _ (hr.register c)

/-- No command has the name of another as an alias. -/
theorem name_notMem_aliases (c d : Command) : c.name ∉ d.aliases := by
  cases d <;> cases c <;> decide

/-- In a registry of commands under their own names every handler is found under its own kind. -/
theorem ofCommands_consistent (cs : List Command) : (ofCommands cs).Consistent := by
  intro name h hn
  have hp := ofCommands_plain cs
  obtain ⟨hk, hc⟩ := hp.ofKind _ _ hn
  have hname : h.kind = h.command.name := by rw [hc]; rfl
  -- the kind of the handler is the name of a command, hence no alias
  have hfree : (ofCommands cs).aliases.get? h.kind = none := by
    cases ha : (ofCommands cs).aliases.get? h.kind with
    | none => rfl
    | some k =>
      obtain ⟨d, hd⟩ := hp.ofAlias _ _ ha
      exact absurd (hname ▸ hd) (name_notMem_aliases h.command d)
  show (ofCommands cs).handlers.get? ((ofCommands cs).resolve h.kind) = some h
  unfold resolve
  rw [hfree, Option.getD_none, ← hk]
  exact hn

end Registry

namespace Document

/-- The handler that an action was read by, and the argument that it was read from. -/
theorem exists_read_of_readStep {r : Registry} {place : Nat} {entry : Value} {a : Action}
    (h : readStep r place entry = .ok a) : ∃ name handler argument, r.get? name = some handler ∧
      a.kind = handler.kind ∧ Step.read handler.command argument = .ok a.step := by
  unfold readStep at h
  split at h
  · rename_i key argument rest
    dsimp only at h
    cases hg : r.get? key.plainText with
    | none => simp [hg] at h
    | some handler =>
      rw [hg] at h
      dsimp only at h
      cases hs : Step.read handler.command argument with
      | error cause => simp [hs] at h
      | ok step =>
        rw [hs] at h
        cases h
        exact ⟨_, handler, argument, hg, rfl, hs⟩
  · cases h

/-- The handler by which a step is read is found under the kind of its action. -/
theorem readStep_handled {r : Registry} (hr : r.Consistent) {place : Nat} {entry : Value}
    {a : Action} (h : readStep r place entry = .ok a) : (r.get? a.kind).isSome := by
  obtain ⟨name, handler, argument, hget, hkind, -⟩ := exists_read_of_readStep h
  rw [hkind]
  exact Option.isSome_of_mem (hr name handler hget)

/-- Every action of some steps is read from one of them. -/
theorem exists_readStep_of_mem {r : Registry} {entries : List Value} {place : Nat}
    {actions : List Action} (h : (readSteps r place entries).2 = .ok actions) {a : Action}
    (ha : a ∈ actions) : ∃ i, ∃ entry ∈ entries, readStep r i entry = .ok a := by
  induction entries generalizing place actions with
  | nil =>
    cases h
    exact (List.not_mem_nil ha).elim
  | cons entry rest ih =>
    unfold readSteps at h
    cases hs : readStep r place entry with
    | error f => simp [hs] at h
    | ok action =>
      rw [hs] at h
      dsimp only at h
      cases hrest : (readSteps r (place + 1) rest).2 with
      | error f => simp [hrest, Except.map] at h
      | ok later =>
        rw [hrest] at h
        cases h
        rcases List.mem_cons.mp ha with rfl | ha
        · exact ⟨place, entry, List.mem_cons_self, hs⟩
        · obtain ⟨i, found, hfound, hread⟩ := ih hrest ha
          exact ⟨i, found, List.mem_cons_of_mem _ hfound, hread⟩

/-- So it is for the actions of a document. -/
theorem exists_readStep_of_mem_read {r : Registry} {source : Option String} {document : Value}
    {actions : List Action} (h : (read r source document).2 = .ok actions) {a : Action}
    (ha : a ∈ actions) : ∃ i entry, readStep r i entry = .ok a := by
  unfold read at h
  split at h
  · obtain ⟨i, entry, -, hread⟩ := exists_readStep_of_mem h ha
    exact ⟨i, entry, hread⟩
  · cases h

/-- The actions of a document find the handlers by which they were read. -/
theorem read_handled {r : Registry} (hr : r.Consistent) {source : Option String} {document : Value}
    {actions : List Action} (h : (read r source document).2 = .ok actions) :
    ∀ a ∈ actions, (r.get? a.kind).isSome := by
  intro a ha
  obtain ⟨i, entry, hread⟩ := exists_readStep_of_mem_read h ha
  exact readStep_handled hr hread

end Document

end BrowserFlow
