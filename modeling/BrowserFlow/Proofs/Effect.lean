import BrowserFlow.Effect
import Mathlib.Order.Defs.Unbundled

/-!
# What comes of effects

Each way of building a computation says what comes of it: `run_bind` and its companions give the
result and the state afterwards, and `bind_cases` takes a composed computation apart into the
part that failed or the two parts that did not.

`Leads R x` says that the state after `x` is in a relation to the one before it, whether `x` failed
or not, and `Keeps view x` that a view of it is what it was. Both pass through every way of building
computations, so that a frame fact on a long computation is the list of the facts on its parts.
-/

namespace BrowserFlow.Effect

variable {ε ε' σ τ α β γ : Type}

@[simp] theorem run_pure (a : α) (s : σ) : run (pure a : Effect ε σ α) s = (.ok a, s) := rfl

@[simp] theorem run_throw (e : ε) (s : σ) : run (throw e : Effect ε σ α) s = (.error e, s) := rfl

@[simp] theorem run_get (s : σ) : run (get : Effect ε σ σ) s = (.ok s, s) := rfl

@[simp] theorem run_set (t s : σ) : run (set t : Effect ε σ PUnit) s = (.ok ⟨⟩, t) := rfl

@[simp] theorem run_modify (f : σ → σ) (s : σ) :
    run (modify f : Effect ε σ PUnit) s = (.ok ⟨⟩, f s) := rfl

@[simp] theorem run_of (f : σ → Except ε α × σ) (s : σ) : run (of f) s = f s := rfl

@[simp] theorem run_lift (r : Except ε α) (s : σ) : run (lift r) s = (r, s) := rfl

@[simp] theorem run_attempt (x : Effect ε σ α) (s : σ) :
    run (attempt x : Effect ε' σ (Except ε α)) s = (.ok (run x s).1, (run x s).2) := rfl

@[simp] theorem run_mapError (f : ε → ε') (x : Effect ε σ α) (s : σ) :
    run (mapError f x) s = ((run x s).1.mapError f, (run x s).2) := rfl

theorem mapError_error (f : ε → ε') (e : ε) :
    (Except.error e : Except ε α).mapError f = .error (f e) := rfl

theorem mapError_ok (f : ε → ε') (a : α) :
    (Except.ok a : Except ε α).mapError f = .ok a := rfl

@[simp] theorem run_zoom (part : τ → σ) (put : σ → τ → τ) (x : Effect ε σ α) (t : τ) :
    run (zoom part put x) t = ((run x (part t)).1, put (run x (part t)).2 t) := rfl

theorem run_bind (x : Effect ε σ α) (f : α → Effect ε σ β) (s : σ) :
    run (x >>= f) s = match run x s with
      | (.ok a, t) => run (f a) t
      | (.error e, t) => (.error e, t) := by
  show ExceptT.bindCont f (x s).1 (x s).2 = _
  unfold run
  cases hx : x s with
  | mk r t => cases r <;> rfl

/-- A composed computation whose first part gives a result. -/
theorem run_bind_ok {x : Effect ε σ α} {f : α → Effect ε σ β} {s t : σ} {a : α}
    (h : run x s = (.ok a, t)) : run (x >>= f) s = run (f a) t := by
  rw [run_bind, h]

/-- A composed computation whose first part fails. -/
theorem run_bind_error {x : Effect ε σ α} {f : α → Effect ε σ β} {s t : σ} {e : ε}
    (h : run x s = (.error e, t)) : run (x >>= f) s = (.error e, t) := by
  rw [run_bind, h]

/-- What goes on from the same beginning comes to the same. -/
theorem run_bind_congr {x : Effect ε σ α} {s t : σ} (h : run x s = run x t)
    (f : α → Effect ε σ β) : run (x >>= f) s = run (x >>= f) t := by
  rw [run_bind, run_bind, h]

/-- The errors of a composed computation are renamed in each of its parts. -/
theorem mapError_bind (f : ε → ε') (x : Effect ε σ α) (g : α → Effect ε σ β) :
    mapError f (x >>= g) = mapError f x >>= fun a => mapError f (g a) := by
  funext s
  show run (mapError f (x >>= g)) s = run (mapError f x >>= _) s
  rw [run_mapError, run_bind, run_bind, run_mapError]
  cases run x s with
  | mk r t =>
    cases r with
    | error e => rfl
    | ok a => rfl

@[simp] theorem run_map (f : α → β) (x : Effect ε σ α) (s : σ) :
    run (f <$> x) s = ((run x s).1.map f, (run x s).2) := by
  show run (x >>= fun a => pure (f a)) s = _
  rw [run_bind]
  cases hx : run x s with
  | mk r t => cases r <;> rfl

/-- What comes of a composed computation: its first part failed, or both parts were run. -/
theorem bind_cases {x : Effect ε σ α} {f : α → Effect ε σ β} {s u : σ} {r : Except ε β}
    (h : run (x >>= f) s = (r, u)) :
    (∃ e, run x s = (.error e, u) ∧ r = .error e) ∨
      ∃ a t, run x s = (.ok a, t) ∧ run (f a) t = (r, u) := by
  rw [run_bind] at h
  cases hx : run x s with
  | mk q t =>
    rw [hx] at h
    cases q with
    | error e =>
      obtain ⟨rfl, rfl⟩ := Prod.mk.inj h
      exact Or.inl ⟨e, rfl, rfl⟩
    | ok a => exact Or.inr ⟨a, t, rfl, h⟩

/-- Both parts of a composed computation that gives a result. -/
theorem bind_ok {x : Effect ε σ α} {f : α → Effect ε σ β} {s u : σ} {b : β}
    (h : run (x >>= f) s = (.ok b, u)) :
    ∃ a t, run x s = (.ok a, t) ∧ run (f a) t = (.ok b, u) := by
  rcases bind_cases h with ⟨e, -, he⟩ | h
  · cases he
  · exact h

/-- A composed computation whose second part only makes something of the result of the first. -/
theorem bind_pure_cases {x : Effect ε σ α} {f : α → β} {s u : σ} {r : Except ε β}
    (h : run (x >>= fun a => pure (f a)) s = (r, u)) : ∃ q, run x s = (q, u) ∧ r = q.map f := by
  have hmap : ((run x s).1.map f, (run x s).2) = (r, u) := (run_map f x s).symm.trans h
  obtain ⟨hr, hu⟩ := Prod.mk.inj hmap
  exact ⟨(run x s).1, Prod.ext rfl hu, hr.symm⟩

/-! ## Relations between before and after -/

/-- The state after the computation is in a relation to the one before it, whatever came of it. -/
def Leads (R : σ → σ → Prop) (x : Effect ε σ α) : Prop :=
  ∀ s, R s (x.run s).2

section

variable {R : σ → σ → Prop}

theorem Leads.of_run {x : Effect ε σ α} (hx : Leads R x) {s t : σ} {r : Except ε α}
    (h : run x s = (r, t)) : R s t := by
  have := hx s
  rw [h] at this
  exact this

theorem Leads.mono {x : Effect ε σ α} {R' : σ → σ → Prop} (hx : Leads R x)
    (h : ∀ s t, R s t → R' s t) : Leads R' x :=
  fun s => h _ _ (hx s)

theorem leads_modify {f : σ → σ} (h : ∀ s, R s (f s)) :
    Leads R (modify f : Effect ε σ PUnit) := h

theorem leads_of {f : σ → Except ε α × σ} (h : ∀ s, R s (f s).2) : Leads R (of f) := h

theorem leads_map {f : α → β} {x : Effect ε σ α} (hx : Leads R x) : Leads R (f <$> x) := by
  intro s
  rw [run_map]
  exact hx s

theorem leads_ite {c : Prop} [Decidable c] {x y : Effect ε σ α} (hx : Leads R x)
    (hy : Leads R y) : Leads R (if c then x else y) := by
  split
  · exact hx
  · exact hy

theorem leads_attempt {x : Effect ε σ α} (hx : Leads R x) :
    Leads R (attempt x : Effect ε' σ (Except ε α)) := hx

theorem leads_mapError {f : ε → ε'} {x : Effect ε σ α} (hx : Leads R x) :
    Leads R (mapError f x) := hx

/-- What works on a part of the state. -/
theorem leads_zoom {part : τ → σ} {put : σ → τ → τ} {x : Effect ε σ α} {R' : τ → τ → Prop}
    (hx : Leads R x) (h : ∀ t s, R (part t) s → R' t (put s t)) : Leads R' (zoom part put x) :=
  fun t => h t _ (hx (part t))

variable [IsPreorder σ R]

theorem leads_pure (a : α) : Leads R (pure a : Effect ε σ α) := fun s => refl_of R s

theorem leads_throw (e : ε) : Leads R (throw e : Effect ε σ α) := fun s => refl_of R s

theorem leads_get : Leads R (get : Effect ε σ σ) := fun s => refl_of R s

theorem leads_lift (r : Except ε α) : Leads R (lift r : Effect ε σ α) := fun s => refl_of R s

/-- A computation that goes on from a state that has been reached. -/
theorem Leads.trans {x : Effect ε σ α} (hx : Leads R x) {s t : σ} (h : R s t) :
    R s (x.run t).2 :=
  trans_of R h (hx t)

theorem leads_bind {x : Effect ε σ α} {f : α → Effect ε σ β} (hx : Leads R x)
    (hf : ∀ a, Leads R (f a)) : Leads R (x >>= f) := by
  intro s
  cases h : run (x >>= f) s with
  | mk r u =>
    rcases bind_cases h with ⟨e, hs, -⟩ | ⟨a, t, hs, ht⟩
    · exact hx.of_run hs
    · exact trans_of R (hx.of_run hs) ((hf a).of_run ht)

/-- A computation that goes on from a look at the state. -/
theorem leads_get_bind {f : σ → Effect ε σ β} (hf : ∀ s, Leads R (f s)) :
    Leads R (get >>= f) :=
  leads_bind leads_get hf

end

/-! ## Views that are kept -/

/-- A view of the state is after the computation what it was before, whatever came of it. -/
def Keeps (view : σ → γ) (x : Effect ε σ α) : Prop :=
  ∀ s, view (run x s).2 = view s

/-- Two states are the same to a view. -/
abbrev Same (view : σ → γ) (s t : σ) : Prop :=
  view t = view s

instance (view : σ → γ) : IsPreorder σ (Same view) where
  refl _ := rfl
  trans _ _ _ h h' := h'.trans h

variable {view : σ → γ}

/-- A view is kept where a computation leads to states that are the same to it. -/
theorem keeps_iff {x : Effect ε σ α} : Keeps view x ↔ Leads (Same view) x := Iff.rfl

theorem Keeps.of_run {x : Effect ε σ α} (hx : Keeps view x) {s t : σ} {r : Except ε α}
    (h : run x s = (r, t)) : view t = view s :=
  (keeps_iff.1 hx).of_run h

theorem keeps_pure (a : α) : Keeps view (pure a : Effect ε σ α) := keeps_iff.2 (leads_pure a)

theorem keeps_throw (e : ε) : Keeps view (throw e : Effect ε σ α) := keeps_iff.2 (leads_throw e)

theorem keeps_get : Keeps view (get : Effect ε σ σ) := keeps_iff.2 leads_get

theorem keeps_lift (r : Except ε α) : Keeps view (lift r : Effect ε σ α) :=
  keeps_iff.2 (leads_lift r)

theorem keeps_modify {f : σ → σ} (h : ∀ s, view (f s) = view s) :
    Keeps view (modify f : Effect ε σ PUnit) := keeps_iff.2 (leads_modify h)

theorem keeps_bind {x : Effect ε σ α} {f : α → Effect ε σ β} (hx : Keeps view x)
    (hf : ∀ a, Keeps view (f a)) : Keeps view (x >>= f) :=
  keeps_iff.2 (leads_bind (keeps_iff.1 hx) hf)

/-- A computation that goes on from a look at the state. -/
theorem keeps_get_bind {f : σ → Effect ε σ β} (hf : ∀ s, Keeps view (f s)) :
    Keeps view (get >>= f) :=
  keeps_bind keeps_get hf

theorem keeps_map {f : α → β} {x : Effect ε σ α} (hx : Keeps view x) : Keeps view (f <$> x) :=
  keeps_iff.2 (leads_map (keeps_iff.1 hx))

theorem keeps_ite {c : Prop} [Decidable c] {x y : Effect ε σ α} (hx : Keeps view x)
    (hy : Keeps view y) : Keeps view (if c then x else y) :=
  keeps_iff.2 (leads_ite (keeps_iff.1 hx) (keeps_iff.1 hy))

theorem keeps_mapError {f : ε → ε'} {x : Effect ε σ α} (hx : Keeps view x) :
    Keeps view (mapError f x) := keeps_iff.2 (leads_mapError (keeps_iff.1 hx))

/-! ## Results -/

/-- Every result of the computation has a property. -/
def Yields (P : α → Prop) (x : Effect ε σ α) : Prop :=
  ∀ s a t, run x s = (.ok a, t) → P a

variable {P : α → Prop} {Q : β → Prop}

theorem yields_pure {a : α} (h : P a) : Yields P (pure a : Effect ε σ α) := by
  intro s b t hrun
  cases hrun
  exact h

theorem yields_bind {x : Effect ε σ α} {f : α → Effect ε σ β} (hf : ∀ a, Yields Q (f a)) :
    Yields Q (x >>= f) := by
  intro s b u hrun
  obtain ⟨a, t, -, ht⟩ := bind_ok hrun
  exact hf a t b u ht

theorem yields_ite {c : Prop} [Decidable c] {x y : Effect ε σ α} (hx : Yields P x)
    (hy : Yields P y) : Yields P (if c then x else y) := by
  split
  · exact hx
  · exact hy

/-! ## Errors -/

/-- Every error of the computation has a property. -/
def Fails (E : ε → Prop) (x : Effect ε σ α) : Prop :=
  ∀ s e t, run x s = (.error e, t) → E e

variable {E : ε → Prop}

theorem fails_pure (a : α) : Fails E (pure a : Effect ε σ α) := by
  intro s e t hrun
  cases hrun

theorem fails_get : Fails E (get : Effect ε σ σ) := by
  intro s e t hrun
  cases hrun

theorem fails_modify (f : σ → σ) : Fails E (modify f : Effect ε σ PUnit) := by
  intro s e t hrun
  cases hrun

theorem fails_throw {e : ε} (h : E e) : Fails E (throw e : Effect ε σ α) := by
  intro s e' t hrun
  cases hrun
  exact h

theorem fails_lift {r : Except ε α} (h : ∀ e, r = .error e → E e) :
    Fails E (lift r : Effect ε σ α) := by
  intro s e t hrun
  exact h e (congrArg Prod.fst hrun)

theorem fails_bind {x : Effect ε σ α} {f : α → Effect ε σ β} (hx : Fails E x)
    (hf : ∀ a, Fails E (f a)) : Fails E (x >>= f) := by
  intro s e u hrun
  rcases bind_cases hrun with ⟨e', hs, he⟩ | ⟨a, t, -, ht⟩
  · cases he
    exact hx s e u hs
  · exact hf a t e u ht

theorem fails_get_bind {f : σ → Effect ε σ β} (hf : ∀ s, Fails E (f s)) :
    Fails E (get >>= f) :=
  fails_bind fails_get hf

/-- What goes on from an attempt knows which errors there can be. -/
theorem fails_attempt_bind {E' : ε' → Prop} {x : Effect ε' σ α}
    {f : Except ε' α → Effect ε σ β} (hx : Fails E' x) (hok : ∀ a, Fails E (f (.ok a)))
    (herror : ∀ e, E' e → Fails E (f (.error e))) : Fails E (attempt x >>= f) := by
  intro s e u hrun
  rcases hattempt : run x s with ⟨r, t⟩
  have hrest : run (f r) t = (.error e, u) := by
    rw [run_bind, run_attempt, hattempt] at hrun
    exact hrun
  cases r with
  | ok a => exact hok a t e u hrest
  | error e' => exact herror e' (hx s e' t hattempt) t e u hrest

end BrowserFlow.Effect
