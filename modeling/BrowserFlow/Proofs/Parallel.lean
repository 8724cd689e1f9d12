import BrowserFlow.Proofs.Effect

/-!
# Two computations side by side

Two runs are compared step by step. `Alike Q` says of two outcomes that both gave results that are
in the relation `Q`, or that both failed, and in the same way. `Parallel R Q x y` says that from
states in the relation `R` the computations `x` and `y` come to such outcomes and to states in that
relation again. It passes through every way of building computations, so that a long computation is
compared with another, or with itself from another state, part by part.
-/

namespace BrowserFlow.Effect

variable {ε ε' σ σ' τ τ' α α' β β' : Type}

/-- Both outcomes are results in a relation, or the same failure. -/
inductive Alike (Q : α → β → Prop) : Except ε α → Except ε β → Prop
  | ok {a : α} {b : β} (related : Q a b) : Alike Q (.ok a) (.ok b)
  | error (e : ε) : Alike Q (.error e) (.error e)

namespace Alike

variable {Q : α → β → Prop} {r : Except ε α} {q : Except ε β}

theorem mono {Q' : α → β → Prop} (h : Alike Q r q) (hQ : ∀ a b, Q a b → Q' a b) :
    Alike Q' r q := by
  cases h with
  | ok related => exact .ok (hQ _ _ related)
  | error e => exact .error e

theorem refl {Q : α → α → Prop} (hQ : ∀ a, Q a a) (r : Except ε α) : Alike Q r r := by
  cases r with
  | ok a => exact .ok (hQ a)
  | error e => exact .error e

theorem eq {q : Except ε α} (h : Alike Eq r q) : r = q := by
  cases h with
  | ok related => rw [related]
  | error e => rfl

theorem map {Q' : α' → β' → Prop} {f : α → α'} {g : β → β'} (h : Alike Q r q)
    (hfg : ∀ a b, Q a b → Q' (f a) (g b)) : Alike Q' (r.map f) (q.map g) := by
  cases h with
  | ok related => exact .ok (hfg _ _ related)
  | error e => exact .error e

theorem mapError (h : Alike Q r q) (f : ε → ε') : Alike Q (r.mapError f) (q.mapError f) := by
  cases h with
  | ok related => exact .ok related
  | error e => exact .error (f e)

end Alike

/-- Two computations have come to outcomes alike and to related states. -/
structure Meets (R : σ → τ → Prop) (Q : α → β → Prop) (p : Except ε α × σ)
    (q : Except ε β × τ) : Prop where
  result : Alike Q p.1 q.1
  state : R p.2 q.2

/-- From related states the computations come to outcomes alike and to related states. -/
def Parallel (R : σ → τ → Prop) (Q : α → β → Prop) (x : Effect ε σ α) (y : Effect ε τ β) : Prop :=
  ∀ s t, R s t → Meets R Q (x.run s) (y.run t)

variable {R R' : σ → τ → Prop} {Q : α → β → Prop} {Q' : α' → β' → Prop}

theorem Meets.mono {p : Except ε α × σ} {q : Except ε β × τ} (h : Meets R Q p q)
    (hR : ∀ s t, R s t → R' s t) : Meets R' Q p q :=
  ⟨h.result, hR _ _ h.state⟩

theorem Meets.mono_result {Q'' : α → β → Prop} {p : Except ε α × σ} {q : Except ε β × τ}
    (h : Meets R Q p q) (hQ : ∀ a b, Q a b → Q'' a b) : Meets R Q'' p q :=
  ⟨h.result.mono hQ, h.state⟩

theorem Parallel.mono_result {x : Effect ε σ α} {y : Effect ε τ β} {Q'' : α → β → Prop}
    (h : Parallel R Q x y) (hQ : ∀ a b, Q a b → Q'' a b) : Parallel R Q'' x y :=
  fun s t hst => (h s t hst).mono_result hQ

/-! ## One after the other -/

section

variable {x : Effect ε σ α} {y : Effect ε τ β} {f : α → Effect ε σ α'} {g : β → Effect ε τ β'}

/-- What goes on from there. The states may be in another relation from then on. -/
theorem Meets.bind {s : σ} {t : τ} (hxy : Meets R Q (x.run s) (y.run t))
    (hR : ∀ u v, R u v → R' u v)
    (hfg : ∀ a b u v, Q a b → R u v → Meets R' Q' ((f a).run u) ((g b).run v)) :
    Meets R' Q' ((x >>= f).run s) ((y >>= g).run t) := by
  obtain ⟨hresult, hstate⟩ := hxy
  rw [run_bind, run_bind]
  cases hx : x.run s with
  | mk r u =>
    cases hy : y.run t with
    | mk q v =>
      rw [hx, hy] at hresult hstate
      cases hresult with
      | ok related => exact hfg _ _ _ _ related hstate
      | error e => exact ⟨.error e, hR _ _ hstate⟩

theorem parallel_bind (hxy : Parallel R Q x y)
    (hfg : ∀ a b, Q a b → Parallel R Q' (f a) (g b)) : Parallel R Q' (x >>= f) (y >>= g) :=
  fun s t hst => (hxy s t hst).bind (fun _ _ h => h) fun a b u v hab huv => hfg a b hab u v huv

/-- What goes on from the same result. -/
theorem parallel_bind_eq {y : Effect ε τ α} {g : α → Effect ε τ β'} (hxy : Parallel R Eq x y)
    (hfg : ∀ a, Parallel R Q' (f a) (g a)) : Parallel R Q' (x >>= f) (y >>= g) :=
  parallel_bind hxy fun a _ hab => hab ▸ hfg a

/-- What goes on from a look at the states. -/
theorem parallel_get_bind {f : σ → Effect ε σ α'} {g : τ → Effect ε τ β'}
    (hfg : ∀ s t, R s t → Parallel R Q' (f s) (g t)) : Parallel R Q' (get >>= f) (get >>= g) := by
  intro s t hst
  rw [run_bind_ok (run_get s), run_bind_ok (run_get t)]
  exact hfg s t hst s t hst

theorem parallel_map {f : α → α'} {g : β → β'} (hxy : Parallel R Q x y)
    (hfg : ∀ a b, Q a b → Q' (f a) (g b)) : Parallel R Q' (f <$> x) (g <$> y) := by
  intro s t hst
  rw [run_map, run_map]
  exact ⟨(hxy s t hst).result.map hfg, (hxy s t hst).state⟩

end

/-! ## Single computations -/

theorem parallel_pure {a : α} {b : β} (h : Q a b) :
    Parallel R Q (pure a : Effect ε σ α) (pure b : Effect ε τ β) :=
  fun _ _ hst => ⟨.ok h, hst⟩

theorem parallel_throw (e : ε) :
    Parallel R Q (throw e : Effect ε σ α) (throw e : Effect ε τ β) :=
  fun _ _ hst => ⟨.error e, hst⟩

theorem parallel_lift {r : Except ε α} {q : Except ε β} (h : Alike Q r q) :
    Parallel R Q (lift r : Effect ε σ α) (lift q : Effect ε τ β) :=
  fun _ _ hst => ⟨h, hst⟩

theorem parallel_lift_eq (r : Except ε α) :
    Parallel R Eq (lift r : Effect ε σ α) (lift r : Effect ε τ α) :=
  parallel_lift (.refl (fun _ => rfl) r)

theorem parallel_modify {f : σ → σ} {g : τ → τ} (h : ∀ s t, R s t → R (f s) (g t)) :
    Parallel R Eq (modify f : Effect ε σ PUnit) (modify g : Effect ε τ PUnit) :=
  fun s t hst => ⟨.ok rfl, h s t hst⟩

theorem parallel_ite {c : Prop} [Decidable c] {x x' : Effect ε σ α} {y y' : Effect ε τ β}
    (h : Parallel R Q x y) (h' : Parallel R Q x' y') :
    Parallel R Q (if c then x else x') (if c then y else y') := by
  split
  · exact h
  · exact h'

theorem parallel_attempt {x : Effect ε σ α} {y : Effect ε τ β} (h : Parallel R Q x y) :
    Parallel R (Alike Q) (attempt x : Effect ε' σ (Except ε α))
      (attempt y : Effect ε' τ (Except ε β)) :=
  fun s t hst => ⟨.ok (h s t hst).result, (h s t hst).state⟩

theorem parallel_attempt_eq {x : Effect ε σ α} {y : Effect ε τ α} (h : Parallel R Eq x y) :
    Parallel R Eq (attempt x : Effect ε' σ (Except ε α)) (attempt y : Effect ε' τ (Except ε α)) :=
  (parallel_attempt h).mono_result fun _ _ hab => hab.eq

theorem parallel_mapError {x : Effect ε σ α} {y : Effect ε τ β} (h : Parallel R Q x y)
    (f : ε → ε') : Parallel R Q (mapError f x) (mapError f y) :=
  fun s t hst => ⟨(h s t hst).result.mapError f, (h s t hst).state⟩

/-- What works on parts of the states. -/
theorem parallel_zoom {R₀ : σ' → τ' → Prop} {part : σ → σ'} {put : σ' → σ → σ} {part' : τ → τ'}
    {put' : τ' → τ → τ} {x : Effect ε σ' α} {y : Effect ε τ' β} (h : Parallel R₀ Q x y)
    (hpart : ∀ s t, R s t → R₀ (part s) (part' t))
    (hput : ∀ s t u v, R s t → R₀ u v → R (put u s) (put' v t)) :
    Parallel R Q (zoom part put x) (zoom part' put' y) :=
  fun s t hst =>
    ⟨(h _ _ (hpart s t hst)).result, hput s t _ _ hst (h _ _ (hpart s t hst)).state⟩

/-- A computation beside itself from the same state. -/
theorem parallel_self (x : Effect ε σ α) : Parallel Eq Eq x x := by
  rintro s _ rfl
  exact ⟨.refl (fun _ => rfl) _, rfl⟩

end BrowserFlow.Effect
