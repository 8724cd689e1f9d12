/-!
# Results and failures

A composed computation gives a result only if both of its parts do (`bind_eq_ok`). So a list is read
if each of its items is, and every item of what was read comes from one of the list.

`Refines R x y` says that `x` gives a result whenever `y` does, and that the two results are in the
relation `R`; where `y` fails, nothing is asked of `x`. As with data refinement in general, the
judgement goes through every way of building a computation from others, so that two long
computations are compared part by part.
-/

namespace BrowserFlow

variable {α β γ ε : Type}

/-- A result that something was made of. -/
theorem map_eq_ok {x : Except ε α} {f : α → β} {b : β} (h : x.map f = .ok b) :
    ∃ a, x = .ok a ∧ f a = b := by
  cases x with
  | error e => cases h
  | ok a => exact ⟨a, rfl, Except.ok.inj h⟩

theorem bind_eq_ok {x : Except ε α} {f : α → Except ε β} {b : β}
    (h : (x >>= f) = .ok b) : ∃ a, x = .ok a ∧ f a = .ok b := by
  cases x with
  | error e => cases h
  | ok a => exact ⟨a, rfl, h⟩

/-! ## Lists -/

/-- A list each item of which is read without a fault. -/
theorem mapM_eq_ok {f : α → Except ε β} {g : γ → α} {k : γ → β} {cs : List γ}
    (h : ∀ c ∈ cs, f (g c) = .ok (k c)) : (cs.map g).mapM f = .ok (cs.map k) := by
  induction cs with
  | nil => rfl
  | cons c cs ih =>
    obtain ⟨hc, hcs⟩ := List.forall_mem_cons.1 h
    rw [List.map_cons, List.mapM_cons, hc, ih hcs]
    rfl

/-- A list each item of which is judged without a fault. -/
theorem filterM_eq_ok {f : α → Except ε Bool} {g : γ → α} {p : γ → Bool}
    (h : ∀ c, f (g c) = .ok (p c)) (cs : List γ) :
    (cs.map g).filterM f = .ok ((cs.filter p).map g) := by
  -- what has been kept is gathered in reverse
  have haux : ∀ acc, (cs.map g).filterAuxM f acc = .ok (((cs.filter p).map g).reverse ++ acc) := by
    induction cs with
    | nil => exact fun acc => rfl
    | cons c cs ih =>
      intro acc
      rw [List.map_cons, List.filterAuxM, h c]
      show (cs.map g).filterAuxM f (bif p c then g c :: acc else acc) = _
      rw [ih]
      cases hp : p c with
      | true => simp [hp]
      | false => simp [hp]
  unfold List.filterM
  rw [haux]
  simp [bind, Except.bind, pure, Except.pure]

theorem mem_of_mapM {f : α → Except ε β} {xs : List α} {ys : List β}
    (h : xs.mapM f = .ok ys) : ∀ y ∈ ys, ∃ x ∈ xs, f x = .ok y := by
  induction xs generalizing ys with
  | nil =>
    cases h
    simp
  | cons x xs ih =>
    rw [List.mapM_cons] at h
    obtain ⟨y, hy, h⟩ := bind_eq_ok h
    obtain ⟨rest, hrest, h⟩ := bind_eq_ok h
    cases h
    intro z hz
    rcases List.mem_cons.1 hz with rfl | hz
    · exact ⟨x, List.mem_cons_self, hy⟩
    · obtain ⟨x', hx', hz⟩ := ih hrest z hz
      exact ⟨x', List.mem_cons_of_mem _ hx', hz⟩

theorem mem_of_filterM {f : α → Except ε Bool} {xs ys : List α}
    (h : xs.filterM f = .ok ys) : ∀ y ∈ ys, y ∈ xs := by
  -- what has been kept is gathered in reverse
  have haux : ∀ acc kept, xs.filterAuxM f acc = .ok kept → ∀ y ∈ kept, y ∈ xs ∨ y ∈ acc := by
    clear h
    induction xs with
    | nil =>
      intro acc kept h y hy
      cases h
      exact Or.inr hy
    | cons x xs ih =>
      intro acc kept h y hy
      rw [List.filterAuxM] at h
      obtain ⟨keep, -, h⟩ := bind_eq_ok h
      rcases ih _ _ h y hy with hxs | hacc
      · exact Or.inl (List.mem_cons_of_mem _ hxs)
      · cases keep with
        | true =>
          rcases List.mem_cons.1 hacc with rfl | hacc
          · exact Or.inl List.mem_cons_self
          · exact Or.inr hacc
        | false => exact Or.inr hacc
  intro y hy
  unfold List.filterM at h
  obtain ⟨kept, hkept, h⟩ := bind_eq_ok h
  cases h
  rcases haux [] kept hkept y (List.mem_reverse.1 hy) with hxs | hnil
  · exact hxs
  · cases hnil

end BrowserFlow

/-! ## A computation that succeeds where another does -/

namespace BrowserFlow

variable {ε α α' β β' : Type} {R R' : α → β → Prop} {S : α' → β' → Prop}
  {x x' : Except ε α} {y y' : Except ε β} {f : α → Except ε α'} {g : β → Except ε β'}

/-- Where the second succeeds, so does the first, with a related result. -/
def Refines (R : α → β → Prop) (x : Except ε α) (y : Except ε β) : Prop :=
  ∀ b, y = .ok b → ∃ a, x = .ok a ∧ R a b

namespace Refines

theorem ok {a : α} {b : β} (h : R a b) : Refines R (.ok a : Except ε α) (.ok b) := by
  rintro _ ⟨⟩
  exact ⟨a, rfl, h⟩

theorem pure {a : α} {b : β} (h : R a b) :
    Refines R (Pure.pure a : Except ε α) (Pure.pure b) :=
  ok h

/-- Nothing is asked where the second fails. -/
theorem error {e : ε} : Refines R x (.error e) := by
  rintro _ ⟨⟩

theorem throw {e : ε} : Refines R x (MonadExcept.throw e) :=
  error

theorem throw_bind {e : ε} {k : β' → Except ε β} :
    Refines R x ((MonadExcept.throw e : Except ε β') >>= k) :=
  error

theorem of_not_ok (h : ∀ b, y ≠ .ok b) : Refines R x y :=
  fun b hb => absurd hb (h b)

/-- One after the other, where the second may depend on how the first came to its result. -/
theorem bind_of_ok (h : Refines R x y) (hfg : ∀ a b, x = .ok a → R a b → Refines S (f a) (g b)) :
    Refines S (x >>= f) (y >>= g) := by
  intro b' hb'
  obtain ⟨b, hb, hg⟩ := bind_eq_ok hb'
  obtain ⟨a, ha, hab⟩ := h b hb
  obtain ⟨a', ha', hab'⟩ := hfg a b ha hab b' hg
  exact ⟨a', by rw [ha]; exact ha', hab'⟩

theorem bind (h : Refines R x y) (hfg : ∀ a b, R a b → Refines S (f a) (g b)) :
    Refines S (x >>= f) (y >>= g) :=
  h.bind_of_ok fun a b _ => hfg a b

theorem ite {p q : Prop} [Decidable p] [Decidable q] (hpq : p ↔ q)
    (ht : p → Refines R x y) (he : ¬p → Refines R x' y') :
    Refines R (if p then x else x') (if q then y else y') := by
  by_cases hp : p
  · rw [if_pos hp, if_pos (hpq.mp hp)]
    exact ht hp
  · rw [if_neg hp, if_neg (hp ∘ hpq.mpr)]
    exact he hp

theorem mono (h : Refines R x y) (hR : ∀ a b, R a b → R' a b) : Refines R' x y := by
  intro b hb
  obtain ⟨a, ha, hab⟩ := h b hb
  exact ⟨a, ha, hR a b hab⟩

end Refines

end BrowserFlow
