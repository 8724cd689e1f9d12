/-!
# Tables

A table is a list of keys with values in the order in which the keys were first put. Putting a
key that is already there changes its value and leaves it in its place.
-/

namespace BrowserFlow

/-- Values by name, in the order in which the names were first put. -/
abbrev Table (α : Type) := List (String × α)

namespace Table

variable {α : Type}

/-- The value of a key. -/
def get? : Table α → String → Option α
  | [], _ => none
  | (k, v) :: rest, key => if k = key then some v else get? rest key

def contains (t : Table α) (key : String) : Bool :=
  (t.get? key).isSome

/-- Sets a key: in its place if it is there, at the end if not. -/
def put : Table α → String → α → Table α
  | [], key, value => [(key, value)]
  | (k, v) :: rest, key, value =>
    if k = key then (k, value) :: rest else (k, v) :: put rest key value

/-- Removes a key. -/
def erase (t : Table α) (key : String) : Table α :=
  t.filter fun e => e.1 != key

/-- The first table with the entries of the second put over it. -/
def overlay (t upper : Table α) : Table α :=
  upper.foldl (fun acc e => acc.put e.1 e.2) t

def keys (t : Table α) : List String :=
  t.map (·.1)

@[simp] theorem get?_nil (key : String) : get? ([] : Table α) key = none := rfl

theorem get?_cons (k : String) (v : α) (rest : Table α) (key : String) :
    get? ((k, v) :: rest) key = if k = key then some v else get? rest key := rfl

/-- After putting a key, that key has the new value and every other key its old one. -/
theorem get?_put (t : Table α) (key : String) (value : α) (k : String) :
    (t.put key value).get? k = if key = k then some value else t.get? k := by
  induction t with
  | nil => simp [put, get?_cons]
  | cons e rest ih =>
    obtain ⟨k', v⟩ := e
    by_cases h : k' = key
    · subst h; by_cases hk : k' = k <;> simp [put, get?_cons, hk]
    · by_cases hk : k' = k
      · subst hk; simp [put, get?_cons, h, Ne.symm h]
      · simp [put, get?_cons, h, hk, ih]

/-- Of two values put at one key the second stays. -/
theorem put_put (t : Table α) (key : String) (a b : α) :
    (t.put key a).put key b = t.put key b := by
  induction t with
  | nil => simp [put]
  | cons e rest ih =>
    obtain ⟨k, v⟩ := e
    by_cases h : k = key <;> simp [put, h, ih]

/-- After removing a key, that key has no value and every other key its old one. -/
theorem get?_erase (t : Table α) (key k : String) :
    (t.erase key).get? k = if k = key then none else t.get? k := by
  induction t with
  | nil => simp [erase]
  | cons e rest ih =>
    obtain ⟨k', v⟩ := e
    unfold erase at ih ⊢
    by_cases h : k' = key
    · subst h
      rw [List.filter_cons_of_neg (by simp), ih, get?_cons]
      by_cases hk : k = k'
      · simp [hk]
      · simp [hk, Ne.symm hk]
    · rw [List.filter_cons_of_pos (by simpa using h), get?_cons, get?_cons, ih]
      by_cases hk : k' = k
      · subst hk; simp [h]
      · simp [hk]

end Table

end BrowserFlow
