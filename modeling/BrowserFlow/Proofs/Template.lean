import BrowserFlow.Proofs.Text.Rewriting
import BrowserFlow.Template

/-!
# Filling in

`Passes` says what one pass from left to right makes of a text, without scanning: a placeholder of
a bound name becomes the plain form of its value, and every other character is kept. Nothing that
stands inside a placeholder begins another one, so that those of names that are not bound are kept
whole (`passes_append`), and the pass is what `fillText` computes (`passes_iff`). A pass looks up no
name but those that occur (`Passes.congr`).

`Filled` carries this over to the texts of a value; lists keep their length, mappings their keys,
and everything else stays.
-/

namespace BrowserFlow.Template

variable {env env' : Env} {name other : String} {cs ds : List Char}

/-! ## Placeholders -/

/-- A name that a placeholder can have. -/
structure IsName (name : String) : Prop where
  notEmpty : name ≠ ""
  word : ∀ c ∈ name.toList, Text.isWordChar c = true

/-- The placeholder of a name. -/
def written (name : String) : List Char :=
  '$' :: '\x7b' :: (name.toList ++ ['\x7d'])

/-- The name has a value that is not null. -/
def Bound (env : Env) (name : String) : Prop :=
  ∃ value, env.get? name = some value ∧ value ≠ .null

theorem length_written (name : String) : (written name).length = name.toList.length + 3 := by
  simp [written]

theorem isWordChar_marks :
    Text.isWordChar '$' = false ∧ Text.isWordChar '\x7b' = false ∧
      Text.isWordChar '\x7d' = false := by
  decide +kernel

/-- The word characters at the front end where the placeholder does. -/
theorem span_name (h : IsName name) (rest : List Char) :
    (name.toList ++ '\x7d' :: rest).takeWhile Text.isWordChar = name.toList ∧
      (name.toList ++ '\x7d' :: rest).dropWhile Text.isWordChar = '\x7d' :: rest := by
  have hend : ¬ Text.isWordChar '\x7d' = true := by
    rw [isWordChar_marks.2.2]
    exact Bool.false_ne_true
  constructor
  · rw [List.takeWhile_append_of_pos h.word, List.takeWhile_cons_of_neg hend, List.append_nil]
  · rw [List.dropWhile_append_of_pos h.word, List.dropWhile_cons_of_neg hend]

/-- What is found at the front is the placeholder of a name. -/
theorem placeholder?_eq_some_iff {found : List Char} {n : Nat} :
    placeholder? cs = some (found, n) ↔
      ∃ name rest, IsName name ∧ cs = written name ++ rest ∧ found = name.toList ∧
        n = (written name).length := by
  constructor
  · intro h
    unfold placeholder? at h
    split at h
    · rename_i cs
      dsimp only at h
      split at h
      · rename_i rest hempty hrest
        cases h
        refine ⟨String.ofList (cs.takeWhile Text.isWordChar), rest, ⟨?_, ?_⟩, ?_, ?_, ?_⟩
        · intro hname
          rw [String.ofList_eq_empty_iff] at hname
          rw [hname] at hempty
          cases hempty
        · rw [String.toList_ofList]
          exact fun c hc => List.mem_takeWhile_imp hc
        · have hsplit := List.takeWhile_append_dropWhile (p := Text.isWordChar) (l := cs)
          rw [hrest] at hsplit
          rw [written, String.toList_ofList]
          simp [hsplit]
        · rw [String.toList_ofList]
        · rw [length_written, String.toList_ofList]
      · cases h
    · cases h
  · rintro ⟨name, rest, hname, rfl, rfl, rfl⟩
    have hsplit : written name ++ rest = '$' :: '\x7b' :: (name.toList ++ '\x7d' :: rest) := by
      simp [written]
    obtain ⟨htake, hdrop⟩ := span_name hname rest
    have hfull : name.toList.isEmpty = false := by
      rw [List.isEmpty_eq_false_iff]
      exact fun h => hname.notEmpty (String.toList_eq_nil_iff.1 h)
    rw [hsplit, length_written]
    simp only [placeholder?, htake, hdrop, hfull]

theorem placeholder?_eq_none
    (h : ∀ name rest, IsName name → cs ≠ written name ++ rest) : placeholder? cs = none := by
  cases hfound : placeholder? cs with
  | none => rfl
  | some found =>
    obtain ⟨name, rest, hname, hsplit, -⟩ := placeholder?_eq_some_iff.1 hfound
    exact absurd hsplit (h name rest hname)

/-- At the front there is one placeholder at most. -/
theorem written_append_inj (hname : IsName name) (hother : IsName other)
    (h : written name ++ cs = written other ++ ds) : name = other ∧ cs = ds := by
  have hfound : placeholder? (written name ++ cs) = some (name.toList, (written name).length) :=
    placeholder?_eq_some_iff.2 ⟨name, cs, hname, rfl, rfl, rfl⟩
  have hfound' : placeholder? (written other ++ ds) =
      some (other.toList, (written other).length) :=
    placeholder?_eq_some_iff.2 ⟨other, ds, hother, rfl, rfl, rfl⟩
  rw [h, hfound'] at hfound
  have hsame : other.toList = name.toList := (Prod.mk.inj (Option.some.inj hfound)).1
  obtain rfl : other = name := String.toList_inj.1 hsame
  exact ⟨rfl, List.append_cancel_left h⟩

/-! ## One pass over a text -/

/-- From some characters to others one pass from left to right replaces the placeholders of bound
names, and keeps everything else. -/
inductive Passes (env : Env) : List Char → List Char → Prop
  | done : Passes env [] []
  | bound {name : String} {value : Value} {cs ds : List Char} (isName : IsName name)
      (found : env.get? name = some value) (given : value ≠ .null) (rest : Passes env cs ds) :
      Passes env (written name ++ cs) (value.plainText.toList ++ ds)
  | kept {c : Char} {cs ds : List Char}
      (unbound : ∀ name rest, IsName name → Bound env name → c :: cs ≠ written name ++ rest)
      (rest : Passes env cs ds) : Passes env (c :: cs) (c :: ds)

theorem binding?_eq {value : Value} (found : env.get? name = some value) (given : value ≠ .null) :
    binding? env name = some value.plainText := by
  unfold binding?
  rw [found]
  split
  · rename_i hnone
    cases hnone
  · rename_i hnull
    exact absurd (Option.some.inj hnull) given
  · rename_i hsome
    rw [Option.some.inj hsome]

theorem binding?_eq_none (h : ¬ Bound env name) : binding? env name = none := by
  unfold binding?
  cases hfound : env.get? name with
  | none => rfl
  | some value =>
    obtain rfl : value = .null := by
      by_contra hgiven
      exact h ⟨value, hfound, hgiven⟩
    rfl

/-- Characters without a dollar sign come through. -/
theorem passes_append {front : List Char} (hfront : '$' ∉ front) (h : Passes env cs ds) :
    Passes env (front ++ cs) (front ++ ds) := by
  induction front with
  | nil => exact h
  | cons c front ih =>
    refine .kept (fun name rest _ _ heq => ?_) (ih fun hmem => hfront (List.mem_cons_of_mem c hmem))
    exact hfront ((List.cons.inj heq).1 ▸ List.mem_cons_self)

/-- No dollar sign stands behind that of a placeholder. -/
theorem not_mem_written_tail (h : IsName name) : '$' ∉ (written name).tail := by
  intro hmem
  rcases List.mem_cons.1 hmem with hbrace | hmem
  · exact absurd hbrace (by decide)
  · rcases List.mem_append.1 hmem with hmem | hmem
    · have hword := h.word _ hmem
      rw [isWordChar_marks.1] at hword
      cases hword
    · exact absurd (List.mem_singleton.1 hmem) (by decide)

/-- So the placeholder of a name that is not bound comes through whole. -/
theorem passes_unbound (hname : IsName name) (hfree : ¬ Bound env name) (h : Passes env cs ds) :
    Passes env (written name ++ cs) (written name ++ ds) := by
  refine .kept (fun other rest hother hbound heq => ?_)
    (passes_append (not_mem_written_tail hname) h)
  obtain ⟨rfl, -⟩ := written_append_inj hname hother heq
  exact hfree hbound

/-- A step of the filling takes a placeholder. -/
theorem fillStep_eq_some {replacement : List Char} {n : Nat}
    (h : fillStep env cs = some (replacement, n)) :
    ∃ name rest, IsName name ∧ cs = written name ++ rest ∧ n = (written name).length ∧
      replacement = ((binding? env name).map String.toList).getD (written name) := by
  unfold fillStep at h
  obtain ⟨⟨found, length⟩, hfound, hreturn⟩ := Option.bind_eq_some_iff.1 h
  obtain ⟨name, rest, hname, rfl, rfl, rfl⟩ := placeholder?_eq_some_iff.1 hfound
  cases hreturn
  refine ⟨name, rest, hname, rfl, rfl, ?_⟩
  rw [String.ofList_toList, List.take_left]

theorem fillStep_written (env : Env) (hname : IsName name) (cs : List Char) :
    fillStep env (written name ++ cs) =
      some (((binding? env name).map String.toList).getD (written name),
        (written name).length) := by
  have hfound : placeholder? (written name ++ cs) = some (name.toList, (written name).length) :=
    placeholder?_eq_some_iff.2 ⟨name, cs, hname, rfl, rfl, rfl⟩
  unfold fillStep
  rw [hfound]
  simp only [Option.bind_eq_bind, Option.bind_some, String.ofList_toList, List.take_left]
  rfl

theorem fillStep_eq_none (h : placeholder? cs = none) : fillStep env cs = none := by
  unfold fillStep
  rw [h]
  rfl

theorem written_ne_nil (name : String) : written name ≠ [] :=
  List.cons_ne_nil _ _

/-- Filling in is such a pass. -/
theorem passes_replaceFrom (env : Env) (cs : List Char) :
    Passes env cs (Text.replaceFrom (fillStep env) 0 cs) := by
  have hconsumes : Text.Consumes (fillStep env) := by
    intro cs replacement n h
    obtain ⟨name, rest, -, rfl, rfl, -⟩ := fillStep_eq_some h
    rw [List.length_append]
    exact ⟨List.length_pos_iff.2 (written_ne_nil name), Nat.le_add_right _ _⟩
  have hrewrites := Text.rewrites_replaceFrom hconsumes cs
  generalize Text.replaceFrom (fillStep env) 0 cs = ds at hrewrites
  induction hrewrites with
  | nil => exact .done
  | keep missed rest ih =>
    refine .kept (fun name rest hname _ hsplit => ?_) ih
    rw [hsplit, fillStep_written env hname] at missed
    cases missed
  | @find front replacement cs ds taken found rest ih =>
    obtain ⟨name, behind, hname, hsplit, hlength, rfl⟩ := fillStep_eq_some found
    obtain ⟨rfl, rfl⟩ := List.append_inj hsplit hlength
    by_cases hbound : Bound env name
    · obtain ⟨value, hfound, hgiven⟩ := hbound
      rw [binding?_eq hfound hgiven]
      exact .bound hname hfound hgiven ih
    · rw [binding?_eq_none hbound]
      exact passes_unbound hname hbound ih

/-- There is no other. -/
theorem Passes.eq (h : Passes env cs ds) : ds = Text.replaceFrom (fillStep env) 0 cs := by
  induction h with
  | done => rfl
  | @bound name value cs ds isName found given rest ih =>
    have hstep := fillStep_written env isName cs
    rw [binding?_eq found given] at hstep
    rw [Text.replaceFrom_front (written_ne_nil name) hstep, ih]
    rfl
  | @kept c cs ds unbound rest ih =>
    cases hfound : placeholder? (c :: cs) with
    | none => rw [Text.replaceFrom_of_none (fillStep_eq_none hfound), ih]
    | some found =>
      -- a placeholder of a name that is not bound is its own replacement
      obtain ⟨name, behind, hname, hsplit, -⟩ := placeholder?_eq_some_iff.1 hfound
      have hfree : ¬ Bound env name := fun hbound => unbound name behind hname hbound hsplit
      have hstep := fillStep_written env hname behind
      rw [binding?_eq_none hfree] at hstep
      have htail : cs = (written name).tail ++ behind := (List.cons.inj hsplit).2
      have hkept : ∀ within, within <:+ (written name).tail → within ≠ [] →
          fillStep env (within ++ behind) = none := by
        intro within hwithin hne
        refine fillStep_eq_none (placeholder?_eq_none fun other rest _ heq => ?_)
        obtain ⟨d, within, rfl⟩ := List.exists_cons_of_ne_nil hne
        obtain ⟨rfl, -⟩ := List.cons.inj heq
        exact not_mem_written_tail hname (hwithin.subset List.mem_cons_self)
      rw [hsplit, Text.replaceFrom_front (written_ne_nil name) hstep, ih, htail,
        Text.replaceFrom_append hkept]
      exact congrArg (· :: _) (List.cons.inj hsplit).1

/-- The one pass over a text gives the text with its placeholders filled in. -/
theorem passes_iff {s t : String} :
    Passes env s.toList t.toList ↔ t = fillText env s := by
  unfold fillText Text.replaceAll
  rw [← String.toList_inj, String.toList_ofList]
  constructor
  · exact Passes.eq
  · intro h
    rw [h]
    exact passes_replaceFrom env s.toList

/-- A pass over some characters asks for no other name than those whose placeholders occur there. -/
theorem Passes.congr (h : Passes env cs ds)
    (hsame : ∀ name, IsName name → written name <:+: cs → env'.get? name = env.get? name) :
    Passes env' cs ds := by
  induction h with
  | done => exact .done
  | @bound name value cs ds isName found given rest ih =>
    refine .bound isName ?_ given (ih fun other hother hoccurs => ?_)
    · rw [hsame name isName (List.prefix_append _ _).isInfix]
      exact found
    · exact hsame other hother (hoccurs.trans (List.suffix_append _ _).isInfix)
  | @kept c cs ds unbound rest ih =>
    refine .kept (fun name behind hname hbound hsplit => ?_) (ih fun other hother hoccurs => ?_)
    · have hoccurs : written name <:+: c :: cs := by
        rw [hsplit]
        exact (List.prefix_append _ _).isInfix
      obtain ⟨value, hfound, hgiven⟩ := hbound
      rw [hsame name hname hoccurs] at hfound
      exact unbound name behind hname ⟨value, hfound, hgiven⟩ hsplit
    · exact hsame other hother (hoccurs.trans (List.suffix_cons _ _).isInfix)

/-- Where no name that occurs is bound everything is kept. -/
theorem passes_self (h : ∀ name, IsName name → written name <:+: cs → ¬ Bound env name) :
    Passes env cs cs := by
  induction cs with
  | nil => exact .done
  | cons c cs ih =>
    refine .kept (fun name rest hname hbound hsplit => ?_) (ih fun name hname hoccurs => ?_)
    · refine h name hname ?_ hbound
      rw [hsplit]
      exact (List.prefix_append _ _).isInfix
    · exact h name hname (hoccurs.trans (List.suffix_cons _ _).isInfix)

/-- A text without a dollar sign has no placeholder in it. -/
theorem fillText_of_not_mem {s : String} (h : '$' ∉ s.toList) : fillText env s = s := by
  have hpass : Passes env (s.toList ++ []) (s.toList ++ []) := passes_append h .done
  rw [List.append_nil] at hpass
  exact (passes_iff.1 hpass).symm

/-! ## Values -/

theorem fillEntries_eq (env : Env) (entries : List (Value × Value)) :
    fillEntries env entries = entries.map fun e => (e.1, fill env e.2) := by
  induction entries with
  | nil => rfl
  | cons e rest ih =>
    obtain ⟨k, v⟩ := e
    rw [fillEntries, ih, List.map_cons]

theorem fillItems_eq (env : Env) (items : List Value) :
    fillItems env items = items.map (fill env) := by
  induction items with
  | nil => rfl
  | cons v rest ih => rw [fillItems, ih, List.map_cons]

/-- In a record the placeholders of each field are filled in. -/
theorem fill_record (env : Env) (fields : Table Value) :
    fill env (.record fields) = .record (fields.map fun f => (f.1, fill env f.2)) := by
  unfold Value.record
  rw [fill, fillEntries_eq, List.map_map, List.map_map]
  rfl

/-- A value that is neither a text nor made of other values by name or place. -/
def isOther : Value → Bool
  | .text _ | .list _ | .map _ => false
  | _ => true

mutual

/-- From a value to another one the placeholders have been filled in: a pass has been made over
each text, lists have their length and mappings their keys in their order, and everything else is
as it was. -/
inductive Filled (env : Env) : Value → Value → Prop
  | text {s t : String} (pass : Passes env s.toList t.toList) : Filled env (.text s) (.text t)
  | list {items filled : List Value} (each : FilledItems env items filled) :
      Filled env (.list items) (.list filled)
  | map {entries filled : List (Value × Value)} (each : FilledEntries env entries filled) :
      Filled env (.map entries) (.map filled)
  | other {v : Value} (kept : isOther v = true) : Filled env v v

inductive FilledItems (env : Env) : List Value → List Value → Prop
  | nil : FilledItems env [] []
  | cons {v w : Value} {items filled : List Value} (first : Filled env v w)
      (rest : FilledItems env items filled) : FilledItems env (v :: items) (w :: filled)

inductive FilledEntries (env : Env) : List (Value × Value) → List (Value × Value) → Prop
  | nil : FilledEntries env [] []
  | cons {key v w : Value} {entries filled : List (Value × Value)} (first : Filled env v w)
      (rest : FilledEntries env entries filled) :
      FilledEntries env ((key, v) :: entries) ((key, w) :: filled)

end

/-- The placeholder of a name occurs in a text of a value. -/
inductive Mentions (name : String) : Value → Prop
  | text {s : String} (isName : IsName name) (occurs : written name <:+: s.toList) :
      Mentions name (.text s)
  | list {items : List Value} {v : Value} (mem : v ∈ items) (inside : Mentions name v) :
      Mentions name (.list items)
  | map {entries : List (Value × Value)} {e : Value × Value} (mem : e ∈ entries)
      (inside : Mentions name e.2) : Mentions name (.map entries)

theorem filled_other (env : Env) {v : Value} (h : isOther v = true) (w : Value) :
    Filled env v w ↔ w = v := by
  constructor
  · intro hfilled
    cases hfilled with
    | other kept => rfl
    | _ => cases h
  · rintro rfl
    exact .other h

mutual

theorem filled_iff (env : Env) : ∀ v w : Value, Filled env v w ↔ w = fill env v
  | .text s, w => by
    rw [fill]
    constructor
    · intro h
      cases h with
      | text pass => rw [passes_iff.1 pass]
      | other kept => cases kept
    · rintro rfl
      exact .text (passes_iff.2 rfl)
  | .list items, w => by
    rw [fill]
    constructor
    · intro h
      cases h with
      | list each => rw [(filledItems_iff env items _).1 each]
      | other kept => cases kept
    · rintro rfl
      exact .list ((filledItems_iff env items _).2 rfl)
  | .map entries, w => by
    rw [fill]
    constructor
    · intro h
      cases h with
      | map each => rw [(filledEntries_iff env entries _).1 each]
      | other kept => cases kept
    · rintro rfl
      exact .map ((filledEntries_iff env entries _).2 rfl)
  | .null, w | .bool _, w | .int _, w | .float _, w | .bytes _, w | .date _, w | .moment _, w
  | .pair _ _, w | .set _, w => filled_other env rfl w
termination_by structural v => v

theorem filledItems_iff (env : Env) : ∀ items filled : List Value,
    FilledItems env items filled ↔ filled = fillItems env items
  | [], filled => by
    rw [fillItems]
    constructor
    · rintro ⟨⟩
      rfl
    · rintro rfl
      exact .nil
  | v :: items, filled => by
    rw [fillItems]
    constructor
    · intro h
      cases h with
      | cons first rest =>
        rw [(filled_iff env v _).1 first, (filledItems_iff env items _).1 rest]
    · rintro rfl
      exact .cons ((filled_iff env v _).2 rfl) ((filledItems_iff env items _).2 rfl)
termination_by structural items => items

theorem filledEntries_iff (env : Env) : ∀ entries filled : List (Value × Value),
    FilledEntries env entries filled ↔ filled = fillEntries env entries
  | [], filled => by
    rw [fillEntries]
    constructor
    · rintro ⟨⟩
      rfl
    · rintro rfl
      exact .nil
  | (key, v) :: entries, filled => by
    rw [fillEntries]
    constructor
    · intro h
      cases h with
      | cons first rest =>
        rw [(filled_iff env v _).1 first, (filledEntries_iff env entries _).1 rest]
    · rintro rfl
      exact .cons ((filled_iff env v _).2 rfl) ((filledEntries_iff env entries _).2 rfl)
termination_by structural entries => entries

end

mutual

/-- Filling in asks for no other name than those that are mentioned. -/
theorem Filled.congr : ∀ {v w : Value}, Filled env v w →
    (∀ name, Mentions name v → env'.get? name = env.get? name) → Filled env' v w
  | _, _, .text pass, hsame =>
    .text (pass.congr fun name hname hoccurs => hsame name (.text hname hoccurs))
  | _, _, .list each, hsame =>
    .list (each.congr fun _ hv name hname => hsame name (.list hv hname))
  | _, _, .map each, hsame =>
    .map (each.congr fun _ he name hname => hsame name (.map he hname))
  | _, _, .other kept, _ => .other kept

theorem FilledItems.congr : ∀ {items filled : List Value}, FilledItems env items filled →
    (∀ v ∈ items, ∀ name, Mentions name v → env'.get? name = env.get? name) →
    FilledItems env' items filled
  | _, _, .nil, _ => .nil
  | _, _, .cons first rest, hsame =>
    .cons (first.congr (hsame _ List.mem_cons_self))
      (rest.congr fun v hv => hsame v (List.mem_cons_of_mem _ hv))

theorem FilledEntries.congr : ∀ {entries filled : List (Value × Value)},
    FilledEntries env entries filled →
    (∀ e ∈ entries, ∀ name, Mentions name e.2 → env'.get? name = env.get? name) →
    FilledEntries env' entries filled
  | _, _, .nil, _ => .nil
  | _, _, .cons first rest, hsame =>
    .cons (first.congr (hsame _ List.mem_cons_self))
      (rest.congr fun e he => hsame e (List.mem_cons_of_mem _ he))

end

mutual

/-- A value stays as it is where no name that it mentions is bound. -/
theorem filled_self : ∀ v : Value, (∀ name, Mentions name v → ¬ Bound env name) → Filled env v v
  | .text _, h => .text (passes_self fun name hname hoccurs => h name (.text hname hoccurs))
  | .list items, h => .list (filledItems_self items fun _ hv name hname => h name (.list hv hname))
  | .map entries, h =>
    .map (filledEntries_self entries fun _ he name hname => h name (.map he hname))
  | .null, _ | .bool _, _ | .int _, _ | .float _, _ | .bytes _, _ | .date _, _ | .moment _, _
  | .pair _ _, _ | .set _, _ => .other rfl
termination_by structural v => v

theorem filledItems_self : ∀ items : List Value,
    (∀ v ∈ items, ∀ name, Mentions name v → ¬ Bound env name) → FilledItems env items items
  | [], _ => .nil
  | v :: items, h => .cons (filled_self v (h v List.mem_cons_self))
      (filledItems_self items fun w hw => h w (List.mem_cons_of_mem v hw))
termination_by structural items => items

theorem filledEntries_self : ∀ entries : List (Value × Value),
    (∀ e ∈ entries, ∀ name, Mentions name e.2 → ¬ Bound env name) →
      FilledEntries env entries entries
  | [], _ => .nil
  | (key, v) :: entries, h => .cons (filled_self v (h (key, v) List.mem_cons_self))
      (filledEntries_self entries fun e he => h e (List.mem_cons_of_mem _ he))
termination_by structural entries => entries

end

/-- Filling in a value is one pass over each of its texts and leaves its shape as it is. It depends
on no other names than those whose placeholders occur in the texts, and a value in which none of
them is bound comes back as it was. -/
theorem fill_passes (env : Env) (v : Value) :
    (∀ w, Filled env v w ↔ w = fill env v) ∧
    (∀ env' : Env, (∀ name, Mentions name v → env'.get? name = env.get? name) →
      fill env' v = fill env v) ∧
    ((∀ name, Mentions name v → ¬ Bound env name) → fill env v = v) := by
  refine ⟨filled_iff env v, fun env' hsame => ?_, fun hfree => ?_⟩
  · have hfilled : Filled env v (fill env v) := (filled_iff env v _).2 rfl
    exact ((filled_iff env' v _).1 (hfilled.congr hsame)).symm
  · exact ((filled_iff env v v).1 (filled_self v hfree)).symm

/-- A value that has been inserted is not scanned, and a variable that only its text names makes no
difference. -/
theorem fill_passes_inserted :
    (∀ name, Mentions name (.list [.text "$\x7b$\x7bA\x7d\x7d", .int 3]) →
      Table.get? [("B", .text "x"), ("A", .text "$\x7bB\x7d")] name =
        Table.get? [("A", Value.text "$\x7bB\x7d")] name) ∧
    fill [("B", .text "x"), ("A", .text "$\x7bB\x7d")]
        (.list [.text "$\x7b$\x7bA\x7d\x7d", .int 3]) =
      .list [.text "$\x7b$\x7bB\x7d\x7d", .int 3] := by
  have hsame : ∀ name, Mentions name (.list [.text "$\x7b$\x7bA\x7d\x7d", .int 3]) →
      Table.get? [("B", .text "x"), ("A", .text "$\x7bB\x7d")] name =
        Table.get? [("A", Value.text "$\x7bB\x7d")] name := by
    intro name hmentions
    rw [Table.get?_cons, if_neg]
    rintro rfl
    cases hmentions with
    | list mem inside =>
      rcases List.mem_pair.1 mem with rfl | rfl
      · cases inside with
        | text isName occurs => exact absurd occurs (by decide)
      · cases inside
  refine ⟨hsame, ?_⟩
  obtain ⟨-, hagree, -⟩ :=
    fill_passes [("A", .text "$\x7bB\x7d")] (.list [.text "$\x7b$\x7bA\x7d\x7d", .int 3])
  rw [hagree _ hsame]
  have hfilled : fillText [("A", .text "$\x7bB\x7d")] "$\x7b$\x7bA\x7d\x7d" =
      "$\x7b$\x7bB\x7d\x7d" := by
    decide +kernel
  exact congrArg (fun t => Value.list [.text t, .int 3]) hfilled

end BrowserFlow.Template
