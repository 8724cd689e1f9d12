import BrowserFlow.Proofs.Json.Scalar

/-!
# How far a value is read

A value is read as far as it goes, and what stands behind it makes no difference unless it goes on
with a number (`reads`). The proof is by induction on the fuel, over values, lists and objects at
once (`Reads`): what is read with some fuel has been cut out of the text by the reader, and
`Spells` says that it is read again wherever it stands, with fuel for its own characters alone.
What is enclosed in brackets or braces needs no condition on what follows (`spells_enclosed`).
-/

namespace BrowserFlow.Json

/-- Some characters are read as something if there is enough fuel, whatever of some kind follows. -/
def Spells {α : Type} (f : Nat → List Char → Except ReadError (α × List Char))
    (follows : List Char → Prop) (used : List Char) (a : α) : Prop :=
  ∀ fuel tail, 2 * used.length ≤ fuel → follows tail → f fuel (used ++ tail) = .ok (a, tail)

theorem spells_of_succ {α : Type} {f : Nat → List Char → Except ReadError (α × List Char)}
    {follows : List Char → Prop} {used : List Char} {a : α} (hused : 0 < used.length)
    (h : ∀ fuel tail, 2 * used.length ≤ fuel + 1 → follows tail →
      f (fuel + 1) (used ++ tail) = .ok (a, tail)) : Spells f follows used a := by
  intro fuel tail hfuel htail
  obtain ⟨fuel, rfl⟩ : ∃ n, fuel = n + 1 := ⟨fuel - 1, by omega⟩
  exact h fuel tail hfuel htail

/-- A number ends before what follows. -/
def EndsNumber (cs : List Char) : Prop :=
  Ends ['.', 'e', 'E'] cs

/-- White space, or a character that stands behind a value, ends a number. -/
theorem endsNumber_behind {ws : List Char} (hws : ∀ c ∈ ws, isSpace c = true) {c : Char}
    (hc : c ∈ [',', ']', '\x7d']) (cs : List Char) : EndsNumber (ws ++ c :: cs) := by
  have hall : ∀ d ∈ [' ', '\t', '\n', '\r', ',', ']', '\x7d'],
      isDigit d = false ∧ d ∉ ['.', 'e', 'E'] := by
    simp [isDigit]
  cases ws with
  | nil =>
    rintro d _ ⟨⟩
    exact hall c (List.mem_append_right [' ', '\t', '\n', '\r'] hc)
  | cons d ds =>
    rintro _ _ ⟨⟩
    exact hall d (List.mem_append_left _ (isSpace_iff.1 (hws d List.mem_cons_self)))

theorem value_append {ws : List Char} (h : ∀ c ∈ ws, isSpace c = true) (fuel : Nat)
    (cs : List Char) : value fuel (ws ++ cs) = value fuel cs := by
  cases fuel with
  | zero => rfl
  | succ fuel => rw [value, value, skipSpace_append h]

theorem value_quote (fuel : Nat) (cs : List Char) :
    value (fuel + 1) ('"' :: cs) =
      (stringTail (cs.length + 1) cs >>= fun p => pure (.text (String.ofList p.1), p.2)) := rfl

theorem value_bracket (fuel : Nat) (cs : List Char) :
    value (fuel + 1) ('[' :: cs) =
      match skipSpace cs with
      | ']' :: rest => .ok (.list [], rest)
      | _ => items fuel cs >>= fun p => pure (.list p.1, p.2) := rfl

theorem value_brace (fuel : Nat) (cs : List Char) :
    value (fuel + 1) ('\x7b' :: cs) =
      match skipSpace cs with
      | '\x7d' :: rest => .ok (.map [], rest)
      | _ => entries fuel [] cs >>= fun p => pure (.map p.1, p.2) := rfl

/-- What begins with a digit is a number. -/
theorem value_digit {c : Char} (h : isDigit c = true) (fuel : Nat) (cs : List Char) :
    value (fuel + 1) (c :: cs) = number false (c :: cs) := by
  rw [value, skipSpace_cons (isSpace_of_isDigit h)]
  split
  case h_11 => rfl
  -- no digit opens anything else
  all_goals
    rename_i heq
    cases heq
    exact absurd h (by decide)

theorem value_minus {c : Char} (h : isDigit c = true) (fuel : Nat) (cs : List Char) :
    value (fuel + 1) ('-' :: c :: cs) = number true (c :: cs) := by
  rw [value, skipSpace_cons (by decide)]
  split
  case h_9 =>
    rename_i heq
    cases heq
    exact absurd h (by decide)
  case h_10 =>
    rename_i heq
    cases heq
    rfl
  case h_11 =>
    rename_i hminus
    exact (hminus _ rfl).elim
  all_goals
    rename_i heq
    cases heq

/-- What is read with some fuel has been read as far as it goes. -/
structure Reads (fuel : Nat) : Prop where
  value : ∀ {cs rest v}, value fuel cs = .ok (v, rest) →
    ∃ used, cs = used ++ rest ∧ 0 < used.length ∧ Spells Json.value EndsNumber used v
  items : ∀ {cs rest vs}, items fuel cs = .ok (vs, rest) →
    ∃ body, cs = body ++ ']' :: rest ∧
      Spells Json.items (fun _ => True) (body ++ [']']) vs
  entries : ∀ {done cs rest es}, entries fuel done cs = .ok (es, rest) →
    ∃ body, cs = body ++ '\x7d' :: rest ∧
      Spells (Json.entries · done) (fun _ => True) (body ++ ['\x7d']) es

/-- What is enclosed is read as far as it is closed: nothing, or what a reading makes of it. -/
theorem spells_enclosed {α : Type} {opening closing : Char} (empty : Value) (wrap : α → Value)
    (f : Nat → List Char → Except ReadError (α × List Char)) {fuel : Nat} {cs rest : List Char}
    {v : Value} (hclosing : isSpace closing = false)
    (hempty : ∀ fuel cs rest, skipSpace cs = closing :: rest →
      value (fuel + 1) (opening :: cs) = .ok (empty, rest))
    (hfull : ∀ fuel cs, (∀ rest, skipSpace cs ≠ closing :: rest) →
      value (fuel + 1) (opening :: cs) = (f fuel cs >>= fun p => pure (wrap p.1, p.2)))
    (hf : ∀ {cs rest a}, f fuel cs = .ok (a, rest) → ∃ body, cs = body ++ closing :: rest ∧
      Spells f (fun _ => True) (body ++ [closing]) a)
    (h : value (fuel + 1) (opening :: cs) = .ok (v, rest)) :
    ∃ body, cs = body ++ closing :: rest ∧
      Spells value (fun _ => True) (opening :: (body ++ [closing])) v := by
  have happend : ∀ body tail : List Char, opening :: (body ++ [closing]) ++ tail =
      opening :: (body ++ closing :: tail) := by
    intro body tail
    simp
  by_cases hclosed : ∃ after, skipSpace cs = closing :: after
  · obtain ⟨after, hafter⟩ := hclosed
    rw [hempty _ _ _ hafter] at h
    cases h
    obtain ⟨ws, rfl, hws, -⟩ := skipSpace_eq_cons hafter
    refine ⟨ws, rfl, spells_of_succ (by simp) fun fuel tail _ _ => ?_⟩
    rw [happend]
    refine hempty fuel _ tail ?_
    rw [skipSpace_append hws, skipSpace_cons hclosing]
  · have hopen : ∀ after, skipSpace cs ≠ closing :: after := fun after h => hclosed ⟨after, h⟩
    rw [hfull _ _ hopen] at h
    obtain ⟨⟨a, after⟩, ha, hv⟩ := bind_eq_ok h
    cases hv
    obtain ⟨body, rfl, hbody⟩ := hf ha
    refine ⟨body, rfl, spells_of_succ (by simp) fun fuel tail hfuel _ => ?_⟩
    have hlength : 2 * (body ++ [closing]).length ≤ fuel := by
      rw [List.length_cons] at hfuel
      omega
    have hread := hbody fuel tail hlength trivial
    rw [List.append_assoc, List.singleton_append] at hread
    rw [happend, hfull _ _ (skipSpace_body hclosing hopen tail), hread]
    rfl

theorem Reads.list {fuel : Nat} (ih : Reads fuel) {cs rest : List Char} {v : Value}
    (h : Json.value (fuel + 1) ('[' :: cs) = .ok (v, rest)) :
    ∃ body, cs = body ++ ']' :: rest ∧
      Spells Json.value (fun _ => True) ('[' :: (body ++ [']'])) v := by
  refine spells_enclosed (.list []) .list Json.items (by decide)
    (fun fuel cs rest hclosed => ?_) (fun fuel cs hopen => ?_) ih.items h
  · rw [value_bracket, hclosed]
    rfl
  · rw [value_bracket]
    split
    · rename_i hclosed
      exact absurd hclosed (hopen _)
    · rfl

/-- An object is read as far as its closing brace. -/
theorem Reads.map {fuel : Nat} (ih : Reads fuel) {cs rest : List Char} {v : Value}
    (h : Json.value (fuel + 1) ('\x7b' :: cs) = .ok (v, rest)) :
    ∃ body, cs = body ++ '\x7d' :: rest ∧
      Spells Json.value (fun _ => True) ('\x7b' :: (body ++ ['\x7d'])) v := by
  refine spells_enclosed (.map []) .map (Json.entries · []) (by decide)
    (fun fuel cs rest hclosed => ?_) (fun fuel cs hopen => ?_) ih.entries h
  · rw [value_brace, hclosed]
    rfl
  · rw [value_brace]
    split
    · rename_i hclosed
      exact absurd hclosed (hopen _)
    · rfl

theorem spells_word {word : List Char} {v : Value} (hword : 0 < word.length)
    (h : ∀ fuel tail, value (fuel + 1) (word ++ tail) = .ok (v, tail)) :
    Spells value EndsNumber word v :=
  spells_of_succ hword fun fuel tail _ _ => h fuel tail

/-- A value that white space stands before. -/
theorem Spells.append {ws used : List Char} {v : Value} (h : Spells value EndsNumber used v)
    (hws : ∀ c ∈ ws, isSpace c = true) : Spells value EndsNumber (ws ++ used) v := by
  intro fuel tail hfuel htail
  rw [List.append_assoc, value_append hws]
  rw [List.length_append] at hfuel
  exact h fuel tail (by omega) htail

theorem Reads.front {fuel : Nat} (ih : Reads fuel) {cs rest : List Char} {v : Value}
    (hskip : skipSpace cs = cs)
    (h : Json.value (fuel + 1) cs = .ok (v, rest)) :
    ∃ used, cs = used ++ rest ∧ 0 < used.length ∧ Spells Json.value EndsNumber used v := by
  have hvalue := h
  rw [Json.value, hskip] at h
  split at h
  · obtain ⟨⟨s, after⟩, hs, hv⟩ := bind_eq_ok h
    cases hv
    obtain ⟨used, rfl, hused⟩ := stringTail_closes hs
    refine ⟨'"' :: used, rfl, by simp, spells_of_succ (by simp) fun fuel tail _ _ => ?_⟩
    have hfuel : used.length ≤ (used ++ tail).length + 1 := by
      rw [List.length_append]
      omega
    rw [List.cons_append, value_quote, hused _ tail hfuel]
    rfl
  · obtain ⟨body, rfl, hbody⟩ := ih.list hvalue
    exact ⟨'[' :: (body ++ [']']), by simp, by simp,
      fun fuel tail hfuel _ => hbody fuel tail hfuel trivial⟩
  · obtain ⟨body, rfl, hbody⟩ := ih.map hvalue
    exact ⟨'\x7b' :: (body ++ ['\x7d']), by simp, by simp,
      fun fuel tail hfuel _ => hbody fuel tail hfuel trivial⟩
  · cases h
    exact ⟨['n', 'u', 'l', 'l'], rfl, by simp, spells_word (by simp) fun _ _ => rfl⟩
  · cases h
    exact ⟨['t', 'r', 'u', 'e'], rfl, by simp, spells_word (by simp) fun _ _ => rfl⟩
  · cases h
    exact ⟨['f', 'a', 'l', 's', 'e'], rfl, by simp, spells_word (by simp) fun _ _ => rfl⟩
  · cases h
    exact ⟨['N', 'a', 'N'], rfl, by simp, spells_word (by simp) fun _ _ => rfl⟩
  · cases h
    exact ⟨['I', 'n', 'f', 'i', 'n', 'i', 't', 'y'], rfl, by simp,
      spells_word (by simp) fun _ _ => rfl⟩
  · cases h
    exact ⟨['-', 'I', 'n', 'f', 'i', 'n', 'i', 't', 'y'], rfl, by simp,
      spells_word (by simp) fun _ _ => rfl⟩
  · obtain ⟨c, more, rfl, hc, htail⟩ := number_local h
    refine ⟨'-' :: c :: more, rfl, by simp, spells_of_succ (by simp) fun fuel tail _ hends => ?_⟩
    rw [List.cons_append, List.cons_append, value_minus hc]
    exact htail tail hends
  · obtain ⟨c, more, rfl, hc, htail⟩ := number_local h
    refine ⟨c :: more, rfl, by simp, spells_of_succ (by simp) fun fuel tail _ hends => ?_⟩
    rw [List.cons_append, value_digit hc]
    exact htail tail hends

theorem Reads.value_succ {fuel : Nat} (ih : Reads fuel) {cs rest : List Char} {v : Value}
    (h : Json.value (fuel + 1) cs = .ok (v, rest)) :
    ∃ used, cs = used ++ rest ∧ 0 < used.length ∧ Spells Json.value EndsNumber used v := by
  obtain ⟨ws, hcs, hws⟩ := skipSpace_split cs
  rw [hcs, value_append hws] at h
  obtain ⟨used, hused, hlength, hspells⟩ := ih.front (skipSpace_skipSpace cs) h
  refine ⟨ws ++ used, ?_, ?_, hspells.append hws⟩
  · rw [List.append_assoc, ← hused]
    exact hcs
  · rw [List.length_append]
    omega

/-- What follows on the first item of a list. -/
def itemsBehind (fuel : Nat) (v : Value) (cs : List Char) :
    Except ReadError (List Value × List Char) :=
  match skipSpace cs with
  | ',' :: rest => items fuel rest >>= fun p => pure (v :: p.1, p.2)
  | ']' :: rest => pure ([v], rest)
  | _ => .error .malformed

theorem items_eq {fuel : Nat} {cs after : List Char} {v : Value}
    (h : value fuel cs = .ok (v, after)) :
    items (fuel + 1) cs = itemsBehind fuel v after := by
  rw [items, h]
  rfl

theorem itemsBehind_comma {ws : List Char} (hws : ∀ c ∈ ws, isSpace c = true) (fuel : Nat)
    (v : Value) (cs : List Char) :
    itemsBehind fuel v (ws ++ ',' :: cs) =
      (items fuel cs >>= fun p => pure (v :: p.1, p.2)) := by
  unfold itemsBehind
  rw [skipSpace_append hws, skipSpace_cons (by decide)]
  rfl

theorem itemsBehind_closing {ws : List Char} (hws : ∀ c ∈ ws, isSpace c = true) (fuel : Nat)
    (v : Value) (cs : List Char) : itemsBehind fuel v (ws ++ ']' :: cs) = .ok ([v], cs) := by
  unfold itemsBehind
  rw [skipSpace_append hws, skipSpace_cons (by decide)]
  rfl

theorem Reads.items_succ {fuel : Nat} (ih : Reads fuel) {cs rest : List Char} {vs : List Value}
    (h : Json.items (fuel + 1) cs = .ok (vs, rest)) :
    ∃ body, cs = body ++ ']' :: rest ∧ Spells Json.items (fun _ => True) (body ++ [']']) vs := by
  have hfirst := h
  rw [Json.items] at hfirst
  obtain ⟨⟨v, after⟩, hv, -⟩ := bind_eq_ok hfirst
  rw [items_eq hv] at h
  obtain ⟨used, rfl, hlength, hspells⟩ := ih.value hv
  unfold itemsBehind at h
  split at h
  · rename_i more hcomma
    obtain ⟨⟨vs', rest'⟩, hitems, hvs⟩ := bind_eq_ok h
    cases hvs
    obtain ⟨ws, rfl, hws, hc⟩ := skipSpace_eq_cons hcomma
    obtain ⟨body, rfl, hbody⟩ := ih.items hitems
    refine ⟨used ++ (ws ++ ',' :: body), by simp,
      spells_of_succ (List.length_pos_iff.mpr (by simp)) fun fuel tail hfuel _ => ?_⟩
    have happend : used ++ (ws ++ ',' :: body) ++ [']'] ++ tail =
        used ++ (ws ++ ',' :: (body ++ [']'] ++ tail)) := by
      simp
    have hlengths : 2 * used.length ≤ fuel ∧ 2 * (body ++ [']']).length ≤ fuel := by
      simp only [List.length_append, List.length_cons] at hfuel ⊢
      omega
    rw [happend, items_eq (hspells fuel _ hlengths.1 (endsNumber_behind hws (by decide) _)),
      itemsBehind_comma hws, hbody fuel tail hlengths.2 trivial]
    rfl
  · rename_i more hclosed
    cases h
    obtain ⟨ws, rfl, hws, hc⟩ := skipSpace_eq_cons hclosed
    refine ⟨used ++ ws, by simp,
      spells_of_succ (List.length_pos_iff.mpr (by simp)) fun fuel tail hfuel _ => ?_⟩
    have happend : used ++ ws ++ [']'] ++ tail = used ++ (ws ++ ']' :: tail) := by simp
    have hlengths : 2 * used.length ≤ fuel := by
      simp only [List.length_append, List.length_cons] at hfuel
      omega
    rw [happend, items_eq (hspells fuel _ hlengths (endsNumber_behind hws (by decide) _)),
      itemsBehind_closing hws]
  · cases h

/-- What follows on the first entry of an object. -/
def entriesBehind (fuel : Nat) (done : List (Value × Value)) (cs : List Char) :
    Except ReadError (List (Value × Value) × List Char) :=
  match skipSpace cs with
  | ',' :: rest => entries fuel done rest
  | '\x7d' :: rest => pure (done, rest)
  | _ => .error .malformed

/-- What follows on the key of an entry. -/
def entryBehind (fuel : Nat) (done : List (Value × Value)) (key cs : List Char) :
    Except ReadError (List (Value × Value) × List Char) :=
  match skipSpace cs with
  | ':' :: rest => value fuel rest >>= fun p =>
    entriesBehind fuel (Value.putEntry done (.text (String.ofList key)) p.1) p.2
  | _ => .error .malformed

theorem entries_succ (fuel : Nat) (done : List (Value × Value)) (cs : List Char) :
    entries (fuel + 1) done cs =
      match skipSpace cs with
      | '"' :: rest =>
        stringTail (rest.length + 1) rest >>= fun p => entryBehind fuel done p.1 p.2
      | _ => .error .malformed := by
  rw [entries]
  rfl

/-- The characters of an entry: a key, a colon and a value, with white space around them. -/
def Entry (used key : List Char) (v : Value) : Prop :=
  ∃ before name between spelt, used = before ++ '"' :: (name ++ (between ++ ':' :: spelt)) ∧
    (∀ c ∈ before, isSpace c = true) ∧ Closes name key ∧ (∀ c ∈ between, isSpace c = true) ∧
    Spells value EndsNumber spelt v

theorem Entry.read {used key : List Char} {v : Value} (h : Entry used key v) {fuel : Nat}
    {tail : List Char} (hfuel : 2 * used.length ≤ fuel + 1) (htail : EndsNumber tail)
    (done : List (Value × Value)) :
    entries (fuel + 1) done (used ++ tail) =
      entriesBehind fuel (Value.putEntry done (.text (String.ofList key)) v) tail := by
  obtain ⟨before, name, between, spelt, rfl, hbefore, hname, hbetween, hspelt⟩ := h
  have happend : before ++ '"' :: (name ++ (between ++ ':' :: spelt)) ++ tail =
      before ++ '"' :: (name ++ (between ++ ':' :: (spelt ++ tail))) := by
    simp
  have hlength : 2 * spelt.length ≤ fuel := by
    simp only [List.length_append, List.length_cons] at hfuel
    omega
  rw [happend, entries_succ, skipSpace_append hbefore, skipSpace_cons (by decide)]
  show (stringTail _ (name ++ (between ++ ':' :: (spelt ++ tail))) >>= _) = _
  rw [hname _ _ (by rw [List.length_append]; omega)]
  show entryBehind fuel done key (between ++ ':' :: (spelt ++ tail)) = _
  unfold entryBehind
  rw [skipSpace_append hbetween, skipSpace_cons (by decide)]
  show (Json.value fuel (spelt ++ tail) >>= _) = _
  rw [hspelt fuel tail hlength htail]
  rfl

theorem Reads.entry {fuel : Nat} (ih : Reads fuel) {done es : List (Value × Value)}
    {cs rest : List Char} (h : Json.entries (fuel + 1) done cs = .ok (es, rest)) :
    ∃ used key v after, cs = used ++ after ∧ 0 < used.length ∧ Entry used key v ∧
      entriesBehind fuel (Value.putEntry done (.text (String.ofList key)) v) after =
        .ok (es, rest) := by
  rw [entries_succ] at h
  split at h
  · rename_i behind hquote
    obtain ⟨before, rfl, hbefore, -⟩ := skipSpace_eq_cons hquote
    obtain ⟨⟨key, afterKey⟩, hkey, hbehind⟩ := bind_eq_ok h
    obtain ⟨name, rfl, hname⟩ := stringTail_closes hkey
    unfold entryBehind at hbehind
    split at hbehind
    · rename_i afterColon hcolon
      obtain ⟨between, rfl, hbetween, -⟩ := skipSpace_eq_cons hcolon
      obtain ⟨⟨v, after⟩, hv, hentries⟩ := bind_eq_ok hbehind
      obtain ⟨spelt, rfl, -, hspelt⟩ := ih.value hv
      exact ⟨before ++ '"' :: (name ++ (between ++ ':' :: spelt)), key, v, after, by simp,
        List.length_pos_iff.mpr (by simp),
        ⟨before, name, between, spelt, rfl, hbefore, hname, hbetween, hspelt⟩, hentries⟩
    · cases hbehind
  · cases h

theorem Reads.entries_succ {fuel : Nat} (ih : Reads fuel) {done es : List (Value × Value)}
    {cs rest : List Char} (h : Json.entries (fuel + 1) done cs = .ok (es, rest)) :
    ∃ body, cs = body ++ '\x7d' :: rest ∧
      Spells (Json.entries · done) (fun _ => True) (body ++ ['\x7d']) es := by
  obtain ⟨used, key, v, after, rfl, hlength, hentry, hbehind⟩ := ih.entry h
  unfold entriesBehind at hbehind
  split at hbehind
  · rename_i more hcomma
    obtain ⟨ws, rfl, hws, -⟩ := skipSpace_eq_cons hcomma
    obtain ⟨body, rfl, hbody⟩ := ih.entries hbehind
    refine ⟨used ++ (ws ++ ',' :: body), by simp,
      spells_of_succ (List.length_pos_iff.mpr (by simp)) fun fuel tail hfuel _ => ?_⟩
    have happend : used ++ (ws ++ ',' :: body) ++ ['\x7d'] ++ tail =
        used ++ (ws ++ ',' :: (body ++ ['\x7d'] ++ tail)) := by
      simp
    have hlengths : 2 * used.length ≤ fuel + 1 ∧ 2 * (body ++ ['\x7d']).length ≤ fuel := by
      simp only [List.length_append, List.length_cons] at hfuel ⊢
      omega
    rw [happend, hentry.read hlengths.1 (endsNumber_behind hws (by decide) _)]
    unfold entriesBehind
    rw [skipSpace_append hws, skipSpace_cons (by decide)]
    exact hbody fuel tail hlengths.2 trivial
  · rename_i more hclosed
    cases hbehind
    obtain ⟨ws, rfl, hws, -⟩ := skipSpace_eq_cons hclosed
    refine ⟨used ++ ws, by simp,
      spells_of_succ (List.length_pos_iff.mpr (by simp)) fun fuel tail hfuel _ => ?_⟩
    have happend : used ++ ws ++ ['\x7d'] ++ tail = used ++ (ws ++ '\x7d' :: tail) := by simp
    have hlengths : 2 * used.length ≤ fuel + 1 := by
      simp only [List.length_append, List.length_cons] at hfuel
      omega
    rw [happend, hentry.read hlengths (endsNumber_behind hws (by decide) _)]
    unfold entriesBehind
    rw [skipSpace_append hws, skipSpace_cons (by decide)]
    rfl
  · cases hbehind

theorem reads (fuel : Nat) : Reads fuel := by
  induction fuel with
  | zero =>
    refine ⟨fun h => ?_, fun h => ?_, fun h => ?_⟩
    · cases h
    · cases h
    · cases h
  | succ fuel ih => exact ⟨ih.value_succ, ih.items_succ, ih.entries_succ⟩

/-! ## Objects -/

theorem ofParts_ne_map {negative : Bool} {whole decimals : List Char} {power : Option Int}
    {es : List (Value × Value)} : ofParts negative whole decimals power ≠ .ok (.map es) := by
  intro h
  unfold ofParts at h
  split at h
  · cases h
  · split at h
    · split at h
      · cases h
      · cases h
    · cases h

/-- A number is no object. -/
theorem number_ne_map {negative : Bool} {cs rest : List Char} {es : List (Value × Value)} :
    number negative cs ≠ .ok (.map es, rest) := by
  intro h
  rw [number_eq rfl rfl rfl] at h
  obtain ⟨v, hparts, hv⟩ := map_eq_ok h
  obtain ⟨rfl, -⟩ := Prod.mk.inj hv
  exact ofParts_ne_map hparts

/-- An object begins with a brace. -/
theorem value_eq_map {fuel : Nat} {cs rest : List Char} {es : List (Value × Value)}
    (h : value (fuel + 1) cs = .ok (.map es, rest)) :
    ∃ after, skipSpace cs = '\x7b' :: after := by
  rw [value] at h
  split at h
  case h_1 =>
    obtain ⟨p, -, hv⟩ := bind_eq_ok h
    cases hv
  case h_2 =>
    split at h
    · cases h
    · obtain ⟨p, -, hv⟩ := bind_eq_ok h
      cases hv
  case h_3 after hbrace => exact ⟨after, hbrace⟩
  case h_10 => exact absurd h number_ne_map
  case h_11 => exact absurd h number_ne_map
  all_goals cases h

/-- The text of an object: braces with what they enclose, and white space around them. Within other
text the part with the braces is read as the object again. -/
theorem read_map {s : String} {es : List (Value × Value)} (h : read s = .ok (.map es)) :
    ∃ before body behind, s.toList = before ++ '\x7b' :: (body ++ '\x7d' :: behind) ∧
      (∀ c ∈ before, isSpace c = true) ∧ (∀ c ∈ behind, isSpace c = true) ∧
      Spells value (fun _ => True) ('\x7b' :: (body ++ ['\x7d'])) (.map es) := by
  unfold read at h
  obtain ⟨⟨v, rest⟩, hvalue, h⟩ := bind_eq_ok h
  dsimp only at h
  split at h
  · rename_i hrest
    cases h
    obtain ⟨after, hbrace⟩ := value_eq_map hvalue
    obtain ⟨before, hs, hbefore, -⟩ := skipSpace_eq_cons hbrace
    rw [hs, value_append hbefore] at hvalue
    obtain ⟨body, rfl, hspells⟩ := (reads _).map hvalue
    refine ⟨before, body, rest, hs, hbefore, ?_, hspells⟩
    obtain ⟨ws, hws, hspaces⟩ := skipSpace_split rest
    rw [List.isEmpty_iff.mp hrest, List.append_nil] at hws
    rw [hws]
    exact hspaces
  · cases h

/-- What is spelt by a text with nothing but white space behind it is what the text is read as. -/
theorem Spells.read {used tail : List Char} {v : Value}
    (h : Spells value (fun _ => True) used v) :
    Json.read (String.ofList (used ++ tail)) =
      if (skipSpace tail).isEmpty then .ok v else .error .malformed := by
  unfold Json.read
  rw [String.toList_ofList]
  have hvalue := h (2 * (used ++ tail).length + 2) tail
    (by rw [List.length_append]; omega) trivial
  dsimp only
  rw [hvalue]
  rfl

end BrowserFlow.Json
