import BrowserFlow.Proofs.Json.Lasting
import BrowserFlow.Proofs.Json.Locality

/-!
# What can be written as JSON

A list can be written if its items can, and a mapping if its keys are scalars and what they lead to
can be written. What has been read from JSON can always be written again (`writable_read`), be it
from a text or from the values of a file (`Content.writable_value`): so whoever changes what a file
holds need not fear for what was there before.
-/

namespace BrowserFlow

namespace Json

variable {foreign : Bool}

/-- An entry is put among entries that can be written. -/
theorem entriesWritable_putEntry {entries : List (Value × Value)} {key v : Value}
    (h : entriesWritable foreign entries = true) (hkey : isScalarKey key = true)
    (hv : writable foreign v = true) :
    entriesWritable foreign (Value.putEntry entries key v) = true := by
  induction entries with
  | nil => simp [Value.putEntry, entriesWritable, hkey, hv]
  | cons e rest ih =>
    obtain ⟨k, old⟩ := e
    simp only [entriesWritable, Bool.and_eq_true] at h
    obtain ⟨⟨hk, hold⟩, hrest⟩ := h
    unfold Value.putEntry
    split
    · simp [entriesWritable, hk, hv, hrest]
    · simp [entriesWritable, hk, hold, ih hrest]

/-! ## What has been read -/

mutual

theorem writable_plain : ∀ v : Value, writable foreign (plain v) = true
  | .null | .bool _ | .int _ | .float _ | .text _ => by simp [plain, writable, isForeign]
  | .bytes _ | .date _ | .moment _ | .set _ => by simp [plain, writable, isForeign]
  | .list items => itemsWritable_plainItems items
  | .pair a b => by simp [plain, writable, itemsWritable, writable_plain a, writable_plain b]
  | .map entries => entriesWritable_plainEntries entries [] rfl
termination_by structural v => v

theorem itemsWritable_plainItems : ∀ vs : List Value, itemsWritable foreign (plainItems vs) = true
  | [] => rfl
  | v :: vs => by simp [plainItems, itemsWritable, writable_plain v, itemsWritable_plainItems vs]
termination_by structural vs => vs

theorem entriesWritable_plainEntries : ∀ es done : List (Value × Value),
    entriesWritable foreign done = true → entriesWritable foreign (plainEntries es done) = true
  | [], _, hdone => hdone
  | (_, v) :: es, _, hdone =>
    entriesWritable_plainEntries es _ (entriesWritable_putEntry hdone rfl (writable_plain v))
termination_by structural es => es

end

theorem writable_ofParts {negative : Bool} {whole decimals : List Char} {power : Option Int}
    {v : Value} (h : ofParts negative whole decimals power = .ok v) :
    writable foreign v = true := by
  unfold ofParts at h
  split at h
  · cases h
  · split at h
    · split at h
      · cases h
      · cases h
        simp [writable, isForeign]
    · cases h
      simp [writable, isForeign]

theorem writable_number {negative : Bool} {cs rest : List Char} {v : Value}
    (h : number negative cs = .ok (v, rest)) : writable foreign v = true := by
  rw [number_eq rfl rfl rfl] at h
  obtain ⟨w, hparts, hw⟩ := map_eq_ok h
  obtain ⟨rfl, -⟩ := Prod.mk.inj hw
  exact writable_ofParts hparts

/-- With some fuel only what can be written is read. -/
structure ReadsWritable (foreign : Bool) (fuel : Nat) : Prop where
  value : ∀ {cs rest v}, Json.value fuel cs = .ok (v, rest) → writable foreign v = true
  items : ∀ {cs rest vs}, Json.items fuel cs = .ok (vs, rest) → itemsWritable foreign vs = true
  entries : ∀ {done cs rest es}, entriesWritable foreign done = true →
    Json.entries fuel done cs = .ok (es, rest) → entriesWritable foreign es = true

namespace ReadsWritable

variable {fuel : Nat} (ih : ReadsWritable foreign fuel)

include ih

theorem value_succ {cs rest : List Char} {v : Value}
    (h : Json.value (fuel + 1) cs = .ok (v, rest)) : writable foreign v = true := by
  rw [Json.value] at h
  split at h
  case h_1 =>
    obtain ⟨p, -, hv⟩ := bind_eq_ok h
    cases hv
    simp [writable, isForeign]
  case h_2 =>
    split at h
    · cases h
      rfl
    · obtain ⟨p, hitems, hv⟩ := bind_eq_ok h
      cases hv
      exact ih.items hitems
  case h_3 =>
    split at h
    · cases h
      rfl
    · obtain ⟨p, hentries, hv⟩ := bind_eq_ok h
      cases hv
      exact ih.entries rfl hentries
  case h_10 => exact writable_number h
  case h_11 => exact writable_number h
  -- what is left are the words
  all_goals
    cases h
    simp [writable, isForeign]

theorem items_succ {cs rest : List Char} {vs : List Value}
    (h : Json.items (fuel + 1) cs = .ok (vs, rest)) : itemsWritable foreign vs = true := by
  rw [Json.items] at h
  obtain ⟨⟨v, after⟩, hv, h⟩ := bind_eq_ok h
  have hfirst : writable foreign v = true := ih.value hv
  dsimp only at h
  split at h
  · obtain ⟨p, hitems, hvs⟩ := bind_eq_ok h
    cases hvs
    simp [itemsWritable, hfirst, ih.items hitems]
  · cases h
    simp [itemsWritable, hfirst]
  · cases h

theorem entries_succ {done es : List (Value × Value)} {cs rest : List Char}
    (hdone : entriesWritable foreign done = true)
    (h : Json.entries (fuel + 1) done cs = .ok (es, rest)) :
    entriesWritable foreign es = true := by
  rw [Json.entries_succ] at h
  split at h
  · obtain ⟨⟨key, after⟩, -, hbehind⟩ := bind_eq_ok h
    unfold entryBehind at hbehind
    dsimp only at hbehind
    split at hbehind
    · obtain ⟨⟨v, more⟩, hv, hentries⟩ := bind_eq_ok hbehind
      have hput : entriesWritable foreign
          (Value.putEntry done (.text (String.ofList key)) v) = true :=
        entriesWritable_putEntry hdone rfl (ih.value hv)
      unfold entriesBehind at hentries
      dsimp only at hentries
      split at hentries
      · exact ih.entries hput hentries
      · cases hentries
        exact hput
      · cases hentries
    · cases hbehind
  · cases h

end ReadsWritable

theorem readsWritable (foreign : Bool) (fuel : Nat) : ReadsWritable foreign fuel := by
  induction fuel with
  | zero =>
    refine ⟨fun h => ?_, fun h => ?_, fun _ h => ?_⟩
    · cases h
    · cases h
    · cases h
  | succ fuel ih => exact ⟨ih.value_succ, ih.items_succ, ih.entries_succ⟩

/-- What is read from a JSON text can be written. -/
theorem writable_read {s : String} {v : Value} (h : read s = .ok v) :
    writable foreign v = true := by
  unfold read at h
  obtain ⟨⟨w, rest⟩, hvalue, h⟩ := bind_eq_ok h
  dsimp only at h
  split at h
  · cases h
    exact (readsWritable foreign _).value hvalue
  · cases h

end Json

/-- What a file is read as can be written again. -/
theorem Content.writable_value {c : Content} {v : Value} {foreign : Bool} (h : c.value = .ok v) :
    Json.writable foreign v = true := by
  cases c with
  | text s =>
    cases hread : Json.read s with
    | error e =>
      have hvalue : (text s).value = .error e.toFault := congrArg (Except.mapError _) hread
      rw [hvalue] at h
      cases h
    | ok w =>
      have hvalue : (text s).value = .ok w := congrArg (Except.mapError _) hread
      obtain rfl : w = v := Except.ok.inj (hvalue.symm.trans h)
      exact Json.writable_read hread
  | json w =>
    cases h
    exact Json.writable_plain w

end BrowserFlow
