import BrowserFlow.Disk

/-!
# Values that last in a file

A value lasts if it has a JSON text and that text is read back as the value itself. Texts, numbers
and null last, and so do lists and records of what lasts, as long as no two fields of a record have
one name (`lasting_list`, `lasting_record`).
-/

namespace BrowserFlow

namespace Value

@[simp] theorem same_text (a b : String) : (text a).same (text b) = (a == b) := rfl

/-- A key that is not there yet is put at the end. -/
theorem putEntry_of_new {entries : List (Value × Value)} {key : Value}
    (h : ∀ e ∈ entries, e.1.same key = false) (v : Value) :
    putEntry entries key v = entries ++ [(key, v)] := by
  induction entries with
  | nil => rfl
  | cons e rest ih =>
    obtain ⟨k, old⟩ := e
    have hk : k.same key = false := h (k, old) List.mem_cons_self
    have hrest : putEntry rest key v = rest ++ [(key, v)] :=
      ih fun e he => h e (List.mem_cons_of_mem _ he)
    simp [putEntry, hk, hrest]

end Value

namespace Json

/-! ## Lists and mappings -/

variable {foreign : Bool}

theorem itemsWritable_iff {items : List Value} :
    itemsWritable foreign items = true ↔ ∀ v ∈ items, writable foreign v = true := by
  induction items with
  | nil => simp [itemsWritable]
  | cons v vs ih => simp [itemsWritable, ih]

theorem entriesWritable_iff {entries : List (Value × Value)} :
    entriesWritable foreign entries = true ↔
      ∀ e ∈ entries, isScalarKey e.1 = true ∧ writable foreign e.2 = true := by
  induction entries with
  | nil => simp [entriesWritable]
  | cons e es ih =>
    obtain ⟨k, v⟩ := e
    simp [entriesWritable, ih]

theorem writable_list {items : List Value} :
    writable foreign (.list items) = true ↔ ∀ v ∈ items, writable foreign v = true :=
  itemsWritable_iff

theorem writable_map {entries : List (Value × Value)} :
    writable foreign (.map entries) = true ↔
      ∀ e ∈ entries, isScalarKey e.1 = true ∧ writable foreign e.2 = true :=
  entriesWritable_iff

/-- The names of a record are texts, so that only its fields count. -/
theorem writable_record {fields : Table Value} :
    writable foreign (.record fields) = true ↔ ∀ f ∈ fields, writable foreign f.2 = true := by
  unfold Value.record
  rw [writable_map]
  constructor
  · intro h f hf
    exact (h (.text f.1, f.2) (List.mem_map_of_mem hf)).2
  · intro h e he
    obtain ⟨f, hf, rfl⟩ := List.mem_map.1 he
    exact ⟨rfl, h f hf⟩

theorem plainItems_eq (items : List Value) : plainItems items = items.map plain := by
  induction items with
  | nil => rfl
  | cons v vs ih => rw [plainItems, ih, List.map_cons]

theorem plain_list (items : List Value) : plain (.list items) = .list (items.map plain) :=
  congrArg Value.list (plainItems_eq items)

/-! ## What lasts -/

/-- A value that is written as JSON and read back as it was. -/
structure Lasting (v : Value) : Prop where
  writable : writable false v = true
  plain : plain v = v

theorem lasting_text (s : String) : Lasting (.text s) := ⟨rfl, rfl⟩

theorem lasting_null : Lasting .null := ⟨rfl, rfl⟩

theorem lasting_int (n : Int) : Lasting (.int n) := ⟨rfl, rfl⟩

theorem lasting_list {items : List Value} (h : ∀ v ∈ items, Lasting v) :
    Lasting (.list items) where
  writable := writable_list.2 fun v hv => (h v hv).writable
  plain := by
    have hitems : items.map plain = items :=
      (List.map_congr_left fun v hv => (h v hv).plain).trans (List.map_id items)
    rw [plain_list, hitems]

theorem lasting_texts (items : List String) : Lasting (Value.texts items) := by
  refine lasting_list fun v hv => ?_
  obtain ⟨s, -, rfl⟩ := List.mem_map.1 hv
  exact lasting_text s

theorem lasting_ofOption {α : Type} {f : α → Value} (h : ∀ a, Lasting (f a)) (a : Option α) :
    Lasting (Value.ofOption f a) := by
  cases a with
  | none => exact lasting_null
  | some a => exact h a

/-! ## Records -/

/-- A field as an entry of a mapping. -/
def entryOf (f : String × Value) : Value × Value :=
  (.text f.1, f.2)

/-- A field as it is read back. -/
def plainField (f : String × Value) : String × Value :=
  (f.1, plain f.2)

/-- A field with a name of its own is put behind the others. -/
theorem putEntry_field {done rest : Table Value} {name : String} {v : Value}
    (hnames : ((done ++ (name, v) :: rest).map (·.1)).Nodup) (w : Value) :
    Value.putEntry (done.map entryOf) (.text name) w = (done ++ [(name, w)]).map entryOf := by
  have hnew : ∀ e ∈ done.map entryOf, e.1.same (.text name) = false := by
    intro e he
    obtain ⟨g, hg, rfl⟩ := List.mem_map.1 he
    have hne : g.1 ≠ name := by
      rw [List.map_append, List.nodup_append] at hnames
      exact hnames.2.2 g.1 (List.mem_map_of_mem hg) name (by simp)
    simpa [entryOf] using hne
  rw [Value.putEntry_of_new hnew, List.map_append]
  rfl

/-- Fields with names of their own are read back one behind the other. -/
theorem plainEntries_fields (done fields : Table Value)
    (hnames : ((done ++ fields).map (·.1)).Nodup) :
    plainEntries (fields.map entryOf) (done.map entryOf) =
      (done ++ fields.map plainField).map entryOf := by
  -- on the fields that are still to be read, whatever has been read before
  induction fields generalizing done with
  | nil => simp [plainEntries]
  | cons f rest ih =>
    obtain ⟨name, v⟩ := f
    have hput := putEntry_field hnames (plain v)
    have hrest : ((done ++ [(name, plain v)] ++ rest).map (·.1)).Nodup := by
      rw [List.append_assoc]
      simpa using hnames
    have hsplit : done ++ ((name, v) :: rest).map plainField =
        (done ++ [(name, plain v)]) ++ rest.map plainField := by
      simp [plainField]
    rw [hsplit, ← ih (done ++ [(name, plain v)]) hrest, ← hput]
    rfl

/-- A record is read back field by field if these have names of their own. -/
theorem plain_record {fields : Table Value} (hnames : (fields.map (·.1)).Nodup) :
    plain (.record fields) = .record (fields.map plainField) :=
  congrArg Value.map (plainEntries_fields [] fields hnames)

/-- A record lasts if its fields do and have names of their own. -/
theorem lasting_record {fields : Table Value} (hnames : (fields.map (·.1)).Nodup)
    (h : ∀ f ∈ fields, Lasting f.2) : Lasting (.record fields) where
  writable := writable_record.2 fun f hf => (h f hf).writable
  plain := by
    have hfields : fields.map plainField = fields := by
      refine (List.map_congr_left fun f hf => ?_).trans (List.map_id fields)
      exact Prod.ext rfl (h f hf).plain
    rw [plain_record hnames, hfields]

/-- What lasts is what a file is read as that was made for it. -/
theorem Lasting.value {v : Value} (h : Lasting v) : (Content.json v).value = .ok v :=
  congrArg Except.ok h.plain

end Json

end BrowserFlow
