import BrowserFlow.Proofs.Disk.Writing
import Mathlib.Data.Set.Basic

/-!
# What may change on a disk

The folders on the way of a path decide whether it leads anywhere, but not where: that is its
`trail`. Likewise the folders that are made on the way to a folder are its `stations`. So the files
that a computation may put and the folders that it may make can be told without regard to the disk.

`Confined` relates two disks that differ in no files and no new folders outside such `Bounds`. It is
a preorder, so that it passes through every composition of computations that each keep to the bounds
(`Effect.Leads`).
-/

namespace BrowserFlow

namespace Table

variable {α : Type}

theorem nodup_keys_put {t : Table α} (h : t.keys.Nodup) (key : String) (value : α) :
    (t.put key value).keys.Nodup := by
  unfold keys at h ⊢
  induction t with
  | nil => simp [put]
  | cons e rest ih =>
    obtain ⟨k, v⟩ := e
    obtain ⟨hk, hrest⟩ := List.nodup_cons.1 h
    by_cases heq : k = key
    · rw [put, if_pos heq]
      exact h
    · rw [put, if_neg heq]
      refine List.nodup_cons.2 ⟨fun hmem => ?_, ih hrest⟩
      rcases mem_keys_put.1 hmem with hkey | hmem
      · exact heq hkey
      · exact hk hmem

theorem mem_keys_iff {t : Table α} {key : String} : key ∈ t.keys ↔ (t.get? key).isSome = true := by
  unfold keys
  induction t with
  | nil => simp
  | cons e rest ih =>
    obtain ⟨k, v⟩ := e
    by_cases h : k = key
    · simp [get?_cons, h]
    · simp [get?_cons, h, Ne.symm h, ih]

end Table

namespace Disk

variable {d d' made : Disk} {folder n p : String} {reached names r : List String}

/-! ## Trails -/

/-- Where names lead from where earlier ones have led, if all folders on the way are there. -/
def trailFrom (reached : List String) : List String → List String
  | [] => reached
  | name :: rest =>
    if name == "" || name == "." then trailFrom reached rest
    else if name == ".." then trailFrom (back reached) rest
    else trailFrom (name :: reached) rest

/-- Where a path leads, if it leads anywhere. -/
def trail (path : String) : List String :=
  trailFrom (if Text.beginsWith path "/" then ["/"] else []) (namesOf path)

theorem trailFrom_append (reached xs ys : List String) :
    trailFrom reached (xs ++ ys) = trailFrom (trailFrom reached xs) ys := by
  fun_induction trailFrom reached xs with
  | case1 reached => rfl
  | case2 reached name rest hskip ih =>
    rw [List.cons_append, trailFrom, if_pos hskip]
    exact ih
  | case3 reached name rest hskip hback ih =>
    rw [List.cons_append, trailFrom, if_neg hskip, if_pos hback]
    exact ih
  | case4 reached name rest hskip hback ih =>
    rw [List.cons_append, trailFrom, if_neg hskip, if_neg hback]
    exact ih

theorem trailFrom_name (hn : IsName n) (reached : List String) :
    trailFrom reached [n] = n :: reached := by
  simp [trailFrom, hn.ne_empty, hn.ne_dot, hn.ne_dots]

theorem follow_eq_trailFrom (h : d.follow reached names = some r) :
    r = trailFrom reached names := by
  fun_induction follow d reached names with
  | case1 reached => exact (Option.some.inj h).symm
  | case2 reached name rest hskip ih =>
    rw [trailFrom, if_pos hskip]
    exact ih h
  | case3 reached name rest hskip hback hleads ih =>
    rw [trailFrom, if_neg hskip, if_pos hback]
    exact ih h
  | case4 => cases h
  | case5 reached name rest hskip hback ih =>
    rw [trailFrom, if_neg hskip, if_neg hback]
    exact ih h

theorem names?_eq_trail (h : d.names? p = some r) : r = trail p :=
  follow_eq_trailFrom h

theorem Opens.eq_trail {k : String} (h : Opens p k d) : k = pathOf (trail p) := by
  obtain ⟨-, names, hnames, -, -, rfl⟩ := h
  rw [names?_eq_trail hnames]

/-- A name in a folder is one name further than the folder. -/
theorem trail_pathIn (hn : IsName n) (folder : String) :
    trail (pathIn folder n) = n :: trail folder := by
  obtain ⟨names, hpath, hfolder, hstart⟩ := namesOf_pathIn hn folder
  unfold trail
  rw [hpath, hstart, trailFrom_append, trailFrom_name hn]
  rcases hfolder with hfolder | hfolder
  · rw [hfolder]
  · rw [hfolder, trailFrom_append]
    rfl

theorem leadsToFolder_mono (h : ∀ p ∈ d.folders, p ∈ d'.folders)
    (hleads : d.leadsToFolder names = true) : d'.leadsToFolder names = true := by
  unfold leadsToFolder at hleads ⊢
  rw [Bool.or_eq_true, List.contains_iff_mem] at hleads ⊢
  exact hleads.imp_right (h _)

/-- More folders do not lead a path elsewhere. -/
theorem follow_mono (h : ∀ p ∈ d.folders, p ∈ d'.folders)
    (hr : d.follow reached names = some r) : d'.follow reached names = some r := by
  fun_induction follow d reached names with
  | case1 reached => exact hr
  | case2 reached name rest hskip ih =>
    rw [follow, if_pos hskip]
    exact ih hr
  | case3 reached name rest hskip hback hfound ih =>
    rw [follow, if_neg hskip, if_pos hback, if_pos (leadsToFolder_mono h hfound)]
    exact ih hr
  | case4 => cases hr
  | case5 reached name rest hskip hback ih =>
    rw [follow, if_neg hskip, if_neg hback]
    exact ih hr

/-! ## Stations -/

/-- The paths of the folders of some names, from where earlier ones have led. -/
def passed (reached : List String) : List String → List String
  | [] => []
  | name :: rest =>
    if name == "" || name == "." then passed reached rest
    else if name == ".." then passed (back reached) rest
    else pathOf (name :: reached) :: passed (name :: reached) rest

/-- The paths of the folders that are made on the way to a folder, and its own. -/
def stations (folder : String) : List String :=
  passed [] (namesOf folder)

theorem mem_made_iff (h : d.makeFrom reached names = .ok made) (p : String) :
    p ∈ made.folders ↔ p ∈ d.folders ∨ p ∈ passed reached names := by
  fun_induction makeFrom d reached names with
  | case1 d =>
    cases h
    simp [passed]
  | case2 d reached name rest hskip ih =>
    rw [passed, if_pos hskip]
    exact ih h
  | case3 d reached name rest hskip hback ih =>
    rw [passed, if_neg hskip, if_pos hback]
    exact ih h
  | case4 => cases h
  | case5 d reached name rest hskip hback path hfree e ih =>
    have he : p ∈ e.folders ↔ p ∈ d.folders ∨ p = path := by
      dsimp only [e]
      split
      · rename_i hthere
        rw [List.contains_iff_mem] at hthere
        constructor
        · exact Or.inl
        · rintro (hp | rfl)
          · exact hp
          · exact hthere
      · simp
    rw [ih h, he, passed, if_neg hskip, if_neg hback, List.mem_cons, or_assoc]

/-! ## Bounds -/

/-- The files that may be put, and the folders that may be made. -/
structure Bounds where
  files : Set String
  folders : Set String

namespace Bounds

/-- No bounds at all. -/
def all : Bounds :=
  ⟨Set.univ, Set.univ⟩

/-- The bounds allow a folder to be made and files to be put into it. -/
structure Covers (B : Bounds) (folder : String) : Prop where
  stations : ∀ p ∈ stations folder, p ∈ B.folders
  inside : ∀ n, IsName n → pathOf (n :: trail folder) ∈ B.files

theorem covers_all (folder : String) : all.Covers folder :=
  ⟨fun _ _ => Set.mem_univ _, fun _ _ => Set.mem_univ _⟩

end Bounds

/-- From one disk to another no files have changed but some, and no folders are new but some.
Nothing is gone of the folders, and no file has taken the place of one. -/
structure Confined (B : Bounds) (d d' : Disk) : Prop where
  kept : ∀ k ∉ B.files, d'.files.get? k = d.files.get? k
  stay : ∀ p ∈ d.folders, p ∈ d'.folders
  built : ∀ p ∈ d'.folders, p ∈ d.folders ∨ p ∈ B.folders
  free : ∀ p ∈ d.folders, d'.files.contains p = true → d.files.contains p = true
  keys : d.files.keys.Nodup → d'.files.keys.Nodup

variable {B : Bounds}

instance : IsPreorder Disk (Confined B) where
  refl _ := ⟨fun _ _ => rfl, fun _ hp => hp, fun _ hp => Or.inl hp, fun _ _ hp => hp, id⟩
  trans _ _ _ hab hbc :=
    { kept := fun k hk => (hbc.kept k hk).trans (hab.kept k hk)
      stay := fun p hp => hbc.stay p (hab.stay p hp)
      built := fun p hp => (hbc.built p hp).elim (hab.built p) Or.inr
      free := fun p hp hc => hab.free p hp (hbc.free p (hab.stay p hp) hc)
      keys := fun h => hbc.keys (hab.keys h) }

/-- What is within bounds is within wider ones. -/
theorem Confined.mono {B' : Bounds} (h : Confined B d d') (hfiles : B.files ⊆ B'.files)
    (hfolders : B.folders ⊆ B'.folders) : Confined B' d d' where
  kept := fun k hk => h.kept k fun hmem => hk (hfiles hmem)
  stay := h.stay
  built := fun p hp => (h.built p hp).imp_right fun hmem => hfolders hmem
  free := h.free
  keys := h.keys

/-- What was a folder still is one, in the same place. -/
theorem Confined.names? (h : Confined B d d') (hnames : d.names? p = some r) :
    d'.names? p = some r :=
  follow_mono h.stay hnames

theorem Confined.leadsToFolder (h : Confined B d d')
    (hleads : d.leadsToFolder names = true) : d'.leadsToFolder names = true :=
  leadsToFolder_mono h.stay hleads

/-- A place stays one if no folder may be made in it. -/
theorem Place.confined {here : List String} (h : Place folder here d) (hc : Confined B d d')
    (hB : ∀ n, pathOf (n :: here) ∉ B.folders) : Place folder here d' where
  made := makeFrom_again h.made hc.stay hc.free
  names := hc.names? h.names
  leads := hc.leadsToFolder h.leads
  flat := fun n hn => (hc.built _ hn).elim (h.flat n) (hB n)

theorem confined_makeFolder (h : ∀ p ∈ stations folder, p ∈ B.folders) :
    Effect.Leads (Confined B) (makeFolder folder) := by
  intro d
  cases hmade : d.makeFrom [] (namesOf folder) with
  | error f =>
    have hrun : (makeFolder folder).run d = (.error f, d) := by
      unfold namesOf at hmade
      unfold makeFolder
      rw [Effect.run_of, hmade]
    rw [hrun]
    exact refl_of _ d
  | ok made =>
    rw [run_makeFolder.2 hmade]
    obtain ⟨hfiles, hstay⟩ := makeFrom_grows hmade
    refine ⟨fun k _ => by rw [hfiles], hstay, fun p hp => ?_, fun p _ hc => hfiles ▸ hc,
      fun hkeys => hfiles.symm ▸ hkeys⟩
    exact ((mem_made_iff hmade p).1 hp).imp_right (h p)

/-- Putting a file where a file can be opened. -/
theorem Opens.confined {k : String} (h : Opens p k d) (hk : k ∈ B.files) (c : Content) :
    Confined B d { d with files := d.files.put k c } where
  kept := by
    intro other hother
    have hne : k ≠ other := fun heq => hother (heq ▸ hk)
    rw [Table.get?_put, if_neg hne]
  stay := fun _ hp => hp
  built := fun _ hp => Or.inl hp
  free := by
    intro q hq hc
    obtain ⟨-, names, -, hfree, -, rfl⟩ := h
    have hne : pathOf names ≠ q := by
      rintro rfl
      unfold leadsToFolder at hfree
      rw [Bool.or_eq_false_iff] at hfree
      rw [List.contains_iff_mem.2 hq] at hfree
      cases hfree.2
    unfold Table.contains at hc ⊢
    rw [Table.get?_put, if_neg hne] at hc
    exact hc
  keys := fun hkeys => Table.nodup_keys_put hkeys _ _

theorem confined_write (h : pathOf (trail p) ∈ B.files) (c : Content) :
    Effect.Leads (Confined B) (write p c) := by
  intro d
  rcases write_cases d p c with ⟨k, hk, hrun⟩ | ⟨-, f, -, hrun⟩
  · rw [hrun]
    exact hk.confined (hk.eq_trail ▸ h) c
  · rw [hrun]
    exact refl_of _ d

theorem confined_writeJson (h : pathOf (trail p) ∈ B.files) (foreign : Bool) (v : Value) :
    Effect.Leads (Confined B) (writeJson foreign p v) := by
  intro d
  rcases writeJson_cases d foreign p v with ⟨k, hk, hrun⟩ | ⟨-, f, -, hrun⟩
  · rw [hrun]
    exact hk.confined (hk.eq_trail ▸ h) _
  · rw [hrun]
    exact refl_of _ d

theorem confined_read (p : String) : Effect.Leads (Confined B) (read p) := by
  intro d
  rw [run_read]
  exact refl_of _ d

end Disk

end BrowserFlow
