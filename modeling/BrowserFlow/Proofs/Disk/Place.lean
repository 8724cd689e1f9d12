import BrowserFlow.Disk
import BrowserFlow.Proofs.Effect
import BrowserFlow.Proofs.Text.Lines

/-!
# A folder and what is in it

A path is followed name by name. A name without detours (`IsName`) leads from a folder one name
further (`names?_pathIn`), and no two such names lead to the same file (`pathOf_cons_inj`).

Where a file can be opened for writing is settled by the folders alone (`Opens`), and writing then
puts that file and nothing else (`Opens.run_write`, `Opens.run_writeJson`).

A `Place` is a folder that is there and has no folders inside. In a place a file of any name can be
opened, putting, reading and removing it come down to the table of files (`Place.run_writeJson` and
its companions), and what they leave is a place again (`Place.put`, `Place.erase`). That a folder
which has been made is found when it is to be made once more is `makeFrom_again`.
-/

namespace BrowserFlow

namespace Disk

variable {d : Disk} {folder n m : String} {reached here : List String}

/-! ## Following a path -/

theorem follow_append (d : Disk) (reached xs ys : List String) :
    d.follow reached (xs ++ ys) = (d.follow reached xs).bind fun r => d.follow r ys := by
  fun_induction follow d reached xs with
  | case1 reached => rfl
  | case2 reached name rest hskip ih =>
    rw [List.cons_append, follow, if_pos hskip]
    exact ih
  | case3 reached name rest hskip hback hleads ih =>
    rw [List.cons_append, follow, if_neg hskip, if_pos hback, if_pos hleads]
    exact ih
  | case4 reached name rest hskip hback hleads =>
    rw [List.cons_append, follow, if_neg hskip, if_pos hback, if_neg hleads]
    rfl
  | case5 reached name rest hskip hback ih =>
    rw [List.cons_append, follow, if_neg hskip, if_neg hback]
    exact ih

/-- Where a path leads depends on the folders only. -/
theorem follow_files (d : Disk) (files : Table Content) (reached names : List String) :
    { d with files }.follow reached names = d.follow reached names := by
  induction names generalizing reached with
  | nil => rfl
  | cons name rest ih =>
    unfold follow
    rw [ih, ih, ih]
    rfl

theorem names?_files (d : Disk) (files : Table Content) (path : String) :
    { d with files }.names? path = d.names? path :=
  follow_files d files _ _

/-- A name that is neither empty nor a detour, and no longer path. -/
structure IsName (n : String) : Prop where
  ne_empty : n ≠ ""
  ne_dot : n ≠ "."
  ne_dots : n ≠ ".."
  no_slash : '/' ∉ n.toList

instance (n : String) : Decidable (IsName n) :=
  decidable_of_iff (n ≠ "" ∧ n ≠ "." ∧ n ≠ ".." ∧ '/' ∉ n.toList)
    ⟨fun h => ⟨h.1, h.2.1, h.2.2.1, h.2.2.2⟩,
      fun h => ⟨h.ne_empty, h.ne_dot, h.ne_dots, h.no_slash⟩⟩

theorem follow_name (hn : IsName n) (d : Disk) (reached : List String) :
    d.follow reached [n] = some (n :: reached) := by
  simp [follow, hn.ne_empty, hn.ne_dot, hn.ne_dots]

theorem beginsWith_slash (s : String) :
    Text.beginsWith s "/" = true ↔ ∃ cs, s.toList = '/' :: cs := by
  show List.isPrefixOf ['/'] s.toList = true ↔ _
  cases s.toList with
  | nil => simp
  | cons c cs =>
    have hcons : List.isPrefixOf ['/'] (c :: cs) = ('/' == c) := by simp [List.isPrefixOf]
    rw [hcons, beq_iff_eq]
    constructor
    · rintro rfl
      exact ⟨cs, rfl⟩
    · rintro ⟨_, h⟩
      cases h
      rfl

theorem IsName.not_beginsWith (hn : IsName n) : Text.beginsWith n "/" = false := by
  rw [Bool.eq_false_iff]
  intro h
  obtain ⟨cs, hcs⟩ := (beginsWith_slash n).1 h
  exact hn.no_slash (hcs ▸ List.mem_cons_self)

theorem IsName.split (hn : IsName n) :
    (Text.splitChars '/' n.toList).map String.ofList = [n] := by
  rw [Text.splitChars_of_notMem hn.no_slash]
  simp

/-- A path that goes on is absolute if it was before. -/
theorem beginsWith_append {s : String} (h : s ≠ "") (t : String) :
    Text.beginsWith (s ++ t) "/" = Text.beginsWith s "/" := by
  rw [Bool.eq_iff_iff, beginsWith_slash, beginsWith_slash, String.toList_append]
  cases hs : s.toList with
  | nil => exact absurd (String.toList_eq_nil_iff.1 hs) h
  | cons c cs => simp

/-- The names on the way to a folder. -/
def namesOf (folder : String) : List String :=
  (Text.splitChars '/' folder.toList).map String.ofList

/-- The names on the way to a path in a folder are those on the way to the folder, and those of the
path. A slash that ends the folder's path splits off an empty name. -/
theorem namesOf_pathIn_relative (hrelative : Text.beginsWith n "/" = false) (folder : String) :
    ∃ names, namesOf (pathIn folder n) = names ++ namesOf n ∧
      (namesOf folder = names ∨ namesOf folder = names ++ [""]) ∧
      Text.beginsWith (pathIn folder n) "/" = Text.beginsWith folder "/" := by
  unfold pathIn namesOf
  by_cases hempty : folder = ""
  · subst hempty
    rw [if_pos (by simp), hrelative]
    exact ⟨[], rfl, Or.inr rfl, rfl⟩
  rw [if_neg (by simp [hempty, hrelative])]
  by_cases hslash : folder.toList.getLast? = some '/'
  · rw [if_pos hslash]
    obtain ⟨cs, hcs⟩ := List.getLast?_eq_some_iff.1 hslash
    refine ⟨(Text.splitChars '/' cs).map String.ofList, ?_, Or.inr ?_, beginsWith_append hempty n⟩
    · rw [String.toList_append, hcs, List.append_assoc, List.singleton_append,
        Text.splitChars_append, List.map_append]
    · rw [hcs, Text.splitChars_append]
      simp [Text.splitChars]
  · rw [if_neg hslash]
    refine ⟨(Text.splitChars '/' folder.toList).map String.ofList, ?_, Or.inl rfl, ?_⟩
    · have hlist : (folder ++ "/" ++ n).toList = folder.toList ++ '/' :: n.toList := by simp
      rw [hlist, Text.splitChars_append, List.map_append]
    · rw [String.append_assoc, beginsWith_append hempty]

/-- So it is with a name in a folder. -/
theorem namesOf_pathIn (hn : IsName n) (folder : String) :
    ∃ names, namesOf (pathIn folder n) = names ++ [n] ∧
      (namesOf folder = names ∨ namesOf folder = names ++ [""]) ∧
      Text.beginsWith (pathIn folder n) "/" = Text.beginsWith folder "/" := by
  have hone : namesOf n = [n] := hn.split
  rw [← hone]
  exact namesOf_pathIn_relative hn.not_beginsWith folder

/-- A name in a folder leads where the folder leads, and one name further. -/
theorem names?_pathIn (hn : IsName n) (d : Disk) (folder : String) :
    d.names? (pathIn folder n) = (d.names? folder).map (n :: ·) := by
  have hone : ∀ names start, d.follow start (names ++ [n]) =
      (d.follow start names).map (n :: ·) := by
    intro names start
    rw [follow_append]
    cases d.follow start names with
    | none => rfl
    | some reached => exact follow_name hn d reached
  obtain ⟨names, hpath, hfolder, hstart⟩ := namesOf_pathIn hn folder
  unfold namesOf at hpath hfolder
  unfold names?
  rw [hpath, hstart, hone]
  rcases hfolder with hfolder | hfolder
  · rw [hfolder]
  · -- the empty name leads nowhere else
    rw [hfolder, follow_append]
    cases d.follow _ names with
    | none => rfl
    | some reached => rfl

/-- A path to a name in a folder ends in it. -/
theorem endsInName_pathIn (hn : IsName n) (folder : String) :
    endsInName (pathIn folder n) = true := by
  obtain ⟨names, hpath, -⟩ := namesOf_pathIn hn folder
  have hlast : ((Text.splitChars '/' (pathIn folder n).toList).getLast?).map String.ofList =
      some n := by
    rw [← List.getLast?_map]
    unfold namesOf at hpath
    rw [hpath, List.getLast?_concat]
  obtain ⟨cs, hcs, rfl⟩ := Option.map_eq_some_iff.1 hlast
  unfold endsInName
  rw [hcs]
  simp [hn.ne_empty, hn.ne_dot, hn.ne_dots]

/-! ## Paths as keys -/

theorem pathOf_cons (n : String) (here : List String) : pathOf (n :: here) = lead here ++ n := by
  unfold pathOf lead
  by_cases h : here = []
  · subst h
    simp
  · rw [if_neg h, List.reverse_cons,
      String.intercalate_append_of_ne_nil (by simpa using h) (List.cons_ne_nil _ _),
      String.intercalate_singleton]
    rfl

theorem pathOf_cons_inj : pathOf (n :: here) = pathOf (m :: here) ↔ n = m := by
  rw [pathOf_cons, pathOf_cons, String.append_right_inj]

/-! ## Making a folder -/

/-- Making folders adds to them and leaves the files. -/
theorem makeFrom_grows {made : Disk} {names : List String}
    (h : d.makeFrom reached names = .ok made) :
    made.files = d.files ∧ ∀ p ∈ d.folders, p ∈ made.folders := by
  fun_induction makeFrom d reached names with
  | case1 d =>
    cases h
    exact ⟨rfl, fun p hp => hp⟩
  | case2 d reached name rest hskip ih => exact ih h
  | case3 d reached name rest hskip hback ih => exact ih h
  | case4 => cases h
  | case5 d reached name rest hskip hback path hfree e ih =>
    obtain ⟨hfiles, hfolders⟩ := ih h
    have he : e.files = d.files ∧ ∀ p ∈ d.folders, p ∈ e.folders := by
      dsimp only [e]
      split
      · exact ⟨rfl, fun p hp => hp⟩
      · exact ⟨rfl, fun p hp => List.mem_append_left _ hp⟩
    exact ⟨hfiles.trans he.1, fun p hp => hfolders p (he.2 p hp)⟩

/-- Folders that have been made are found where they are, as long as no file takes their place. -/
theorem makeFrom_again {made later : Disk} {names : List String}
    (h : d.makeFrom reached names = .ok made) (hfolders : ∀ p ∈ made.folders, p ∈ later.folders)
    (hfiles : ∀ p ∈ made.folders, later.files.contains p = true → d.files.contains p = true) :
    later.makeFrom reached names = .ok later := by
  fun_induction makeFrom d reached names with
  | case1 => rfl
  | case2 d reached name rest hskip ih =>
    unfold makeFrom
    rw [if_pos hskip]
    exact ih h hfiles
  | case3 d reached name rest hskip hback ih =>
    unfold makeFrom
    rw [if_neg hskip, if_pos hback]
    exact ih h hfiles
  | case4 => cases h
  | case5 d reached name rest hskip hback path hfree e ih =>
    -- the folder was there or has just been made, and either way it stays
    have he : e.files = d.files ∧ path ∈ e.folders := by
      dsimp only [e]
      split
      · rename_i hthere
        exact ⟨rfl, List.contains_iff_mem.1 hthere⟩
      · exact ⟨rfl, List.mem_append_right _ List.mem_cons_self⟩
    have hpath : path ∈ made.folders := (makeFrom_grows h).2 path he.2
    unfold makeFrom
    rw [if_neg hskip, if_neg hback]
    dsimp only
    rw [if_neg (fun hoccupied => hfree (hfiles path hpath hoccupied)),
      if_pos (List.contains_iff_mem.2 (hfolders path hpath))]
    exact ih h (by rw [he.1]; exact hfiles)

/-! ## Reading -/

theorem run_read (d : Disk) (p : String) :
    (read p).run d =
      (if d.isFolder p then .error .folder
        else match d.file? p with
          | some content => .ok content
          | none => .error .noFile, d) := by
  unfold read
  rw [Effect.run_bind_ok (Effect.run_get d)]
  cases d.isFolder p with
  | true => rfl
  | false => cases d.file? p with
    | none => rfl
    | some content => rfl

/-! ## Opening files -/

variable {p k : String} {files : Table Content}

/-- A path at which the file `k` can be opened for writing: it ends in a name, no folder is there,
and the folder around it is. -/
def Opens (p k : String) (d : Disk) : Prop :=
  endsInName p = true ∧ ∃ names, d.names? p = some names ∧ d.leadsToFolder names = false ∧
    d.leadsToFolder (names.drop 1) = true ∧ k = pathOf names

theorem Opens.unique {k' : String} (h : Opens p k d) (h' : Opens p k' d) : k = k' := by
  obtain ⟨-, names, hnames, -, -, rfl⟩ := h
  obtain ⟨-, names', hnames', -, -, rfl⟩ := h'
  rw [hnames] at hnames'
  rw [Option.some.inj hnames']

theorem opens_files : Opens p k { d with files } ↔ Opens p k d := by
  unfold Opens
  rw [names?_files]
  rfl

theorem resolve?_files (d : Disk) (files : Table Content) (p : String) :
    { d with files }.resolve? p = d.resolve? p := by
  unfold resolve?
  rw [names?_files]

theorem Opens.resolve? (h : Opens p k d) : d.resolve? p = some k := by
  obtain ⟨-, names, hnames, -, -, rfl⟩ := h
  unfold Disk.resolve?
  rw [hnames]
  rfl

theorem Opens.not_isFolder (h : Opens p k d) : d.isFolder p = false := by
  obtain ⟨-, names, hnames, hfree, -, -⟩ := h
  unfold isFolder
  rw [hnames]
  exact hfree

theorem Opens.file? (h : Opens p k d) : d.file? p = d.files.get? k := by
  unfold Disk.file?
  rw [h.resolve?]
  rfl

theorem Opens.run_write (h : Opens p k d) (c : Content) :
    (write p c).run d = (.ok (), { d with files := d.files.put k c }) := by
  obtain ⟨hends, names, hnames, hfree, haround, rfl⟩ := h
  unfold write
  rw [Effect.run_of, hnames]
  dsimp only
  rw [hends, hfree, haround]
  rfl

/-- The fault of a value that JSON cannot hold. -/
def notSerializable : Fault :=
  .kind "Object is not JSON serializable"

/-- What is left of a JSON file that has been opened. -/
def jsonLeft (foreign : Bool) (v : Value) : Content :=
  if Json.writable foreign v then .json v else .text ""

theorem Opens.run_writeJson (h : Opens p k d) (foreign : Bool) (v : Value) :
    (writeJson foreign p v).run d =
      (if Json.writable foreign v then .ok () else .error notSerializable,
        { d with files := d.files.put k (jsonLeft foreign v) }) := by
  unfold writeJson jsonLeft
  rw [Effect.run_bind_ok (h.run_write _)]
  cases Json.writable foreign v with
  | false => rfl
  | true =>
    show (write p (.json v)).run { d with files := d.files.put k (.text "") } = _
    rw [(opens_files.2 h).run_write]
    show (Except.ok (), { d with files := (d.files.put k (.text "")).put k (.json v) }) = _
    rw [Table.put_put]
    rfl

/-! ## Places -/

/-- A folder that is there, with no folder in it. Its path leads to the names `here`. -/
structure Place (folder : String) (here : List String) (d : Disk) : Prop where
  made : d.makeFrom [] (namesOf folder) = .ok d
  names : d.names? folder = some here
  leads : d.leadsToFolder here = true
  flat : ∀ n, pathOf (n :: here) ∉ d.folders

theorem run_makeFolder {made : Disk} :
    (makeFolder folder).run d = (.ok (), made) ↔ d.makeFrom [] (namesOf folder) = .ok made := by
  cases h : d.makeFrom [] (namesOf folder) with
  | ok e =>
    have hrun : (makeFolder folder).run d = (.ok (), e) := by
      unfold namesOf at h
      unfold makeFolder
      rw [Effect.run_of, h]
    rw [hrun]
    simp
  | error f =>
    have hrun : (makeFolder folder).run d = (.error f, d) := by
      unfold namesOf at h
      unfold makeFolder
      rw [Effect.run_of, h]
    rw [hrun]
    simp

namespace Place

variable {content : Content} (h : Place folder here d)

include h

/-- A place stays one if no file is put where a folder is. -/
theorem of_files {files : Table Content}
    (hfiles : ∀ p ∈ d.folders, files.contains p = true → d.files.contains p = true) :
    Place folder here { d with files } where
  made := makeFrom_again h.made (fun _ hp => hp) hfiles
  names := (names?_files d files folder).trans h.names
  leads := h.leads
  flat := h.flat

theorem put (n : String) (content : Content) :
    Place folder here { d with files := d.files.put (pathOf (n :: here)) content } := by
  refine h.of_files fun p hp => ?_
  have hne : pathOf (n :: here) ≠ p := fun heq => h.flat n (heq ▸ hp)
  unfold Table.contains
  rw [Table.get?_put, if_neg hne]
  exact id

theorem erase (n : String) :
    Place folder here { d with files := d.files.erase (pathOf (n :: here)) } := by
  refine h.of_files fun p hp => ?_
  have hne : p ≠ pathOf (n :: here) := fun heq => h.flat n (heq ▸ hp)
  unfold Table.contains
  rw [Table.get?_erase, if_neg hne]
  exact id

theorem names?_name (hn : IsName n) : d.names? (pathIn folder n) = some (n :: here) := by
  rw [names?_pathIn hn, h.names]
  rfl

theorem not_leadsToFolder (hn : IsName n) : d.leadsToFolder (n :: here) = false := by
  have hcontains : d.folders.contains (pathOf (n :: here)) = false :=
    Bool.eq_false_iff.2 fun hc => h.flat n (List.contains_iff_mem.1 hc)
  unfold leadsToFolder
  rw [hcontains]
  simp [hn.ne_dots]

/-- A file of any name can be opened. -/
theorem opens (hn : IsName n) : Opens (pathIn folder n) (pathOf (n :: here)) d :=
  ⟨endsInName_pathIn hn folder, n :: here, h.names?_name hn, h.not_leadsToFolder hn, h.leads, rfl⟩

theorem not_isFolder (hn : IsName n) : d.isFolder (pathIn folder n) = false :=
  (h.opens hn).not_isFolder

theorem file?_name (hn : IsName n) :
    d.file? (pathIn folder n) = d.files.get? (pathOf (n :: here)) :=
  (h.opens hn).file?

theorem has_name (hn : IsName n) :
    d.has (pathIn folder n) = (d.files.get? (pathOf (n :: here))).isSome := by
  unfold has
  rw [h.not_isFolder hn, h.file?_name hn]
  rfl

theorem run_makeFolder : (makeFolder folder).run d = (.ok (), d) :=
  Disk.run_makeFolder.2 h.made

/-- A value that has a JSON text is what the file holds afterwards. -/
theorem run_writeJson (hn : IsName n) {v : Value} (hv : Json.writable false v = true) :
    (writeJson false (pathIn folder n) v).run d =
      (.ok (), { d with files := d.files.put (pathOf (n :: here)) (.json v) }) := by
  rw [(h.opens hn).run_writeJson, if_pos hv]
  unfold jsonLeft
  rw [if_pos hv]

theorem run_read (hn : IsName n) (hget : d.files.get? (pathOf (n :: here)) = some content) :
    (read (pathIn folder n)).run d = (.ok content, d) := by
  rw [Disk.run_read, h.not_isFolder hn, h.file?_name hn, hget]
  rfl

theorem run_remove (hn : IsName n) (hget : d.files.get? (pathOf (n :: here)) = some content) :
    (remove (pathIn folder n)).run d =
      (.ok (), { d with files := d.files.erase (pathOf (n :: here)) }) := by
  unfold remove
  rw [Effect.run_bind_ok (h.run_read hn hget), Effect.run_modify]
  unfold resolve?
  rw [h.names?_name hn]
  rfl

end Place

end Disk

end BrowserFlow
