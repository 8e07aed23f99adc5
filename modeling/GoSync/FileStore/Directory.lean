import GoSync.FileStore.Names
import GoSync.Lib.Assoc
import GoSync.Lib.Outcome

/-!
# The directory store

`directoryStore` of the package `filestore`, over a directory given by its files and directories below the
root. Creating directories fails where a file is in the way, renaming a file onto a directory fails, and
removing looks only at what the path names. The temporary file of `Put` has a name that nothing else has, so
that only its directory shows.
-/

namespace GoSync.FileStore

open SlashPath

abbrev Path := List Name

/-- What is kept of a file; its content is known by size and digest. -/
structure Stored where
  size : Int
  sha256 : String
  mode : Nat
  modified : Int
  deriving DecidableEq, Repr

def above (path : Path) : List Path :=
  path.dropLast.inits.filter (· ≠ [])

/-- The tree below the root: nothing is both a file and a directory, and everything lies in directories. -/
structure Directory where
  files : List (Path × Stored)
  dirs : List Path
  apart : ∀ path ∈ dirs, files.lookup path = none
  files_inside : ∀ path, (files.lookup path).isSome → ∀ parent ∈ above path, parent ∈ dirs
  dirs_inside : ∀ path ∈ dirs, ∀ parent ∈ above path, parent ∈ dirs

inductive DirectoryError where
  | name (err : NameError)
  | notDirectory (path : Path)
  | isDirectory (path : Path)
  | notEmpty (path : Path)
  deriving DecidableEq, Repr

theorem mem_above {parent path : Path} :
    parent ∈ above path ↔ parent ≠ [] ∧ parent <+: path ∧ parent ≠ path := by
  unfold above
  rw [List.mem_filter, List.mem_inits, decide_eq_true_eq]
  constructor
  · rintro ⟨hbelow, hne⟩
    refine ⟨hne, hbelow.trans (List.dropLast_prefix _), ?_⟩
    rintro rfl
    have hlength := hbelow.length_le
    rw [List.length_dropLast] at hlength
    have hpos := List.length_pos_iff.mpr hne
    omega
  · rintro ⟨hne, hbelow, hproper⟩
    refine ⟨?_, hne⟩
    obtain ⟨rest, rfl⟩ := hbelow
    have hrest : rest ≠ [] := fun hnil => hproper (by rw [hnil, List.append_nil])
    rw [List.dropLast_append_of_ne_nil hrest]
    exact List.prefix_append _ _

namespace Directory

variable {d next : Directory} {path : Path}

def mkdirAll (d : Directory) (path : Path) : Except DirectoryError Directory :=
  if hfree : ∀ parent ∈ path.inits.filter (· ≠ []), d.files.lookup parent = none then
    .ok
      { files := d.files
        dirs := path.inits.filter (· ≠ []) ++ d.dirs
        apart := by
          intro dir hdir
          rcases List.mem_append.mp hdir with hdir | hdir
          · exact hfree dir hdir
          · exact d.apart dir hdir
        files_inside := fun file hfile parent hparent =>
          List.mem_append_right _ (d.files_inside file hfile parent hparent)
        dirs_inside := by
          intro dir hdir parent hparent
          rcases List.mem_append.mp hdir with hdir | hdir
          · obtain ⟨hne, hbelow, -⟩ := mem_above.mp hparent
            have hpath := (List.mem_inits _ _).mp (List.mem_filter.mp hdir).1
            refine List.mem_append_left _ (List.mem_filter.mpr ⟨(List.mem_inits _ _).mpr (hbelow.trans hpath), ?_⟩)
            exact decide_eq_true hne
          · exact List.mem_append_right _ (d.dirs_inside dir hdir parent hparent) }
  else
    .error (.notDirectory path)

def rename (d : Directory) (path : Path) (file : Stored) : Except DirectoryError Directory :=
  if hdir : path = [] ∨ path ∈ d.dirs then
    .error (.isDirectory path)
  else if hinside : ∀ parent ∈ above path, parent ∈ d.dirs then
    .ok
      { files := (path, file) :: d.files.filter fun entry => entry.1 ≠ path
        dirs := d.dirs
        apart := by
          intro dir hmem
          have hne : dir ≠ path := fun h => hdir (Or.inr (h ▸ hmem))
          rw [List.lookup_cons, beq_false_of_ne hne, Assoc.lookup_filter_ne, if_neg hne]
          exact d.apart dir hmem
        files_inside := by
          intro other hother parent hparent
          by_cases hne : other = path
          · exact hinside parent (hne ▸ hparent)
          · rw [List.lookup_cons, beq_false_of_ne hne, Assoc.lookup_filter_ne, if_neg hne] at hother
            exact d.files_inside other hother parent hparent
        dirs_inside := d.dirs_inside }
  else
    .error (.notDirectory path)

def remove (d : Directory) (path : Path) : Except DirectoryError Directory :=
  if ∃ parent ∈ above path, (d.files.lookup parent).isSome then
    .error (.notDirectory path)
  else if (d.files.lookup path).isSome then
    .ok
      { files := d.files.filter fun entry => entry.1 ≠ path
        dirs := d.dirs
        apart := by
          intro dir hmem
          rw [Assoc.lookup_filter_ne, d.apart dir hmem, ite_self]
        files_inside := by
          intro other hother parent hparent
          rw [Assoc.lookup_filter_ne] at hother
          split_ifs at hother
          · cases hother
          · exact d.files_inside other hother parent hparent
        dirs_inside := d.dirs_inside }
  else if path = [] ∨ path ∈ d.dirs then
    if hempty : path ≠ [] ∧ (∀ entry ∈ d.files, ¬ path <+: entry.1)
        ∧ ∀ dir ∈ d.dirs, path <+: dir → dir = path then
      .ok
        { files := d.files
          dirs := d.dirs.filter fun dir => dir ≠ path
          apart := fun dir hmem => d.apart dir (List.mem_filter.mp hmem).1
          files_inside := by
            intro other hother parent hparent
            refine List.mem_filter.mpr ⟨d.files_inside other hother parent hparent, ?_⟩
            refine decide_eq_true ?_
            rintro rfl
            obtain ⟨entry, hentry, rfl⟩ := List.mem_map.mp (Assoc.lookup_isSome_iff.mp hother)
            exact hempty.2.1 entry hentry (mem_above.mp hparent).2.1
          dirs_inside := by
            intro dir hdir parent hparent
            have hmem := (List.mem_filter.mp hdir).1
            refine List.mem_filter.mpr ⟨d.dirs_inside dir hmem parent hparent, ?_⟩
            refine decide_eq_true ?_
            rintro rfl
            obtain ⟨-, hbelow, hproper⟩ := mem_above.mp hparent
            exact hproper (hempty.2.2 dir hmem hbelow).symm }
    else
      .error (.notEmpty path)
  else
    .ok d

end Directory

section Store

def tempDir : Name :=
  ".go-sync-tmp".toList

def permissions (mode : Nat) : Nat :=
  if mode % 512 = 0 then 416 else mode % 512

def put (pre : List Char) (d : Directory) (name : String) (size : Int) (sha256 : String) (mode : Nat)
    (modified : Int) : Except DirectoryError Directory := do
  let rel ← (objectName (trim pre) name).mapError .name
  let d ← d.mkdirAll (names rel).dropLast
  let d ← d.mkdirAll [tempDir]
  d.rename (names rel) { size := size, sha256 := sha256, mode := permissions mode, modified := modified }

def delete (pre : List Char) (d : Directory) (name : String) : Except DirectoryError Directory := do
  let rel ← (objectName (trim pre) name).mapError .name
  d.remove (names rel)

variable {d next : Directory} {pre : List Char} {name : String} {rel : List Char}

theorem Directory.mkdirAll_eq_ok {path : Path} (h : d.mkdirAll path = .ok next) :
    (∀ parent, parent ≠ [] → parent <+: path → d.files.lookup parent = none)
      ∧ next.files = d.files
      ∧ ∀ dir, dir ∈ next.dirs ↔ (dir ≠ [] ∧ dir <+: path) ∨ dir ∈ d.dirs := by
  unfold Directory.mkdirAll at h
  split_ifs at h with hfree
  cases h
  refine ⟨?_, rfl, ?_⟩
  · intro parent hne hbelow
    exact hfree parent (List.mem_filter.mpr ⟨(List.mem_inits _ _).mpr hbelow, decide_eq_true hne⟩)
  · intro dir
    rw [List.mem_append, List.mem_filter, List.mem_inits, decide_eq_true_eq, and_comm]

theorem Directory.mkdirAll_isOk {path : Path}
    (h : ∀ parent, parent ≠ [] → parent <+: path → d.files.lookup parent = none) :
    ∃ next, d.mkdirAll path = .ok next := by
  unfold Directory.mkdirAll
  rw [dif_pos]
  · exact ⟨_, rfl⟩
  · intro parent hparent
    obtain ⟨hbelow, hne⟩ := List.mem_filter.mp hparent
    exact h parent (of_decide_eq_true hne) ((List.mem_inits _ _).mp hbelow)

theorem prefix_singleton {parent : Path} {last : Name} (h : parent <+: [last]) :
    parent = [] ∨ parent = [last] := by
  rcases List.prefix_cons_iff.mp h with hnil | ⟨rest, rfl, hrest⟩
  · exact Or.inl hnil
  · rw [List.prefix_nil.mp hrest]
    exact Or.inr rfl

theorem prefix_dropLast_iff {parent path : Path} (hne : parent ≠ []) :
    parent <+: path.dropLast ↔ parent ∈ above path := by
  rw [above, List.mem_filter, List.mem_inits]
  exact (and_iff_left (decide_eq_true hne)).symm

/-- A file can be put in place exactly if no file is on its way, the temporary directory is no file, and the
place is no directory. -/
theorem put_isOk_iff (hrel : objectName (trim pre) name = .ok rel) {size : Int} {sha256 : String}
    {mode : Nat} {modified : Int} :
    (∃ next, put pre d name size sha256 mode modified = .ok next)
      ↔ (∀ parent ∈ above (names rel), d.files.lookup parent = none)
        ∧ d.files.lookup [tempDir] = none ∧ names rel ≠ [] ∧ names rel ∉ d.dirs ∧ names rel ≠ [tempDir] := by
  have hname : (objectName (trim pre) name).mapError DirectoryError.name = .ok rel :=
    Except.mapError_eq_ok.mpr hrel
  constructor
  · rintro ⟨next, h⟩
    unfold put at h
    rw [hname, Except.ok_bind] at h
    obtain ⟨first, hfirst, h⟩ := Except.bind_eq_ok.mp h
    obtain ⟨second, hsecond, h⟩ := Except.bind_eq_ok.mp h
    obtain ⟨hway, hfiles, hdirs⟩ := Directory.mkdirAll_eq_ok hfirst
    obtain ⟨htemp, -, hdirsSecond⟩ := Directory.mkdirAll_eq_ok hsecond
    unfold Directory.rename at h
    split_ifs at h with hdir
    rw [not_or] at hdir
    refine ⟨?_, ?_, hdir.1, ?_, ?_⟩
    · intro parent hparent
      have hne := (mem_above.mp hparent).1
      exact hway parent hne ((prefix_dropLast_iff hne).mpr hparent)
    · rw [← hfiles]
      exact htemp _ (by decide) (List.prefix_refl _)
    · exact fun hmem => hdir.2 ((hdirsSecond _).mpr (Or.inr ((hdirs _).mpr (Or.inr hmem))))
    · intro hsame
      exact hdir.2 ((hdirsSecond _).mpr (Or.inl ⟨hdir.1, by rw [hsame]⟩))
  · rintro ⟨hway, htemp, hne, hdir, hnotTemp⟩
    obtain ⟨first, hfirst⟩ : ∃ first, d.mkdirAll (names rel).dropLast = .ok first :=
      Directory.mkdirAll_isOk fun parent hparent hbelow =>
        hway parent ((prefix_dropLast_iff hparent).mp hbelow)
    obtain ⟨-, hfiles, hdirs⟩ := Directory.mkdirAll_eq_ok hfirst
    obtain ⟨second, hsecond⟩ : ∃ second, first.mkdirAll [tempDir] = .ok second := by
      apply Directory.mkdirAll_isOk
      intro parent hparent hbelow
      rw [hfiles, (prefix_singleton hbelow).resolve_left hparent]
      exact htemp
    obtain ⟨-, -, hdirsSecond⟩ := Directory.mkdirAll_eq_ok hsecond
    unfold put
    rw [hname, Except.ok_bind, hfirst, Except.ok_bind, hsecond, Except.ok_bind, Directory.rename]
    rw [dif_neg, dif_pos]
    · exact ⟨_, rfl⟩
    · intro parent hparent
      refine (hdirsSecond _).mpr (Or.inr ((hdirs _).mpr (Or.inl ?_)))
      have hparentNe := (mem_above.mp hparent).1
      exact ⟨hparentNe, (prefix_dropLast_iff hparentNe).mpr hparent⟩
    · rw [not_or]
      refine ⟨hne, fun hmem => ?_⟩
      rcases (hdirsSecond _).mp hmem with ⟨-, hbelow⟩ | hmem
      · exact hnotTemp ((prefix_singleton hbelow).resolve_left hne)
      · rcases (hdirs _).mp hmem with ⟨-, hbelow⟩ | hmem
        · exact (mem_above.mp ((prefix_dropLast_iff hne).mp hbelow)).2.2 rfl
        · exact hdir hmem

/-- Writing a file changes its own path and adds the directories it needs. -/
theorem put_eq_ok (hrel : objectName (trim pre) name = .ok rel) {size : Int} {sha256 : String}
    {mode : Nat} {modified : Int} (h : put pre d name size sha256 mode modified = .ok next) :
    (∀ path, next.files.lookup path = if path = names rel
        then some { size := size, sha256 := sha256, mode := permissions mode, modified := modified }
        else d.files.lookup path)
      ∧ ∀ dir, dir ∈ next.dirs ↔ dir ∈ above (names rel) ∨ dir = [tempDir] ∨ dir ∈ d.dirs := by
  have hname : (objectName (trim pre) name).mapError DirectoryError.name = .ok rel :=
    Except.mapError_eq_ok.mpr hrel
  unfold put at h
  rw [hname, Except.ok_bind] at h
  obtain ⟨first, hfirst, h⟩ := Except.bind_eq_ok.mp h
  obtain ⟨second, hsecond, h⟩ := Except.bind_eq_ok.mp h
  obtain ⟨-, hfiles, hdirs⟩ := Directory.mkdirAll_eq_ok hfirst
  obtain ⟨-, hfilesSecond, hdirsSecond⟩ := Directory.mkdirAll_eq_ok hsecond
  unfold Directory.rename at h
  split_ifs at h
  cases h
  constructor
  · intro path
    rw [List.lookup_cons, Assoc.lookup_filter_ne, hfilesSecond, hfiles]
    by_cases hsame : path = names rel
    · rw [hsame, beq_self_eq_true]
      exact (if_pos rfl).symm
    · rw [if_neg hsame, beq_false_of_ne hsame, if_neg hsame]
  · intro dir
    rw [hdirsSecond, hdirs]
    constructor
    · rintro (⟨hne, hbelow⟩ | ⟨hne, hbelow⟩ | hmem)
      · exact Or.inr (Or.inl ((prefix_singleton hbelow).resolve_left hne))
      · exact Or.inl ((prefix_dropLast_iff hne).mp hbelow)
      · exact Or.inr (Or.inr hmem)
    · rintro (habove | rfl | hmem)
      · have hne := (mem_above.mp habove).1
        exact Or.inr (Or.inl ⟨hne, (prefix_dropLast_iff hne).mpr habove⟩)
      · exact Or.inl ⟨List.cons_ne_nil _ _, List.prefix_refl _⟩
      · exact Or.inr (Or.inr hmem)

theorem delete_file (hrel : objectName (trim pre) name = .ok rel)
    (hfile : (d.files.lookup (names rel)).isSome) :
    ∃ next, delete pre d name = .ok next ∧ next.dirs = d.dirs
      ∧ ∀ path, next.files.lookup path = if path = names rel then none else d.files.lookup path := by
  have hname : (objectName (trim pre) name).mapError DirectoryError.name = .ok rel :=
    Except.mapError_eq_ok.mpr hrel
  have hway : ¬ ∃ parent ∈ above (names rel), (d.files.lookup parent).isSome := by
    rintro ⟨parent, hparent, hsome⟩
    rw [d.apart parent (d.files_inside _ hfile parent hparent)] at hsome
    cases hsome
  unfold delete
  rw [hname, Except.ok_bind, Directory.remove, if_neg hway, if_pos hfile]
  exact ⟨_, rfl, rfl, fun path => Assoc.lookup_filter_ne⟩

end Store

end GoSync.FileStore
