import GoSync.FileStore.Directory
import GoSync.FileWatch.Changes

/-!
# Mirroring to a directory

The events between two scans, applied in their order to a directory that holds the files of the first one.
They are ordered by path. A file that becomes a directory is deleted in time, because its path comes before
everything below it. A directory that becomes a file stays in the way: the file comes before the deletions
below it, and no event removes the directory.
-/

namespace GoSync.FileWatch

open SlashPath FileStore

section Paths

structure Regular (name : String) : Prop where
  ne_nil : names name.toList ≠ []
  plain : ∀ part ∈ names name.toList, Plain part
  text : name.toList = ['/'].intercalate (names name.toList)
  nul_free : '\x00' ∉ name.toList

instance (name : String) : Decidable (Regular name) :=
  decidable_of_iff
    (names name.toList ≠ [] ∧ (∀ part ∈ names name.toList, Plain part)
      ∧ name.toList = ['/'].intercalate (names name.toList) ∧ '\x00' ∉ name.toList)
    ⟨fun ⟨hnil, hplain, htext, hnul⟩ => ⟨hnil, hplain, htext, hnul⟩,
      fun h => ⟨h.ne_nil, h.plain, h.text, h.nul_free⟩⟩

def placeOf (pre : List Char) (name : String) : Path :=
  names pre ++ names name.toList

variable {pre : List Char} {a b name : String}

theorem Regular.elements_eq (h : Regular name) : elements name.toList = names name.toList := by
  conv_lhs => rw [h.text]
  exact List.splitOn_intercalate '/' (fun part hpart => (h.plain part hpart).slash_free) h.ne_nil

theorem Regular.isRooted (h : Regular name) : isRooted name.toList = false := by
  rw [h.text]
  exact isRooted_intercalate (fun part hpart => (h.plain part hpart).slash_free)
    fun part hpart => (h.plain part hpart).ne_nil

theorem Regular.isLocal (h : Regular name) : isLocal name = true := by
  rw [isLocal_iff]
  refine ⟨?_, h.isRooted, ?_⟩
  · rintro rfl
    exact h.ne_nil rfl
  · rw [h.elements_eq]
    exact localDepth_isSome (fun hmem => (h.plain _ hmem).ne_dotdot rfl) 0

theorem Regular.objectName (h : Regular name) (hpre : SlashPath.isRooted pre = false) :
    ∃ rel, objectName (trim pre) name = .ok rel ∧ names rel = placeOf pre name := by
  refine ⟨_, objectName_of_local h.isLocal h.nul_free, ?_⟩
  rw [names_join_relative isRooted_trim h.isRooted, walk_append, walk_elements_trim, walk_elements_trim,
    h.elements_eq, walk_plain h.plain, List.reverse_append, List.reverse_reverse, placeOf]
  congr 1
  rw [names, hpre]

theorem Regular.eq_of_names (ha : Regular a) (hb : Regular b)
    (h : names a.toList = names b.toList) : a = b := by
  have htext : a.toList = b.toList := by rw [ha.text, hb.text, h]
  exact String.toList_inj.mp htext

theorem placeOf_injective (ha : Regular a) (hb : Regular b) (h : placeOf pre a = placeOf pre b) : a = b :=
  ha.eq_of_names hb (List.append_cancel_left h)

theorem lt_append_cons (text : List Char) (c : Char) (rest : List Char) : text < text ++ c :: rest := by
  induction text with
  | nil => exact List.nil_lt_cons _ _
  | cons first text ih => exact List.cons_lt_cons_self.mpr ih

theorem Regular.lt_of_prefix (ha : Regular a) (hb : Regular b) (h : names a.toList <+: names b.toList)
    (hne : a ≠ b) : a < b := by
  have hproper : names a.toList ≠ names b.toList := fun hsame => hne (ha.eq_of_names hb hsame)
  obtain ⟨rest, hrest⟩ := (intercalate_slash_append (fun part hpart => (ha.plain part hpart).slash_free)
    (fun part hpart => (hb.plain part hpart).slash_free) ha.ne_nil).mpr ⟨h, hproper⟩
  rw [String.lt_iff_toList_lt, hb.text, ← hrest, ← ha.text, List.append_assoc]
  exact lt_append_cons _ _ _

theorem prefix_of_above (h : placeOf pre a ∈ above (placeOf pre b)) :
    names a.toList <+: names b.toList ∧ a ≠ b := by
  obtain ⟨-, hbelow, hproper⟩ := mem_above.mp h
  refine ⟨(List.prefix_append_right_inj _).mp hbelow, ?_⟩
  rintro rfl
  exact hproper rfl

end Paths

structure Tree (files : Files String) : Prop where
  regular : ∀ name, (files.lookup name).isSome → Regular name
  flat : ∀ a b, (files.lookup a).isSome → (files.lookup b).isSome →
    names a.toList <+: names b.toList → a = b

def FileState.stored (state : FileState) : Stored where
  size := state.size
  sha256 := state.sha256
  mode := permissions state.mode
  modified := state.modTimeUnixNano

def applyChange (pre : List Char) (d : Directory) : Change String → Except DirectoryError Directory
  | .put path _ state => put pre d path state.size state.sha256 state.mode state.modTimeUnixNano
  | .delete path => delete pre d path

structure Mirrors (pre : List Char) (d : Directory) (files : String → Option FileState) : Prop where
  files : ∀ name, Regular name →
    d.files.lookup (placeOf pre name) = (files name).map FileState.stored
  only : ∀ path, (d.files.lookup path).isSome → ∃ name, Regular name ∧ path = placeOf pre name

/-- A file for which the directory has a place at its turn: no directory is there, and the temporary
directory is none of the files, or no longer. -/
def Placeable (pre : List Char) (d : Directory) (old current : Files String) (name : String) : Prop :=
  placeOf pre name ∉ d.dirs ∧ placeOf pre name ≠ [tempDir]
    ∧ ∀ other, Regular other → (old.lookup other).isSome → placeOf pre other = [tempDir] →
      current.lookup other = none ∧ other < name

def Files.map (files : Files String) (name : String) : Option FileState :=
  files.lookup name

variable {name : String}

section Halfway

variable {pre : List Char} {d now : Directory} {old current : Files String} {done rest : List (Change String)}
  {change : Change String} {cfg : Settings}

structure Halfway (pre : List Char) (d : Directory) (old : Files String) (done : List (Change String)) (now : Directory) :
    Prop where
  mirrors : Mirrors pre now (applied (Files.map old) done)
  dirs_kept : ∀ dir ∈ d.dirs, dir ∈ now.dirs
  dirs_new : ∀ dir ∈ now.dirs, dir ∈ d.dirs ∨ dir = [tempDir]
    ∨ ∃ path operation state, .put path operation state ∈ done ∧ dir ∈ above (placeOf pre path)
  temp : ∀ path operation state, .put path operation state ∈ done → [tempDir] ∈ now.dirs

theorem Halfway.start (h : Mirrors pre d (Files.map old)) : Halfway pre d old [] d where
  mirrors := h
  dirs_kept := fun _ hdir => hdir
  dirs_new := fun _ hdir => Or.inl hdir
  temp := fun _ _ _ hmem => absurd hmem List.not_mem_nil

section Order

variable (hall : ∀ operation ∈ [FileOperation.create, .update, .delete], cfg.allows operation)
  (hsplit : changes cfg old current = done ++ change :: rest)

include hsplit

variable {event : Change String}

theorem done_lt (hevent : event ∈ done) : event.path < change.path := by
  have hsorted := changes_sorted cfg old current
  rw [hsplit, List.pairwise_append] at hsorted
  exact hsorted.2.2 event hevent change List.mem_cons_self

theorem mem_of_done (hevent : event ∈ done) : event ∈ changes cfg old current := by
  rw [hsplit]
  exact List.mem_append_left _ hevent

theorem mem_of_turn : change ∈ changes cfg old current := by
  rw [hsplit]
  exact List.mem_append_right _ List.mem_cons_self

theorem le_later (hevent : event ∈ change :: rest) : change.path ≤ event.path := by
  have hsorted := changes_sorted cfg old current
  rw [hsplit, List.pairwise_append] at hsorted
  rcases List.mem_cons.mp hevent with rfl | hevent
  · exact le_rfl
  · exact ((List.pairwise_cons.mp hsorted.2.1).1 event hevent).le

include hall

theorem done_of_lt (hdiffer : old.lookup name ≠ current.lookup name)
    (hlt : name < change.path) : ∃ event ∈ done, event.path = name := by
  obtain ⟨event, hevent, hpath⟩ := exists_change hall hdiffer
  rw [hsplit] at hevent
  rcases List.mem_append.mp hevent with hevent | hevent
  · exact ⟨event, hevent, hpath⟩
  · exact absurd (hpath ▸ le_later hsplit hevent) (not_le.mpr hlt)

theorem applied_before (hlt : name < change.path) :
    applied (Files.map old) done name = current.lookup name := by
  have hlater : ∀ event ∈ change :: rest, event.path ≠ name :=
    fun event hevent => (hlt.trans_le (le_later hsplit hevent)).ne'
  have hall := applied_changes hall old current (Files.map old) name
  rw [hsplit, applied, List.foldl_append] at hall
  have hsame : applied (applied (Files.map old) done) (change :: rest) name
      = applied (Files.map old) done name := applied_of_ne hlater
  rw [← hsame]
  refine hall.trans ?_
  by_cases hdiffer : old.lookup name = current.lookup name
  · rw [if_neg (not_not.mpr hdiffer), Files.map, hdiffer]
  · rw [if_pos hdiffer]

omit hall in
theorem applied_after (hle : change.path ≤ name) :
    applied (Files.map old) done name = old.lookup name :=
  applied_of_ne fun _ hevent => ((done_lt hsplit hevent).trans_le hle).ne

end Order

section Steps

variable (hall : ∀ operation ∈ [FileOperation.create, .update, .delete], cfg.allows operation)
  (hpre : SlashPath.isRooted pre = false) (hold : Tree old) (hcurrent : Tree current)
  (hsplit : changes cfg old current = done ++ change :: rest) (h : Halfway pre d old done now)

include hall hsplit h

theorem Halfway.file_cases {path : Path} (hfile : (now.files.lookup path).isSome) :
    ∃ name, Regular name ∧ path = placeOf pre name
      ∧ ((name < change.path ∧ (current.lookup name).isSome)
        ∨ (change.path ≤ name ∧ (old.lookup name).isSome)) := by
  obtain ⟨name, hregular, rfl⟩ := h.mirrors.only path hfile
  refine ⟨name, hregular, rfl, ?_⟩
  rw [h.mirrors.files name hregular, Option.isSome_map] at hfile
  rcases lt_or_ge name change.path with hlt | hle
  · rw [applied_before hall hsplit hlt] at hfile
    exact Or.inl ⟨hlt, hfile⟩
  · rw [applied_after hsplit hle] at hfile
    exact Or.inr ⟨hle, hfile⟩

include hpre hcurrent

variable {path : String}

/-- A file is written exactly if its place is free. -/
theorem Halfway.put_isOk_iff {operation : FileOperation} {state : FileState}
    (hchange : change = .put path operation state) (hmem : (current.lookup path).isSome) :
    (∃ next, applyChange pre now change = .ok next) ↔ Placeable pre d old current path := by
  subst hchange
  have hregular := hcurrent.regular path hmem
  obtain ⟨rel, hrel, hplace⟩ := hregular.objectName hpre
  rw [applyChange, FileStore.put_isOk_iff hrel, hplace]
  constructor
  · rintro ⟨-, htemp, -, hdir, hnotTemp⟩
    refine ⟨fun hmem => hdir (h.dirs_kept _ hmem), hnotTemp, ?_⟩
    intro other hother hothers hothersPlace
    rw [← hothersPlace, h.mirrors.files other hother, Option.map_eq_none_iff] at htemp
    rcases lt_or_ge other path with hlt | hle
    · rw [applied_before hall hsplit hlt] at htemp
      exact ⟨htemp, hlt⟩
    · rw [applied_after hsplit hle] at htemp
      rw [htemp] at hothers
      cases hothers
  · rintro ⟨hdir, hnotTemp, hothers⟩
    have hfree : ∀ place, ¬ (now.files.lookup place).isSome → now.files.lookup place = none :=
      fun place => Option.not_isSome_iff_eq_none.mp
    refine ⟨?_, hfree _ ?_, ?_, ?_, hnotTemp⟩
    · intro parent hparent
      refine hfree _ fun hfile => ?_
      obtain ⟨name, hname, rfl, hcases⟩ := h.file_cases hall hsplit hfile
      obtain ⟨hbelow, hne⟩ := prefix_of_above hparent
      have hlt := hname.lt_of_prefix hregular hbelow hne
      rcases hcases with ⟨-, hsome⟩ | ⟨hle, -⟩
      · exact hne (hcurrent.flat name path hsome hmem hbelow)
      · exact absurd hlt (not_lt.mpr hle)
    · intro hfile
      obtain ⟨name, hname, hnamePlace, hcases⟩ := h.file_cases hall hsplit hfile
      rcases hcases with ⟨hlt, hsome⟩ | ⟨hle, hsome⟩
      · by_cases hbefore : (old.lookup name).isSome
        · rw [(hothers name hname hbefore hnamePlace.symm).1] at hsome
          cases hsome
        · -- created by an earlier event, which has also made the temporary directory
          have hdiffer : old.lookup name ≠ current.lookup name := fun hsame => hbefore (hsame ▸ hsome)
          obtain ⟨event, hevent, rfl⟩ := done_of_lt hall hsplit hdiffer hlt
          have hresult := change_result hall (mem_of_done hsplit hevent)
          rw [← hresult] at hsome
          cases event with
          | delete => cases hsome
          | put createdPath createdOperation createdState =>
              rw [now.apart _ (h.temp _ _ _ hevent)] at hfile
              cases hfile
      · exact absurd (hothers name hname hsome hnamePlace.symm).2 (not_lt.mpr hle)
    · exact fun hnil => hregular.ne_nil (List.append_eq_nil_iff.mp hnil).2
    · intro hdirNow
      rcases h.dirs_new _ hdirNow with hinitial | htemp | ⟨other, otherOperation, otherState, hdone, habove⟩
      · exact hdir hinitial
      · exact hnotTemp htemp
      · obtain ⟨hbelow, hne⟩ := prefix_of_above habove
        have hother : (current.lookup other).isSome := by
          rw [lookup_of_put hall (mem_of_done hsplit hdone)]
          rfl
        exact hne (hcurrent.flat path other hmem hother hbelow)

/-- A file that is written is where the next change expects it. -/
theorem Halfway.put {operation : FileOperation} {state : FileState}
    (hchange : change = .put path operation state) {next : Directory}
    (hnext : applyChange pre now change = .ok next) : Halfway pre d old (done ++ [change]) next := by
  subst hchange
  have hstate : current.lookup path = some state :=
    lookup_of_put hall (mem_of_turn hsplit)
  have hregular := hcurrent.regular path (by rw [hstate]; rfl)
  obtain ⟨rel, hrel, hplace⟩ := hregular.objectName hpre
  obtain ⟨hfiles, hdirs⟩ := put_eq_ok hrel hnext
  rw [hplace] at hfiles hdirs
  have happlied : applied (Files.map old) (done ++ [.put path operation state])
      = Function.update (applied (Files.map old) done) path (some state) := by
    rw [applied, List.foldl_append]
    rfl
  refine ⟨⟨?_, ?_⟩, ?_, ?_, ?_⟩
  · intro name hname
    rw [hfiles, happlied]
    by_cases hsame : name = path
    · rw [hsame, if_pos rfl, Function.update_self]
      rfl
    · rw [if_neg fun hplaces => hsame (placeOf_injective hname hregular hplaces),
        Function.update_of_ne hsame, h.mirrors.files name hname]
  · intro place hfile
    rw [hfiles] at hfile
    split_ifs at hfile with hsame
    · exact ⟨path, hregular, hsame⟩
    · exact h.mirrors.only place hfile
  · exact fun dir hdir => (hdirs dir).mpr (Or.inr (Or.inr (h.dirs_kept dir hdir)))
  · intro dir hdir
    rcases (hdirs dir).mp hdir with habove | htemp | hdir
    · exact Or.inr (Or.inr ⟨path, operation, state, by simp, habove⟩)
    · exact Or.inr (Or.inl htemp)
    · rcases h.dirs_new dir hdir with hinitial | htemp | ⟨other, otherOperation, otherState, hdone, habove⟩
      · exact Or.inl hinitial
      · exact Or.inr (Or.inl htemp)
      · exact Or.inr (Or.inr ⟨other, otherOperation, otherState, List.mem_append_left _ hdone, habove⟩)
  · exact fun _ _ _ _ => (hdirs _).mpr (Or.inr (Or.inl rfl))

omit hcurrent in
include hold in
/-- A delete always succeeds. -/
theorem Halfway.delete (hchange : change = .delete path) :
    ∃ next, applyChange pre now change = .ok next ∧ Halfway pre d old (done ++ [change]) next := by
  subst hchange
  have hgone : current.lookup path = none :=
    lookup_of_delete hall (mem_of_turn hsplit)
  have hdiffer : old.lookup path ≠ current.lookup path :=
    ((mem_changes hall).mp (mem_of_turn hsplit)).1
  have hafter : applied (Files.map old) done path = old.lookup path := applied_after hsplit le_rfl
  have hmem : (old.lookup path).isSome := by
    rw [Option.isSome_iff_ne_none]
    exact fun hnone => hdiffer (hnone.trans hgone.symm)
  have hregular := hold.regular path hmem
  obtain ⟨rel, hrel, hplace⟩ := hregular.objectName hpre
  have hfile : (now.files.lookup (names rel)).isSome := by
    rw [hplace, h.mirrors.files path hregular, hafter, Option.isSome_map]
    exact hmem
  obtain ⟨next, hnext, hdirs, hfiles⟩ := delete_file hrel hfile
  rw [hplace] at hfiles
  have happlied : applied (Files.map old) (done ++ [.delete path])
      = Function.update (applied (Files.map old) done) path none := by
    rw [applied, List.foldl_append]
    rfl
  have hputs : ∀ otherPath operation state, Change.put otherPath operation state ∈ done ++ [.delete path] →
      Change.put otherPath operation state ∈ done := by
    intro otherPath operation state hput
    rcases List.mem_append.mp hput with hput | hput
    · exact hput
    · exact absurd (List.mem_singleton.mp hput) (by simp)
  refine ⟨next, hnext, ⟨?_, ?_⟩, ?_, ?_, ?_⟩
  · intro name hname
    rw [hfiles, happlied]
    by_cases hsame : name = path
    · rw [hsame, if_pos rfl, Function.update_self]
      rfl
    · rw [if_neg fun hplaces => hsame (placeOf_injective hname hregular hplaces),
        Function.update_of_ne hsame, h.mirrors.files name hname]
  · intro place hplaceFile
    rw [hfiles] at hplaceFile
    split_ifs at hplaceFile
    · cases hplaceFile
    · exact h.mirrors.only place hplaceFile
  · exact fun dir hdir => hdirs ▸ h.dirs_kept dir hdir
  · intro dir hdir
    rcases h.dirs_new dir (hdirs ▸ hdir) with hinitial | htemp | ⟨other, operation, state, hdone, habove⟩
    · exact Or.inl hinitial
    · exact Or.inr (Or.inl htemp)
    · exact Or.inr (Or.inr ⟨other, operation, state, List.mem_append_left _ hdone, habove⟩)
  · intro otherPath operation state hput
    rw [hdirs]
    exact h.temp otherPath operation state (hputs otherPath operation state hput)

end Steps

/-- The rest of the changes, from wherever the scan is. -/
theorem Halfway.foldlM_isOk_iff
    (hall : ∀ operation ∈ [FileOperation.create, .update, .delete], cfg.allows operation)
    (hpre : SlashPath.isRooted pre = false) (hold : Tree old) (hcurrent : Tree current)
    (hsplit : changes cfg old current = done ++ rest) (h : Halfway pre d old done now) :
    (∃ final, rest.foldlM (applyChange pre) now = .ok final)
        ↔ ∀ path operation state, .put path operation state ∈ rest → Placeable pre d old current path := by
  induction rest generalizing done now with
  | nil => exact iff_of_true ⟨now, rfl⟩ fun _ _ _ hmem => absurd hmem List.not_mem_nil
  | cons change rest ih =>
      have hnextSplit : changes cfg old current = (done ++ [change]) ++ rest := by
        rw [hsplit, List.append_assoc, List.singleton_append]
      cases hchange : change with
      | delete path =>
          obtain ⟨next, hnext, hhalfway⟩ := h.delete hall hpre hold hsplit hchange
          rw [← hchange]
          have hrest := ih hnextSplit hhalfway
          have hloop : ∀ final, (change :: rest).foldlM (applyChange pre) now = .ok final
              ↔ rest.foldlM (applyChange pre) next = .ok final := by
            intro final
            rw [Except.foldlM_cons_eq_ok, hnext]
            simp
          rw [exists_congr hloop, hrest]
          simp only [List.mem_cons, hchange, reduceCtorEq, false_or]
      | put path operation state =>
          have hmem : (current.lookup path).isSome := by
            rw [lookup_of_put hall (hchange ▸ mem_of_turn hsplit)]
            rfl
          have hturn := h.put_isOk_iff hall hpre hcurrent hsplit hchange hmem
          rw [← hchange]
          constructor
          · rintro ⟨final, hfinal⟩
            obtain ⟨next, hnext, hfinal⟩ := Except.foldlM_cons_eq_ok.mp hfinal
            have hhalfway := h.put hall hpre hcurrent hsplit hchange hnext
            have hrest := (ih hnextSplit hhalfway).mp ⟨final, hfinal⟩
            intro otherPath otherOperation otherState hother
            rcases List.mem_cons.mp hother with hother | hother
            · cases hother.trans hchange
              exact hturn.mp ⟨next, hnext⟩
            · exact hrest otherPath otherOperation otherState hother
          · intro hplaceable
            obtain ⟨next, hnext⟩ := hturn.mpr (hplaceable path operation state (hchange ▸ List.mem_cons_self))
            have hhalfway := h.put hall hpre hcurrent hsplit hchange hnext
            obtain ⟨final, hfinal⟩ := (ih hnextSplit hhalfway).mpr fun otherPath otherOperation otherState
              hother => hplaceable otherPath otherOperation otherState (List.mem_cons_of_mem _ hother)
            exact ⟨final, Except.foldlM_cons_eq_ok.mpr ⟨next, hnext, hfinal⟩⟩

/-- Changes that succeed lead to the files of the scan. -/
theorem Halfway.foldlM
    (hall : ∀ operation ∈ [FileOperation.create, .update, .delete], cfg.allows operation)
    (hpre : SlashPath.isRooted pre = false) (hold : Tree old) (hcurrent : Tree current)
    (hsplit : changes cfg old current = done ++ rest) (h : Halfway pre d old done now)
    {final : Directory} (hfinal : rest.foldlM (applyChange pre) now = .ok final) :
    Halfway pre d old (done ++ rest) final := by
  induction rest generalizing done now with
  | nil =>
      cases hfinal
      rwa [List.append_nil]
  | cons change rest ih =>
      have hnextSplit : changes cfg old current = (done ++ [change]) ++ rest := by
        rw [hsplit, List.append_assoc, List.singleton_append]
      obtain ⟨next, hnext, hfinal⟩ := Except.foldlM_cons_eq_ok.mp hfinal
      have hhalfway : Halfway pre d old (done ++ [change]) next := by
        cases hchange : change with
        | delete path =>
            obtain ⟨other, hother, hhalfway⟩ := h.delete hall hpre hold hsplit hchange
            cases hother.symm.trans hnext
            exact hchange ▸ hhalfway
        | put path operation state => exact hchange ▸ h.put hall hpre hcurrent hsplit hchange hnext
      have hlast := ih hnextSplit hhalfway hfinal
      rwa [List.append_assoc, List.singleton_append] at hlast

end Halfway

/-- Applied in order to a directory with the files of the old scan, the events all succeed and leave exactly
the files of the new one if and only if every file that is created or changed has its place. -/
theorem mirror_succeeds_iff {pre : List Char} {d : Directory} {old current : Files String} {cfg : Settings}
    (hall : ∀ operation ∈ [FileOperation.create, .update, .delete], cfg.allows operation)
    (hpre : SlashPath.isRooted pre = false) (hold : Tree old) (hcurrent : Tree current)
    (hmirrors : Mirrors pre d (Files.map old)) :
    (∃ final, (changes cfg old current).foldlM (applyChange pre) d = .ok final
        ∧ Mirrors pre final (Files.map current))
      ↔ ∀ name, (current.lookup name).isSome → old.lookup name ≠ current.lookup name →
        Placeable pre d old current name := by
  have hsplit : changes cfg old current = [] ++ changes cfg old current := rfl
  have hstart := Halfway.start hmirrors
  have hloop := hstart.foldlM_isOk_iff hall hpre hold hcurrent hsplit
  constructor
  · rintro ⟨final, hfinal, -⟩ name hname hdiffer
    obtain ⟨change, hchange, rfl⟩ := exists_change hall hdiffer
    have hresult := change_result hall hchange
    cases change with
    | delete path =>
        rw [← hresult] at hname
        cases hname
    | put path operation state => exact hloop.mp ⟨final, hfinal⟩ path operation state hchange
  · intro hplaceable
    obtain ⟨final, hfinal⟩ := hloop.mpr (by
      intro path operation state hput
      have hsome : (current.lookup path).isSome := by
        rw [lookup_of_put hall hput]
        rfl
      exact hplaceable path hsome ((mem_changes hall).mp hput).1)
    refine ⟨final, hfinal, ?_⟩
    have hlast := (hstart.foldlM hall hpre hold hcurrent hsplit hfinal).mirrors
    have happlied : applied (Files.map old) ([] ++ changes cfg old current) = Files.map current := by
      funext name
      rw [List.nil_append, applied_changes hall]
      by_cases hdiffer : old.lookup name = current.lookup name
      · rw [if_neg (not_not.mpr hdiffer)]
        exact hdiffer
      · rw [if_pos hdiffer]
        rfl
    rwa [happlied] at hlast

section Nested

def note : FileState := ⟨1, 0, 0o644, "ca978112ca1b"⟩

def nested : Directory where
  files := [([['a'], ['b']], note.stored)]
  dirs := [[['a']]]
  apart := by decide
  files_inside := by
    intro path hpath
    obtain ⟨entry, hentry, rfl⟩ := List.mem_map.mp (Assoc.lookup_isSome_iff.mp hpath)
    rw [List.mem_singleton.mp hentry]
    decide
  dirs_inside := by decide

theorem regular_nested : Regular "a/b" := by decide

theorem tree_of_one (h : Regular name) (state : FileState) : Tree [(name, state)] where
  regular := by
    intro other hother
    rw [Assoc.lookup_isSome_iff] at hother
    rw [List.mem_singleton.mp hother]
    exact h
  flat := by
    intro a b ha hb _
    rw [Assoc.lookup_isSome_iff] at ha hb
    rw [List.mem_singleton.mp ha, List.mem_singleton.mp hb]

theorem mirrors_nested : Mirrors [] nested (Files.map [("a/b", note)]) where
  files := by
    intro name hname
    by_cases hsame : name = "a/b"
    · rw [hsame]
      decide
    · have hplace : placeOf [] name ≠ placeOf [] "a/b" := fun h =>
        hsame (placeOf_injective hname regular_nested h)
      change placeOf [] name ≠ [['a'], ['b']] at hplace
      simp [nested, Files.map, List.lookup_cons, beq_false_of_ne hplace, beq_false_of_ne hsame]
  only := by
    intro path hpath
    obtain ⟨entry, hentry, rfl⟩ := List.mem_map.mp (Assoc.lookup_isSome_iff.mp hpath)
    rw [List.mem_singleton.mp hentry]
    exact ⟨"a/b", regular_nested, rfl⟩

end Nested

/-- The file `a/c` replaces `a/b`. -/
theorem mirror_succeeds_replaced_file :
    ∃ final, (changes {} [("a/b", note)] [("a/c", note)]).foldlM (applyChange []) nested = .ok final
      ∧ Mirrors [] final (Files.map [("a/c", note)]) := by
  refine (mirror_succeeds_iff (by decide) rfl (tree_of_one regular_nested note)
    (tree_of_one (by decide) note) mirrors_nested).mpr ?_
  intro name hname _
  rw [Assoc.lookup_isSome_iff] at hname
  rw [List.mem_singleton.mp hname]
  refine ⟨by decide, by decide, ?_⟩
  intro other _ hother htemp
  rw [Assoc.lookup_isSome_iff] at hother
  rw [List.mem_singleton.mp hother] at htemp
  exact absurd htemp (by decide)

/-- The directory `a` becomes a file: its event comes first and fails, because the directory is still there,
and the deletion of what is left in it never has its turn. -/
theorem mirror_stuck_behind_directory :
    (∀ operation ∈ [FileOperation.create, .update, .delete], Settings.allows {} operation)
      ∧ Tree [("a/b", note)] ∧ Tree [("a", note)] ∧ Mirrors [] nested (Files.map [("a/b", note)])
      ∧ changes {} [("a/b", note)] [("a", note)] = [.put "a" .create note, .delete "a/b"]
      ∧ (changes {} [("a/b", note)] [("a", note)]).foldlM (applyChange []) nested
        = .error (.isDirectory [['a']]) := by
  refine ⟨by decide, tree_of_one regular_nested note, tree_of_one (by decide) note, mirrors_nested,
    by decide, ?_⟩
  rfl

end GoSync.FileWatch
