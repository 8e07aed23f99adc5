import GoSync.ServerConfig.Config
import Mathlib.Data.List.Nodup

/-!
# Accepted configurations

What the syncers of an accepted configuration satisfy, each for itself and against one another.
-/

namespace GoSync.ServerConfig

variable {host : Host}

structure FileStorage.Valid (host : Host) (f : FileStorage) : Prop where
  nul_free : '\x00' ∉ f.pathPrefix.toList ∧ '\x00' ∉ f.directory.toList
    ∧ '\x00' ∉ f.endpoint.toList ∧ '\x00' ∉ f.bucket.toList
  prefix_relative : SlashPath.isRooted f.pathPrefix.toList = false
  prefix_stays : ¬ ['.', '.'] <:+: f.pathPrefix.toList
  directory_rooted : f.backend = "directory" → SlashPath.isRooted f.directory.toList = true
  backend : f.backend = "directory" ∨ f.backend = "s3" ∨ f.backend = "oss"

theorem FileStorage.checkPaths_iff {f : FileStorage} :
    f.checkPaths = true ↔ ('\x00' ∉ f.pathPrefix.toList ∧ '\x00' ∉ f.directory.toList
      ∧ '\x00' ∉ f.endpoint.toList ∧ '\x00' ∉ f.bucket.toList)
      ∧ SlashPath.isRooted f.pathPrefix.toList = false ∧ ¬ ['.', '.'] <:+: f.pathPrefix.toList := by
  simp [checkPaths, containsNul, and_assoc, not_or]

/-- A store that is accepted and used is valid. -/
theorem FileStorage.valid_of_validate {f checked : FileStorage} {id : String}
    (h : f.validate host id = .ok checked) (hused : checked.backend ≠ "") :
    checked.Valid host := by
  unfold FileStorage.validate at h
  by_cases hempty : f.backend = ""
  · rw [if_pos hempty] at h
    cases h
    exact absurd hempty hused
  rw [if_neg hempty] at h
  obtain ⟨_, _, h⟩ := Except.bind_eq_ok.mp h
  obtain ⟨_, _, h⟩ := Except.bind_eq_ok.mp h
  obtain ⟨_, hpaths, h⟩ := Except.bind_eq_ok.mp h
  obtain ⟨_, hbackend, h⟩ := Except.bind_eq_ok.mp h
  cases h
  generalize f.normalize host = f at hpaths hbackend
  obtain ⟨hnul, hrelative, hstays⟩ := FileStorage.checkPaths_iff.mp (require_eq_ok.mp hpaths)
  unfold FileStorage.checkBackend at hbackend
  by_cases hdirectory : f.backend = "directory"
  · rw [if_pos hdirectory, require_eq_ok] at hbackend
    exact ⟨hnul, hrelative, hstays, fun _ => hbackend, Or.inl hdirectory⟩
  rw [if_neg hdirectory] at hbackend
  by_cases hobject : f.backend = "s3" ∨ f.backend = "oss"
  · exact ⟨hnul, hrelative, hstays, fun h => absurd h hdirectory, Or.inr hobject⟩
  · rw [if_neg hobject] at hbackend
    cases hbackend

def Syncer.targetKeys (s : Syncer) : List (String × String) :=
  s.tables.map fun table => (targetKey s.postgres table.name, s.id)

theorem Syncer.foldlM_checkTable {s : Syncer} {names : List String}
    {targets : List (String × String)} {last : List String × List (String × String)}
    {tables : List TableRef} (h : tables.foldlM s.checkTable (names, targets) = .ok last)
    (hnames : names.Nodup) (hkeys : (targets.map Prod.fst).Nodup) :
    last.1 = names ++ tables.map TableRef.name
      ∧ last.2 = targets ++ tables.map (fun table => (targetKey s.postgres table.name, s.id))
      ∧ last.1.Nodup ∧ (last.2.map Prod.fst).Nodup := by
  induction tables generalizing names targets with
  | nil =>
      cases h
      exact ⟨by simp, by simp, hnames, hkeys⟩
  | cons table tables ih =>
      obtain ⟨next, hnext, h⟩ := Except.foldlM_cons_eq_ok.mp h
      obtain ⟨_, -, hnext⟩ := Except.bind_eq_ok.mp hnext
      obtain ⟨_, hfresh, hnext⟩ := Except.bind_eq_ok.mp hnext
      have hfresh : table.name ∉ names := by simpa using require_eq_ok.mp hfresh
      cases hlookup : targets.lookup (targetKey s.postgres table.name) with
      | some other => simp [hlookup] at hnext
      | none =>
          simp only [hlookup] at hnext
          cases hnext
          have hnew : targetKey s.postgres table.name ∉ targets.map Prod.fst := by
            intro hmem
            obtain ⟨entry, hentry, hkey⟩ := List.mem_map.mp hmem
            have hne := List.lookup_eq_none_iff.mp hlookup entry hentry
            simp [hkey] at hne
          have hnames : (names ++ [table.name]).Nodup := by
            simpa using hnames.concat hfresh
          have hkeys : ((targets ++ [(targetKey s.postgres table.name, s.id)]).map Prod.fst).Nodup := by
            simpa using hkeys.concat hnew
          obtain ⟨hlast, htargets, hnodup, hlastKeys⟩ := ih h hnames hkeys
          exact ⟨by simpa using hlast, by simpa using htargets, hnodup, hlastKeys⟩

structure Checked (host : Host) (seen : Seen) (done : List Syncer) : Prop where
  ids : seen.ids = done.map Syncer.id
  ids_nodup : seen.ids.Nodup
  id_ne_empty : ∀ s ∈ done, s.id ≠ ""
  targets : seen.targets = done.flatMap Syncer.targetKeys
  targets_nodup : (seen.targets.map Prod.fst).Nodup
  files : seen.files = (done.filter fun s => s.fileStorage.backend ≠ "").map fun s =>
    (fileStorageKey host s.fileStorage, s.id)
  files_apart : seen.files.Pairwise fun a b => storageKeysOverlap a.1 b.1 = false
  storage : ∀ s ∈ done, s.fileStorage.backend ≠ "" → s.fileStorage.Valid host
  tables_nodup : ∀ s ∈ done, (s.tables.map TableRef.name).Nodup

theorem Checked.start (host : Host) : Checked host {} [] where
  ids := rfl
  ids_nodup := List.nodup_nil
  id_ne_empty := fun _ h => absurd h List.not_mem_nil
  targets := rfl
  targets_nodup := List.nodup_nil
  files := rfl
  files_apart := List.Pairwise.nil
  storage := fun _ h => absurd h List.not_mem_nil
  tables_nodup := fun _ h => absurd h List.not_mem_nil

theorem Syncer.checkStorage_eq_ok {s : Syncer} {files last : List (List Char × String)}
    (h : s.checkStorage host files = .ok last)
    (hfiles : files.Pairwise fun a b => storageKeysOverlap a.1 b.1 = false) :
    last = files ++ ([s].filter fun s => s.fileStorage.backend ≠ "").map (fun s =>
        (fileStorageKey host s.fileStorage, s.id))
      ∧ last.Pairwise fun a b => storageKeysOverlap a.1 b.1 = false := by
  unfold Syncer.checkStorage at h
  by_cases hempty : s.fileStorage.backend = ""
  · rw [if_pos hempty] at h
    cases h
    exact ⟨by simp [hempty], hfiles⟩
  rw [if_neg hempty] at h
  cases hfind : files.find? fun existing =>
      storageKeysOverlap existing.1 (fileStorageKey host s.fileStorage) with
  | some existing => simp [hfind] at h
  | none =>
      simp only [hfind] at h
      cases h
      refine ⟨by simp [hempty], List.pairwise_append.mpr ⟨hfiles, List.pairwise_singleton _ _, ?_⟩⟩
      intro a ha b hb
      rw [List.mem_singleton.mp hb]
      simpa using List.find?_eq_none.mp hfind a ha

/-- What an accepted syncer adds to what has been seen. -/
theorem Checked.step {state next : Seen × List Syncer} {s : Syncer}
    (hstate : Checked host state.1 state.2) (h : checkSyncer host state s = .ok next) :
    Checked host next.1 next.2 := by
  unfold checkSyncer at h
  obtain ⟨_, hsyncer, h⟩ := Except.bind_eq_ok.mp h
  obtain ⟨_, hfresh, h⟩ := Except.bind_eq_ok.mp h
  obtain ⟨_, -, h⟩ := Except.bind_eq_ok.mp h
  obtain ⟨_, -, h⟩ := Except.bind_eq_ok.mp h
  obtain ⟨storage, hstorage, h⟩ := Except.bind_eq_ok.mp h
  obtain ⟨files, hfiles, h⟩ := Except.bind_eq_ok.mp h
  obtain ⟨tables, htables, h⟩ := Except.bind_eq_ok.mp h
  obtain ⟨_, -, h⟩ := Except.bind_eq_ok.mp h
  cases h
  have hid : s.id ≠ "" := by
    intro hempty
    have hvalid := require_eq_ok.mp hsyncer
    simp [hempty, syncerID] at hvalid
  have hfresh : s.id ∉ state.1.ids := by simpa using require_eq_ok.mp hfresh
  have hvalid : storage.backend ≠ "" → storage.Valid host := FileStorage.valid_of_validate hstorage
  clear hsyncer hstorage
  generalize hnormal : ({ s with postgres := s.postgres.normalize, fileStorage := storage } : Syncer)
    = checked at hfiles htables ⊢
  have hidChecked : checked.id = s.id := by rw [← hnormal]
  have hstorageChecked : checked.fileStorage = storage := by rw [← hnormal]
  have htablesChecked : checked.tables = s.tables := by rw [← hnormal]
  obtain ⟨hfiles, hapart⟩ := Syncer.checkStorage_eq_ok hfiles hstate.files_apart
  obtain ⟨hnames, htargets, hnamesNodup, htargetsNodup⟩ :=
    Syncer.foldlM_checkTable htables List.nodup_nil hstate.targets_nodup
  exact {
    ids := by rw [hstate.ids, List.map_append, List.map_singleton]
    ids_nodup := by
      rw [hidChecked]
      simpa using hstate.ids_nodup.concat hfresh
    id_ne_empty := by
      intro other hother
      rcases List.mem_append.mp hother with hother | hother
      · exact hstate.id_ne_empty other hother
      · rw [List.mem_singleton.mp hother, hidChecked]
        exact hid
    targets := by
      rw [htargets, hstate.targets, List.flatMap_append, List.flatMap_singleton]
      rfl
    targets_nodup := htargetsNodup
    files := by rw [hfiles, hstate.files, List.filter_append, List.map_append]
    files_apart := hapart
    storage := by
      intro other hother
      rcases List.mem_append.mp hother with hother | hother
      · exact hstate.storage other hother
      · rw [List.mem_singleton.mp hother, hstorageChecked]
        exact hvalid
    tables_nodup := by
      intro other hother
      rcases List.mem_append.mp hother with hother | hother
      · exact hstate.tables_nodup other hother
      · rw [List.mem_singleton.mp hother, ← List.nil_append (checked.tables.map _), ← hnames]
        exact hnamesNodup }

theorem Config.checked_of_validate {c accepted : Config} (h : c.validate host = .ok accepted) :
    ∃ seen, Checked host seen accepted.syncers := by
  unfold Config.validate at h
  obtain ⟨_, -, h⟩ := Except.bind_eq_ok.mp h
  obtain ⟨_, -, h⟩ := Except.bind_eq_ok.mp h
  obtain ⟨_, -, h⟩ := Except.bind_eq_ok.mp h
  obtain ⟨_, -, h⟩ := Except.bind_eq_ok.mp h
  obtain ⟨_, -, h⟩ := Except.bind_eq_ok.mp h
  obtain ⟨_, -, h⟩ := Except.bind_eq_ok.mp h
  obtain ⟨⟨seen, syncers⟩, hloop, h⟩ := Except.bind_eq_ok.mp h
  cases h
  exact ⟨seen, Except.foldlM_invariant (fun state => Checked host state.1 state.2)
    (fun s _ _ _ hstate hnext => hstate.step hnext) (Checked.start host) hloop⟩

theorem lowerChar_ne_nul {c : Char} (h : c ≠ '\x00') : lowerChar c ≠ '\x00' := by
  unfold lowerChar
  split_ifs
  · decide
  · decide
  · intro hlower
    unfold Char.toLower at hlower
    split_ifs at hlower with hupper
    · have hval := congrArg (fun c => c.val.toNat) hlower
      simp only [UInt32.toNat_add] at hval
      have hleast : 65 ≤ c.val.toNat := UInt32.le_iff_toNat_le.mp hupper.1
      have hmost : c.val.toNat ≤ 90 := UInt32.le_iff_toNat_le.mp hupper.2
      have hshift : ('a'.val - 'A'.val).toNat = 32 := rfl
      have hnul : '\x00'.val.toNat = 0 := rfl
      omega
    · exact h hlower

def permissive : Host where
  splitHostPort _ := true
  loadX509KeyPair _ _ := none
  parseUrl _ := some ⟨"https", "storage", false⟩
  parseDuration _ := some (3600 * 10 ^ 9)
  parseClock _ := true
  loadLocation _ := true
  toLower text := String.ofList (lower text)
  toLower_nul := by
    intro text h hnul
    rw [String.toList_ofList, lower, List.mem_map] at hnul
    obtain ⟨c, hc, hlower⟩ := hnul
    exact lowerChar_ne_nul (fun hc' => h (hc' ▸ hc)) hlower

end GoSync.ServerConfig
