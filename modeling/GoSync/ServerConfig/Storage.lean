import GoSync.FileStore.Names
import GoSync.ServerConfig.Accepted
import Mathlib.Data.List.Pairwise

/-!
# File storages of different syncers

Where a storage writes a file, and which accepted storages can write the same object. The check of overlap
compares cleaned prefixes as texts: an empty prefix contains every object of its bucket, but no text
continues it after a slash.
-/

namespace GoSync.ServerConfig

open SlashPath FileStore

variable {host : Host} {f g : FileStorage} {name : String}

def FileStorage.written (f : FileStorage) (name : String) : Except NameError (List Char) :=
  if f.backend = "directory" then do
    let rel ← objectName (trim f.pathPrefix.toList) name
    pure (join [f.directory.toList, rel])
  else
    objectName f.pathPrefix.toList name

def FileStorage.Adjacent (f g : FileStorage) : Prop :=
  (f.backend = "directory" ∧ g.backend = "directory")
    ∨ (f.backend ≠ "directory" ∧ g.backend ≠ "directory" ∧ f.endpoint = g.endpoint ∧ f.bucket = g.bucket)

def FileStorage.home (f : FileStorage) : List Name :=
  if f.backend = "directory" then names (join [f.directory.toList, f.pathPrefix.toList])
  else names f.pathPrefix.toList

theorem FileStorage.Valid.no_dotdot (h : f.Valid host) : dotdot ∉ elements f.pathPrefix.toList :=
  dotdot_notMem_elements h.prefix_stays

/-- A store writes below its prefix only. -/
theorem FileStorage.Valid.written_below (h : f.Valid host) {path : List Char}
    (hwritten : f.written name = .ok path) : f.home <+: names path := by
  unfold FileStorage.written at hwritten
  unfold FileStorage.home
  by_cases hdirectory : f.backend = "directory"
  · rw [if_pos hdirectory] at hwritten ⊢
    obtain ⟨rel, hrel, hwritten⟩ := Except.bind_eq_ok.mp hwritten
    cases hwritten
    obtain ⟨hlocal, -, rfl⟩ := objectName_eq_ok hrel
    obtain ⟨-, hrelative, hdepth⟩ := isLocal_iff.mp hlocal
    have hrooted := h.directory_rooted hdirectory
    have hnil : ∀ n ∈ ([] : List Name), Plain n := fun _ hmem => absurd hmem List.not_mem_nil
    obtain ⟨reached, hreached, -⟩ := walk_local (r := true)
      (s := walk true [] (elements f.directory.toList ++ elements f.pathPrefix.toList))
      elements_slash_free hnil hdepth
    rw [List.nil_append] at hreached
    refine ⟨reached.reverse, ?_⟩
    rw [names_join_rooted hrooted, names_join_rooted hrooted, ← List.reverse_append, ← hreached,
      walk_append, walk_append, walk_elements_join_relative isRooted_trim hrelative, walk_append,
      walk_elements_trim, walk_elements_trim]
  · rw [if_neg hdirectory] at hwritten ⊢
    obtain ⟨-, reached, hreached, -⟩ := objectName_names h.prefix_relative hwritten
    exact ⟨reached, hreached.symm⟩

section Keys

theorem apart_of_not_prefix {as bs xs ys : List Name} (hab : ¬ as <+: bs) (hba : ¬ bs <+: as)
    (hx : as <+: xs) (hy : bs <+: ys) : xs ≠ ys := by
  rintro rfl
  rcases List.prefix_or_prefix_of_prefix hx hy with h | h
  · exact hab h
  · exact hba h

theorem clean_nul_free {p : List Char} (h : '\x00' ∉ p) : '\x00' ∉ clean p := by
  intro hmem
  rcases mem_clean hmem with hmem | hslash | hdot
  · exact h hmem
  · exact absurd hslash (by decide)
  · exact absurd hdot (by decide)

theorem fileStorageKey_directory (h : f.Valid host) (hdirectory : f.backend = "directory") :
    (fileStorageKey host f).splitOn '\x00'
      = ["directory".toList, clean (join [f.directory.toList, f.pathPrefix.toList])] := by
  have hjoin := join_of_ne_nil (q := f.pathPrefix.toList) (ne_nil_of_rooted (h.directory_rooted hdirectory))
  have hnul : '\x00' ∉ f.directory.toList ++ '/' :: f.pathPrefix.toList := by
    simp [h.nul_free.1, h.nul_free.2.1]
  have htext : "directory\x00".toList = "directory".toList ++ ['\x00'] := by decide
  rw [fileStorageKey, if_pos hdirectory, htext, List.append_assoc, List.singleton_append,
    List.splitOn_append_cons_self_of_not_mem (by decide), hjoin,
    List.splitOn_eq_singleton (clean_nul_free (clean_nul_free hnul))]

theorem fileStorageKey_object (h : f.Valid host) (hobject : f.backend ≠ "directory") :
    (fileStorageKey host f).splitOn '\x00'
      = ["object".toList, (host.toLower f.endpoint).toList, f.bucket.toList,
        clean ('/' :: f.pathPrefix.toList)] := by
  obtain ⟨hbelow, -, hendpoint, hbucket⟩ := h.nul_free
  have hnul : '\x00' ∉ '/' :: f.pathPrefix.toList := by simp [hbelow]
  have htext : "object\x00".toList = "object".toList ++ ['\x00'] := by decide
  have hkey : fileStorageKey host f = "object".toList ++ '\x00' :: ((host.toLower f.endpoint).toList
      ++ '\x00' :: (f.bucket.toList ++ '\x00' :: clean ('/' :: f.pathPrefix.toList))) := by
    rw [fileStorageKey, if_neg hobject, htext]
    simp only [List.append_assoc, List.cons_append, List.nil_append]
  rw [hkey, List.splitOn_append_cons_self_of_not_mem (by decide),
    List.splitOn_append_cons_self_of_not_mem (host.toLower_nul _ hendpoint),
    List.splitOn_append_cons_self_of_not_mem hbucket, List.splitOn_eq_singleton (clean_nul_free hnul)]

theorem contains_iff {parent child : List Char} (hp : isRooted parent = true) (hc : isRooted child = true) :
    contains parent child = true ↔ names parent <+: names child := by
  rw [← rel_inside hp hc]
  unfold contains
  cases hrel : rel parent child with
  | none => simp
  | some way => simp

theorem trim_clean_prefix (h : f.Valid host) :
    trim (clean ('/' :: f.pathPrefix.toList)) = ['/'].intercalate (names f.pathPrefix.toList) := by
  have hnames : names ('/' :: f.pathPrefix.toList) = names f.pathPrefix.toList := by
    have hslash : elements ('/' :: f.pathPrefix.toList) = [] :: elements f.pathPrefix.toList :=
      elements_append_slash (p := [])
    have hrooted : isRooted ('/' :: f.pathPrefix.toList) = true := rfl
    rw [names, names, hrooted, hslash, walk_cons, enter_skip (Or.inl rfl), walk_of_no_dotdot h.no_dotdot,
      walk_of_no_dotdot h.no_dotdot]
  rw [← hnames]
  exact trim_render_rooted fun name hname => ⟨names_slash_free name hname, names_ne_nil name hname⟩

theorem storageKeysOverlap_parts (rest : List (List Char)) {a b kind x y : List Char}
    (ha : a.splitOn '\x00' = kind :: (rest ++ [x])) (hb : b.splitOn '\x00' = kind :: (rest ++ [y])) :
    storageKeysOverlap a b = if kind = "directory".toList then filePathsOverlap x y
      else prefixesOverlap (trim x) (trim y) := by
  have hparts : ∀ z : List Char, kind :: (rest ++ [z]) = (kind :: rest) ++ [z] := fun _ => rfl
  simp only [storageKeysOverlap, ha, hb, hparts, List.length_append, List.dropLast_concat,
    List.getLastD_concat, List.head?_append, List.head?_cons, Option.some_or, Option.some.injEq,
    List.length_singleton, ne_eq, not_true_eq_false, or_self, if_false]

theorem directory_keys_overlap (hf : f.Valid host) (hg : g.Valid host)
    (hfd : f.backend = "directory") (hgd : g.backend = "directory") :
    storageKeysOverlap (fileStorageKey host f) (fileStorageKey host g) = true
      ↔ f.home <+: g.home ∨ g.home <+: f.home := by
  have hrooted : ∀ {s : FileStorage}, s.Valid host → s.backend = "directory" →
      isRooted (clean (join [s.directory.toList, s.pathPrefix.toList])) = true := by
    intro s hs hsd
    rw [isRooted_clean, isRooted_join_rooted (hs.directory_rooted hsd)]
  rw [storageKeysOverlap_parts [] (fileStorageKey_directory hf hfd)
    (fileStorageKey_directory hg hgd), if_pos rfl, filePathsOverlap, Bool.or_eq_true,
    contains_iff (hrooted hf hfd) (hrooted hg hgd), contains_iff (hrooted hg hgd) (hrooted hf hfd),
    names_clean, names_clean, FileStorage.home, FileStorage.home, if_pos hfd, if_pos hgd]

/-- The check compares prefixes name by name, but ignores an empty one. -/
theorem prefixesOverlap_iff {as bs : List Name} (ha : ∀ name ∈ as, '/' ∉ name ∧ name ≠ [])
    (hb : ∀ name ∈ bs, '/' ∉ name ∧ name ≠ []) :
    prefixesOverlap (['/'].intercalate as) (['/'].intercalate bs) = true
      ↔ as = bs ∨ (bs ≠ [] ∧ bs <+: as) ∨ (as ≠ [] ∧ as <+: bs) := by
  have hslash : ∀ {xs ys : List Name}, (∀ name ∈ xs, '/' ∉ name ∧ name ≠ []) →
      (∀ name ∈ ys, '/' ∉ name ∧ name ≠ []) →
      (['/'].intercalate xs ++ ['/'] <+: ['/'].intercalate ys ↔ xs ≠ [] ∧ xs <+: ys ∧ xs ≠ ys) := by
    intro xs ys hx hy
    by_cases hxs : xs = []
    · subst hxs
      refine iff_of_false ?_ fun h => h.1 rfl
      rintro ⟨rest, hrest⟩
      have hrooted := isRooted_intercalate (fun name hname => (hy name hname).1)
        fun name hname => (hy name hname).2
      rw [← hrest] at hrooted
      exact absurd hrooted (by simp [isRooted])
    · rw [intercalate_slash_append (fun name hname => (hx name hname).1)
        (fun name hname => (hy name hname).1) hxs]
      exact (and_iff_right hxs).symm
  have hsame : ['/'].intercalate as = ['/'].intercalate bs ↔ as = bs :=
    ⟨intercalate_injective ha hb, congrArg _⟩
  rw [prefixesOverlap, decide_eq_true_eq, hsame, hslash hb ha, hslash ha hb]
  by_cases hab : as = bs
  · simp [hab]
  · simp [hab, Ne.symm hab]

theorem object_keys_overlap (hf : f.Valid host) (hg : g.Valid host) (hfo : f.backend ≠ "directory")
    (hgo : g.backend ≠ "directory") (hendpoint : f.endpoint = g.endpoint) (hbucket : f.bucket = g.bucket) :
    storageKeysOverlap (fileStorageKey host f) (fileStorageKey host g) = true
      ↔ f.home = g.home ∨ (g.home ≠ [] ∧ g.home <+: f.home) ∨ (f.home ≠ [] ∧ f.home <+: g.home) := by
  have hnames : ∀ p : List Char, ∀ name ∈ names p, '/' ∉ name ∧ name ≠ [] :=
    fun p name hname => ⟨names_slash_free name hname, names_ne_nil name hname⟩
  have hfkey := fileStorageKey_object hf hfo
  rw [hendpoint, hbucket] at hfkey
  rw [storageKeysOverlap_parts [(host.toLower g.endpoint).toList, g.bucket.toList] hfkey
    (fileStorageKey_object hg hgo), if_neg (by decide), trim_clean_prefix hf, trim_clean_prefix hg,
    prefixesOverlap_iff (hnames _) (hnames _), FileStorage.home, FileStorage.home, if_neg hfo, if_neg hgo]

theorem homes_apart (hf : f.Valid host) (hg : g.Valid host) (hadjacent : f.Adjacent g)
    (hpass : storageKeysOverlap (fileStorageKey host f) (fileStorageKey host g) = false)
    (hwhole : f.backend = "directory" ∨ (f.home ≠ [] ∧ g.home ≠ [])) :
    ¬ f.home <+: g.home ∧ ¬ g.home <+: f.home := by
  have hpass := Bool.eq_false_iff.mp hpass
  rcases hadjacent with ⟨hfd, hgd⟩ | ⟨hfo, hgo, hendpoint, hbucket⟩
  · rw [Ne, directory_keys_overlap hf hg hfd hgd, not_or] at hpass
    exact hpass
  · obtain ⟨hfne, hgne⟩ := hwhole.resolve_left hfo
    rw [Ne, object_keys_overlap hf hg hfo hgo hendpoint hbucket, not_or, not_or] at hpass
    exact ⟨fun h => hpass.2.2 ⟨hfne, h⟩, fun h => hpass.2.1 ⟨hgne, h⟩⟩

end Keys

/-- A store without a prefix reaches the objects of the other. -/
theorem whole_bucket_meets (hf : f.Valid host) (hg : g.Valid host) (hfo : f.backend ≠ "directory")
    (hgo : g.backend ≠ "directory") (hwhole : names f.pathPrefix.toList = [])
    (hother : names g.pathPrefix.toList ≠ []) :
    ∃ n m path, f.written n = .ok path ∧ g.written m = .ok path := by
  obtain ⟨file, hdef⟩ : ∃ file, file = g.pathPrefix.toList ++ '/' :: ['f'] := ⟨_, rfl⟩
  have hne : g.pathPrefix.toList ≠ [] := by
    intro hnil
    rw [hnil] at hother
    exact hother rfl
  have hfile : elements file = elements g.pathPrefix.toList ++ [['f']] := by
    rw [hdef]
    exact elements_append_slash
  have hrelative : isRooted file = false := by
    rw [hdef, isRooted_append_of_ne_nil hne, hg.prefix_relative]
  have hfilled : file ≠ [] := by
    rw [hdef]
    simp
  have hlocal : isLocal (String.ofList file) = true := by
    rw [isLocal_iff, String.toList_ofList]
    refine ⟨?_, hrelative, localDepth_isSome ?_ 0⟩
    · intro hempty
      have htext := congrArg String.toList hempty
      rw [String.toList_ofList] at htext
      exact hfilled htext
    · rw [hfile, List.mem_append, not_or]
      exact ⟨hg.no_dotdot, by decide⟩
  have hnul : '\x00' ∉ (String.ofList file).toList := by
    rw [String.toList_ofList, hdef, List.mem_append, not_or]
    exact ⟨hg.nul_free.1, by decide⟩
  have hstart : walk false [] (elements f.pathPrefix.toList) = [] := by
    rw [names, hf.prefix_relative] at hwhole
    exact List.reverse_eq_nil_iff.mp hwhole
  refine ⟨String.ofList file, "f", join [trim f.pathPrefix.toList, file], ?_, ?_⟩
  · rw [FileStorage.written, if_neg hfo, objectName_of_local hlocal hnul, String.toList_ofList]
  · rw [FileStorage.written, if_neg hgo, objectName_of_local (by decide) (by decide),
      join_relative isRooted_trim hrelative hfilled,
      join_relative isRooted_trim (by decide) (by decide), walk_append, walk_append, walk_elements_trim,
      walk_elements_trim, hstart, hfile, walk_append]
    rfl

/-- The stores of two syncers have passed the check, in one order. -/
theorem Checked.keys_apart {seen : Seen} {syncers : List Syncer} (h : Checked host seen syncers)
    {a b : Syncer} (ha : a ∈ syncers) (hb : b ∈ syncers) (hab : a.id ≠ b.id)
    (hused : a.fileStorage.backend ≠ "") (hbused : b.fileStorage.backend ≠ "") :
    storageKeysOverlap (fileStorageKey host a.fileStorage) (fileStorageKey host b.fileStorage) = false
      ∨ storageKeysOverlap (fileStorageKey host b.fileStorage) (fileStorageKey host a.fileStorage)
        = false := by
  have hentry : ∀ s ∈ syncers, s.fileStorage.backend ≠ "" →
      (fileStorageKey host s.fileStorage, s.id) ∈ seen.files := by
    intro s hs hsused
    rw [h.files]
    exact List.mem_map.mpr ⟨s, List.mem_filter.mpr ⟨hs, by simpa using hsused⟩, rfl⟩
  have hsym : Std.Symm fun a b : List Char × String =>
      storageKeysOverlap a.1 b.1 = false ∨ storageKeysOverlap b.1 a.1 = false :=
    ⟨fun _ _ => Or.symm⟩
  have hpairs : seen.files.Pairwise fun a b =>
      storageKeysOverlap a.1 b.1 = false ∨ storageKeysOverlap b.1 a.1 = false :=
    h.files_apart.imp Or.inl
  exact hpairs.forall (hentry a ha hused) (hentry b hb hbused)
    fun hpair => hab (congrArg Prod.snd hpair)

theorem FileStorage.Adjacent.symm (h : f.Adjacent g) : g.Adjacent f :=
  h.imp And.symm fun ⟨hf, hg, hendpoint, hbucket⟩ => ⟨hg, hf, hendpoint.symm, hbucket.symm⟩

theorem FileStorage.home_of_object (hobject : f.backend ≠ "directory") :
    f.home = names f.pathPrefix.toList :=
  if_neg hobject

/-- Two stores that pass the check share an object exactly if one is a whole bucket. -/
theorem written_apart_iff (hf : f.Valid host) (hg : g.Valid host) (hadjacent : f.Adjacent g)
    (hpass : storageKeysOverlap (fileStorageKey host f) (fileStorageKey host g) = false
      ∨ storageKeysOverlap (fileStorageKey host g) (fileStorageKey host f) = false) :
    (∀ n m path, ¬ (f.written n = .ok path ∧ g.written m = .ok path))
      ↔ f.backend = "directory"
        ∨ (names f.pathPrefix.toList ≠ [] ∧ names g.pathPrefix.toList ≠ []) := by
  constructor
  · intro hapart
    refine or_iff_not_imp_left.mpr fun hfo => ?_
    obtain ⟨-, hgo, hendpoint, hbucket⟩ := hadjacent.resolve_left fun h => hfo h.1
    -- two whole buckets would have been refused, so the other prefix is not empty
    have hne : names f.pathPrefix.toList ≠ names g.pathPrefix.toList := by
      intro hsame
      rw [← FileStorage.home_of_object hfo, ← FileStorage.home_of_object hgo] at hsame
      rcases hpass with hpass | hpass
      · exact absurd ((object_keys_overlap hf hg hfo hgo hendpoint hbucket).mpr (Or.inl hsame)) (by simp [hpass])
      · exact absurd ((object_keys_overlap hg hf hgo hfo hendpoint.symm hbucket.symm).mpr
          (Or.inl hsame.symm)) (by simp [hpass])
    constructor
    · intro hwhole
      obtain ⟨n, m, path, hn, hm⟩ :=
        whole_bucket_meets hf hg hfo hgo hwhole fun hnil => hne (hwhole.trans hnil.symm)
      exact hapart n m path ⟨hn, hm⟩
    · intro hwhole
      obtain ⟨n, m, path, hn, hm⟩ :=
        whole_bucket_meets hg hf hgo hfo hwhole fun hnil => hne (hnil.trans hwhole.symm)
      exact hapart m n path ⟨hm, hn⟩
  · rintro hwhole n m path ⟨hn, hm⟩
    have hhomes : ¬ f.home <+: g.home ∧ ¬ g.home <+: f.home := by
      have hbound : f.backend = "directory" ∨ (f.home ≠ [] ∧ g.home ≠ []) := by
        refine or_iff_not_imp_left.mpr fun hfo => ?_
        have hgo := (hadjacent.resolve_left fun h => hfo h.1).2.1
        rw [FileStorage.home_of_object hfo, FileStorage.home_of_object hgo]
        exact hwhole.resolve_left hfo
      rcases hpass with hpass | hpass
      · exact homes_apart hf hg hadjacent hpass hbound
      · refine (homes_apart hg hf hadjacent.symm hpass ?_).symm
        rcases hadjacent with ⟨-, hgd⟩ | ⟨hfo, -⟩
        · exact Or.inl hgd
        · exact Or.inr (hbound.resolve_left hfo).symm
    exact apart_of_not_prefix hhomes.1 hhomes.2 (hf.written_below hn) (hg.written_below hm) rfl

/-- In an accepted configuration a name stays below the prefix of its storage, and two storages of one
bucket, or two directories, write no common file exactly if neither is a whole bucket. -/
theorem storages_disjoint_iff {config accepted : Config} (haccepted : config.validate host = .ok accepted) :
    (∀ a ∈ accepted.syncers, ∀ b ∈ accepted.syncers, a.id ≠ b.id → a.fileStorage.backend ≠ "" →
        b.fileStorage.backend ≠ "" → a.fileStorage.Adjacent b.fileStorage →
        ((∀ n m path, ¬ (a.fileStorage.written n = .ok path ∧ b.fileStorage.written m = .ok path))
          ↔ a.fileStorage.backend = "directory"
            ∨ (names a.fileStorage.pathPrefix.toList ≠ [] ∧ names b.fileStorage.pathPrefix.toList ≠ [])))
      ∧ ∀ a ∈ accepted.syncers, a.fileStorage.backend ≠ "" → ∀ n key,
        objectName a.fileStorage.pathPrefix.toList n = .ok key →
        isRooted key = false ∧ names a.fileStorage.pathPrefix.toList <+: names key
          ∧ ∀ part ∈ names key, Plain part := by
  obtain ⟨seen, hchecked⟩ := Config.checked_of_validate haccepted
  constructor
  · intro a ha b hb hab hused hbused hadjacent
    have hf := hchecked.storage a ha hused
    have hg := hchecked.storage b hb hbused
    exact written_apart_iff hf hg hadjacent (hchecked.keys_apart ha hb hab hused hbused)
  · intro a ha hused n key hkey
    have hf := hchecked.storage a ha hused
    obtain ⟨hrelative, reached, hreached, hplain⟩ := objectName_names hf.prefix_relative hkey
    refine ⟨hrelative, ⟨reached, hreached.symm⟩, ?_⟩
    intro part hpart
    rw [hreached, List.mem_append] at hpart
    rcases hpart with hpart | hpart
    · refine (names_kept part hpart).resolve_right ?_
      rintro ⟨rfl, -⟩
      exact hf.no_dotdot (names_subset_elements hpart)
    · exact hplain part hpart

section Buckets

def bucketSyncer (id pathPrefix : String) : Syncer where
  id := id
  token := "t"
  postgres := ⟨"host=db", "public", ""⟩
  tables := []
  fileStorage :=
    { backend := "S3", endpoint := "storage", bucket := "files", pathPrefix := pathPrefix
      accessKey := "k", secretKey := "s" }

def oneBucket (first second : String) : Config where
  grpc := { tlsCertFile := "c", tlsKeyFile := "k" }
  adminToken := "a"
  syncers := [bucketSyncer "one" first, bucketSyncer "two" second]

theorem storages_disjoint_two_prefixes :
    ∃ accepted, (oneBucket "x/./y" "x/z/").validate permissive = .ok accepted
      ∧ ∃ a ∈ accepted.syncers, ∃ b ∈ accepted.syncers, a.id ≠ b.id
        ∧ a.fileStorage.Adjacent b.fileStorage
        ∧ ∀ n m path, ¬ (a.fileStorage.written n = .ok path ∧ b.fileStorage.written m = .ok path) := by
  refine ⟨_, rfl, _, List.mem_cons_self, _, List.mem_cons_of_mem _ List.mem_cons_self, by decide,
    Or.inr (by decide), ?_⟩
  exact ((storages_disjoint_iff (show (oneBucket "x/./y" "x/z/").validate permissive = .ok _ from rfl)).1
    _ List.mem_cons_self _ (List.mem_cons_of_mem _ List.mem_cons_self) (by decide) (by decide) (by decide)
    (Or.inr (by decide))).mpr (Or.inr (by decide))

theorem whole_bucket_shares_object :
    ∃ accepted, (oneBucket "" "x").validate permissive = .ok accepted
      ∧ ∃ a ∈ accepted.syncers, ∃ b ∈ accepted.syncers, a.id ≠ b.id
        ∧ a.fileStorage.Adjacent b.fileStorage
        ∧ a.fileStorage.written "x/f" = .ok "x/f".toList
        ∧ b.fileStorage.written "f" = .ok "x/f".toList :=
  ⟨_, rfl, _, List.mem_cons_self, _, List.mem_cons_of_mem _ List.mem_cons_self, by decide,
    Or.inr (by decide), by decide, by decide⟩

end Buckets

end GoSync.ServerConfig
