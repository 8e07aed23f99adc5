import GoSync.ServerConfig.Accepted

/-!
# Target tables of different syncers

Two syncers must not write one physical table. Validation compares the connection strings as texts; the
server then compares the instance ids that it generated, one for each metadata schema of a database. Both
are keys that stand for a database: neither tells that two strings denote one database when the syncers
keep their metadata in different schemas.
-/

namespace GoSync.ServerConfig

/-- The databases that connection strings denote, and the row of `server_instance` in each metadata
schema. -/
structure Cluster (Database : Type) where
  resolve : String → Database
  instances : Database → String → Option String

inductive OverlapError where
  | noInstance
  | sameTable (previous id : String)
  deriving DecidableEq, Repr

def OverlapError.message : OverlapError → String
  | .noInstance => "no rows in result set"
  | .sameTable previous id => s!"syncers \"{previous}\" and \"{id}\" resolve to the same target table"

namespace Cluster

variable {Database : Type} [DecidableEq Database]

/-- `target.migrate`, as far as the instance id goes: an id once generated stays. -/
def migrate (cluster : Cluster Database) (generated : String) (s : Syncer) : Cluster Database :=
  { cluster with
    instances := fun database schema =>
      if database = cluster.resolve s.postgres.dsn ∧ schema = s.postgres.metadataSchema then
        some ((cluster.instances database schema).getD generated)
      else
        cluster.instances database schema }

omit [DecidableEq Database] in
def identity (cluster : Cluster Database) (s : Syncer) : Except OverlapError String :=
  match cluster.instances (cluster.resolve s.postgres.dsn) s.postgres.metadataSchema with
  | none => .error .noInstance
  | some id => .ok id

def physical (cluster : Cluster Database) (s : Syncer) (table : TableRef) :
    Database × String × String :=
  (cluster.resolve s.postgres.dsn, s.postgres.targetSchema, table.name)

end Cluster

section Overlap

variable {Database : Type} {cluster : Cluster Database}

def overlapKey (inst : String) (s : Syncer) (table : TableRef) : String :=
  inst ++ "\x00" ++ s.postgres.targetSchema ++ "\x00" ++ table.name

def claimTable (inst : String) (s : Syncer) (seen : List (String × String)) (table : TableRef) :
    Except OverlapError (List (String × String)) :=
  match seen.lookup (overlapKey inst s table) with
  | some previous =>
      if previous ≠ "" ∧ previous ≠ s.id then .error (.sameTable previous s.id)
      else .ok ((overlapKey inst s table, s.id) :: seen)
  | none => .ok ((overlapKey inst s table, s.id) :: seen)

def claimTables (cluster : Cluster Database) (seen : List (String × String)) (s : Syncer) :
    Except OverlapError (List (String × String)) := do
  let inst ← cluster.identity s
  s.tables.foldlM (claimTable inst s) seen

/-- `validateTargetOverlap`, for one order in which the map of targets is visited. -/
def validateTargetOverlap (cluster : Cluster Database) (targets : List Syncer) :
    Except OverlapError Unit := do
  let _ ← targets.foldlM (claimTables cluster) []
  pure ()

def Claims (cluster : Cluster Database) (seen : List (String × String)) (s : Syncer)
    (tables : List TableRef) : Prop :=
  ∀ table ∈ tables, ∃ inst, cluster.identity s = .ok inst
    ∧ seen.lookup (overlapKey inst s table) = some s.id

theorem claimTable_lookup {inst : String} {s : Syncer} {seen next : List (String × String)}
    {table : TableRef} (h : claimTable inst s seen table = .ok next) :
    next.lookup (overlapKey inst s table) = some s.id
      ∧ ∀ key owner, owner ≠ "" → seen.lookup key = some owner → next.lookup key = some owner := by
  have hnext : next = (overlapKey inst s table, s.id) :: seen := by
    unfold claimTable at h
    cases hlookup : seen.lookup (overlapKey inst s table) with
    | none => simpa [hlookup] using h.symm
    | some previous =>
        simp only [hlookup] at h
        split_ifs at h
        exact (Except.ok.inj h).symm
  refine ⟨by rw [hnext, List.lookup_cons_self], ?_⟩
  intro key owner howner hseen
  by_cases hkey : key = overlapKey inst s table
  · subst hkey
    unfold claimTable at h
    simp only [hseen] at h
    split_ifs at h with hother
    push Not at hother
    rw [hnext, List.lookup_cons_self, hother howner]
  · rw [hnext, List.lookup_cons, beq_false_of_ne hkey]
    exact hseen

theorem foldlM_claimTable {inst : String} {s : Syncer} (hid : s.id ≠ "") {tables : List TableRef}
    {seen last : List (String × String)} (h : tables.foldlM (claimTable inst s) seen = .ok last) :
    (∀ table ∈ tables, last.lookup (overlapKey inst s table) = some s.id)
      ∧ ∀ key owner, owner ≠ "" → seen.lookup key = some owner → last.lookup key = some owner := by
  induction tables generalizing seen with
  | nil =>
      cases h
      exact ⟨fun _ hmem => absurd hmem List.not_mem_nil, fun _ _ _ hseen => hseen⟩
  | cons table tables ih =>
      obtain ⟨next, hnext, h⟩ := Except.foldlM_cons_eq_ok.mp h
      obtain ⟨hclaimed, hkeeps⟩ := claimTable_lookup hnext
      obtain ⟨hrest, hkeepsRest⟩ := ih h
      constructor
      · intro other hother
        rcases List.mem_cons.mp hother with rfl | hother
        · exact hkeepsRest _ _ hid hclaimed
        · exact hrest other hother
      · intro key owner howner hseen
        exact hkeepsRest key owner howner (hkeeps key owner howner hseen)

/-- Once claimed, a table stays with its owner. -/
theorem claims_of_foldlM {targets : List Syncer} (hids : ∀ s ∈ targets, s.id ≠ "")
    {seen last : List (String × String)} (h : targets.foldlM (claimTables cluster) seen = .ok last) :
    (∀ s ∈ targets, Claims cluster last s s.tables)
      ∧ ∀ key owner, owner ≠ "" → seen.lookup key = some owner → last.lookup key = some owner := by
  induction targets generalizing seen with
  | nil =>
      cases h
      exact ⟨fun _ hmem => absurd hmem List.not_mem_nil, fun _ _ _ hseen => hseen⟩
  | cons s targets ih =>
      obtain ⟨next, hnext, h⟩ := Except.foldlM_cons_eq_ok.mp h
      obtain ⟨inst, hinst, hnext⟩ := Except.bind_eq_ok.mp hnext
      have hid := hids s List.mem_cons_self
      obtain ⟨hclaimed, hkeeps⟩ := foldlM_claimTable hid hnext
      obtain ⟨hrest, hkeepsRest⟩ := ih (fun other hother => hids other (List.mem_cons_of_mem _ hother)) h
      constructor
      · intro other hother
        rcases List.mem_cons.mp hother with rfl | hother
        · intro table htable
          exact ⟨inst, hinst, hkeepsRest _ _ hid (hclaimed table htable)⟩
        · exact hrest other hother
      · intro key owner howner hseen
        exact hkeepsRest key owner howner (hkeeps key owner howner hseen)

/-- Syncers that pass the comparison of instances and keep their metadata in one schema write different
tables. -/
theorem physical_ne_of_metadata {targets : List Syncer} (hids : ∀ s ∈ targets, s.id ≠ "")
    (h : validateTargetOverlap cluster targets = .ok ()) {a b : Syncer} (ha : a ∈ targets)
    (hb : b ∈ targets) (hab : a.id ≠ b.id)
    (hmeta : a.postgres.metadataSchema = b.postgres.metadataSchema) {ta tb : TableRef}
    (hta : ta ∈ a.tables) (htb : tb ∈ b.tables) : cluster.physical a ta ≠ cluster.physical b tb := by
  intro hsame
  obtain ⟨last, hloop, -⟩ := Except.bind_eq_ok.mp h
  have hclaims := (claims_of_foldlM hids hloop).1
  obtain ⟨ia, hia, hownerA⟩ := hclaims a ha ta hta
  obtain ⟨ib, hib, hownerB⟩ := hclaims b hb tb htb
  simp only [Cluster.physical, Prod.mk.injEq] at hsame
  obtain ⟨hdatabase, hschema, hname⟩ := hsame
  have hinst : ia = ib := by
    rw [Cluster.identity, hdatabase, hmeta] at hia
    exact Except.ok.inj (hia.symm.trans hib)
  rw [overlapKey, hinst, hschema, hname] at hownerA
  exact hab (Option.some.inj (hownerA.symm.trans hownerB))

theorem physical_ne_of_dsn {host : Host} {seen : Seen} {syncers : List Syncer}
    (h : Checked host seen syncers) {a b : Syncer} (ha : a ∈ syncers) (hb : b ∈ syncers)
    (hab : a.id ≠ b.id) (hdsn : a.postgres.dsn = b.postgres.dsn) {ta tb : TableRef}
    (hta : ta ∈ a.tables) (htb : tb ∈ b.tables) : cluster.physical a ta ≠ cluster.physical b tb := by
  intro hsame
  simp only [Cluster.physical, Prod.mk.injEq] at hsame
  obtain ⟨-, hschema, hname⟩ := hsame
  have hentry : ∀ s ∈ syncers, ∀ table ∈ s.tables,
      (targetKey s.postgres table.name, s.id) ∈ seen.targets := by
    intro s hs table htable
    rw [h.targets]
    exact List.mem_flatMap.mpr ⟨s, hs, List.mem_map.mpr ⟨table, htable, rfl⟩⟩
  have hkey : targetKey a.postgres ta.name = targetKey b.postgres tb.name := by
    rw [targetKey, targetKey, hdsn, hschema, hname]
  have hpair := List.inj_on_of_nodup_map h.targets_nodup (hentry a ha ta hta) (hentry b hb tb htb) hkey
  exact hab (congrArg Prod.snd hpair)

/-- Accepted syncers write different tables exactly if those that meet in one table share the text of the
connection string or the metadata schema. -/
theorem target_tables_apart_iff {host : Host} {config accepted : Config}
    (haccepted : config.validate host = .ok accepted) {targets : List Syncer}
    (horder : targets.Perm accepted.syncers)
    (hoverlap : validateTargetOverlap cluster targets = .ok ()) :
    (∀ a ∈ accepted.syncers, ∀ b ∈ accepted.syncers, a.id ≠ b.id → ∀ ta ∈ a.tables, ∀ tb ∈ b.tables,
        cluster.physical a ta ≠ cluster.physical b tb)
      ↔ ∀ a ∈ accepted.syncers, ∀ b ∈ accepted.syncers, a.id ≠ b.id → ∀ ta ∈ a.tables,
        ∀ tb ∈ b.tables, cluster.physical a ta = cluster.physical b tb →
          a.postgres.dsn = b.postgres.dsn
            ∨ a.postgres.metadataSchema = b.postgres.metadataSchema := by
  obtain ⟨seen, hchecked⟩ := Config.checked_of_validate haccepted
  have hids : ∀ s ∈ targets, s.id ≠ "" := fun s hs => hchecked.id_ne_empty s (horder.mem_iff.mp hs)
  constructor
  · intro hapart a ha b hb hab ta hta tb htb hsame
    exact absurd hsame (hapart a ha b hb hab ta hta tb htb)
  · intro hshared a ha b hb hab ta hta tb htb hsame
    rcases hshared a ha b hb hab ta hta tb htb hsame with hdsn | hmeta
    · exact physical_ne_of_dsn hchecked ha hb hab hdsn hta htb hsame
    · exact physical_ne_of_metadata hids hoverlap (horder.mem_iff.mpr ha) (horder.mem_iff.mpr hb) hab
        hmeta hta htb hsame

end Overlap

section Aliases

def ordersSyncer (id dsn metadataSchema : String) : Syncer where
  id := id
  token := "t"
  postgres := ⟨dsn, "public", metadataSchema⟩
  tables := [⟨"dbo", "orders"⟩]

def ordersTwice : Config where
  grpc := { tlsCertFile := "c", tlsKeyFile := "k" }
  adminToken := "a"
  syncers := [ordersSyncer "one" "host=db" "", ordersSyncer "two" "host=10.0.0.1" "other_meta"]

def ordersCluster {Database : Type} [DecidableEq Database] (resolve : String → Database) :
    Cluster Database :=
  (({ resolve := resolve, instances := fun _ _ => none } : Cluster Database).migrate "u1"
    (ordersSyncer "one" "host=db" "go_sync_meta")).migrate "u2"
      (ordersSyncer "two" "host=10.0.0.1" "other_meta")

theorem target_tables_apart_two_databases :
    ∃ accepted, ordersTwice.validate permissive = .ok accepted
      ∧ validateTargetOverlap (ordersCluster id) accepted.syncers = .ok ()
      ∧ ∀ a ∈ accepted.syncers, ∀ b ∈ accepted.syncers, a.id ≠ b.id → ∀ ta ∈ a.tables, ∀ tb ∈ b.tables,
        (ordersCluster id).physical a ta ≠ (ordersCluster id).physical b tb :=
  ⟨_, rfl, by decide,
    (target_tables_apart_iff (show ordersTwice.validate permissive = .ok _ from rfl)
      (List.Perm.refl _) (by decide)).mpr (by decide)⟩

theorem target_table_shared :
    ∃ accepted, ordersTwice.validate permissive = .ok accepted
      ∧ validateTargetOverlap (ordersCluster fun _ => ()) accepted.syncers = .ok ()
      ∧ ∃ a ∈ accepted.syncers, ∃ b ∈ accepted.syncers, a.id ≠ b.id ∧ ∃ ta ∈ a.tables, ∃ tb ∈ b.tables,
        (ordersCluster fun _ => ()).physical a ta = (ordersCluster fun _ => ()).physical b tb :=
  ⟨_, rfl, by decide, by decide⟩

end Aliases

end GoSync.ServerConfig
