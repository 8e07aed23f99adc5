import GoSync.Server.MissingColumn

/-!
# Schema activation

The primary key of the staging area and the checks of `stageSchema` make a count enough: as many staged
tables as configured ones are the configured ones. Activation then adds the columns that are missing,
each under the name that PostgreSQL makes of it, and a failure takes everything back.
-/

namespace GoSync.Server

variable {Raw Value Hash : Type} {rt : Runtime Raw Value Hash} {cfg : Syncer}

def StageRow.table (row : StageRow) : TableRef where
  schema := row.sourceSchema
  name := row.tableName

def StageRow.key (row : StageRow) : String × String × TableRef :=
  (row.generation, row.schemaVersion, row.table)

structure Admitted (cfg : Syncer) (stage : List StageRow) : Prop where
  configured : ∀ row ∈ stage, row.table ∈ cfg.tables
  described : ∀ row ∈ stage, row.payload.schema = row.sourceSchema ∧ row.payload.name = row.tableName
  distinct : (stage.map StageRow.key).Nodup

section Staging

variable {stage stage' : List StageRow} {message : Message}

theorem admitted_nil : Admitted cfg [] :=
  ⟨List.forall_mem_nil _, List.forall_mem_nil _, List.nodup_nil⟩

theorem Admitted.sublist (h : Admitted cfg stage) (hless : stage'.Sublist stage) : Admitted cfg stage' :=
  ⟨fun row hrow => h.configured row (hless.subset hrow), fun row hrow => h.described row (hless.subset hrow),
    (hless.map _).nodup h.distinct⟩

theorem Admitted.stageSchema (h : Admitted cfg stage)
    (hstage : stageSchema cfg message stage = .ok stage') : Admitted cfg stage' := by
  unfold Server.stageSchema at hstage
  split at hstage
  · cases hstage
  · rename_i schema hschema
    split_ifs at hstage with hconfigured hempty hduplicate
    cases hstage
    rw [not_or, not_or, not_not] at hconfigured
    refine ⟨?_, ?_, ?_⟩
    · refine List.forall_mem_append.mpr ⟨h.configured, ?_⟩
      rw [List.forall_mem_singleton]
      exact Syncer.allows_iff.mp hconfigured.2.2
    · refine List.forall_mem_append.mpr ⟨h.described, ?_⟩
      rw [List.forall_mem_singleton]
      exact ⟨rfl, rfl⟩
    · rw [List.map_append, List.map_singleton, List.nodup_append]
      refine ⟨h.distinct, List.nodup_singleton _, ?_⟩
      intro key hkey other hother heq
      rw [List.mem_singleton] at hother
      obtain ⟨row, hrow, rfl⟩ := List.mem_map.mp hkey
      apply hduplicate
      rw [List.any_eq_true]
      refine ⟨row, hrow, ?_⟩
      simpa [StageRow.key, StageRow.table, and_assoc] using heq.trans hother

end Staging

section Runs

variable {db db' : Db Raw Value Hash} {message : Message} {raw : Raw} {phase phase' : Phase}
  {env : Surroundings} {committed : Tables Value}

/-- A message adds one document to the stage or only removes some. -/
theorem applyMessage_stage
    (h : applyMessage rt env committed message raw phase db = .ok (db', phase')) :
    db'.schemaStage.Sublist db.schemaStage
      ∨ stageSchema rt.cfg message db.schemaStage = .ok db'.schemaStage := by
  have hcases := applyMessage_cases h
  cases hkind : message.kind with
  | snapshotBegin =>
      simp only [hkind] at hcases
      obtain ⟨-, scope, -, rfl⟩ := hcases
      exact .inl (List.Sublist.refl _)
  | schema =>
      simp only [hkind] at hcases
      obtain ⟨-, -, ⟨-, rfl⟩ | ⟨-, stage, hstage, rfl⟩⟩ := hcases
      · exact .inl (List.Sublist.refl _)
      · exact .inr hstage
  | snapshotRows | fileEnd | fileDelete =>
      simp only [hkind] at hcases
      obtain ⟨-, -, rfl⟩ := hcases
      exact .inl (List.Sublist.refl _)
  | snapshotEnd =>
      simp only [hkind] at hcases
      obtain ⟨-, -, activated, hactivated, hpublished⟩ := hcases
      rw [(publishSnapshot_frame hpublished).2]
      unfold activateSnapshot at hactivated
      split_ifs at hactivated
      · change activated.schemaStage.Sublist _ ∨ _
        rw [applyStagedSchemas_stage hactivated]
        exact .inl List.filter_sublist
      · cases hactivated
        exact .inl (List.Sublist.refl _)
  | schemaEnd =>
      simp only [hkind] at hcases
      rw [applyStagedSchemas_stage hcases.2.2]
      exact .inl List.filter_sublist
  | transactionRows | fileBegin | fileChunk =>
      simp only [hkind] at hcases
      rw [insertInbox_frame hcases.2.2]
      exact .inl (List.Sublist.refl _)
  | transactionEnd =>
      simp only [hkind] at hcases
      rw [(applyTransaction_frame hcases.2.2).2]
      exact .inl (List.Sublist.refl _)
  | other name =>
      simp only [hkind] at hcases

variable [DecidableEq Hash] {target : Target Raw Value Hash}

theorem Admitted.deliver {delivery : Delivery Raw} (h : Admitted rt.cfg target.db.schemaStage) :
    Admitted rt.cfg (target.deliver rt delivery).db.schemaStage := by
  cases haccepted : delivery.accepted rt target with
  | none =>
      rw [deliver_of_accepted_none haccepted]
      exact h
  | some message =>
      obtain ⟨backend, raw, reported, current, cleared, rfl, hswitch, -, hreceive⟩ :=
        receive_of_accepted_some haccepted
      obtain ⟨pending, openTransaction, middle, phase, -, -, -, happly, -, hdb⟩ := receive_cases hreceive
      rw [hdb]
      have hcleared : Admitted rt.cfg cleared.schemaStage := by
        rcases switchGeneration_cases hswitch with ⟨-, -, rfl⟩ | ⟨-, -, -, -, rfl⟩
        · exact h
        · exact admitted_nil
      rcases applyMessage_stage happly with hless | hstaged
      · exact hcleared.sublist hless
      · exact hcleared.stageSchema hstaged

theorem Admitted.deliveries {deliveries : List (Delivery Raw)}
    (h : Admitted rt.cfg target.db.schemaStage) :
    Admitted rt.cfg (deliveries.foldl (Target.deliver rt) target).db.schemaStage := by
  induction deliveries generalizing target with
  | nil => exact h
  | cons delivery rest ih => exact ih h.deliver

end Runs

def stagedTables (generation version : String) (stage : List StageRow) : List TableRef :=
  (stage.filter fun row => row.generation = generation ∧ row.schemaVersion = version).map StageRow.table

section Activating

variable {generation version : String} {stage : List StageRow} {db db' : Db Raw Value Hash}

theorem length_stagedSchemas :
    (stagedSchemas generation version stage).length = (stagedTables generation version stage).length := by
  rw [stagedSchemas, stagedTables, List.length_map, List.length_map, List.length_insertionSort]

theorem Admitted.nodup_stagedTables (h : Admitted cfg stage) :
    (stagedTables generation version stage).Nodup := by
  rw [stagedTables, List.Nodup, List.pairwise_map]
  have hless : (stage.filter fun row => row.generation = generation ∧ row.schemaVersion = version).Sublist
      stage := List.filter_sublist
  refine List.Pairwise.imp_of_mem ?_ (List.pairwise_map.mp (h.sublist hless).distinct)
  intro first second hfirst hsecond hne heq
  have hone := of_decide_eq_true (List.mem_filter.mp hfirst).2
  have htwo := of_decide_eq_true (List.mem_filter.mp hsecond).2
  apply hne
  rw [StageRow.key, StageRow.key, hone.1, hone.2, htwo.1, htwo.2, heq]

theorem Admitted.perm_of_length (h : Admitted cfg stage)
    (hlength : (stagedSchemas generation version stage).length = cfg.tables.length) :
    (stagedTables generation version stage).Perm cfg.tables := by
  have hsubset : stagedTables generation version stage ⊆ cfg.tables := by
    intro table htable
    obtain ⟨row, hrow, rfl⟩ := List.mem_map.mp htable
    exact h.configured row (List.mem_filter.mp hrow).1
  rw [length_stagedSchemas] at hlength
  exact (List.subperm_of_subset h.nodup_stagedTables hsubset).perm_of_length_le hlength.ge

theorem applyStagedSchemas_cases (h : applyStagedSchemas rt generation version db = .ok db') :
    (stagedSchemas generation version db.schemaStage).length = rt.cfg.tables.length
      ∧ activate rt.pg rt.cfg (stagedSchemas generation version db.schemaStage) db.tables
        = .ok db'.tables := by
  unfold applyStagedSchemas at h
  dsimp only at h
  split_ifs at h with hlength
  obtain ⟨tables, htables, h⟩ := Except.bind_eq_ok.mp h
  cases h
  exact ⟨not_not.mp hlength, Except.mapError_eq_ok.mp htables⟩

theorem hasColumn_activated_iff {schemas : List SchemaTable} {before after : Tables Value}
    {pg : Postgres Value} (h : activate pg cfg schemas before = .ok after) {schema : SchemaTable}
    (hschema : schema ∈ schemas) {column : SchemaColumn} (hcolumn : column ∈ schema.columns) :
    HasColumn after schema.name column.name
      ↔ HasColumn before schema.name column.name ∨ (column.name.toList.map Char.utf8Size).sum ≤ 63 := by
  rw [← identifier_eq_self_iff]
  constructor
  · intro hafter
    rcases (activate_widenedBy h).hasColumn_or hafter with hbefore | ⟨type, other, -, -, source, -, hadded⟩
    · exact .inl hbefore
    · have hname : column.name = identifier source.name := hadded.name
      rw [hname, identifier_identifier]
      exact .inr rfl
  · rintro (hbefore | hshort)
    · exact (activate_widenedBy h).hasColumn hbefore
    · exact activate_hasColumn h schema hschema column hcolumn hshort

variable [DecidableEq Hash] {target : Target Raw Value Hash}

/-- An activation that fails leaves the database as it was. -/
theorem deliver_of_activation_error {backend : FileEffect → Bool} {message : Message} {raw : Raw}
    {err : StoreError}
    (hfailed : applyStagedSchemas rt message.generation message.schemaVersion target.db = .error err)
    (hkind : message.kind = .schemaEnd ∨ (message.kind = .snapshotEnd ∧ message.schemaVersion ≠ "")) :
    (target.deliver rt (.store backend message raw)).db = target.db := by
  apply deliver_of_accepted_none
  rw [Option.eq_none_iff_forall_ne_some]
  intro accepted haccepted
  obtain ⟨_, _, _, current, cleared, hdelivery, hswitch, -, hreceive⟩ :=
    receive_of_accepted_some haccepted
  cases hdelivery
  obtain ⟨-, -, middle, phase, -, -, -, happly, -, -⟩ := receive_cases hreceive
  have hcases := applyMessage_cases happly
  have hcleared : cleared = target.db := by
    rcases switchGeneration_cases hswitch with ⟨-, -, hsame⟩ | ⟨-, -, hbegin, -, -⟩
    · exact hsame
    · rcases hkind with hkind | ⟨hkind, -⟩
      · simp [hkind] at hbegin
      · simp [hkind] at hbegin
  rw [hcleared] at hcases
  rcases hkind with hkind | ⟨hkind, hversion⟩
  · simp only [hkind] at hcases
    rw [hfailed] at hcases
    cases hcases.2.2
  · simp only [hkind] at hcases
    obtain ⟨-, -, activated, hactivated, -⟩ := hcases
    rw [activateSnapshot, if_pos hversion, hfailed] at hactivated
    cases hactivated

end Activating

/-- **Schema activation.** After any deliveries, an activation that succeeds had exactly the configured
tables staged, has added only columns that may be added, and has emptied the staging of the version. The
columns of the staged schemas are all there exactly if none was missing whose name PostgreSQL cuts. An
activation that fails leaves the database as it was. -/
theorem schema_activation_iff [DecidableEq Hash] (rt : Runtime Raw Value Hash)
    (start : Target Raw Value Hash) (hstart : start.db.schemaStage = [])
    (deliveries : List (Delivery Raw)) :
    let target := deliveries.foldl (Target.deliver rt) start
    (∀ generation version db', applyStagedSchemas rt generation version target.db = .ok db' →
      (stagedTables generation version target.db.schemaStage).Perm rt.cfg.tables
      ∧ WidenedBy (Planned rt.pg rt.cfg (stagedSchemas generation version target.db.schemaStage))
          target.db.tables db'.tables
      ∧ (∀ row ∈ db'.schemaStage, ¬ (row.generation = generation ∧ row.schemaVersion = version))
      ∧ ((∀ schema ∈ stagedSchemas generation version target.db.schemaStage,
            ∀ column ∈ schema.columns, HasColumn db'.tables schema.name column.name)
          ↔ ∀ schema ∈ stagedSchemas generation version target.db.schemaStage,
            ∀ column ∈ schema.columns, HasColumn target.db.tables schema.name column.name
              ∨ (column.name.toList.map Char.utf8Size).sum ≤ 63))
    ∧ ∀ backend message raw err,
        applyStagedSchemas rt message.generation message.schemaVersion target.db = .error err →
        (message.kind = .schemaEnd ∨ (message.kind = .snapshotEnd ∧ message.schemaVersion ≠ "")) →
        (target.deliver rt (.store backend message raw)).db = target.db := by
  intro target
  refine ⟨?_, fun backend message raw err => deliver_of_activation_error⟩
  intro generation version db' hok
  have hadmitted : Admitted rt.cfg target.db.schemaStage :=
    Admitted.deliveries (hstart ▸ admitted_nil)
  obtain ⟨hlength, hactivated⟩ := applyStagedSchemas_cases hok
  refine ⟨hadmitted.perm_of_length hlength, activate_widenedBy hactivated, ?_, ?_⟩
  · rw [applyStagedSchemas_stage hok]
    intro row hrow
    exact of_decide_eq_true (List.mem_filter.mp hrow).2
  · refine forall₂_congr fun schema hschema => forall₂_congr fun column hcolumn => ?_
    exact hasColumn_activated_iff hactivated hschema hcolumn

section Long

def longName : String :=
  String.ofList (List.replicate 64 'a')

def longSchema : SchemaTable where
  schema := "public"
  name := "a"
  columns := [{ name := "x", type := "text" }, { name := longName, type := "text" }]

def longRuntime : Runtime Message String Message :=
  .plain { id := "s", tables := [{ schema := "public", name := "a" }], autoAddColumns := true }

def longStart : Target Message String Message where
  db := { tables := fun name => if name = "a" then some { columns := [("x", "text")] } else none }

def longDeliveries : List (Delivery Message) :=
  let messages : List Message :=
    [{ kind := .snapshotBegin, seq := 1, tables := [{ schema := "public", name := "a" }] },
      { kind := .schema, seq := 2, schema := some longSchema }]
  messages.map fun message =>
    .store (fun _ => true) { message with generation := "g", schemaVersion := "v" }
      { message with generation := "g", schemaVersion := "v" }

def longCatalog : Option (List (String × String)) :=
  match applyStagedSchemas longRuntime "g" "v"
      (longDeliveries.foldl (Target.deliver longRuntime) longStart).db with
  | .error _ => none
  | .ok db => (targetColumnTypes db.tables "a").toOption

/-- The activation succeeds, and the column is not there under its name. -/
theorem long_column_cut :
    longCatalog = some [("x", "text"), (String.ofList (List.replicate 63 'a'), "text")]
      ∧ longCatalog.map (fun types => (types.lookup longName).isSome) = some false := by
  decide +kernel

theorem schema_activation_succeeds :
    longStart.db.schemaStage = []
    ∧ ∃ db', applyStagedSchemas longRuntime "g" "v"
          (longDeliveries.foldl (Target.deliver longRuntime) longStart).db = .ok db'
        ∧ (stagedTables "g" "v"
            (longDeliveries.foldl (Target.deliver longRuntime) longStart).db.schemaStage).Perm
          longRuntime.cfg.tables := by
  have hok : (applyStagedSchemas longRuntime "g" "v"
      (longDeliveries.foldl (Target.deliver longRuntime) longStart).db).isOk = true := by decide +kernel
  obtain ⟨db', hdb⟩ := Except.isOk_iff.mp hok
  exact ⟨rfl, db', hdb, ((schema_activation_iff longRuntime longStart rfl longDeliveries).1 "g" "v" db' hdb).1⟩

end Long

end GoSync.Server
