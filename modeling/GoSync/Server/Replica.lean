import GoSync.Server.Application

/-!
# The server as a replica

What the server does with messages that arrive in order, without its bookkeeping: it is somewhere in
the message grammar, under one schema version, with one state of its tables. `Replica.accept` is this
machine for the messages of a PostgreSQL source after the one that opens the generation.

The rest of the module turns the checks and effects of `store` into equivalences, one for each kind of
message.
-/

namespace GoSync.Server

variable {Raw Value Hash : Type} {rt : Runtime Raw Value Hash}

/-- Where in the message grammar a server is, with what it has staged there. -/
inductive Position where
  | snapshot (scope : List TableRef) (schemas : List SchemaTable) (rows : List Row)
  | stream
  | transaction (id : String) (rows : List Row)
  | refresh (version : String) (schemas : List SchemaTable)

structure Replica (Value : Type) where
  position : Position
  version : String
  tables : Tables Value

def addSchema (cfg : Syncer) (message : Message) (schemas : List SchemaTable) :
    Option (List SchemaTable) :=
  match message.schema with
  | none => none
  | some schema =>
      if schema.schema = "" ∨ schema.name = "" ∨ ¬ cfg.allows schema.schema schema.name
          ∨ schema.columns = []
          ∨ schemas.any (fun other => other.schema = schema.schema ∧ other.name = schema.name) then
        none
      else
        some (schemas ++ [schema])

def Replica.accept (rt : Runtime Raw Value Hash) (message : Message) (replica : Replica Value) :
    Option (Replica Value) :=
  match replica.position, message.kind with
  | .snapshot scope schemas rows, .schema =>
      if message.schemaVersion ≠ replica.version then none
      else (addSchema rt.cfg message schemas).map fun schemas =>
        { replica with position := .snapshot scope schemas rows }
  | .snapshot scope schemas rows, .snapshotRows =>
      if message.schemaVersion ≠ replica.version then none
      else some { replica with position := .snapshot scope schemas (rows ++ message.rows) }
  | .snapshot scope schemas rows, .snapshotEnd =>
      if message.schemaVersion ≠ replica.version ∨ schemas.length ≠ rt.cfg.tables.length then none
      else (loadSnapshot rt scope schemas rows replica.tables).toOption.map fun tables =>
        { replica with position := .stream, tables := tables }
  | .stream, .schema =>
      if message.schemaVersion = "" then none
      else (addSchema rt.cfg message []).map fun schemas =>
        { replica with position := .refresh message.schemaVersion schemas }
  | .refresh version schemas, .schema =>
      if message.schemaVersion ≠ version then none
      else (addSchema rt.cfg message schemas).map fun schemas =>
        { replica with position := .refresh version schemas }
  | .refresh version schemas, .schemaEnd =>
      if message.schemaVersion ≠ version ∨ schemas.length ≠ rt.cfg.tables.length then none
      else (refreshTables rt schemas replica.tables).toOption.map fun tables =>
        { position := .stream, version := version, tables := tables }
  | .stream, .transactionRows =>
      if message.schemaVersion ≠ replica.version ∨ message.transaction = "" then none
      else some { replica with position := .transaction message.transaction message.rows }
  | .transaction id rows, .transactionRows =>
      if message.schemaVersion ≠ replica.version ∨ message.transaction ≠ id then none
      else some { replica with position := .transaction id (rows ++ message.rows) }
  | .transaction id rows, .transactionEnd =>
      if message.schemaVersion ≠ replica.version ∨ message.transaction ≠ id then none
      else (applyRows rt rows replica.tables).toOption.map fun tables =>
        { replica with position := .stream, tables := tables }
  | _, _ => none

def ofSource : Kind → Bool
  | .schema | .snapshotRows | .snapshotEnd | .schemaEnd | .transactionRows | .transactionEnd => true
  | _ => false

section Checks

variable {message : Message} {current : SyncState} {result : String}

theorem schemaBarrier_rows_iff (hschema : ¬ (message.kind = .schema ∧ current.phase = .stream))
    (hend : message.kind ≠ .schemaEnd) :
    schemaBarrier message current = .ok result
      ↔ message.schemaVersion = current.schemaVersion ∧ current.pendingSchemaVersion = ""
        ∧ result = "" := by
  unfold schemaBarrier
  rw [if_neg hschema, if_neg hend]
  by_cases hpending : current.pendingSchemaVersion = ""
  · by_cases hversion : message.schemaVersion = current.schemaVersion
    · simp [hpending, hversion, eq_comm]
    · simp [hpending, hversion]
  · simp [hpending]

theorem schemaBarrier_schema_iff (hkind : message.kind = .schema) (hphase : current.phase = .stream) :
    schemaBarrier message current = .ok result
      ↔ message.schemaVersion ≠ ""
        ∧ (current.pendingSchemaVersion = "" ∨ current.pendingSchemaVersion = message.schemaVersion)
        ∧ result = message.schemaVersion := by
  unfold schemaBarrier
  rw [if_pos ⟨hkind, hphase⟩]
  by_cases hversion : message.schemaVersion = ""
  · simp [hversion]
  · by_cases hpending : current.pendingSchemaVersion = ""
    · simp [hversion, hpending, eq_comm]
    · by_cases hsame : current.pendingSchemaVersion = message.schemaVersion
      · simp [hversion, hsame, eq_comm]
      · simp [hversion, hpending, hsame]

theorem schemaBarrier_end_iff (hkind : message.kind = .schemaEnd) :
    schemaBarrier message current = .ok result
      ↔ current.phase = .stream ∧ message.schemaVersion ≠ ""
        ∧ message.schemaVersion = current.pendingSchemaVersion
        ∧ result = current.pendingSchemaVersion := by
  unfold schemaBarrier
  rw [if_neg (by simp [hkind]), if_pos hkind]
  split_ifs with hmismatch
  · simp only [false_iff]
    tauto
  · simp only [Except.ok.injEq]
    constructor
    · rintro rfl
      simp only [not_or, not_not] at hmismatch
      exact ⟨hmismatch.1, hmismatch.2.1, hmismatch.2.2, rfl⟩
    · rintro ⟨-, -, -, rfl⟩
      rfl

theorem checkTransaction_rows_iff (hkind : message.kind = .transactionRows) :
    checkTransaction message current = .ok result
      ↔ message.transaction ≠ ""
        ∧ (current.openTransaction = "" ∨ current.openTransaction = message.transaction)
        ∧ result = message.transaction := by
  unfold checkTransaction
  simp only [hkind]
  by_cases hempty : message.transaction = ""
  · simp [hempty]
  · by_cases hopen : current.openTransaction = ""
    · simp [hempty, hopen, eq_comm]
    · by_cases hsame : current.openTransaction = message.transaction
      · simp [hempty, hsame, eq_comm]
      · simp [hempty, hopen, hsame]

theorem checkTransaction_end_iff (hkind : message.kind = .transactionEnd) :
    checkTransaction message current = .ok result
      ↔ message.transaction ≠ "" ∧ current.openTransaction = message.transaction
        ∧ result = message.transaction := by
  unfold checkTransaction
  simp only [hkind]
  by_cases hempty : message.transaction = ""
  · simp [hempty]
  · by_cases hsame : current.openTransaction = message.transaction
    · simp [hempty, hsame, eq_comm]
    · simp [hempty, hsame]

theorem checkTransaction_schema_iff (hkind : message.kind = .schema) :
    checkTransaction message current = .ok result
      ↔ current.openTransaction = "" ∧ result = "" := by
  unfold checkTransaction
  simp only [hkind]
  by_cases hopen : current.openTransaction = ""
  · simp [hopen, eq_comm]
  · simp [hopen]

end Checks

section Bookkeeping

variable [DecidableEq Hash] {db db' : Db Raw Value Hash} {generation : String} {count : Nat}
  {message : Message} {raw : Raw}

structure Received (generation : String) (count : Nat) (db : Db Raw Value Hash) : Prop where
  generation : db.syncState.generation = generation
  received : db.syncState.received = count
  bounded : count ≤ maxInt64
  hashes : ∀ row ∈ db.messageHash, row.seq ≤ count

def recorded (rt : Runtime Raw Value Hash) (message : Message) (raw : Raw) (current : SyncState)
    (pending openTransaction : String) (phase : Phase) (db : Db Raw Value Hash) :
    Db Raw Value Hash :=
  { db with
    messageHash := db.messageHash ++ [{ generation := message.generation, seq := message.seq,
                                        payloadHash := rt.payloadHash raw }]
    syncState := advance message current phase openTransaction pending }

/-- The next message passes `store` exactly if it passes the schema and transaction checks and can be
applied. -/
theorem store_next_iff {env : Surroundings} {current : SyncState} {cleared : Db Raw Value Hash}
    (hswitch : switchGeneration message db = .ok (current, cleared))
    (hseq : message.seq = current.received + 1)
    (hfresh : ∀ row ∈ cleared.messageHash, row.seq ≠ message.seq)
    (hkind : isFileKind message.kind = false) :
    store rt env message raw db = .ok db'
      ↔ message.seq ≤ maxInt64 ∧ ∃ pending openTransaction middle phase,
        schemaBarrier message current = .ok pending
          ∧ checkTransaction message current = .ok openTransaction
          ∧ applyMessage rt env db.tables message raw current.phase cleared = .ok (middle, phase)
          ∧ db' = recorded rt message raw current pending openTransaction phase middle := by
  have hfile : checkFile rt.cfg message = .ok () := by
    rw [checkFile, hkind]
    rfl
  constructor
  · intro h
    obtain ⟨hsize, ⟨hsame, hold, -⟩ | ⟨current', cleared', hswitch', -, hreceive⟩⟩ := store_cases h
    · rcases switchGeneration_cases hswitch with ⟨-, rfl, -⟩ | ⟨hother, -⟩
      · omega
      · exact absurd hsame hother
    · cases hswitch.symm.trans hswitch'
      obtain ⟨pending, openTransaction, middle, phase, -, hbarrier, hcheck, happly, -, rfl⟩ :=
        receive_cases hreceive
      refine ⟨hsize, pending, openTransaction, middle, phase, hbarrier, hcheck, happly, ?_⟩
      rw [recorded, (applyMessage_frame happly).2.1]
  · rintro ⟨hsize, pending, openTransaction, middle, phase, hbarrier, hcheck, happly, rfl⟩
    have hnew : ¬ (middle.messageHash.any fun row =>
        row.generation = message.generation ∧ row.seq = message.seq) = true := by
      rw [(applyMessage_frame happly).2.1, List.any_eq_true]
      rintro ⟨row, hrow, hduplicate⟩
      exact hfresh row hrow (of_decide_eq_true hduplicate).2
    unfold store receive
    rw [if_neg (not_lt.mpr hsize)]
    refine Except.bind_eq_ok.mpr ⟨_, hswitch, ?_⟩
    dsimp only
    rw [if_neg (by omega), if_neg (not_not.mpr hseq)]
    refine Except.bind_eq_ok.mpr ⟨(), hfile, Except.bind_eq_ok.mpr ⟨pending, hbarrier, ?_⟩⟩
    refine Except.bind_eq_ok.mpr ⟨openTransaction, hcheck, Except.bind_eq_ok.mpr ⟨_, happly, ?_⟩⟩
    dsimp only
    rw [if_neg hnew]
    rfl

theorem Received.store_iff (h : Received generation count db)
    (hgeneration : message.generation = generation) (hseq : message.seq = count + 1)
    (hkind : ofSource message.kind = true) :
    store rt .plain message raw db = .ok db'
      ↔ count + 1 ≤ maxInt64 ∧ ∃ pending openTransaction middle phase,
        schemaBarrier message db.syncState = .ok pending
          ∧ checkTransaction message db.syncState = .ok openTransaction
          ∧ applyMessage rt .plain db.tables message raw db.syncState.phase db = .ok (middle, phase)
          ∧ db' = recorded rt message raw db.syncState pending openTransaction phase middle := by
  have hswitch : switchGeneration message db = .ok (db.syncState, db) := by
    rw [switchGeneration, if_pos (hgeneration.trans h.generation.symm)]
  rw [store_next_iff hswitch (by rw [h.received, hseq]), hseq]
  · intro row hrow hsame
    have := h.hashes row hrow
    omega
  · cases hsource : message.kind <;> simp_all [ofSource, isFileKind]

omit [DecidableEq Hash] in
theorem Received.recorded {current : SyncState} {pending openTransaction : String} {phase : Phase}
    {middle : Db Raw Value Hash} (h : Received generation count db)
    (hmiddle : middle.messageHash = db.messageHash) (hgeneration : message.generation = generation)
    (hseq : message.seq = count + 1) (hbound : count + 1 ≤ maxInt64) :
    Received generation (count + 1)
      (Server.recorded rt message raw current pending openTransaction phase middle) := by
  refine ⟨hgeneration, hseq, hbound, ?_⟩
  intro row hrow
  rw [Server.recorded, hmiddle] at hrow
  rcases List.mem_append.mp hrow with hrow | hrow
  · exact (h.hashes row hrow).trans (Nat.le_succ count)
  · rw [List.mem_singleton.mp hrow]
    exact hseq.le

end Bookkeeping

section Effects

variable {message : Message} {raw : Raw} {env : Surroundings} {committed : Tables Value}
  {phase phase' : Phase} {db middle : Db Raw Value Hash} {generation version : String}

/-- Staging in the database and in the replica agree. -/
theorem stageSchema_iff {cfg : Syncer} {schemas : List SchemaTable} {stage : List StageRow}
    (hgeneration : message.generation = generation) (hversion : message.schemaVersion = version) :
    stageSchema cfg message (schemas.map (stageRow generation version)) = .ok stage
      ↔ ∃ added, addSchema cfg message schemas = some added
        ∧ stage = added.map (stageRow generation version) := by
  subst hgeneration hversion
  unfold stageSchema addSchema
  cases message.schema with
  | none => simp
  | some schema =>
      have hany : ((schemas.map (stageRow message.generation message.schemaVersion)).any fun row =>
          row.generation = message.generation ∧ row.schemaVersion = message.schemaVersion
            ∧ row.sourceSchema = schema.schema ∧ row.tableName = schema.name)
          = schemas.any fun other => other.schema = schema.schema ∧ other.name = schema.name := by
        rw [List.any_map]
        congr 1
        funext other
        exact decide_eq_decide.mpr (by simp [stageRow])
      dsimp only
      rw [hany]
      by_cases hnames : schema.schema = "" ∨ schema.name = "" ∨ ¬ cfg.allows schema.schema schema.name
      · rw [if_pos hnames, if_pos (by tauto)]
        simp
      by_cases hcolumns : schema.columns = []
      · rw [if_neg hnames, if_pos hcolumns, if_pos (by tauto)]
        simp
      by_cases hknown : (schemas.any fun other =>
          other.schema = schema.schema ∧ other.name = schema.name) = true
      · rw [if_neg hnames, if_neg hcolumns, if_pos hknown, if_pos (by tauto)]
        simp
      · rw [if_neg hnames, if_neg hcolumns, if_neg hknown, if_neg (by tauto)]
        simp [stageRow, eq_comm]

theorem applyMessage_schema_iff (hkind : message.kind = .schema)
    (hphase : phase = .snapshot ∨ phase = .stream) (hversion : message.schemaVersion ≠ "") :
    applyMessage rt env committed message raw phase db = .ok (middle, phase')
      ↔ phase' = phase ∧ ∃ stage, stageSchema rt.cfg message db.schemaStage = .ok stage
        ∧ middle = { db with schemaStage := stage } := by
  unfold applyMessage
  simp only [hkind]
  rw [if_neg (by tauto), if_pos hversion, Except.bind_eq_ok]
  simp only [Except.ok.injEq, Prod.mk.injEq]
  constructor
  · rintro ⟨stage, hstage, rfl, rfl⟩
    exact ⟨rfl, stage, hstage, rfl⟩
  · rintro ⟨rfl, stage, hstage, rfl⟩
    exact ⟨stage, hstage, rfl, rfl⟩

theorem applyMessage_snapshotEnd_iff (hkind : message.kind = .snapshotEnd) :
    applyMessage rt env committed message raw .snapshot db = .ok (middle, phase')
      ↔ phase' = .stream ∧ ∃ activated, activateSnapshot rt message db = .ok activated
        ∧ publishSnapshot rt env.types committed message.generation activated = .ok middle := by
  unfold applyMessage
  simp only [hkind]
  rw [if_neg (by simp), Except.bind_eq_ok]
  simp only [Except.bind_eq_ok, Except.ok.injEq, Prod.mk.injEq]
  constructor
  · rintro ⟨activated, hactivated, published, hpublished, rfl, rfl⟩
    exact ⟨rfl, activated, hactivated, hpublished⟩
  · rintro ⟨rfl, activated, hactivated, hpublished⟩
    exact ⟨activated, hactivated, middle, hpublished, rfl, rfl⟩

theorem applyMessage_schemaEnd_iff (hkind : message.kind = .schemaEnd) :
    applyMessage rt env committed message raw .stream db = .ok (middle, phase')
      ↔ phase' = .stream
        ∧ applyStagedSchemas rt message.generation message.schemaVersion db = .ok middle := by
  unfold applyMessage
  simp only [hkind]
  rw [if_neg (by simp), Except.bind_eq_ok]
  simp only [Except.ok.injEq, Prod.mk.injEq]
  constructor
  · rintro ⟨activated, hactivated, rfl, rfl⟩
    exact ⟨rfl, hactivated⟩
  · rintro ⟨rfl, hactivated⟩
    exact ⟨middle, hactivated, rfl, rfl⟩

theorem applyMessage_transactionEnd_iff (hkind : message.kind = .transactionEnd) :
    applyMessage rt env committed message raw .stream db = .ok (middle, phase')
      ↔ phase' = .stream ∧ applyTransaction rt env.types committed message db = .ok middle := by
  unfold applyMessage
  simp only [hkind]
  rw [if_neg (by simp), Except.bind_eq_ok]
  simp only [Except.ok.injEq, Prod.mk.injEq]
  constructor
  · rintro ⟨applied, happlied, rfl, rfl⟩
    exact ⟨rfl, happlied⟩
  · rintro ⟨rfl, happlied⟩
    exact ⟨middle, happlied, rfl, rfl⟩

theorem applyMessage_snapshotRows_iff (hkind : message.kind = .snapshotRows)
    (hfresh : ∀ row ∈ db.snapshotRows, row.seq ≠ message.seq) :
    applyMessage rt env committed message raw .snapshot db = .ok (middle, phase')
      ↔ phase' = .snapshot
        ∧ middle = { db with snapshotRows := db.snapshotRows ++ snapshotRowsOf message } := by
  have hnew : ¬ ((snapshotRowsOf message).any fun row =>
      db.snapshotRows.any fun old => old.generation = row.generation ∧ old.key = row.key) = true := by
    rw [List.any_eq_true]
    rintro ⟨row, hrow, hduplicate⟩
    obtain ⟨old, hold, hsame⟩ := List.any_eq_true.mp hduplicate
    obtain ⟨_, -, rfl⟩ := List.mem_map.mp hrow
    exact hfresh old hold (congrArg (fun key => (ofLex key).1) (of_decide_eq_true hsame).2)
  unfold applyMessage
  simp only [hkind]
  rw [if_neg (by simp), if_neg hnew]
  simp only [Except.ok.injEq, Prod.mk.injEq]
  exact ⟨fun h => ⟨h.2.symm, h.1.symm⟩, fun h => ⟨h.2.symm, h.1.symm⟩⟩

theorem applyMessage_transactionRows_iff (hkind : message.kind = .transactionRows)
    (hfresh : ∀ row ∈ db.inbox, row.seq ≠ message.seq) :
    applyMessage rt env committed message raw .stream db = .ok (middle, phase')
      ↔ phase' = .stream ∧ middle = { db with inbox := db.inbox ++ [inboxRow (message, raw)] } := by
  have hnew : ¬ (db.inbox.any fun row =>
      row.generation = message.generation ∧ row.seq = message.seq) = true := by
    rw [List.any_eq_true]
    rintro ⟨row, hrow, hsame⟩
    exact hfresh row hrow (of_decide_eq_true hsame).2
  unfold applyMessage insertInbox
  simp only [hkind]
  rw [if_neg (by simp), if_neg hnew]
  constructor
  · intro h
    cases h
    exact ⟨rfl, rfl⟩
  · rintro ⟨rfl, rfl⟩
    rfl

end Effects

end GoSync.Server
