import GoSync.Lib.Paging
import GoSync.Server.Target
import Mathlib.Data.Prod.Lex

/-!
# Storing one message

`target.store` receives a message in one database transaction: it switches to a new generation,
recognizes a message it already has, checks that the message may come next, stages or applies it and
advances the progress row. A function that fails returns no database, as the transaction is rolled
back then.

The metadata tables hold the rows of one syncer. The rows of `snapshot_rows` and `schema_stage` are
kept decoded. The file store is asked for one effect at most, and `backend` says whether that
succeeds.
-/

namespace GoSync.Server

structure SyncState where
  generation : String := ""
  received : Nat := 0
  applied : Nat := 0
  phase : Phase := .unset
  openTransaction : String := ""
  schemaVersion : String := ""
  pendingSchemaVersion : String := ""
  repairAuthorized : Bool := false
  deriving DecidableEq, Repr

structure InboxRow (Raw : Type) where
  generation : String
  seq : Nat
  messageId : String
  payload : Raw
  deriving DecidableEq, Repr

structure ScopeRow where
  table : TableRef
  ordinal : Nat
  deriving DecidableEq, Repr

structure SnapshotRow where
  generation : String
  seq : Nat
  rowOrdinal : Nat
  payload : Row
  deriving DecidableEq, Repr

structure HashRow (Hash : Type) where
  generation : String
  seq : Nat
  payloadHash : Hash
  deriving DecidableEq, Repr

structure StageRow where
  generation : String
  schemaVersion : String
  sourceSchema : String
  tableName : String
  payload : SchemaTable
  deriving DecidableEq, Repr

structure Db (Raw Value Hash : Type) where
  syncState : SyncState := {}
  inbox : List (InboxRow Raw) := []
  snapshotScope : List ScopeRow := []
  snapshotRows : List SnapshotRow := []
  messageHash : List (HashRow Hash) := []
  schemaStage : List StageRow := []
  tables : Tables Value

inductive FileEffect where
  | put (path : String) (content : List UInt8) (mode : Nat) (modTimeUnixNano : Int)
  | delete (path : String)
  deriving DecidableEq, Repr

inductive StoreError where
  | seqTooLarge
  | newGeneration
  | differentPayload (seq : Nat)
  | nonContiguous (seq want : Nat)
  | filePath
  | fileDeleteEnvelope
  | fileOperation
  | fileLimits
  | fileDigest
  | fileContent
  | fileKind
  | refreshVersion
  | refreshChanged
  | schemaEndMismatch
  | refreshUnfinished
  | schemaVersion (version active : String)
  | rowsTransaction
  | stillOpen (transaction : String)
  | endMismatch (transaction openTransaction : String)
  | fileBatch
  | fileEndMismatch
  | fileDeleteOpen
  | schemaInTransaction
  | unconfiguredSnapshot (schema table : String)
  | schemaPhase
  | schemaPayload
  | unconfiguredSchema (schema table : String)
  | schemaEmpty (schema table : String)
  | stagedCount (staged want : Nat)
  | rowsOutsideSnapshot
  | endOutsideSnapshot
  | schemaEndPhase
  | rowsPhase
  | endPhase
  | filePhase
  | fileEndPhase
  | fileDelete
  | unsupportedKind (kind : String)
  | fileEndOperation
  | fileMetadata
  | fileInconsistent
  | fileDuplicateBegin
  | fileChunks
  | fileBase64
  | fileTooLarge
  | fileUnexpected
  | fileMismatch
  | fileStore
  | json
  | duplicateKey
  | target (err : TargetError)
  deriving DecidableEq, Repr

def StoreError.message (targetSchema : String) : StoreError → String
  | .seqTooLarge => "message sequence exceeds PostgreSQL bigint"
  | .newGeneration => "new generation must begin with snapshot_begin sequence 1"
  | .differentPayload seq => s!"sequence {seq} was already stored with a different payload"
  | .nonContiguous seq want => s!"non-contiguous message: got {seq}, want {want}"
  | .filePath => "file event has an invalid or unconfigured path"
  | .fileDeleteEnvelope => "invalid file_delete envelope"
  | .fileOperation => "file batch operation must be create or update"
  | .fileLimits => "file batch metadata exceeds configured limits"
  | .fileDigest => "file batch SHA-256 is invalid"
  | .fileContent => "file content is only allowed in file_chunk"
  | .fileKind => "unsupported file message"
  | .refreshVersion => "stream schema refresh requires schema_version"
  | .refreshChanged => "schema refresh version changed before schema_end"
  | .schemaEndMismatch => "schema_end does not match pending schema refresh"
  | .refreshUnfinished => "schema refresh must finish before row delivery"
  | .schemaVersion version active =>
      s!"message schema_version {version.quote} does not match active version {active.quote}"
  | .rowsTransaction => "transaction_rows requires a transaction identifier"
  | .stillOpen transaction => s!"transaction {transaction.quote} is still open"
  | .endMismatch transaction openTransaction =>
      s!"transaction_end {transaction.quote} does not match open transaction {openTransaction.quote}"
  | .fileBatch => "file batch requires a transaction and file payload"
  | .fileEndMismatch => "file_end does not match the open file batch"
  | .fileDeleteOpen => "file_delete requires a payload and no open batch"
  | .schemaInTransaction => "schema cannot be applied inside a transaction"
  | .unconfiguredSnapshot schema table => s!"snapshot contains unconfigured table {schema}.{table}"
  | .schemaPhase => "schema received outside a synchronization phase"
  | .schemaPayload => "invalid schema payload"
  | .unconfiguredSchema schema table => s!"schema references unconfigured table {schema}.{table}"
  | .schemaEmpty schema table => s!"schema for {schema}.{table} has no columns"
  | .stagedCount staged want => s!"schema refresh contains {staged} tables, want {want}"
  | .rowsOutsideSnapshot => "snapshot rows received outside snapshot"
  | .endOutsideSnapshot => "snapshot_end received outside snapshot"
  | .schemaEndPhase => "schema_end received outside stream"
  | .rowsPhase => "transaction rows received before snapshot publication"
  | .endPhase => "transaction end received before snapshot publication"
  | .filePhase => "file event received before snapshot or without file storage"
  | .fileEndPhase => "file_end received before snapshot or without file storage"
  | .fileDelete => "invalid file_delete event"
  | .unsupportedKind kind => s!"unsupported message kind {kind.quote}"
  | .fileEndOperation => "file_end operation must be create or update"
  | .fileMetadata => "file metadata exceeds configured limits"
  | .fileInconsistent => "file batch metadata is inconsistent"
  | .fileDuplicateBegin => "file batch has duplicate begin"
  | .fileChunks => "file chunks are not contiguous"
  | .fileBase64 => "file chunk is not valid base64"
  | .fileTooLarge => "file content exceeds configured limit"
  | .fileUnexpected => "unexpected message in file batch"
  | .fileMismatch => "file size, chunk count or SHA-256 does not match"
  | .fileStore => "file store error"
  | .json => "invalid json"
  | .duplicateKey => "duplicate key value violates unique constraint"
  | .target err => err.message targetSchema

/-- What `store` takes from outside the database: encoding, hashing, the target's SQL semantics and
the syncer's configuration. -/
structure Runtime (Raw Value Hash : Type) where
  codec : Codec Raw
  /-- `sha256.Sum256` of a message. -/
  payloadHash : Raw → Hash
  /-- SHA-256 of a file's content. -/
  contentHash : List UInt8 → List UInt8
  pg : Postgres Value
  cfg : Syncer

def Runtime.plain (cfg : Syncer) : Runtime Message String Message where
  codec := .plain
  payloadHash := id
  contentHash := id
  pg := .plain
  cfg := cfg

variable {Raw Value Hash : Type}

abbrev TypeCache := List (String × List (String × String))

/-- What one call of `store` finds: the cached types, and whether the file store will succeed. -/
structure Surroundings where
  types : TypeCache
  backend : FileEffect → Bool

/-- `columnTypes` reads through the cache; what is not cached is read outside the transaction, so it
is the committed catalog that answers. -/
def columnTypes (types : TypeCache) (committed : Tables Value) (table : String) :
    Except TargetError (List (String × String)) :=
  match types.lookup table with
  | some cached => .ok cached
  | none => targetColumnTypes committed table

def remember (types : TypeCache) (committed : Tables Value) (table : String) : TypeCache :=
  match types.lookup table, targetColumnTypes committed table with
  | none, .ok columns => (table, columns) :: types
  | _, _ => types

/-- `columnTypes` looks at `rows.Err` only after the write: a read that breaks off is kept as well, if it has
come to a first column. -/
def rememberFirst (count : Nat) (types : TypeCache) (committed : Tables Value) (table : String) :
    TypeCache :=
  match types.lookup table, targetColumnTypes committed table with
  | none, .ok columns =>
      if columns.take count = [] then types else (table, columns.take count) :: types
  | _, _ => types

def isFileKind : Kind → Bool
  | .fileBegin | .fileChunk | .fileEnd | .fileDelete => true
  | .other name => name.startsWith "file_"
  | _ => false

def validateFileMessage (cfg : Syncer) (message : Message) : Except StoreError Unit :=
  match message.file with
  | none => .error .filePath
  | some file =>
      if ¬ cfg.fileStorage.configured ∨ file.path = "" ∨ ¬ isLocal file.path
          ∨ file.path.toList.contains '\x00' then
        .error .filePath
      else
        match message.kind with
        | .fileDelete =>
            if file.operation ≠ .delete ∨ message.transaction ≠ "" ∨ file.data ≠ "" then
              .error .fileDeleteEnvelope
            else
              .ok ()
        | .fileBegin | .fileChunk | .fileEnd =>
            if file.operation ≠ .create ∧ file.operation ≠ .update then
              .error .fileOperation
            else if message.transaction = "" ∨ file.size < 0
                ∨ file.size > cfg.fileStorage.maxFileBytes ∨ file.chunks = 0 then
              .error .fileLimits
            else if (hexDecode file.sha256).map List.length ≠ some 32 then
              .error .fileDigest
            else if message.kind ≠ .fileChunk ∧ file.data ≠ "" then
              .error .fileContent
            else
              .ok ()
        | _ => .error .fileKind

def checkFile (cfg : Syncer) (message : Message) : Except StoreError Unit :=
  if isFileKind message.kind then validateFileMessage cfg message else .ok ()

structure FileBatch where
  seenBegin : Bool := false
  expectedChunk : Nat := 0
  content : List UInt8 := []

def applyFileChunk (maxFileBytes : Int) (endTransaction : String) (endFile : FileChange)
    (batch : FileBatch) (message : Message) : Except StoreError FileBatch :=
  match message.file with
  | none => .error .fileInconsistent
  | some file =>
      if message.transaction ≠ endTransaction ∨ file.path ≠ endFile.path
          ∨ file.operation ≠ endFile.operation ∨ file.size ≠ endFile.size
          ∨ file.sha256 ≠ endFile.sha256 ∨ file.chunks ≠ endFile.chunks then
        .error .fileInconsistent
      else
        match message.kind with
        | .fileBegin =>
            if batch.seenBegin ∨ batch.expectedChunk ≠ 0 then
              .error .fileDuplicateBegin
            else
              .ok { batch with seenBegin := true }
        | .fileChunk =>
            if ¬ batch.seenBegin ∨ file.chunk ≠ batch.expectedChunk
                ∨ batch.expectedChunk ≥ endFile.chunks then
              .error .fileChunks
            else
              match base64Decode file.data with
              | none => .error .fileBase64
              | some decoded =>
                  if ((decoded.length + batch.content.length : Nat) : Int) > maxFileBytes then
                    .error .fileTooLarge
                  else
                    .ok { batch with
                          expectedChunk := batch.expectedChunk + 1
                          content := batch.content ++ decoded }
        | _ => .error .fileUnexpected

def assembleFile (rt : Runtime Raw Value Hash) (message : Message) (file : FileChange)
    (inbox : List (InboxRow Raw)) : Except StoreError (List UInt8) :=
  if file.operation ≠ .create ∧ file.operation ≠ .update then
    .error .fileEndOperation
  else if file.size < 0 ∨ file.size > rt.cfg.fileStorage.maxFileBytes ∨ file.sha256 = ""
      ∨ file.chunks = 0 then
    .error .fileMetadata
  else do
    let rows := Paging.ordered InboxRow.seq
      (inbox.filter fun row => row.generation = message.generation)
    let batch ← rows.foldlM (fun batch row =>
      match rt.codec.unmarshal row.payload with
      | none => .error .json
      | some chunk =>
          applyFileChunk rt.cfg.fileStorage.maxFileBytes message.transaction file batch chunk)
      ({} : FileBatch)
    if ¬ batch.seenBegin ∨ batch.expectedChunk ≠ file.chunks
        ∨ (batch.content.length : Int) ≠ file.size
        ∨ hexEncode (rt.contentHash batch.content) ≠ file.sha256 then
      .error .fileMismatch
    else
      .ok batch.content

def applyFile (rt : Runtime Raw Value Hash) (backend : FileEffect → Bool) (message : Message)
    (file : FileChange) (inbox : List (InboxRow Raw)) : Except StoreError Unit := do
  let content ← assembleFile rt message file inbox
  if rt.cfg.allowsFileOperation file.operation
      ∧ ¬ backend (.put file.path content file.mode file.modTimeUnixNano) then
    .error .fileStore
  else
    .ok ()

def stageSchema (cfg : Syncer) (message : Message) (stage : List StageRow) :
    Except StoreError (List StageRow) :=
  match message.schema with
  | none => .error .schemaPayload
  | some schema =>
      if schema.schema = "" ∨ schema.name = "" ∨ ¬ cfg.allows schema.schema schema.name then
        .error (.unconfiguredSchema schema.schema schema.name)
      else if schema.columns = [] then
        .error (.schemaEmpty schema.schema schema.name)
      else if stage.any fun row => row.generation = message.generation
          ∧ row.schemaVersion = message.schemaVersion ∧ row.sourceSchema = schema.schema
          ∧ row.tableName = schema.name then
        .error .duplicateKey
      else
        .ok (stage ++ [{ generation := message.generation, schemaVersion := message.schemaVersion,
                         sourceSchema := schema.schema, tableName := schema.name,
                         payload := schema }])

def stagedSchemas (generation version : String) (stage : List StageRow) : List SchemaTable :=
  ((stage.filter fun row => row.generation = generation ∧ row.schemaVersion = version).insertionSort
    fun first second => first.sourceSchema < second.sourceSchema
      ∨ (first.sourceSchema = second.sourceSchema ∧ first.tableName ≤ second.tableName)).map
    StageRow.payload

def applyStagedSchemas (rt : Runtime Raw Value Hash) (generation version : String)
    (db : Db Raw Value Hash) : Except StoreError (Db Raw Value Hash) :=
  let schemas := stagedSchemas generation version db.schemaStage
  if schemas.length ≠ rt.cfg.tables.length then
    .error (.stagedCount schemas.length rt.cfg.tables.length)
  else do
    let tables ← (activate rt.pg rt.cfg schemas db.tables).mapError .target
    .ok { db with
          tables := tables
          schemaStage := db.schemaStage.filter fun row =>
            ¬ (row.generation = generation ∧ row.schemaVersion = version) }

/-- A snapshot of a source that versions its schema activates the staged schemas first. -/
def activateSnapshot (rt : Runtime Raw Value Hash) (message : Message) (db : Db Raw Value Hash) :
    Except StoreError (Db Raw Value Hash) :=
  if message.schemaVersion ≠ "" then
    applyStagedSchemas rt message.generation message.schemaVersion db
  else
    .ok db

def applyPageSize : Nat := 512

def snapshotScope (cfg : Syncer) :
    Nat → List TableRef → List ScopeRow → Except StoreError (List ScopeRow)
  | _, [], scope => .ok scope
  | ordinal, table :: rest, scope =>
      if ¬ cfg.allows table.schema table.name then
        .error (.unconfiguredSnapshot table.schema table.name)
      else if scope.any fun row => row.table = table then
        .error .duplicateKey
      else
        snapshotScope cfg (ordinal + 1) rest (scope ++ [{ table := table, ordinal := ordinal }])

def snapshotRowsOf (message : Message) : List SnapshotRow :=
  message.rows.zipIdx.map fun (row, ordinal) =>
    { generation := message.generation, seq := message.seq, rowOrdinal := ordinal, payload := row }

def SnapshotRow.key (row : SnapshotRow) : Nat ×ₗ Nat :=
  toLex (row.seq, row.rowOrdinal)

def publishSnapshot (rt : Runtime Raw Value Hash) (types : TypeCache) (committed : Tables Value)
    (generation : String) (db : Db Raw Value Hash) : Except StoreError (Db Raw Value Hash) := do
  let scope := Paging.ordered ScopeRow.ordinal db.snapshotScope
  let cleared ← (scope.reverse.foldlM
    (fun tables row => clearTable rt.pg tables row.table.name) db.tables).mapError .target
  let rows := db.snapshotRows.filter fun row => row.generation = generation
  let tables ← (Paging.scan SnapshotRow.key applyPageSize (fun _ => rows)
    (fun page tables => page.foldlM
      (fun tables row =>
        applyRow rt.pg rt.cfg (columnTypes types committed) { row.payload with operation := .insert }
          tables)
      tables)
    (rows.length + 1) none cleared).mapError .target
  .ok { db with tables := tables, snapshotRows := [], snapshotScope := [] }

def applyPage (rt : Runtime Raw Value Hash) (types : TypeCache) (committed : Tables Value)
    (message : Message) (page : List (InboxRow Raw)) (state : List (InboxRow Raw) × Tables Value) :
    Except StoreError (List (InboxRow Raw) × Tables Value) := do
  let batch ← page.mapM fun row =>
    match rt.codec.unmarshal row.payload with
    | none => .error .json
    | some chunk => .ok (row.seq, chunk)
  batch.foldlM
    (fun state item =>
      if item.2.transaction ≠ message.transaction then
        .ok state
      else do
        let tables ← (item.2.rows.foldlM
          (fun tables row => applyRow rt.pg rt.cfg (columnTypes types committed) row tables)
          state.2).mapError .target
        .ok (state.1.filter fun row =>
              ¬ (row.generation = message.generation ∧ row.seq = item.1), tables))
    state

def applyTransaction (rt : Runtime Raw Value Hash) (types : TypeCache) (committed : Tables Value)
    (message : Message) (db : Db Raw Value Hash) : Except StoreError (Db Raw Value Hash) := do
  let (inbox, tables) ← Paging.scan InboxRow.seq applyPageSize
    (fun state => state.1.filter fun row => row.generation = message.generation)
    (applyPage rt types committed message) (db.inbox.length + 1) none (db.inbox, db.tables)
  .ok { db with inbox := inbox, tables := tables }

def insertInbox (message : Message) (raw : Raw) (db : Db Raw Value Hash) :
    Except StoreError (Db Raw Value Hash) :=
  if db.inbox.any fun row => row.generation = message.generation ∧ row.seq = message.seq then
    .error .duplicateKey
  else
    .ok { db with
          inbox := db.inbox ++ [{ generation := message.generation, seq := message.seq,
                                  messageId := message.id, payload := raw }] }

def applyMessage (rt : Runtime Raw Value Hash) (env : Surroundings) (committed : Tables Value)
    (message : Message) (raw : Raw) (phase : Phase) (db : Db Raw Value Hash) :
    Except StoreError (Db Raw Value Hash × Phase) :=
  match message.kind with
  | .snapshotBegin => do
      let scope ← snapshotScope rt.cfg 0 message.tables []
      .ok ({ db with snapshotRows := [], snapshotScope := scope }, .snapshot)
  | .schema =>
      if phase ≠ .snapshot ∧ phase ≠ .stream then
        .error .schemaPhase
      else if message.schemaVersion ≠ "" then do
        let stage ← stageSchema rt.cfg message db.schemaStage
        .ok ({ db with schemaStage := stage }, phase)
      else
        .ok (db, phase)
  | .snapshotRows =>
      if phase ≠ .snapshot then
        .error .rowsOutsideSnapshot
      else if (snapshotRowsOf message).any fun row =>
          db.snapshotRows.any fun old => old.generation = row.generation ∧ old.key = row.key then
        .error .duplicateKey
      else
        .ok ({ db with snapshotRows := db.snapshotRows ++ snapshotRowsOf message }, phase)
  | .snapshotEnd =>
      if phase ≠ .snapshot then
        .error .endOutsideSnapshot
      else do
        let db ← activateSnapshot rt message db
        let db ← publishSnapshot rt env.types committed message.generation db
        .ok (db, .stream)
  | .schemaEnd =>
      if phase ≠ .stream then
        .error .schemaEndPhase
      else do
        let db ← applyStagedSchemas rt message.generation message.schemaVersion db
        .ok (db, phase)
  | .transactionRows =>
      if phase ≠ .stream then
        .error .rowsPhase
      else do
        let db ← insertInbox message raw db
        .ok (db, phase)
  | .transactionEnd =>
      if phase ≠ .stream then
        .error .endPhase
      else do
        let db ← applyTransaction rt env.types committed message db
        .ok (db, phase)
  | .fileBegin | .fileChunk =>
      if phase ≠ .stream ∨ ¬ rt.cfg.fileStorage.configured then
        .error .filePhase
      else do
        let db ← insertInbox message raw db
        .ok (db, phase)
  | .fileEnd =>
      match message.file with
      | none => .error .fileEndPhase
      | some file =>
          if phase ≠ .stream ∨ ¬ rt.cfg.fileStorage.configured then
            .error .fileEndPhase
          else do
            applyFile rt env.backend message file db.inbox
            .ok ({ db with inbox := db.inbox.filter fun row =>
                    ¬ row.generation = message.generation }, phase)
  | .fileDelete =>
      match message.file with
      | none => .error .fileDelete
      | some file =>
          if phase ≠ .stream ∨ ¬ rt.cfg.fileStorage.configured ∨ file.operation ≠ .delete then
            .error .fileDelete
          else if rt.cfg.allowsFileOperation .delete ∧ ¬ env.backend (.delete file.path) then
            .error .fileStore
          else
            .ok (db, phase)
  | .other kind => .error (.unsupportedKind kind)

def maxInt64 : Nat := 2 ^ 63 - 1

/-- A message of another generation must open it; the old generation's staging is dropped. The first
component is the progress `store` works with from here on. -/
def switchGeneration (message : Message) (db : Db Raw Value Hash) :
    Except StoreError (SyncState × Db Raw Value Hash) :=
  if message.generation = db.syncState.generation then
    .ok (db.syncState, db)
  else if message.seq ≠ 1 ∨ message.kind ≠ .snapshotBegin then
    .error .newGeneration
  else
    .ok ({ generation := message.generation, schemaVersion := message.schemaVersion,
           repairAuthorized := db.syncState.repairAuthorized },
         { db with inbox := [], snapshotRows := [], snapshotScope := [], messageHash := [],
                   schemaStage := [] })

/-- The schema checks of a message: no rows between the parts of a refresh, and rows only under the
active version. The result is the pending version. -/
def schemaBarrier (message : Message) (current : SyncState) : Except StoreError String :=
  if message.kind = .schema ∧ current.phase = .stream then
    if message.schemaVersion = "" then
      .error .refreshVersion
    else if current.pendingSchemaVersion = "" then
      .ok message.schemaVersion
    else if current.pendingSchemaVersion ≠ message.schemaVersion then
      .error .refreshChanged
    else
      .ok current.pendingSchemaVersion
  else if message.kind = .schemaEnd then
    if current.phase ≠ .stream ∨ message.schemaVersion = ""
        ∨ message.schemaVersion ≠ current.pendingSchemaVersion then
      .error .schemaEndMismatch
    else
      .ok current.pendingSchemaVersion
  else if current.pendingSchemaVersion ≠ "" then
    .error .refreshUnfinished
  else if message.schemaVersion ≠ current.schemaVersion then
    .error (.schemaVersion message.schemaVersion current.schemaVersion)
  else
    .ok current.pendingSchemaVersion

/-- The transaction checks of a message. The result is the open transaction while it is applied. -/
def checkTransaction (message : Message) (current : SyncState) : Except StoreError String :=
  match message.kind with
  | .transactionRows =>
      if message.transaction = "" then
        .error .rowsTransaction
      else if current.openTransaction = "" then
        .ok message.transaction
      else if current.openTransaction ≠ message.transaction then
        .error (.stillOpen current.openTransaction)
      else
        .ok current.openTransaction
  | .transactionEnd =>
      if message.transaction = "" ∨ current.openTransaction ≠ message.transaction then
        .error (.endMismatch message.transaction current.openTransaction)
      else
        .ok current.openTransaction
  | .fileBegin | .fileChunk =>
      if message.transaction = "" ∨ message.file = none then
        .error .fileBatch
      else if current.openTransaction = "" then
        .ok message.transaction
      else if current.openTransaction ≠ message.transaction then
        .error (.stillOpen current.openTransaction)
      else
        .ok current.openTransaction
  | .fileEnd =>
      if message.transaction = "" ∨ message.file = none
          ∨ current.openTransaction ≠ message.transaction then
        .error .fileEndMismatch
      else
        .ok current.openTransaction
  | .fileDelete =>
      if message.file = none ∨ current.openTransaction ≠ "" then
        .error .fileDeleteOpen
      else
        .ok current.openTransaction
  | .schema =>
      if current.openTransaction ≠ "" then
        .error .schemaInTransaction
      else
        .ok current.openTransaction
  | _ => .ok current.openTransaction

def advance (message : Message) (current : SyncState) (phase : Phase)
    (openTransaction pendingSchemaVersion : String) : SyncState :=
  { current with
    generation := message.generation
    received := message.seq
    applied :=
      if message.kind ∈ [.snapshotEnd, .transactionEnd, .schemaEnd, .fileEnd, .fileDelete] then
        message.seq
      else
        current.applied
    phase := phase
    openTransaction :=
      if message.kind ∈ [.transactionEnd, .fileEnd] then "" else openTransaction
    schemaVersion :=
      if message.kind = .schemaEnd then pendingSchemaVersion else current.schemaVersion
    pendingSchemaVersion :=
      if message.kind = .schemaEnd then "" else pendingSchemaVersion }

def receive (rt : Runtime Raw Value Hash) (env : Surroundings) (committed : Tables Value)
    (message : Message) (raw : Raw) (current : SyncState) (db : Db Raw Value Hash) :
    Except StoreError (Db Raw Value Hash) := do
  let _ ← checkFile rt.cfg message
  let pendingSchemaVersion ← schemaBarrier message current
  let openTransaction ← checkTransaction message current
  let (db, phase) ← applyMessage rt env committed message raw current.phase db
  if db.messageHash.any fun row =>
      row.generation = message.generation ∧ row.seq = message.seq then
    .error .duplicateKey
  else
    .ok { db with
          messageHash := db.messageHash ++ [{ generation := message.generation, seq := message.seq,
                                              payloadHash := rt.payloadHash raw }]
          syncState := advance message current phase openTransaction pendingSchemaVersion }

def store [DecidableEq Hash] (rt : Runtime Raw Value Hash) (env : Surroundings) (message : Message)
    (raw : Raw) (db : Db Raw Value Hash) : Except StoreError (Db Raw Value Hash) :=
  if message.seq > maxInt64 then
    .error .seqTooLarge
  else do
    let (current, cleared) ← switchGeneration message db
    if message.seq ≤ current.received then
      if cleared.messageHash.any fun row => row.generation = message.generation
          ∧ row.seq = message.seq ∧ row.payloadHash ≠ rt.payloadHash raw then
        .error (.differentPayload message.seq)
      else
        .ok cleared
    else if message.seq ≠ current.received + 1 then
      .error (.nonContiguous message.seq (current.received + 1))
    else
      receive rt env db.tables message raw current cleared

/-- The cache after a `store` that took effect: the catalog may have changed with the next message of a
snapshot or a schema refresh, and `store` empties the cache then, if `Commit` reports no error. -/
def typesAfter (reported : Bool) (message : Message) (before : SyncState) (types : TypeCache) :
    TypeCache :=
  if message.generation = before.generation ∧ message.seq ≤ before.received then types
  else if reported ∧ (message.kind = .snapshotEnd ∨ message.kind = .schemaEnd) then []
  else types

end GoSync.Server
