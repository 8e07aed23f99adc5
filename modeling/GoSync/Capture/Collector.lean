import GoSync.Capture.Decode
import GoSync.Queue.Traced

/-!
# The PostgreSQL collector

`Collector.Run` makes one attempt after the other. An attempt recovers the queue, takes a snapshot
where none has been sealed, and streams from the durable position. A row that does not fit the
captured schema is answered by publishing the new schema and starting over.

The source is given by the list of its committed transactions. wal2json may start a stream anywhere
at or before the first transaction that ends after the durable position. The checks of the
replication slot are left out: they end an attempt, which `stop` does at any time.
-/

namespace GoSync.Capture

open Queue (Traced Surroundings)

variable {Raw : Type}

structure Source where
  systemId : String := ""
  timeline : Int := 0
  database : String := ""
  query : TableRef → List CatalogRow

structure Inspection where
  systemId : String := ""
  timeline : Int := 0
  database : String := ""
  tables : List Table

/-- What a snapshot gets from its surroundings: the token for the new generation, the position and
catalog of the exported snapshot, and the rows of each table in text form. -/
structure SnapshotInput where
  token : String
  consistentPoint : String
  query : TableRef → List CatalogRow
  contents : TableRef → List (List (Option String))

def initialState (rt : Runtime) (info : Inspection) (token : String) : Queue.State where
  sourceId := rt.cfg.sourceId
  generation := token
  fingerprint := rt.cfg.fingerprint
  systemId := info.systemId
  timeline := info.timeline
  database := info.database
  schemaHash := rt.schemaHash info.tables
  slot := rt.cfg.slot
  protocolVersion := if info.tables.any fun t => t.rowIdentity = .fullRow then "v2" else ""

def snapshotColumn (column : CatalogColumn) (raw : Option String) : Column where
  name := column.name
  type := column.type
  value := if column.oid = 16 then raw.map fun value => if value = "t" then "true" else "false"
    else raw

def snapshotRow (t : Table) (values : List (Option String)) (ordinal : Nat) : Row :=
  let columns := List.zipWith snapshotColumn t.columns values
  { schema := t.schema, table := t.name, operation := .read, ordinal := ordinal, columns := columns
    identity := t.rowIdentity
    key := match t.rowIdentity with
      | .fullRow => columns
      | .primaryKey =>
          (t.columns.zip columns).filterMap fun entry => if entry.1.primary then some entry.2 else none }

def snapshotRows (current : List Table) (contents : TableRef → List (List (Option String))) :
    List Row :=
  current.flatMap fun t =>
    (contents t.ref).zipIdx.map fun (values, index) => snapshotRow t values (index + 1)

def readCatalog (rt : Runtime) (query : TableRef → List CatalogRow) :
    Except CaptureError (List Table) :=
  (catalog rt.cfg.tables query).mapError fun err => .catalog err.1 err.2

def snapshot (rt : Runtime) (read : ReadFile) (info : Inspection) (input : SnapshotInput) :
    Plan Call CaptureError Unit := do
  Plan.request (.initializeQueue (initialState rt info input.token))
  Plan.request (.snapshotPoint input.consistentPoint)
  let current ← Plan.lift (readCatalog rt input.query)
  if rt.schemaHash current ≠ rt.schemaHash info.tables then
    Plan.fail .snapshotSchema
  else do
    Plan.request (.append { kind := .snapshotBegin, tables := rt.cfg.tables,
                            lsn := input.consistentPoint })
    current.forM fun t =>
      Plan.request (.append { kind := .schema, schema := some t.document })
    let b ← (snapshotRows current input.contents).foldlM (fun b row => Batcher.add rt read row b)
      { message := { kind := .snapshotRows } }
    let _ ← b.flush
    Plan.request (.append { kind := .snapshotEnd, lsn := input.consistentPoint })
    Plan.request (.publish input.consistentPoint true)

/-- `refreshSchemaForReplay`. -/
def refreshSchema (rt : Runtime) (durable : Lsn) (oldHash : String)
    (query : TableRef → List CatalogRow) : Plan Call CaptureError Unit :=
  if ¬ rt.cfg.grpc then
    Plan.fail .transport
  else do
    let current ← Plan.lift (readCatalog rt query)
    if rt.schemaHash current = oldHash then
      Plan.fail .schemaMismatch
    else do
      Plan.request .recover
      current.forM fun t =>
        Plan.request (.appendOnce { kind := .schema, schemaVersion := rt.schemaHash current,
                                    schema := some t.document })
      Plan.request (.appendOnce { kind := .schemaEnd, schemaVersion := rt.schemaHash current })
      Plan.request (.publishSchema (rt.lsn.render durable) (rt.schemaHash current))

def checkAttempt (rt : Runtime) (info : Inspection) (st : Queue.State) : Except CaptureError Unit :=
  if st.phase = .unset then
    .ok ()
  else if st.fingerprint ≠ rt.cfg.fingerprint ∨ st.slot ≠ rt.cfg.slot then
    .error .configuration
  else if st.systemId ≠ info.systemId ∨ st.database ≠ info.database
      ∨ st.timeline ≠ info.timeline then
    .error .sourceIdentity
  else if st.phase = .stream ∧ st.schemaHash ≠ rt.schemaHash info.tables then
    .error .offlineSchema
  else
    .ok ()

structure Change where
  kind : ChangeKind
  schema : String
  table : String
  columns : List WireColumn := []
  identity : List WireColumn := []
  deriving DecidableEq, Repr

/-- A committed source transaction with its changes to the configured tables. -/
structure Transaction where
  xid : Nat
  «end» : Lsn
  changes : List Change
  deriving DecidableEq, Repr

def Change.record (xid : Nat) (change : Change) : Record where
  action := .change change.kind
  xid := xid
  schema := change.schema
  table := change.table
  columns := change.columns
  identity := change.identity

def Transaction.records (lsn : LsnText) (tx : Transaction) : List Record :=
  { action := .begin, xid := tx.xid, nextLsn := lsn.render tx.end }
    :: (tx.changes.map (Change.record tx.xid)
      ++ [{ action := .commit, xid := tx.xid, nextLsn := lsn.render tx.end }])

/-- Where the capture goroutine is. A running part holds the queue calls it has still to make; a
stream also holds the records that follow. -/
inductive Process where
  | stopped
  | checked (info : Inspection)
  | snapshotting (info : Inspection) (plan : Plan Call CaptureError Unit)
  | streaming (oldHash : String) (remaining : List Record)
      (plan : Plan Call (CaptureError × Lsn) Decoder)
  | refreshing (plan : Plan Call CaptureError Unit)

def Call.op (env : Surroundings) : Call → Queue.Op
  | .initializeQueue st => .initializeQueue st
  | .snapshotPoint lsn => .snapshotPoint lsn
  | .finalizeSnapshotLsn lsn => .finalizeSnapshotLsn lsn
  | .append message | .appendOnce message => .append env message
  | .publish lsn sealSnapshot => .publish lsn sealSnapshot
  | .publishSource lsn cleanup => .publishSource lsn false cleanup
  | .publishSchema lsn hash => .publishSchema lsn hash
  | .clearSourceCleanup expected => .clearSourceCleanup expected
  | .recover => .recover

def Call.waits (call : Call) (err : Queue.Error) (st : Queue.State) : Bool :=
  match call with
  | .append _ => err = .full ∧ st.readySeq ≠ st.deliveredSeq
  | _ => false

def Process.next : Process → Option (Call × Process)
  | .snapshotting info ⟨request :: rest, result⟩ =>
      some (request, .snapshotting info ⟨rest, result⟩)
  | .streaming oldHash remaining ⟨request :: rest, result⟩ =>
      some (request, .streaming oldHash remaining ⟨rest, result⟩)
  | .refreshing ⟨request :: rest, result⟩ => some (request, .refreshing ⟨rest, result⟩)
  | _ => none

structure Collector (Raw : Type) where
  queue : Traced Raw
  process : Process := .stopped

inductive Step where
  | attempt (source : Source)
  | snapshot (input : SnapshotInput) (read : ReadFile)
  | stream (skipped : Nat)
  | receive (frame : Frame) (read : ReadFile)
  | refresh (query : TableRef → List CatalogRow)
  | perform (env : Surroundings)
  | stop

def inspect (rt : Runtime) (source : Source) (st : Queue.State) : Except CaptureError Inspection := do
  let tables ← readCatalog rt source.query
  let info : Inspection :=
    { systemId := source.systemId, timeline := source.timeline, database := source.database,
      tables := tables }
  checkAttempt rt info st
  .ok info

def Collector.attempt (rt : Runtime) (codec : Codec Raw) (source : Source) (c : Collector Raw) :
    Collector Raw :=
  match c.queue.exec codec .recover with
  | .error _ => c
  | .ok queue =>
      match inspect rt source queue.db.state with
      | .error _ => { c with queue := queue }
      | .ok info => { queue := queue, process := .checked info }

/-- The start of `Collector.stream` at the transaction number `skipped` of the source. -/
def Collector.stream (rt : Runtime) (history : List Transaction) (skipped : Nat) (info : Inspection)
    (c : Collector Raw) : Collector Raw :=
  match rt.lsn.parse c.queue.db.state.durableLsn with
  | none => { c with process := .stopped }
  | some start =>
      if (history.take skipped).all fun tx => tx.end ≤ start then
        { c with
          process := .streaming c.queue.db.state.schemaHash
            ((history.drop skipped).flatMap (Transaction.records rt.lsn))
            (pure (newDecoder info.tables start)) }
      else
        c

/-- Whether the stream may bring this frame: the records that come next, or such records and then one
that the decoder refuses. -/
def Frame.follows (rt : Runtime) (read : ReadFile) (frame : Frame) (d : Decoder)
    (remaining : List Record) : Bool :=
  frame.records.isPrefixOf remaining
    || (frame.records.dropLast.isPrefixOf remaining
      && match (d.consume rt read { frame with garbled := false }).result with
        | .error _ => true
        | .ok _ => false)

def Collector.perform (codec : Codec Raw) (env : Surroundings) (c : Collector Raw) : Collector Raw :=
  match c.process.next with
  | none => c
  | some (request, process) =>
      match c.queue.exec codec (request.op env) with
      | .ok queue => { queue := queue, process := process }
      | .error err =>
          if request.waits err c.queue.db.state then c else { c with process := .stopped }

def Collector.step (rt : Runtime) (codec : Codec Raw) (history : List Transaction)
    (c : Collector Raw) : Step → Collector Raw
  | .attempt source =>
      match c.process with
      | .stopped => c.attempt rt codec source
      | _ => c
  | .snapshot input read =>
      match c.process with
      | .checked info =>
          if c.queue.db.state.phase = .stream then c
          else { c with process := .snapshotting info (snapshot rt read info input) }
      | _ => c
  | .stream skipped =>
      match c.process with
      | .checked info =>
          if c.queue.db.state.phase = .stream then c.stream rt history skipped info else c
      | .snapshotting info ⟨[], .ok ()⟩ => c.stream rt history skipped info
      | _ => c
  | .receive frame read =>
      match c.process with
      | .streaming oldHash remaining ⟨[], .ok d⟩ =>
          if frame.follows rt read d remaining then
            { c with process := .streaming oldHash (remaining.drop frame.records.length)
                      (d.consume rt read frame) }
          else
            c
      | _ => c
  | .refresh query =>
      match c.process with
      | .streaming oldHash _ ⟨[], .error (err, durable)⟩ =>
          if err.isSchemaMismatch then
            { c with process := .refreshing (refreshSchema rt durable oldHash query) }
          else
            c
      | _ => c
  | .perform env => c.perform codec env
  | .stop => { c with process := .stopped }

end GoSync.Capture
