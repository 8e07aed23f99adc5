import GoSync.MySql.Rows
import GoSync.Producer.Batch

/-!
# The MySQL collector

A snapshot is taken under a global lock. The loop of `stream` handles one event of the binlog after the
other; it publishes at the end of a transaction, at a rollback and at a statement that may have changed the
schema. After such a statement it reads the catalog again. What a query of the catalog returns is an input.
-/

namespace GoSync.MySql

open Capture (Batch Call ReadFile Sizing)
open Producer (TableLoad)

/-- What capture takes from outside; `sizing` holds the configuration, and `print` is the text that bytes
are. -/
structure Runtime where
  sizing : Sizing
  schemaHash : List Table → String
  schemaHash_ne_empty : ∀ tables, schemaHash tables ≠ ""
  print : List UInt8 → String
  allowSnapshotLock : Bool := true

abbrev Runtime.refs (rt : Runtime) : List TableRef :=
  rt.sizing.cfg.tables

structure Inspection (refs : List TableRef) where
  serverUuid : String := ""
  database : String := ""
  tables : List Table
  covers : tables.map Table.ref = refs
  columns : ∀ table ∈ tables, table.columns ≠ []

section Events

inductive RowsType where
  | unknown
  | insert
  | update
  | delete
  deriving DecidableEq, Repr

structure RowsEvent where
  table : TableRef
  type : RowsType
  rows : List (List Value)
  skippedColumns : List (List Nat) := []
  deriving DecidableEq, Repr

inductive Body where
  | rotate (next : FileName)
  | rows (event : RowsEvent)
  | xid
  | query (text : String)
  | other
  deriving DecidableEq, Repr

structure BinlogEvent where
  logPos : LogPos
  body : Body
  deriving DecidableEq, Repr

inductive QueryKind where
  | begin
  | commit
  | rollback
  | statement
  deriving DecidableEq, Repr

def queryKind (text : String) : QueryKind :=
  let query := (trimSpace text).map upperChar
  if query = "BEGIN".toList then .begin
  else if query = "COMMIT".toList then .commit
  else if query = "ROLLBACK".toList then .rollback
  else .statement

def pairs : List (List Value) → List Images
  | before :: after :: rest =>
      { operation := .update, before := some before, after := some after } :: pairs rest
  | _ => []

def RowsEvent.images (event : RowsEvent) : List Images :=
  match event.type with
  | .unknown => []
  | .insert => event.rows.map fun values => { operation := .insert, after := some values }
  | .delete => event.rows.map fun values => { operation := .delete, before := some values }
  | .update => pairs event.rows

def RowsEvent.check (event : RowsEvent) : Except Error Unit :=
  if event.type = .unknown then .error .unknownRows
  else if event.skippedColumns.any fun skipped => skipped ≠ [] then .error .partialImage
  else if event.type = .update ∧ event.rows.length % 2 ≠ 0 then .error .incompletePair
  else .ok ()

/-- `tableMap`: of two tables of one name, the last one counts. -/
def findTable (tables : List Table) (ref : TableRef) : Option Table :=
  tables.reverse.find? fun table => table.ref = ref

def RowsEvent.convert (rt : Runtime) (table : Table) (ordinal : Nat) (event : RowsEvent) :
    List (Except Error Row) :=
  (event.images.zipIdx (ordinal + 1)).map fun (images, number) => makeRow rt.print table images number

end Events

section Streaming

variable {refs : List TableRef}

def rowsTemplate (transaction : String) : Message :=
  { kind := .transactionRows, transaction := transaction }

structure Loop (refs : List TableRef) where
  currentFile : FileName
  transaction : String
  batch : Batch
  info : Inspection refs
  ordinal : Nat := 0

namespace Loop

def opened (info : Inspection refs) (start : Position) : Loop refs where
  currentFile := start.name
  transaction := encodePosition start
  batch := { message := rowsTemplate (encodePosition start) }
  info := info

def checkpoint (loop : Loop refs) (logPos : LogPos) : String :=
  encodePosition ⟨loop.currentFile, logPos⟩

def rename (loop : Loop refs) (transaction : String) : Loop refs :=
  { loop with
    transaction := transaction
    batch := { loop.batch with message := { loop.batch.message with transaction := transaction } } }

def addRows (rt : Runtime) (read : ReadFile) (event : RowsEvent) (loop : Loop refs) :
    Plan Call Error (Loop refs) :=
  match findTable loop.info.tables event.table with
  | none => pure loop
  | some table => do
      Plan.lift event.check
      let b ← Producer.addRows rt.sizing read .capture (event.convert rt table loop.ordinal) loop.batch
      pure { loop with batch := b, ordinal := loop.ordinal + event.images.length }

def finish (loop : Loop refs) : Plan Call Error (Loop refs) :=
  if loop.ordinal = 0 then
    pure loop
  else do
    let b ← loop.batch.flush.mapError .capture
    Plan.request (.append { kind := .transactionEnd, transaction := loop.transaction })
    pure { loop with batch := b }

def commit (logPos : LogPos) (loop : Loop refs) : Plan Call Error (Loop refs) := do
  let loop ← loop.finish
  Plan.request (.publish (loop.checkpoint logPos) false)
  pure { loop with
         ordinal := 0
         transaction := loop.checkpoint logPos
         batch := { loop.batch with message := rowsTemplate (loop.checkpoint logPos) } }

def rollback (logPos : LogPos) (loop : Loop refs) : Plan Call Error (Loop refs) :=
  if loop.ordinal ≠ 0 then
    Plan.fail .rollback
  else do
    Plan.request (.publish (loop.checkpoint logPos) false)
    pure (loop.rename (loop.checkpoint logPos))

end Loop

def endRefresh (rt : Runtime) (hash : String) : Plan Call Error Unit :=
  if rt.sizing.cfg.grpc then Plan.request (.appendOnce { kind := .schemaEnd, schemaVersion := hash })
  else pure ()

def publishRefresh (rt : Runtime) (checkpoint : String) (next : Inspection refs) :
    Plan Call Error Unit := do
  next.tables.forM fun table =>
    Plan.request (.appendOnce { kind := .schema, schemaVersion := rt.schemaHash next.tables
                                schema := some table.document })
  endRefresh rt (rt.schemaHash next.tables)
  Plan.request (.publishSchema checkpoint (rt.schemaHash next.tables))

def refreshSchema (rt : Runtime) (inspected : Except Error (Inspection refs)) (checkpoint : String)
    (info : Inspection refs) : Plan Call Error (Inspection refs) := do
  let next ← Plan.lift inspected
  if next.serverUuid ≠ info.serverUuid then
    Plan.fail .sourceIdentity
  else if rt.schemaHash next.tables = rt.schemaHash info.tables then do
    Plan.request (.publish checkpoint false)
    pure info
  else do
    publishRefresh rt checkpoint next
    pure next

namespace Loop

def statement (rt : Runtime) (inspected : Except Error (Inspection refs)) (logPos : LogPos)
    (loop : Loop refs) : Plan Call Error (Loop refs) :=
  if loop.ordinal ≠ 0 then
    Plan.fail .ddl
  else do
    let info ← refreshSchema rt inspected (loop.checkpoint logPos) loop.info
    pure ({ loop with info := info }.rename (loop.checkpoint logPos))

/-- One round of the loop of `Collector.stream`; `inspected` is what a query of the catalog returns. -/
def next (rt : Runtime) (read : ReadFile) (inspected : Except Error (Inspection refs))
    (event : BinlogEvent) (loop : Loop refs) : Plan Call Error (Loop refs) :=
  match event.body with
  | .rotate name => pure { loop with currentFile := name }
  | .rows rows => loop.addRows rt read rows
  | .xid => loop.commit event.logPos
  | .query text =>
      match queryKind text with
      | .begin => pure (loop.rename (loop.checkpoint event.logPos))
      | .commit => pure loop
      | .rollback => loop.rollback event.logPos
      | .statement => loop.statement rt inspected event.logPos
  | .other => pure loop

end Loop

end Streaming

section Snapshots

variable {refs : List TableRef}

/-- What a snapshot gets from its surroundings: a token, the catalog and the position under the global
lock, and the rows of each table in text form. -/
structure SnapshotInput (refs : List TableRef) where
  token : String
  current : Except Error (Inspection refs)
  boundary : Position
  contents : TableRef → List (List (Option String))

def initialState (rt : Runtime) (info : Inspection refs) (token : String) : Queue.State where
  sourceId := rt.sizing.cfg.sourceId
  generation := token
  fingerprint := rt.sizing.cfg.fingerprint
  systemId := info.serverUuid
  database := info.database
  schemaHash := rt.schemaHash info.tables
  protocolVersion := if info.tables.any fun table => table.rowIdentity = .fullRow then "v2" else "v1"

def snapshotValues (values : List (Option String)) : List Value :=
  values.map fun value => (value.map Value.printed).getD .null

/-- The tables of a snapshot; their rows are numbered throughout, `total` of them before these. -/
def snapshotLoads (rt : Runtime) (contents : TableRef → List (List (Option String))) :
    Nat → List Table → List (TableLoad Error)
  | _, [] => []
  | total, table :: tables =>
      { schema := table.document
        rows := ((contents table.ref).zipIdx (total + 1)).map fun (values, ordinal) =>
          (makeRow rt.print table { operation := .read, after := some (snapshotValues values) }
            ordinal).mapError (.snapshotTable table.schema table.name)
        wrap := fun err => .snapshotTable table.schema table.name (.capture err) }
      :: snapshotLoads rt contents (total + (contents table.ref).length) tables

def snapshot (rt : Runtime) (read : ReadFile) (info : Inspection refs) (input : SnapshotInput refs) :
    Plan Call Error Unit :=
  if ¬ rt.allowSnapshotLock then
    Plan.fail .snapshotLock
  else do
    let current ← Plan.lift input.current
    if current.serverUuid ≠ info.serverUuid ∨ current.database ≠ info.database
        ∨ rt.schemaHash current.tables ≠ rt.schemaHash info.tables then
      Plan.fail .snapshotChanged
    else
      Producer.snapshot rt.sizing read (initialState rt current input.token) (.ok ())
        (current.tables.map Table.ref) (snapshotLoads rt input.contents 0 current.tables)
        (encodePosition input.boundary)

end Snapshots

end GoSync.MySql
