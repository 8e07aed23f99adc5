import GoSync.Capture.Catalog
import GoSync.Lib.Plan
import GoSync.Queue.Store

/-!
# Batching captured rows

The capture goroutine never reads from its queue while it batches rows: it asks for one change after
the other and gives up at the first one that is refused. So its functions are plans of queue calls,
and the calls of other goroutines may come between any two of them.
-/

namespace GoSync.Capture

structure FileColumn where
  schema : String
  table : String
  column : String
  rootDir : String := ""
  maxBytes : Int := 0
  deriving DecidableEq, Repr

structure Config where
  sourceId : String
  slot : String := ""
  fingerprint : String := ""
  tables : List TableRef
  fileColumns : List FileColumn := []
  batchRows : Nat := 500
  batchBytes : Nat := 2 ^ 20
  maxRowBytes : Nat := 16 * 2 ^ 20
  grpc : Bool := true
  deriving DecidableEq, Repr

abbrev Lsn := Fin (2 ^ 64)

instance Lsn.neZero : NeZero (2 ^ 64) := inferInstance

structure LsnText where
  parse : String → Option Lsn
  render : Lsn → String
  parse_render : ∀ lsn, parse (render lsn) = some lsn
  parse_empty : parse "" = none

structure Sizing where
  cfg : Config
  rowSize : Row → Nat

/-- What capture takes from outside: its configuration, the JSON size of a row, the text of a WAL
position and the digest of a catalog, a SHA-256 in hex. -/
structure Runtime extends Sizing where
  lsn : LsnText
  schemaHash : List Table → String
  schemaHash_ne_empty : ∀ tables, schemaHash tables ≠ ""

def LsnText.strokes : LsnText where
  parse text :=
    if h : 0 < text.length ∧ text.length - 1 < 2 ^ 64 then some ⟨text.length - 1, h.2⟩ else none
  render lsn := String.ofList (List.replicate (lsn.val + 1) 'x')
  parse_render := by
    intro lsn
    have hlength : (String.ofList (List.replicate (lsn.val + 1) 'x')).length = lsn.val + 1 := by
      simp
    simp only [hlength]
    rw [dif_pos ⟨Nat.succ_pos _, lsn.isLt⟩]
    rfl
  parse_empty := rfl

def Runtime.plain (cfg : Config) : Runtime where
  cfg := cfg
  rowSize _ := 1
  lsn := .strokes
  schemaHash _ := "h"
  schemaHash_ne_empty _ := by decide

inductive CaptureError where
  | embed (rule : FileColumn) (reason : String)
  | rowTooLarge
  | recordTooLarge
  | invalidRecord
  | nestedTransaction
  | beginWithoutEnd
  | commitWithoutBegin
  | commitMismatch
  | rowOutside
  | unexpectedTable
  | truncate
  | logicalMessage
  | unknownAction (action : String)
  | schemaMismatch
  | insertCount
  | value
  | fullRowIdentity
  | deleteKey
  | rowKey
  | updateOldKey
  | snapshotSchema
  | transport
  | configuration
  | sourceIdentity
  | offlineSchema
  | catalog (table : TableRef) (err : CatalogError)
  deriving DecidableEq, Repr

def CaptureError.message : CaptureError → String
  | .embed rule reason =>
      s!"embed file for {rule.schema}.{rule.table}.{rule.column}: {reason}"
  | .rowTooLarge => "row exceeds max_row_bytes"
  | .recordTooLarge => "wal record exceeds hard limit"
  | .invalidRecord => "invalid wal2json record"
  | .nestedTransaction => "nested transaction"
  | .beginWithoutEnd => "begin missing transaction end lsn"
  | .commitWithoutBegin => "commit without matching begin"
  | .commitMismatch => "commit lsn mismatch"
  | .rowOutside => "row outside matching transaction"
  | .unexpectedTable => "unexpected table in replication stream"
  | .truncate => "truncate requires explicit reinitialization"
  | .logicalMessage => "unexpected logical message"
  | .unknownAction action => s!"unknown wal2json action {action.quote}"
  | .schemaMismatch => "row schema differs from captured schema"
  | .insertCount =>
      "insert column count differs from schema: row schema differs from captured schema"
  | .value => "invalid value"
  | .fullRowIdentity => "full-row identity missing columns; refusing partial row matching"
  | .deleteKey => "delete missing primary key"
  | .rowKey => "row missing primary key"
  | .updateOldKey => "update missing old primary key"
  | .snapshotSchema => "schema changed while opening snapshot"
  | .transport => "postgres schema changed; online adaptation requires the standard gRPC server"
  | .configuration => "capture configuration differs from persisted state"
  | .sourceIdentity => "source identity/timeline changed; automatic failover is unsupported"
  | .offlineSchema =>
      "schema changed while collector was offline; explicit reinitialization is required"
  | .catalog table err => err.message table

def CaptureError.isSchemaMismatch : CaptureError → Bool
  | .schemaMismatch | .insertCount => true
  | _ => false

/-- A queue call of the capture goroutine. `append` is the batcher's, which waits while the queue is
full; `appendOnce` is the queue's own. -/
inductive Call where
  | initializeQueue (st : Queue.State)
  | snapshotPoint (lsn : String)
  | finalizeSnapshotLsn (lsn : String)
  | append (message : Message)
  | appendOnce (message : Message)
  | publish (lsn : String) (sealSnapshot : Bool)
  | publishSource (lsn cleanup : String)
  | publishSchema (lsn hash : String)
  | clearSourceCleanup (expected : String)
  | recover

abbrev ReadFile := Row → FileColumn → String → Except String String

def embedColumn (read : FileColumn → String → Except String String) (rule : FileColumn)
    (column : Column) : Except CaptureError Column :=
  if column.name ≠ rule.column then
    .ok column
  else
    match column.value with
    | none => .ok column
    | some value =>
        match read rule value with
        | .error reason => .error (.embed rule reason)
        | .ok encoded =>
            .ok { column with value := some encoded, sourceValue := some value, encoding := "base64" }

/-- `fileembed.Apply`. -/
def embedFiles (cfg : Config) (read : ReadFile) (row : Row) : Except CaptureError Row :=
  cfg.fileColumns.foldlM
    (fun embedded rule =>
      if rule.schema ≠ embedded.schema ∨ rule.table ≠ embedded.table then
        .ok embedded
      else do
        let columns ← embedded.columns.mapM (embedColumn (read row) rule)
        .ok { embedded with columns := columns })
    row

/-- The `batcher` of the PostgreSQL package and the `batch` of the other databases. -/
structure Batch where
  message : Message
  size : Nat := 0
  deriving DecidableEq, Repr

namespace Batch

def flush (b : Batch) : Plan Call CaptureError Batch :=
  if b.message.rows = [] then
    pure b
  else do
    Plan.request (.append b.message)
    pure { message := { b.message with rows := [], chunk := b.message.chunk + 1 }, size := 0 }

def flushIf (due : Bool) (b : Batch) : Plan Call CaptureError Batch :=
  if due then b.flush else pure b

def push (row : Row) (size : Nat) (b : Batch) : Batch :=
  { message := { b.message with rows := b.message.rows ++ [row] }, size := b.size + size }

def full (cfg : Config) (b : Batch) : Bool :=
  b.message.rows.length ≥ cfg.batchRows ∨ b.size ≥ cfg.batchBytes

def heavy (cfg : Config) (size : Nat) (b : Batch) : Bool :=
  b.message.rows ≠ [] ∧ b.size + size > cfg.batchBytes

/-- The PostgreSQL batcher also counts the rows before it adds one. -/
def crowded (cfg : Config) (size : Nat) (b : Batch) : Bool :=
  b.message.rows ≠ [] ∧ (b.message.rows.length ≥ cfg.batchRows ∨ b.size + size > cfg.batchBytes)

def addUnless (due : Nat → Batch → Bool) (sizing : Sizing) (read : ReadFile) (row : Row) (b : Batch) :
    Plan Call CaptureError Batch := do
  let row ← Plan.lift (embedFiles sizing.cfg read row)
  if sizing.rowSize row > sizing.cfg.maxRowBytes then
    Plan.fail .rowTooLarge
  else do
    let b ← b.flushIf (due (sizing.rowSize row) b)
    let b := b.push row (sizing.rowSize row)
    b.flushIf (b.full sizing.cfg)

def add (sizing : Sizing) : ReadFile → Row → Batch → Plan Call CaptureError Batch :=
  addUnless (heavy sizing.cfg) sizing

end Batch

def Batcher.add (rt : Runtime) : ReadFile → Row → Batch → Plan Call CaptureError Batch :=
  Batch.addUnless (Batch.crowded rt.cfg) rt.toSizing

end GoSync.Capture
