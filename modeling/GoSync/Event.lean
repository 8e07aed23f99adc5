import Mathlib.Algebra.Ring.Int.Defs

/-!
# Wire format

The versioned message that a collector stores in its queue and a server stores in its inbox. Go
strings are modelled by `String`, so invalid UTF-8, which the JSON encoder would replace, cannot
occur. A `json.RawMessage` is represented by what its readers decode from it.
-/

namespace GoSync

inductive Engine where
  | postgres
  | sqlserver
  | sqlserverLegacy
  | mysql
  | files
  deriving DecidableEq, Repr

def Engine.name : Engine → String
  | .postgres => "postgres"
  | .sqlserver => "sqlserver"
  | .sqlserverLegacy => "sqlserver_legacy"
  | .mysql => "mysql"
  | .files => "files"

/-- `event.Column`. An absent value is a column that is not listed; `none` is SQL NULL. -/
structure Column where
  name : String
  type : String := ""
  value : Option String
  encoding : String := ""
  sourceValue : Option String := none
  deriving DecidableEq, Repr

inductive Operation where
  | read
  | insert
  | update
  | delete
  | other (name : String)
  deriving DecidableEq, Repr

inductive RowIdentity where
  | primaryKey
  | fullRow
  deriving DecidableEq, Repr

structure Row where
  identity : RowIdentity := .primaryKey
  schema : String
  table : String
  operation : Operation
  key : List Column := []
  oldKey : List Column := []
  columns : List Column := []
  ordinal : Nat := 0
  deriving DecidableEq, Repr

structure TableRef where
  schema : String
  name : String
  deriving DecidableEq, Repr

inductive FileOperation where
  | create
  | update
  | delete
  | other (name : String)
  deriving DecidableEq, Repr

structure FileChange where
  path : String
  operation : FileOperation
  size : Int := 0
  modTimeUnixNano : Int := 0
  mode : Nat := 0
  sha256 : String := ""
  chunk : Nat := 0
  chunks : Nat := 0
  data : String := ""
  deriving DecidableEq, Repr

/-- `server.sourceSchemaColumn`: what the server decodes from a column of a schema document. -/
structure SchemaColumn where
  name : String
  type : String := ""
  columnType : String := ""
  baseType : String := ""
  notNull : Bool := false
  nullable : Option Bool := none
  primary : Bool := false
  deriving DecidableEq, Repr

/-- `server.sourceSchemaTable`: what the server decodes from a schema document. -/
structure SchemaTable where
  sourceType : String := ""
  schema : String
  name : String
  engine : String := ""
  columns : List SchemaColumn
  deriving DecidableEq, Repr

inductive Kind where
  | snapshotBegin
  | schema
  | snapshotRows
  | snapshotEnd
  | schemaEnd
  | transactionRows
  | transactionEnd
  | fileBegin
  | fileChunk
  | fileEnd
  | fileDelete
  | other (name : String)
  deriving DecidableEq, Repr

def Kind.text : Kind → String
  | .snapshotBegin => "snapshot_begin"
  | .schema => "schema"
  | .snapshotRows => "snapshot_rows"
  | .snapshotEnd => "snapshot_end"
  | .schemaEnd => "schema_end"
  | .transactionRows => "transaction_rows"
  | .transactionEnd => "transaction_end"
  | .fileBegin => "file_begin"
  | .fileChunk => "file_chunk"
  | .fileEnd => "file_end"
  | .fileDelete => "file_delete"
  | .other name => name

structure Message where
  version : String := ""
  sourceId : String := ""
  generation : String := ""
  schemaVersion : String := ""
  seq : Nat := 0
  id : String := ""
  kind : Kind
  transaction : String := ""
  chunk : Nat := 0
  lsn : String := ""
  tables : List TableRef := []
  /-- The decoded schema document; `none` where there is none or it does not decode. -/
  schema : Option SchemaTable := none
  rows : List Row := []
  file : Option FileChange := none
  createdAt : String := ""
  deriving DecidableEq, Repr

inductive Phase where
  | unset
  | snapshot
  | stream
  deriving DecidableEq, Repr

/-- `fmt.Sprintf("%s/%s/%d", sourceId, generation, seq)`, the canonical message id. -/
def messageId (sourceId generation : String) (seq : Nat) : String :=
  sourceId ++ "/" ++ generation ++ "/" ++ toString seq

/-- `encoding/json` on messages: `marshal` fails only on an invalid raw document, `unmarshal` accepts
more texts than `marshal` produces, and what was marshalled is read back unchanged. -/
structure Codec (Raw : Type) where
  marshal : Message → Option Raw
  unmarshal : Raw → Option Message
  size : Raw → Nat
  unmarshal_marshal : ∀ message raw, marshal message = some raw → unmarshal raw = some message

def Codec.plain : Codec Message where
  marshal := some
  unmarshal := some
  size := fun _ => 1
  unmarshal_marshal := fun _ _ h => h.symm

end GoSync
