import GoSync.Capture.Batch
import GoSync.Encoding
import GoSync.Lib.Outcome
import Mathlib.Order.Fin.Basic

/-!
# Rows of the MySQL binlog

Binlog positions and their text, the tables of a MySQL source, and the conversion of row images. A row
image is a list of values without column names: a value belongs to the column at its place in the table
as the collector knows it.
-/

namespace GoSync.MySql

abbrev FileName := List UInt8

abbrev LogPos := Fin (2 ^ 32)

structure Position where
  name : FileName
  pos : LogPos
  deriving DecidableEq, Repr

structure Column where
  name : String
  type : String
  columnType : String
  nullable : Bool := true
  primaryKey : Bool := false
  deriving DecidableEq, Repr

structure Table where
  schema : String
  name : String
  engine : String := "InnoDB"
  columns : List Column
  deriving DecidableEq, Repr

def Table.ref (table : Table) : TableRef :=
  ⟨table.schema, table.name⟩

def Table.rowIdentity (table : Table) : RowIdentity :=
  if table.columns.any Column.primaryKey then .primaryKey else .fullRow

def Table.document (table : Table) : SchemaTable where
  schema := table.schema
  name := table.name
  engine := table.engine
  columns := table.columns.map fun column =>
    { name := column.name, type := column.type, columnType := column.columnType,
      nullable := some column.nullable, primary := column.primaryKey }

inductive Error where
  | capture (err : Capture.CaptureError)
  | source (text : String)
  | checkpoint
  | checkpointFile
  | checkpointPosition
  | unsupportedValue (type column : String)
  | beforeImage
  | afterImage
  | operation
  | unknownRows
  | partialImage
  | incompletePair
  | rollback
  | ddl
  | sourceIdentity
  | scopeChanged
  | schemaDiffers
  | snapshotLock
  | snapshotChanged
  | snapshotTable (schema name : String) (err : Error)
  deriving DecidableEq, Repr

def Error.message : Error → String
  | .capture err => err.message
  | .source text => text
  | .checkpoint => "invalid mysql checkpoint"
  | .checkpointFile => "invalid mysql checkpoint file"
  | .checkpointPosition => "invalid mysql checkpoint position"
  | .unsupportedValue type column => s!"unsupported mysql value {type} for {column}"
  | .beforeImage => "mysql row before-image does not match current schema"
  | .afterImage => "mysql row after-image does not match current schema"
  | .operation => "unknown mysql row operation"
  | .unknownRows => "mysql unknown row event"
  | .partialImage => "mysql partial row image detected; binlog_row_image must remain FULL"
  | .incompletePair => "mysql update event has incomplete before/after pair"
  | .rollback => "mysql rollback encountered after row events"
  | .ddl => "mysql DDL/implicit commit encountered with staged row events"
  | .sourceIdentity => "mysql source identity changed"
  | .scopeChanged => "mysql source identity or capture scope changed"
  | .schemaDiffers => "mysql schema differs from durable schema; a DDL binlog event may have expired"
  | .snapshotLock =>
      "initial mysql snapshot requires mysql.allow_snapshot_lock=true because FLUSH TABLES WITH READ "
        ++ "LOCK briefly blocks writes"
  | .snapshotChanged => "mysql source or schema changed while acquiring snapshot boundary"
  | .snapshotTable schema name err => s!"mysql snapshot {schema}.{name}: " ++ err.message

section Positions

def encodePosition (p : Position) : String :=
  String.ofList ("mysql:v1:".toList ++ rawUrlEncode p.name ++ ':' :: decimal 20 p.pos.val)

/-- `strconv.ParseUint` in base ten for 32 bits, from the first place after the header of a file on. -/
def parsePos (digits : List Char) : Except Error LogPos :=
  match parseDigits digits with
  | none => .error .checkpointPosition
  | some value =>
      if h : value < 2 ^ 32 then
        if value < 4 then .error .checkpointPosition else .ok ⟨value, h⟩
      else
        .error .checkpointPosition

def parseFile (text : List Char) : Except Error FileName :=
  match rawUrlDecode text with
  | none => .error .checkpointFile
  | some name => if name = [] then .error .checkpointFile else .ok name

def decodePosition (raw : String) : Except Error Position :=
  match raw.toList.splitOn ':' with
  | [source, version, file, digits] =>
      if source ≠ "mysql".toList ∨ version ≠ "v1".toList then
        .error .checkpoint
      else do
        let name ← parseFile file
        let pos ← parsePos digits
        pure ⟨name, pos⟩
  | _ => .error .checkpoint

variable {p q : Position}

theorem splitOn_parts {file digits : List Char} (hfile : ':' ∉ file) (hdigits : ':' ∉ digits) :
    ("mysql:v1:".toList ++ file ++ ':' :: digits).splitOn ':'
      = ["mysql".toList, "v1".toList, file, digits] := by
  have hsource : ':' ∉ "mysql".toList := by decide
  have hversion : ':' ∉ "v1".toList := by decide
  have htext : "mysql:v1:".toList ++ file ++ ':' :: digits
      = [':'].intercalate ["mysql".toList, "v1".toList, file, digits] := by
    simp [List.intercalate]
  rw [htext]
  apply List.splitOn_intercalate
  · intro part hpart
    simp only [List.mem_cons, List.not_mem_nil, or_false] at hpart
    rcases hpart with rfl | rfl | rfl | rfl
    · exact hsource
    · exact hversion
    · exact hfile
    · exact hdigits
  · exact List.cons_ne_nil _ _

theorem splitOn_encodePosition (p : Position) :
    (encodePosition p).toList.splitOn ':'
      = ["mysql".toList, "v1".toList, rawUrlEncode p.name, decimal 20 p.pos.val] := by
  have hfile : ':' ∉ rawUrlEncode p.name := url.not_mem_encode _ (by decide)
  have hdigits : ':' ∉ decimal 20 p.pos.val := by
    intro hcolon
    have hdigit := List.all_eq_true.mp (decimal_digits 20 p.pos.val) _ hcolon
    exact absurd hdigit (by decide)
  have htext : (encodePosition p).toList
      = "mysql:v1:".toList ++ rawUrlEncode p.name ++ ':' :: decimal 20 p.pos.val :=
    String.toList_ofList
  rw [htext]
  exact splitOn_parts hfile hdigits

theorem parseDigits_pos (pos : LogPos) : parseDigits (decimal 20 pos.val) = some pos.val :=
  parseDigits_decimal 19 pos.val (pos.isLt.trans (by decide))

example : decodePosition (encodePosition ⟨[98, 105, 110], 120⟩) = .ok ⟨[98, 105, 110], 120⟩ := by
  decide

end Positions

section Images

/-- A value of a row image: bytes, an integer, or what prints to a text of its own (strings, floats, times
and decimals). -/
inductive Value where
  | null
  | bytes (raw : List UInt8)
  | int (value : Int)
  | printed (text : String)
  | other (type : String)
  deriving DecidableEq, Repr

def binaryType (type : String) : Bool :=
  lower type ∈ ["binary", "varbinary", "tinyblob", "blob", "mediumblob", "longblob",
    "geometry"].map String.toList

def valueText (print : List UInt8 → String) (column : Column) : Value → Except Error (Option String)
  | .null => .ok none
  | .bytes raw =>
      .ok (some (if binaryType column.type then "0x" ++ hexEncode raw else print raw))
  | .int value => .ok (some (toString value))
  | .printed text => .ok (some text)
  | .other type => .error (.unsupportedValue type column.name)

def toColumns (print : List UInt8 → String) (table : Table) (values : List Value) :
    Except Error (List GoSync.Column) :=
  (table.columns.zip values).mapM fun (column, value) => do
    let text ← valueText print column value
    pure { name := column.name, type := column.columnType, value := text }

def key (table : Table) (values : List GoSync.Column) : List GoSync.Column :=
  match table.rowIdentity with
  | .fullRow => values
  | .primaryKey => ((table.columns.zip values).filter fun entry => entry.1.primaryKey).map Prod.snd

structure Images where
  operation : Operation
  before : Option (List Value) := none
  after : Option (List Value) := none
  deriving DecidableEq, Repr

def makeRow (print : List UInt8 → String) (table : Table) (images : Images) (ordinal : Nat) :
    Except Error Row :=
  if images.before.any fun values => values.length ≠ table.columns.length then
    .error .beforeImage
  else if images.after.any fun values => values.length ≠ table.columns.length then
    .error .afterImage
  else do
    let old ← toColumns print table (images.before.getD [])
    let current ← toColumns print table (images.after.getD [])
    let row : Row :=
      { identity := table.rowIdentity, schema := table.schema, table := table.name
        operation := images.operation, ordinal := ordinal }
    match images.operation with
    | .insert | .read => pure { row with columns := current, key := key table current }
    | .update =>
        pure { row with oldKey := key table old, key := key table current, columns := current }
    | .delete => pure { row with key := key table old }
    | .other _ => .error .operation

end Images

end GoSync.MySql
