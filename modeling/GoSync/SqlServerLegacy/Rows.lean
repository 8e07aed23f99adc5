import GoSync.SqlServer.Rows

/-!
# Rows of the legacy outbox

Triggers write every changed row of a statement into an outbox, a deleted one and an inserted one for an
update. An event holds the values of its row by column, as text, as Unicode text or in binary.
-/

namespace GoSync.SqlServerLegacy

open SqlServer (keyColumns)

abbrev ChangeId := Fin (2 ^ 63)

instance ChangeId.neZero : NeZero (2 ^ 63) := inferInstance

def position (id : ChangeId) : String :=
  String.ofList ("legacy:".toList ++ decimal 20 id.val)

def parseChangeId (digits : List Char) : Option ChangeId :=
  match parseDigits digits with
  | none => none
  | some value => if h : value < 2 ^ 63 then some ⟨value, h⟩ else none

/-- `parsePosition`. A sign is read as well; below zero there is no position. -/
def parsePosition (text : String) : Option ChangeId :=
  if "legacy:".toList.isPrefixOf text.toList then
    match text.toList.drop "legacy:".toList.length with
    | sign :: digits =>
        if sign = '+' then parseChangeId digits
        else if sign = '-' then (parseChangeId digits).filter fun id => id = 0
        else parseChangeId (sign :: digits)
    | [] => none
  else
    none

theorem parse_position (id : ChangeId) : parsePosition (position id) = some id := by
  have hvalue : parseChangeId (decimal 20 id.val) = some id := by
    rw [parseChangeId, parseDigits_decimal 19 id.val (id.isLt.trans (by decide))]
    exact dif_pos id.isLt
  have hdigits := decimal_digits 20 id.val
  have htext : (position id).toList = "legacy:".toList ++ decimal 20 id.val := String.toList_ofList
  rw [parsePosition, htext, if_pos (List.isPrefixOf_iff_prefix.mpr (List.prefix_append _ _)),
    List.drop_left]
  generalize decimal 20 id.val = digits at hvalue hdigits
  cases digits with
  | nil => cases hvalue
  | cons digit rest =>
      rw [List.all_cons, Bool.and_eq_true] at hdigits
      dsimp only
      rw [if_neg (by rintro rfl; exact absurd hdigits.1 (by decide)),
        if_neg (by rintro rfl; exact absurd hdigits.1 (by decide)), hvalue]

abbrev Column := SqlServer.Column

structure Table where
  schema : String
  name : String
  rowIdentity : RowIdentity := .primaryKey
  columns : List Column
  objectId : Int := 0
  triggerName : String := ""
  modern : Bool := false
  deriving DecidableEq, Repr

def Table.ref (table : Table) : TableRef :=
  ⟨table.schema, table.name⟩

def Table.document (table : Table) : SchemaTable where
  sourceType := "sqlserver_legacy"
  schema := table.schema
  name := table.name
  columns := table.columns.map fun column =>
    { name := column.name, type := column.type, baseType := column.baseType,
      notNull := column.notNull, primary := column.primary }

inductive Error where
  | capture (err : Capture.CaptureError)
  | source (text : String)
  | bit
  | floatWidth
  | nullKey
  | unconfiguredTable
  | columnSequence
  | incompleteRow
  | operation (name : String)
  | statementDisappeared
  | nothingToDelete
  | position
  | sourceIdentity
  | schemaChanged
  | scopeChanged
  | offlineSchema
  | notInstalled
  | installFailed
  | snapshotLocks
  | snapshotTable (index : Nat) (err : Error)
  deriving DecidableEq, Repr

def Error.message : Error → String
  | .capture err => err.message
  | .source text => text
  | .bit => "invalid sqlserver legacy bit value"
  | .floatWidth => "invalid sqlserver legacy float width"
  | .nullKey => "sqlserver legacy primary key is null"
  | .unconfiguredTable => "sqlserver legacy outbox references an unconfigured table"
  | .columnSequence => "sqlserver legacy outbox column sequence is invalid"
  | .incompleteRow => "sqlserver legacy outbox row is incomplete"
  | .operation name => s!"invalid sqlserver legacy operation {name.quote}"
  | .statementDisappeared => "sqlserver legacy statement disappeared during read"
  | .nothingToDelete => "sqlserver legacy statement disappeared before acknowledgement"
  | .position => "invalid sqlserver legacy position"
  | .sourceIdentity => "sqlserver legacy source identity changed"
  | .schemaChanged => "sqlserver legacy schema changed; explicit reinitialization is required"
  | .scopeChanged => "sqlserver legacy source identity, installation or capture scope changed"
  | .offlineSchema =>
      "sqlserver legacy schema changed; explicit reinitialization is required before trigger replacement"
  | .notInstalled => "sqlserver legacy outbox is not installed and auto_install is false"
  | .installFailed => "sqlserver legacy installation did not become ready"
  | .snapshotLocks =>
      "initial sqlserver legacy snapshot requires explicit sqlserver_legacy.allow_snapshot_locks=true"
  | .snapshotTable index err => s!"sqlserver legacy snapshot table {index}: " ++ err.message

/-- How bytes are printed: as the text they are, or as an IEEE number of a base type. -/
structure Printing where
  text : List UInt8 → String
  float : String → List UInt8 → String

def normalizeRaw (print : Printing) (column : Column) (raw : List UInt8) (isBinary : Bool) :
    Except Error String :=
  if column.baseType = "float" ∨ column.baseType = "real" then
    if raw.length ≠ 4 ∧ raw.length ≠ 8 then .error .floatWidth
    else .ok (print.float column.baseType raw)
  else if isBinary then
    .ok ("0x" ++ hexEncode raw)
  else if column.baseType = "bit" then
    if print.text raw = "0" then .ok "false" else if print.text raw = "1" then .ok "true"
    else .error .bit
  else
    .ok (print.text raw)

def normalize (print : Printing) (column : Column) (raw : List UInt8) (isNull isBinary : Bool) :
    Except Error (Option String) :=
  if isNull then .ok none else (normalizeRaw print column raw isBinary).map some

def key (table : Table) (columns : List GoSync.Column) : Except Error (List GoSync.Column) :=
  keyColumns .nullKey table.rowIdentity table.columns columns

structure OutboxValue where
  ordinal : Int
  isNull : Bool := false
  text : Option (List UInt8) := none
  unicode : Option (List UInt8) := none
  binary : Option (List UInt8) := none
  deriving DecidableEq, Repr

structure OutboxEvent where
  changeId : ChangeId
  statement : String
  objectId : Int
  operation : String
  values : List OutboxValue
  deriving DecidableEq, Repr

def readValues (print : Printing) (table : Table) :
    List OutboxValue → List GoSync.Column → Except Error (List GoSync.Column)
  | [], done => .ok done
  | value :: rest, done =>
      match table.columns[done.length]? with
      | none => .error .columnSequence
      | some column =>
          if value.ordinal ≠ done.length + 1 then
            .error .columnSequence
          else do
            let normalized ← normalize print column
              ((value.binary.or (value.unicode.or value.text)).getD []) value.isNull
              value.binary.isSome
            readValues print table rest
              (done ++ [{ name := column.name, type := column.type, value := normalized }])

def readEventValues (print : Printing) (tables : List Table) (event : OutboxEvent) :
    Except Error Row :=
  match tables.find? fun table => table.objectId = event.objectId with
  | none => .error .unconfiguredTable
  | some table => do
      let columns ← readValues print table event.values []
      if columns.length ≠ table.columns.length then
        .error .incompleteRow
      else do
        let key ← key table columns
        let row : Row :=
          { schema := table.schema, table := table.name, identity := table.rowIdentity
            operation := .delete, key := key }
        if event.operation = "I" then
          pure { row with operation := .insert, columns := columns }
        else if event.operation = "D" then
          pure row
        else
          .error (.operation event.operation)

def snapshotRow (print : Printing) (table : Table) (values : List (Option (List UInt8))) :
    Except Error Row := do
  let columns ← (table.columns.zip values).mapM fun (column, value) => do
    let isBinary := column.baseType ∈ ["binary", "varbinary", "image", "timestamp", "float", "real"]
    let normalized ← normalize print column (value.getD []) value.isNone isBinary
    pure { name := column.name, type := column.type, value := normalized }
  let key ← key table columns
  pure { schema := table.schema, table := table.name, identity := table.rowIdentity
         operation := .read, key := key, columns := columns }

end GoSync.SqlServerLegacy
