import GoSync.Lib.Quoting
import GoSync.Server.ColumnType
import GoSync.Server.Config
import Mathlib.Logic.Function.Basic

/-!
# Target tables

The tables a syncer writes, and the two ways it changes them: `applyRow` executes one row event as
one SQL statement, `addColumns` and `activate` bring a table up to a staged schema. A statement is
modelled by its effect on the contents of a table. What PostgreSQL contributes is a parameter: its
casts, comparisons, defaults, constraints and type names.

An `UPDATE` or `DELETE` picks one matching row by `ctid`; the model picks the first one.
-/

namespace GoSync.Server

/-- The contents of one target table: columns in attribute order with their type texts, and rows. -/
structure TargetTable (Value : Type) where
  columns : List (String × String)
  rows : List (List (String × Option Value)) := []
  deriving DecidableEq, Repr

abbrev Tables (Value : Type) := String → Option (TargetTable Value)

/-- What the target database contributes to the meaning of a statement. -/
structure Postgres (Value : Type) where
  /-- `$n::text::type`. -/
  castText : String → String → Option Value
  /-- `$n::bytea`. -/
  castBytes : List UInt8 → Value
  /-- Whether a type has an equality operator. -/
  comparable : String → Bool
  /-- Equality of two values of one column. -/
  same : Value → Value → Bool
  /-- The default of a column that an `INSERT` does not list. -/
  defaultValue : String → String → Option Value
  /-- Whether the constraints of all tables hold. -/
  admits : Tables Value → Bool
  /-- The text `format_type` gives for a declared type, where the type exists. -/
  formatType : String → Option String

def Postgres.plain : Postgres String where
  castText := fun _ value => some value
  castBytes := fun _ => ""
  comparable := fun _ => true
  same := fun left right => left == right
  defaultValue := fun _ _ => none
  admits := fun _ => true
  formatType := some

inductive TargetError where
  | unconfiguredRow (schema table : String)
  | missingTable (table : String)
  | decodeColumn (column : String)
  | insertEmpty
  | updateIncomplete
  | deleteIncomplete
  | missingColumn (column : String)
  | contentNotBytea (column : String)
  | invalidBinary (column : String)
  | updateMismatch
  | deleteMismatch
  | unsupportedOperation (operation : String)
  | cannotAdd (table column : String)
  | columnType (table column : String) (err : TypeError)
  | statement
  deriving DecidableEq, Repr

def TargetError.message (targetSchema : String) : TargetError → String
  | .unconfiguredRow schema table => s!"row references unconfigured table {schema}.{table}"
  | .missingTable table => s!"target table {targetSchema}.{table} does not exist"
  | .decodeColumn column => s!"decode embedded file column {column}: illegal base64 data"
  | .insertEmpty => "insert has no columns"
  | .updateIncomplete => "update requires changed columns and identity"
  | .deleteIncomplete => "delete requires identity"
  | .missingColumn column => s!"target column {column.quote} does not exist"
  | .contentNotBytea column => s!"file content column {column.quote} must be bytea"
  | .invalidBinary column => s!"invalid binary value for {column.quote}"
  | .updateMismatch => "update identity did not match exactly one row"
  | .deleteMismatch => "delete identity did not match exactly one row"
  | .unsupportedOperation operation => s!"unsupported row operation {operation.quote}"
  | .cannotAdd table column =>
      s!"target column {table}.{column} is missing and cannot be added safely"
  | .columnType table column err => s!"target column {table}.{column}: {err.message}"
  | .statement => "statement rejected by the target database"

variable {Value : Type}

inductive Arg where
  | text (value : Option String)
  | bytes (value : Option (List UInt8))
  deriving DecidableEq, Repr

structure AppliedColumn where
  name : String
  value : Arg
  binary : Bool := false
  deriving DecidableEq, Repr

/-- A column of a row event as the target has it: an embedded file becomes its source column and its
content column. -/
def appliedColumns (cfg : Syncer) (row : Row) (column : Column) :
    Except TargetError (List AppliedColumn) :=
  match cfg.fileMapping row.schema row.table column.name with
  | none => .ok [{ name := column.name, value := .text column.value }]
  | some content =>
      if column.encoding = "base64" then
        match column.value with
        | none =>
            .ok [{ name := column.name, value := .text column.sourceValue },
              { name := content, value := .bytes none, binary := true }]
        | some value =>
            match base64Decode value with
            | none => .error (.decodeColumn column.name)
            | some decoded =>
                .ok [{ name := column.name, value := .text column.sourceValue },
                  { name := content, value := .bytes (some decoded), binary := true }]
      else
        .ok [{ name := column.name, value := .text column.value }]

def transform (cfg : Syncer) (row : Row) : List Column → Except TargetError (List AppliedColumn)
  | [] => .ok []
  | column :: columns => do
      let applied ← appliedColumns cfg row column
      let rest ← transform cfg row columns
      .ok (applied ++ rest)

structure Placeholder where
  name : String
  type : String
  arg : Arg
  deriving DecidableEq, Repr

def argument (type : String) (column : AppliedColumn) : Except TargetError Arg :=
  if column.binary then
    if type ≠ "bytea" then .error (.contentNotBytea column.name) else .ok column.value
  else
    match column.value with
    | .text (some value) =>
        if type = "bytea" ∧ value.startsWith "0x" then
          match hexDecode (value.drop 2).toString with
          | none => .error (.invalidBinary column.name)
          | some decoded => .ok (.bytes (some decoded))
        else
          .ok column.value
    | value => .ok value

def expression (types : List (String × String)) (column : AppliedColumn) :
    Except TargetError Placeholder :=
  match types.lookup column.name with
  | none => .error (.missingColumn column.name)
  | some type => do
      let arg ← argument type column
      .ok { name := column.name, type := type, arg := arg }

def expressions (types : List (String × String)) (columns : List AppliedColumn) :
    Except TargetError (List Placeholder) :=
  columns.mapM (expression types)

structure Expression (Value : Type) where
  name : String
  type : String
  value : Option Value
  deriving DecidableEq, Repr

def cast (pg : Postgres Value) (type : String) : Arg → Except TargetError (Option Value)
  | .bytes value => .ok (value.map pg.castBytes)
  | .text none => .ok none
  | .text (some value) =>
      match pg.castText type value with
      | none => .error .statement
      | some result => .ok (some result)

def evaluate (pg : Postgres Value) (placeholders : List Placeholder) :
    Except TargetError (List (Expression Value)) :=
  placeholders.mapM fun placeholder => do
    let value ← cast pg placeholder.type placeholder.arg
    .ok { name := placeholder.name, type := placeholder.type, value := value }

def notDistinct (pg : Postgres Value) : Option Value → Option Value → Bool
  | none, none => true
  | some left, some right => pg.same left right
  | _, _ => false

def matchesRow (pg : Postgres Value) (keys : List (Expression Value))
    (row : List (String × Option Value)) : Bool :=
  keys.all fun key => (row.lookup key.name).any (notDistinct pg key.value)

def replaceTable (pg : Postgres Value) (tables : Tables Value) (name : String)
    (table : TargetTable Value) : Except TargetError (Tables Value) :=
  let next := Function.update tables name (some table)
  if pg.admits next then .ok next else .error .statement

def insertRow (pg : Postgres Value) (tables : Tables Value) (name : String)
    (values : List (Expression Value)) : Except TargetError (Tables Value) :=
  match tables name with
  | none => .error .statement
  | some table =>
      if ¬ (values.map Expression.name).Nodup then
        .error .statement
      else
        let row := table.columns.map fun column =>
          match values.find? fun value => value.name = column.1 with
          | some value => (column.1, value.value)
          | none => (column.1, pg.defaultValue name column.1)
        replaceTable pg tables name { table with rows := table.rows ++ [row] }

/-- Replace the first row that satisfies `pick`, or remove it where the replacement is `none`. -/
def changeFirst {α : Type} (pick : α → Bool) (change : α → Option α) : List α → Option (List α)
  | [] => none
  | row :: rest =>
      if pick row then some ((change row).toList ++ rest)
      else (changeFirst pick change rest).map (row :: ·)

/-- `UPDATE` or `DELETE` of one row found by `keys`; `none` where no row matches. -/
def changeRow (pg : Postgres Value) (tables : Tables Value) (name : String)
    (keys : List (Expression Value))
    (change : List (String × Option Value) → Option (List (String × Option Value)))
    (mismatch : TargetError) : Except TargetError (Tables Value) :=
  match tables name with
  | none => .error .statement
  | some table =>
      if ¬ keys.all (fun key => pg.comparable key.type) then
        .error .statement
      else
        match changeFirst (matchesRow pg keys) change table.rows with
        | none => .error mismatch
        | some rows => replaceTable pg tables name { table with rows := rows }

def assign (values : List (Expression Value)) (row : List (String × Option Value)) :
    List (String × Option Value) :=
  row.map fun cell =>
    match values.find? fun value => value.name = cell.1 with
    | some value => (cell.1, value.value)
    | none => cell

inductive Sql.Command where
  | insert (values : List Placeholder)
  | update (values keys : List Placeholder)
  | delete (keys : List Placeholder)
  deriving DecidableEq, Repr

def keySource (row : Row) : List Column :=
  if row.operation = .update ∧ row.oldKey ≠ [] then row.oldKey else row.key

/-- `applyRow` up to the call of `Exec`. -/
def Sql.command (cfg : Syncer) (columnTypes : String → Except TargetError (List (String × String)))
    (row : Row) : Except TargetError Sql.Command :=
  if ¬ cfg.allows row.schema row.table then
    .error (.unconfiguredRow row.schema row.table)
  else do
    let types ← columnTypes row.table
    let columns ← transform cfg row row.columns
    let keys ← transform cfg row (keySource row)
    match row.operation with
    | .read | .insert =>
        if columns = [] then
          .error .insertEmpty
        else do
          let values ← expressions types columns
          .ok (.insert values)
    | .update =>
        if columns = [] ∨ keys = [] then
          .error .updateIncomplete
        else do
          let values ← expressions types columns
          let conditions ← expressions types keys
          .ok (.update values conditions)
    | .delete =>
        if keys = [] then
          .error .deleteIncomplete
        else do
          let conditions ← expressions types keys
          .ok (.delete conditions)
    | .other name => .error (.unsupportedOperation name)

inductive Statement (Value : Type) where
  | insert (values : List (Expression Value))
  | update (values predicate : List (Expression Value))
  | delete (predicate : List (Expression Value))

def Sql.Command.evaluated (pg : Postgres Value) : Sql.Command → Except TargetError (Statement Value)
  | .insert values => do
      let values ← evaluate pg values
      .ok (.insert values)
  | .update values keys => do
      let values ← evaluate pg values
      let predicate ← evaluate pg keys
      if ¬ (values.map Expression.name).Nodup then
        .error .statement
      else
        .ok (.update values predicate)
  | .delete keys => do
      let predicate ← evaluate pg keys
      .ok (.delete predicate)

def Statement.execute (pg : Postgres Value) (tables : Tables Value) (name : String) :
    Statement Value → Except TargetError (Tables Value)
  | .insert values => insertRow pg tables name values
  | .update values predicate =>
      changeRow pg tables name predicate (fun old => some (assign values old)) .updateMismatch
  | .delete predicate => changeRow pg tables name predicate (fun _ => none) .deleteMismatch

def statement (pg : Postgres Value) (cfg : Syncer)
    (columnTypes : String → Except TargetError (List (String × String))) (row : Row) :
    Except TargetError (Statement Value) :=
  Sql.command cfg columnTypes row >>= Sql.Command.evaluated pg

def applyRow (pg : Postgres Value) (cfg : Syncer)
    (columnTypes : String → Except TargetError (List (String × String))) (row : Row)
    (tables : Tables Value) : Except TargetError (Tables Value) :=
  statement pg cfg columnTypes row >>= Statement.execute pg tables row.table

def clearTable (pg : Postgres Value) (tables : Tables Value) (name : String) :
    Except TargetError (Tables Value) :=
  match tables name with
  | none => .error .statement
  | some table => replaceTable pg tables name { table with rows := [] }

/-- `targetColumnTypes`, and the query of `columnTypes`: the columns of a table that has some. -/
def targetColumnTypes (tables : Tables Value) (name : String) :
    Except TargetError (List (String × String)) :=
  match tables name with
  | none => .error (.missingTable name)
  | some table => if table.columns = [] then .error (.missingTable name) else .ok table.columns

/-- The name that PostgreSQL gives a new column: the first 63 bytes of the identifier, in whole
characters. -/
def identifier (name : String) : String :=
  String.ofList (Quoting.clip 63 name.toList)

theorem identifier_eq_self_iff {name : String} :
    identifier name = name ↔ (name.toList.map Char.utf8Size).sum ≤ 63 := by
  rw [← Quoting.clip_eq_self_iff, identifier]
  constructor
  · intro hsame
    have hchars := congrArg String.toList hsame
    rwa [String.toList_ofList] at hchars
  · intro hsame
    rw [hsame, String.ofList_toList]

@[simp]
theorem identifier_identifier (name : String) : identifier (identifier name) = identifier name := by
  rw [identifier, identifier, String.toList_ofList, Quoting.clip_clip]

def addColumn (pg : Postgres Value) (tables : Tables Value) (name column type : String) :
    Except TargetError (Tables Value) :=
  match tables name, pg.formatType type with
  | some table, some formatted =>
      if (table.columns.lookup (identifier column)).isSome then
        .error .statement
      else
        replaceTable pg tables name
          { columns := table.columns ++ [(identifier column, formatted)]
            rows := table.rows.map fun row => row ++ [(identifier column, none)] }
  | _, _ => .error .statement

def addColumns (pg : Postgres Value) (cfg : Syncer) (schema : SchemaTable) :
    List SchemaColumn → List (String × String) → Tables Value → Except TargetError (Tables Value)
  | [], _, tables => .ok tables
  | column :: columns, types, tables =>
      if (types.lookup column.name).isSome then
        addColumns pg cfg schema columns types tables
      else if ¬ cfg.autoAddColumns ∨ ¬ column.nullable.getD (!column.notNull) ∨ column.primary then
        .error (.cannotAdd schema.name column.name)
      else
        match safeTargetType schema column with
        | .error err => .error (.columnType schema.name column.name err)
        | .ok type => do
            let next ← addColumn pg tables schema.name column.name type
            addColumns pg cfg schema columns (types ++ [(column.name, type)]) next

def activate (pg : Postgres Value) (cfg : Syncer) :
    List SchemaTable → Tables Value → Except TargetError (Tables Value)
  | [], tables => .ok tables
  | schema :: schemas, tables => do
      let types ← targetColumnTypes tables schema.name
      let next ← addColumns pg cfg schema schema.columns types tables
      activate pg cfg schemas next

end GoSync.Server
