import GoSync.Encoding
import GoSync.Event

/-!
# Automatic column types

`safeTargetType` maps the type of a source column to the type text of a target column, from an
allowlist per source engine. The three regular expressions of the source are written as predicates
on the characters of the text.
-/

namespace GoSync.Server

inductive TypeError where
  | postgres (type : String)
  | mysql (type : String)
  | mysqlCharacter (columnType : String)
  | sqlServer (baseType : String)
  | numeric (source : String)
  | precision
  deriving DecidableEq, Repr

def TypeError.message : TypeError → String
  | .postgres type => s!"PostgreSQL source type {type.quote} is not in the automatic-add allowlist"
  | .mysql type => s!"MySQL source type {type.quote} is not in the automatic-add allowlist"
  | .mysqlCharacter columnType => s!"unsupported MySQL character type {columnType.quote}"
  | .sqlServer baseType =>
      s!"SQL Server source type {baseType.quote} is not in the automatic-add allowlist"
  | .numeric source => s!"unsupported numeric type {source.quote}"
  | .precision => "invalid numeric precision or scale"

def isScale (count : Nat) (text : List Char) : Bool :=
  text ≠ [] ∧ text.length ≤ count ∧ text.all Char.isDigit

def isSize (count : Nat) (text : List Char) : Bool :=
  isScale count text ∧ text.head? ≠ some '0'

def between (front back : String) (text : List Char) : Option (List Char) :=
  let rest := text.drop front.length
  if front.toList.isPrefixOf text ∧ back.toList.isSuffixOf rest then
    some (rest.take (rest.length - back.length))
  else
    none

/-- The digits in parentheses after a type name, size and scale: `([1-9][0-9]{0,m})(?:,([0-9]{1,4}))?`
for `sizeDigits = m + 1`. -/
def sizeAndScale (sizeDigits : Nat) (text : List Char) : Option (List Char × List Char) :=
  match text.splitOn ',' with
  | [size] => if isSize sizeDigits size then some (size, []) else none
  | [size, scale] =>
      if isSize sizeDigits size ∧ isScale 4 scale then some (size, scale) else none
  | _ => none

def isTimeTail (text : List Char) : Bool :=
  let zone := fun tail =>
    tail = " with time zone".toList ∨ tail = " without time zone".toList
  match text with
  | '(' :: digit :: ')' :: tail => ('0' ≤ digit ∧ digit ≤ '6') ∧ zone tail
  | tail => zone tail

def postgresType (text : List Char) : Bool :=
  ["smallint", "integer", "bigint", "real", "double precision", "boolean", "text", "bytea", "date",
      "uuid", "json", "jsonb", "numeric"].any (fun name => name.toList = text)
    || (between "numeric(" ")" text).any (fun body => (sizeAndScale 4 body).isSome)
    || (between "character(" ")" text).any (isSize 7)
    || (between "character varying(" ")" text).any (isSize 7)
    || (between "timestamp" "" text).any isTimeTail
    || (between "time" "" text).any isTimeTail

def sizedType (text : List Char) : Option (List Char × List Char) :=
  let name := text.takeWhile fun c => 'a' ≤ c ∧ c ≤ 'z'
  if name = [] then
    none
  else
    (between "(" ")" (text.drop name.length)).bind (sizeAndScale 7)

def atoi (digits : List Char) : Nat :=
  digits.foldl (fun value c => value * 10 + (c.toNat - '0'.toNat)) 0

def numericTargetType (source : String) : Except TypeError String :=
  match sizedType (lower source) with
  | none => .error (.numeric source)
  | some (size, scale) =>
      if atoi size > 1000 ∨ atoi scale > atoi size then
        .error .precision
      else
        .ok s!"numeric({atoi size},{atoi scale})"

def mysqlTargetType (column : SchemaColumn) : Except TypeError String :=
  let base := String.ofList (lower column.type)
  if base ∈ ["tinyint", "smallint"] then .ok "smallint"
  else if base ∈ ["mediumint", "int", "integer"] then .ok "integer"
  else if base = "bigint" then .ok "bigint"
  else if base = "float" then .ok "real"
  else if base = "double" then .ok "double precision"
  else if base ∈ ["decimal", "numeric"] then numericTargetType column.columnType
  else if base ∈ ["char", "varchar"] then
    match sizedType (lower column.columnType) with
    | none => .error (.mysqlCharacter column.columnType)
    | some (size, _) =>
        if base = "char" then .ok s!"character({atoi size})"
        else .ok s!"character varying({atoi size})"
  else if base ∈ ["tinytext", "text", "mediumtext", "longtext"] then .ok "text"
  else if base ∈ ["tinyblob", "blob", "mediumblob", "longblob", "binary", "varbinary"] then
    .ok "bytea"
  else if base = "date" then .ok "date"
  else if base ∈ ["datetime", "timestamp"] then .ok "timestamp without time zone"
  else if base = "time" then .ok "time without time zone"
  else if base = "json" then .ok "jsonb"
  else .error (.mysql column.type)

def sqlServerTargetType (column : SchemaColumn) : Except TypeError String :=
  let base := String.ofList (lower column.baseType)
  if base ∈ ["tinyint", "smallint"] then .ok "smallint"
  else if base = "int" then .ok "integer"
  else if base = "bigint" then .ok "bigint"
  else if base = "bit" then .ok "boolean"
  else if base = "real" then .ok "real"
  else if base = "float" then .ok "double precision"
  else if base ∈ ["text", "ntext", "varchar", "nvarchar", "char", "nchar"] then .ok "text"
  else if base ∈ ["binary", "varbinary", "image", "timestamp", "rowversion"] then .ok "bytea"
  else if base ∈ ["decimal", "numeric"] then numericTargetType column.type
  else if base = "money" then .ok "numeric(19,4)"
  else if base = "smallmoney" then .ok "numeric(10,4)"
  else if base = "uniqueidentifier" then .ok "uuid"
  else if base = "date" then .ok "date"
  else if base ∈ ["datetime", "datetime2", "smalldatetime"] then .ok "timestamp without time zone"
  else if base = "time" then .ok "time without time zone"
  else .error (.sqlServer column.baseType)

def safeTargetType (table : SchemaTable) (column : SchemaColumn) : Except TypeError String :=
  if table.engine ≠ "" then
    mysqlTargetType column
  else if table.sourceType = "sqlserver" ∨ table.sourceType = "sqlserver_legacy" then
    sqlServerTargetType column
  else
    let typeName := (trimSpace column.type).map lowerChar
    if postgresType typeName then .ok (String.ofList typeName) else .error (.postgres column.type)

example : postgresType "numeric(10,2)".toList = true
    ∧ postgresType "character varying(0)".toList = false
    ∧ postgresType "timestamp(3) with time zone".toList = true := by
  decide

end GoSync.Server
