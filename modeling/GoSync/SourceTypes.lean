import Mathlib.Algebra.Group.Nat.Defs

/-!
# Column types of the sources

The column types of MySQL and SQL Server that have an automatic target type, under the names that the
catalogs report. MySQL's `ZEROFILL` is not part of a type.
-/

namespace GoSync

inductive DecimalName where
  | decimal
  | numeric
  deriving DecidableEq, Repr

def DecimalName.name : DecimalName → String
  | .decimal => "decimal"
  | .numeric => "numeric"

def sized (size : Nat) : String :=
  "(" ++ toString size ++ ")"

def scaled (size scale : Nat) : String :=
  "(" ++ toString size ++ "," ++ toString scale ++ ")"

namespace MySql

inductive IntegerName where
  | tinyint
  | smallint
  | mediumint
  | int
  | integer
  | bigint
  deriving DecidableEq, Repr

def IntegerName.name : IntegerName → String
  | .tinyint => "tinyint"
  | .smallint => "smallint"
  | .mediumint => "mediumint"
  | .int => "int"
  | .integer => "integer"
  | .bigint => "bigint"

def IntegerName.bits : IntegerName → Nat
  | .tinyint => 8
  | .smallint => 16
  | .mediumint => 24
  | .int | .integer => 32
  | .bigint => 64

inductive Size where
  | tiny
  | regular
  | medium
  | long
  deriving DecidableEq, Repr

def Size.text : Size → String
  | .tiny => "tinytext"
  | .regular => "text"
  | .medium => "mediumtext"
  | .long => "longtext"

def Size.blob : Size → String
  | .tiny => "tinyblob"
  | .regular => "blob"
  | .medium => "mediumblob"
  | .long => "longblob"

def Size.bytes : Size → Nat
  | .tiny => 2 ^ 8 - 1
  | .regular => 2 ^ 16 - 1
  | .medium => 2 ^ 24 - 1
  | .long => 2 ^ 32 - 1

inductive ColumnType where
  | integer (name : IntegerName) (display : Option Nat) (unsigned : Bool)
  | decimal (name : DecimalName) (precision scale : Nat) (unsigned : Bool)
  | char (length : Nat)
  | varchar (length : Nat)
  | text (size : Size)
  | binary (varying : Bool) (length : Nat)
  | blob (size : Size)
  | date
  | datetime (digits : Fin 7)
  | timestamp (digits : Fin 7)
  deriving DecidableEq, Repr

namespace ColumnType

def dataType : ColumnType → String
  | .integer name .. => name.name
  | .decimal name .. => name.name
  | .char _ => "char"
  | .varchar _ => "varchar"
  | .text size => size.text
  | .binary varying _ => (if varying then "var" else "") ++ "binary"
  | .blob size => size.blob
  | .date => "date"
  | .datetime _ => "datetime"
  | .timestamp _ => "timestamp"

def typeName : ColumnType → String
  | .integer name display unsigned =>
      name.name ++ (display.map sized).getD "" ++ if unsigned then " unsigned" else ""
  | .decimal name precision scale unsigned =>
      name.name ++ scaled precision scale ++ if unsigned then " unsigned" else ""
  | .char length => "char" ++ sized length
  | .varchar length => "varchar" ++ sized length
  | .binary varying length => (if varying then "var" else "") ++ "binary(" ++ toString length ++ ")"
  | .datetime digits => if digits.val = 0 then "datetime" else "datetime" ++ sized digits.val
  | .timestamp digits => if digits.val = 0 then "timestamp" else "timestamp" ++ sized digits.val
  | type => type.dataType

end ColumnType

end MySql

namespace SqlServer

inductive IntegerName where
  | tinyint
  | smallint
  | int
  | bigint
  deriving DecidableEq, Repr

def IntegerName.name : IntegerName → String
  | .tinyint => "tinyint"
  | .smallint => "smallint"
  | .int => "int"
  | .bigint => "bigint"

inductive CharacterName where
  | char
  | varchar
  | nchar
  | nvarchar
  deriving DecidableEq, Repr

def CharacterName.name : CharacterName → String
  | .char => "char"
  | .varchar => "varchar"
  | .nchar => "nchar"
  | .nvarchar => "nvarchar"

inductive ColumnType where
  | integer (name : IntegerName)
  | decimal (name : DecimalName) (precision scale : Nat)
  | bit
  | money
  | smallmoney
  | character (name : CharacterName) (length : Option Nat)
  | text (wide : Bool)
  | binary (varying : Bool) (length : Option Nat)
  | image
  | timestamp
  | uniqueidentifier
  | date
  | datetime
  | datetime2 (scale : Fin 8)
  deriving DecidableEq, Repr

namespace ColumnType

def baseType : ColumnType → String
  | .integer name => name.name
  | .decimal name .. => name.name
  | .bit => "bit"
  | .money => "money"
  | .smallmoney => "smallmoney"
  | .character name _ => name.name
  | .text wide => if wide then "ntext" else "text"
  | .binary varying _ => if varying then "varbinary" else "binary"
  | .image => "image"
  | .timestamp => "timestamp"
  | .uniqueidentifier => "uniqueidentifier"
  | .date => "date"
  | .datetime => "datetime"
  | .datetime2 _ => "datetime2"

def lengthText (length : Option Nat) : String :=
  (length.map toString).getD "max"

def typeName : ColumnType → String
  | .decimal name precision scale => name.name ++ scaled precision scale
  | .character name length => name.name ++ "(" ++ lengthText length ++ ")"
  | .binary varying length => (if varying then "var" else "") ++ "binary(" ++ lengthText length ++ ")"
  | .datetime2 scale => "datetime2" ++ sized scale.val
  | type => type.baseType

end ColumnType

end SqlServer

end GoSync
