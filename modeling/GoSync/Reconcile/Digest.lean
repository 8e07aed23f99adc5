import GoSync.Encoding
import GoSync.Event
import GoSync.Lib.Outcome
import GoSync.Lib.Sha256
import Mathlib.Data.List.Sort
import Mathlib.Data.String.Basic

/-!
# Row digests

The digest that collectors and the target compute of a table: rows are hashed one by one and the hashes are
accumulated in buckets, by the hash of what identifies a row. The texts of a value are normalized first, by
the name of its type.
-/

namespace GoSync.Reconcile

inductive Error where
  | buckets
  | identity
  deriving DecidableEq, Repr

def Error.message : Error → String
  | .buckets => "reconcile bucket count must be positive"
  | .identity => "reconcile row has no identity"

/-- The answers of the standard library: `big.Rat.SetString` with the text of its result, and the canonical
form of a JSON document. -/
structure Runtime where
  ratString : String → Option String
  canonicalJson : String → Option String

section Normalize

def contains (part : String) (text : List Char) : Bool :=
  text.tails.any part.toList.isPrefixOf

def replaceFirst (old new : Char) : List Char → List Char
  | [] => []
  | c :: rest => if c = old then new :: rest else c :: replaceFirst old new rest

def isBinary (type : List Char) : Bool :=
  contains "binary" type ∨ contains "blob" type
    ∨ type ∈ ["bytea", "image", "rowversion"].map String.toList

def hexDigits (value : String) : String :=
  if "\\x".toList.isPrefixOf value.toList ∨ "0x".toList.isPrefixOf (lower value) then
    String.ofList (value.toList.drop 2)
  else
    value

def normalizeBinary (type : List Char) (value : String) : Option String :=
  if isBinary type then (hexDecode (hexDigits value)).map fun bytes => "hex:" ++ hexEncode bytes else none

def normalizeBool (type : List Char) (value : String) : Option String :=
  if type ∈ ["boolean", "bool", "bit"].map String.toList then
    if lower value ∈ ["1", "t", "true"].map String.toList then some "true"
    else if lower value ∈ ["0", "f", "false"].map String.toList then some "false"
    else none
  else
    none

def normalizeDecimal (rt : Runtime) (type : List Char) (value : String) : Option String :=
  if "decimal".toList.isPrefixOf type ∨ "numeric".toList.isPrefixOf type then rt.ratString value else none

def normalizeJson (rt : Runtime) (type : List Char) (value : String) : Option String :=
  if type ∈ ["json", "jsonb"].map String.toList then rt.canonicalJson value else none

def normalizeTime (type : List Char) (value : String) : String :=
  if contains "datetime" type ∨ "timestamp".toList.isPrefixOf type then
    String.ofList (replaceFirst 'T' ' ' value.toList)
  else
    value

/-- `normalize`: a form that does not apply to a text leaves it to the ones after it. -/
def normalize (rt : Runtime) (typeName value : String) : String :=
  let type := (trimSpace typeName).map lowerChar
  (normalizeBinary type value <|> normalizeBool type value <|> normalizeDecimal rt type value
    <|> normalizeJson rt type value).getD (normalizeTime type value)

end Normalize

section Hashes

def utf8 (text : String) : List UInt8 :=
  text.toUTF8.data.toList

/-- `sort.Slice` by name. The order of columns of one name is not specified by the source. -/
def sortColumns (columns : List Column) : List Column :=
  columns.insertionSort fun a b => a.name ≤ b.name

def columnParts (rt : Runtime) (column : Column) : List (Option (List UInt8)) :=
  some (utf8 column.name) :: match column.value with
    | none => [none]
    | some value => [some [1], some (utf8 (normalize rt column.type value))]

def columnsBytes (rt : Runtime) (columns : List Column) : List UInt8 :=
  ((sortColumns columns).flatMap (columnParts rt)).flatMap writePart

def columnsHash (rt : Runtime) (columns : List Column) : Block 32 :=
  sha256 (columnsBytes rt columns)

def rowBytes (rt : Runtime) (row : Row) : List UInt8 :=
  writePart (some (utf8 row.schema)) ++ writePart (some (utf8 row.table)) ++ columnsBytes rt row.columns

def rowHash (rt : Runtime) (row : Row) : Block 32 :=
  sha256 (rowBytes rt row)

end Hashes

section Builder

structure Digest where
  bucket : Nat
  rows : Nat
  hash : String
  deriving DecidableEq, Repr

/-- `accumulator`. The counter is a `uint64`, which no scan of a table fills. -/
structure Accumulator where
  rows : Nat
  xor : Block 32
  sum : Block 32
  deriving DecidableEq

def Accumulator.zero : Accumulator where
  rows := 0
  xor := ⟨List.replicate 32 0, rfl⟩
  sum := ⟨List.replicate 32 0, rfl⟩

def Accumulator.add (a : Accumulator) (value : Block 32) : Accumulator where
  rows := a.rows + 1
  xor := ⟨xorBytes a.xor.val value.val,
    (length_xorBytes (a.xor.property.trans value.property.symm)).trans a.xor.property⟩
  sum := ⟨(addBytes a.sum.val value.val).1,
    (length_addBytes (a.sum.property.trans value.property.symm)).trans a.sum.property⟩

def Accumulator.digest (a : Accumulator) : String :=
  hexEncode (sha256 (bigEndian 8 a.rows ++ a.xor.val ++ a.sum.val)).val

def identityColumns (row : Row) : List Column :=
  match row.identity with
  | .fullRow => row.columns
  | .primaryKey => row.key

def bucket (rt : Runtime) (row : Row) (buckets : Nat) : Except Error Nat :=
  if buckets = 0 then
    .error .buckets
  else if identityColumns row = [] then
    .error .identity
  else
    .ok (fromBigEndian ((columnsHash rt (identityColumns row)).val.take 8) % buckets)

structure Builder where
  states : List Accumulator

def newBuilder (buckets : Nat) : Except Error Builder :=
  if buckets = 0 then .error .buckets else .ok ⟨List.replicate buckets .zero⟩

def Builder.add (rt : Runtime) (b : Builder) (row : Row) : Except Error Builder := do
  let index ← bucket rt row b.states.length
  pure ⟨b.states.modify index (·.add (rowHash rt row))⟩

def Builder.digests (b : Builder) : List Digest :=
  b.states.mapIdx fun index state => ⟨index, state.rows, state.digest⟩

def digests (rt : Runtime) (rows : List Row) (buckets : Nat) : Except Error (List Digest) := do
  let builder ← newBuilder buckets
  let builder ← rows.foldlM (Builder.add rt) builder
  pure builder.digests

end Builder

end GoSync.Reconcile
