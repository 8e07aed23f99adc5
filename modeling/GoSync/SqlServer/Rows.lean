import GoSync.Capture.Batch
import GoSync.Encoding
import GoSync.Lib.Bytes
import GoSync.Lib.Outcome
import Mathlib.Order.Fin.Basic

/-!
# Rows of SQL Server change tables

Positions, the tables of a CDC source, and the conversion of the rows that CDC records for a commit. A
row comes as the texts that the projection of its columns returns. An update is recorded as two rows, of
which the second one has the new values.
-/

namespace GoSync.SqlServer

abbrev Lsn := Fin (2 ^ 80)

instance Lsn.neZero : NeZero (2 ^ 80) := inferInstance

def Lsn.render (lsn : Lsn) : String :=
  String.ofList ('0' :: 'x' :: (bigEndian 10 lsn.val).flatMap fun byte =>
    [hexDigitChar (byte.toNat / 16), hexDigitChar (byte.toNat % 16)])

def parseLsn (text : String) : Option Lsn :=
  match text.toList with
  | first :: second :: digits =>
      if first ≠ '0' ∨ second ≠ 'x' ∨ digits.length ≠ 20 then
        none
      else
        match hexDecodeChars digits with
        | none => none
        | some bytes => if h : fromBigEndian bytes < 2 ^ 80 then some ⟨_, h⟩ else none
  | _ => none

theorem parse_render (lsn : Lsn) : parseLsn lsn.render = some lsn := by
  have hlength : ((bigEndian 10 lsn.val).flatMap fun byte =>
      [hexDigitChar (byte.toNat / 16), hexDigitChar (byte.toNat % 16)]).length = 20 := by
    simp [length_bigEndian]
  have hvalue : fromBigEndian (bigEndian 10 lsn.val) = lsn.val :=
    fromBigEndian_bigEndian 10 lsn.val (lsn.isLt.trans_le (by decide))
  unfold parseLsn Lsn.render
  rw [String.toList_ofList]
  dsimp only
  rw [if_neg (by simp [hlength]), hexDecodeChars_hexEncode]
  dsimp only
  rw [dif_pos (by rw [hvalue]; exact lsn.isLt)]
  exact congrArg some (Fin.ext hvalue)

structure Column where
  name : String
  type : String
  notNull : Bool := false
  primary : Bool := false
  baseType : String := ""
  ordinal : Int := 0
  maxLength : Int := 0
  deriving DecidableEq, Repr

/-- `Table`; `createdAt` and the identifiers tell a capture instance from one that replaces it. -/
structure Table where
  schema : String
  name : String
  rowIdentity : RowIdentity := .primaryKey
  columns : List Column
  objectId : Int := 0
  captureId : Int := 0
  captureInstance : String := ""
  createdAt : String := ""
  hasCommandId : Bool := true
  deriving DecidableEq, Repr

def Table.ref (table : Table) : TableRef :=
  ⟨table.schema, table.name⟩

def Table.document (table : Table) : SchemaTable where
  sourceType := "sqlserver"
  schema := table.schema
  name := table.name
  columns := table.columns.map fun column =>
    { name := column.name, type := column.type, baseType := column.baseType,
      notNull := column.notNull, primary := column.primary }

inductive Error where
  | capture (err : Capture.CaptureError)
  | source (text : String)
  | invalidLsn
  | missingLsn
  | bit
  | floatBytes
  | floatWidth
  | columnCount
  | nullKey
  | updateMask
  | noBeforeImage
  | operation (number : Int)
  | tableIndex
  | ambiguousOrder
  | beforeWithoutAfter
  | imagesDiffer
  | endedWithoutAfter
  | sourceIdentity
  | schemaChanged
  | scopeChanged
  | fenceChanged
  | snapshotLocks
  | highWatermark
  | minimumUnavailable
  | retentionGap
  | outsideRange
  | disappeared
  | snapshotTable (index : Nat) (err : Error)
  deriving DecidableEq, Repr

def Error.message : Error → String
  | .capture err => err.message
  | .source text => text
  | .invalidLsn => "invalid sqlserver lsn"
  | .missingLsn => "missing or malformed sqlserver lsn"
  | .bit => "invalid sqlserver bit value"
  | .floatBytes => "invalid sqlserver float bytes"
  | .floatWidth => "invalid sqlserver float width"
  | .columnCount => "cdc row column count differs from schema"
  | .nullKey => "cdc primary key is null"
  | .updateMask => "invalid cdc update mask"
  | .noBeforeImage => "cdc update has no before image"
  | .operation number => s!"invalid cdc operation {number}"
  | .tableIndex => "unexpected cdc table index"
  | .ambiguousOrder => "ambiguous cdc row ordering"
  | .beforeWithoutAfter => "cdc update before image without after image"
  | .imagesDiffer => "cdc update images do not match"
  | .endedWithoutAfter => "cdc transaction ended without update after image"
  | .sourceIdentity => "sqlserver source identity changed"
  | .schemaChanged =>
      "sqlserver schema or capture instance changed; explicit reinitialization required"
  | .scopeChanged =>
      "sqlserver source identity or capture scope changed; automatic failover is unsupported"
  | .fenceChanged => "sqlserver fence capture instance changed"
  | .snapshotLocks =>
      "initial sqlserver snapshot requires explicit sqlserver.allow_snapshot_locks=true in a "
        ++ "maintenance window"
  | .highWatermark => "cdc high watermark moved behind local checkpoint"
  | .minimumUnavailable => "cdc minimum lsn unavailable; check capture instance and permissions"
  | .retentionGap =>
      "sqlserver cdc retention gap; stop and explicitly reinitialize from a new snapshot"
  | .outsideRange => "cdc transaction outside requested range"
  | .disappeared => "cdc transaction disappeared during consistent read"
  | .snapshotTable index err => s!"sqlserver snapshot table {index}: " ++ err.message

def legacyLob (base : String) : Bool :=
  base = "text" ∨ base = "ntext" ∨ base = "image"

abbrev FormatFloat := List UInt8 → String

def normalizeText (format : FormatFloat) (column : Column) (text : String) : Except Error String :=
  if column.baseType ∈ ["binary", "varbinary", "image", "timestamp"] then
    .ok ("0x" ++ String.ofList (lower text))
  else if column.baseType = "bit" then
    if text = "0" then .ok "false" else if text = "1" then .ok "true" else .error .bit
  else if column.baseType ∈ ["float", "real"] then
    match hexDecode text with
    | none => .error .floatBytes
    | some bytes =>
        if bytes.length = 8 ∨ bytes.length = 4 then .ok (format bytes) else .error .floatWidth
  else
    .ok text

def normalize (format : FormatFloat) (column : Column) :
    Option String → Except Error (Option String)
  | none => .ok none
  | some text => (normalizeText format column text).map some

def toColumns (format : FormatFloat) (table : Table) (values : List (Option String)) :
    Except Error (List GoSync.Column) :=
  if values.length ≠ table.columns.length then
    .error .columnCount
  else
    (table.columns.zip values).mapM fun (column, value) => do
      let normalized ← normalize format column value
      pure { name := column.name, type := column.type, value := normalized }

def keyColumns {ε : Type} (nullKey : ε) (identity : RowIdentity) (columns : List Column)
    (values : List GoSync.Column) : Except ε (List GoSync.Column) :=
  (columns.zip values).foldlM
    (fun key (column, value) =>
      if identity ≠ .fullRow ∧ ¬ column.primary then .ok key
      else if column.primary ∧ value.value = none then .error nullKey
      else .ok (key ++ [value]))
    []

def rowKey (table : Table) (columns : List GoSync.Column) : Except Error (List GoSync.Column) :=
  keyColumns .nullKey table.rowIdentity table.columns columns

/-- Whether an update mask marks a column; its last byte is for the first eight ordinals. -/
def changed (mask : List UInt8) (ordinal : Int) : Except Error Bool :=
  if ordinal < 1 ∨ ordinal > mask.length * 8 then
    .error .updateMask
  else
    let bit := (ordinal - 1).toNat
    .ok (((mask.getD (mask.length - 1 - bit / 8) 0).toNat >>> (bit % 8)) % 2 = 1)

structure Change where
  table : Nat
  sequence : Lsn
  command : Int
  operation : Int
  mask : List UInt8 := []
  values : List (Option String)
  deriving DecidableEq, Repr

def samePosition (a b : Change) : Bool :=
  a.table = b.table ∧ a.sequence = b.sequence ∧ a.command = b.command

/-- A column of an update, as the old and the new row have it. An unchanged value that CDC suppresses in
the before image is taken from the after image; an unchanged value of a legacy type is not sent. -/
def updateColumn (mask : List UInt8) (column : Column) (new old : GoSync.Column) :
    Except Error (GoSync.Column × Option GoSync.Column) := do
  let isChanged ← changed mask column.ordinal
  pure (if column.maxLength = -1 ∧ ¬ isChanged then new else old,
    if legacyLob column.baseType ∧ ¬ isChanged then none else some new)

def convertChange (format : FormatFloat) (table : Table) (current : Change) (before : Option Change) :
    Except Error Row := do
  let columns ← toColumns format table current.values
  let key ← rowKey table columns
  let row : Row :=
    { schema := table.schema, table := table.name, identity := table.rowIdentity
      operation := .delete, key := key }
  if current.operation = 1 then
    pure row
  else if current.operation = 2 then
    pure { row with operation := .insert, columns := columns }
  else if current.operation = 4 then
    match before with
    | none => .error .noBeforeImage
    | some before => do
        let old ← toColumns format table before.values
        let updated ← (table.columns.zip (columns.zip old)).mapM fun (column, new, old) =>
          updateColumn current.mask column new old
        let oldKey ← rowKey table (updated.map Prod.fst)
        pure { row with
          operation := .update, oldKey := oldKey, columns := updated.filterMap Prod.snd }
  else
    .error (.operation current.operation)

structure Reading where
  before : Option Change := none
  previous : Option Change := none
  count : Nat := 0

def Reading.next (format : FormatFloat) (tables : List Table) (r : Reading) (change : Change) :
    Except Error (Reading × Option Row) :=
  match tables[change.table]? with
  | none => .error .tableIndex
  | some table =>
      let change := { change with values := change.values.take table.columns.length }
      if r.previous.any fun previous =>
          samePosition previous change ∧ previous.operation = change.operation then
        .error .ambiguousOrder
      else if change.operation = 3 then
        if r.before.isSome then .error .beforeWithoutAfter
        else .ok ({ r with before := some change, previous := some change }, none)
      else if r.before.any fun before => change.operation ≠ 4 ∨ ¬ samePosition before change then
        .error .imagesDiffer
      else do
        let row ← convertChange format table change r.before
        pure ({ previous := some change, count := r.count + 1 },
          some { row with ordinal := r.count + 1 })

/-- The rows of a transaction, from its changes in the order of the query. -/
def Reading.rows (format : FormatFloat) (tables : List Table) :
    Reading → List Change → Except Error (Reading × List Row)
  | r, [] => .ok (r, [])
  | r, change :: rest => do
      let (r, row) ← r.next format tables change
      let (r, rows) ← r.rows format tables rest
      pure (r, row.toList ++ rows)

theorem Reading.rows_snoc {format : FormatFloat} {tables : List Table} {changes : List Change}
    {change : Change} {r r' r'' : Reading} {rows : List Row} {row : Option Row}
    (h : r.rows format tables changes = .ok (r', rows))
    (hnext : r'.next format tables change = .ok (r'', row)) :
    r.rows format tables (changes ++ [change]) = .ok (r'', rows ++ row.toList) := by
  induction changes generalizing r rows with
  | nil =>
      cases h
      rw [List.nil_append, Reading.rows, hnext]
      simp [Reading.rows, Except.ok_bind, pure, Except.pure]
  | cons first rest ih =>
      obtain ⟨⟨r₁, row₁⟩, hfirst, h⟩ := Except.bind_eq_ok.mp h
      obtain ⟨⟨r₂, rows₂⟩, hrest, h⟩ := Except.bind_eq_ok.mp h
      cases h
      rw [List.cons_append, Reading.rows, hfirst, Except.ok_bind]
      dsimp only
      rw [ih hrest, Except.ok_bind, ← List.append_assoc]
      rfl

/-- Rows are counted in the order in which they are read. -/
theorem Reading.rows_ordinals {format : FormatFloat} {tables : List Table} {changes : List Change}
    {r r' : Reading} {rows : List Row} (h : r.rows format tables changes = .ok (r', rows)) :
    rows.map Row.ordinal = List.range' (r.count + 1) rows.length
      ∧ r'.count = r.count + rows.length := by
  induction changes generalizing r rows with
  | nil =>
      cases h
      exact ⟨rfl, rfl⟩
  | cons change rest ih =>
      obtain ⟨⟨r₁, row⟩, hnext, h⟩ := Except.bind_eq_ok.mp h
      obtain ⟨⟨r₂, rows'⟩, hrest, h⟩ := Except.bind_eq_ok.mp h
      cases h
      obtain ⟨hordinals, hcount⟩ := ih hrest
      unfold Reading.next at hnext
      split at hnext
      · cases hnext
      dsimp only at hnext
      split_ifs at hnext
      · cases hnext
        exact ⟨hordinals, hcount⟩
      · obtain ⟨converted, -, hnext⟩ := Except.bind_eq_ok.mp hnext
        cases hnext
        refine ⟨?_, ?_⟩
        · rw [Option.toList_some, List.singleton_append, List.map_cons, hordinals, List.length_cons,
            List.range'_succ]
        · have hcount : r'.count = r.count + 1 + rows'.length := hcount
          rw [hcount, Option.toList_some, List.singleton_append, List.length_cons]
          omega

end GoSync.SqlServer
