import GoSync.Capture.Batch

/-!
# Decoding wal2json

`decoder.record` turns the records of the replication stream into queue calls. A transaction is
staged chunk by chunk and becomes visible with its commit; one that ends at or before the durable
position has been published by an earlier attempt and is skipped.

A record is given as what `encoding/json` decodes from it. The decoder is thrown away with the first
error, so a record that fails returns none.
-/

namespace GoSync.Capture

inductive WireValue where
  | null
  | string (text : String)
  | literal (text : String)
  | absent
  deriving DecidableEq, Repr

structure WireColumn where
  name : String
  type : String
  oid : Nat := 0
  value : WireValue
  deriving DecidableEq, Repr

inductive ChangeKind where
  | insert
  | update
  | delete
  deriving DecidableEq, Repr

inductive Action where
  | begin
  | commit
  | change (kind : ChangeKind)
  | truncate
  | message
  | other (action : String)
  deriving DecidableEq, Repr

structure Record where
  action : Action
  xid : Nat
  nextLsn : String := ""
  schema : String := ""
  table : String := ""
  columns : List WireColumn := []
  identity : List WireColumn := []
  deriving DecidableEq, Repr

def WireValue.text : WireValue → Except CaptureError (Option String)
  | .null => .ok none
  | .string text => .ok (some text)
  | .literal text => .ok (some text)
  | .absent => .error .value

/-- `decode` inside `convert`, for the columns after those in `seen`. The map `known` keeps the last
column of a name. A `bytea` value arrives without its hex marker. -/
def decodeColumns (known : List CatalogColumn) :
    List String → List WireColumn → Except CaptureError (List Column)
  | _, [] => .ok []
  | seen, column :: rest =>
      match known.reverse.find? fun candidate => candidate.name = column.name with
      | none => .error .schemaMismatch
      | some expected =>
          if column.name ∈ seen ∨ expected.type ≠ column.type ∨ expected.oid ≠ column.oid then
            .error .schemaMismatch
          else do
            let value ← column.value.text
            let decoded ← decodeColumns known (column.name :: seen) rest
            .ok ({ name := column.name, type := expected.type,
                   value := if column.oid = 17 then value.map ("\\x" ++ ·) else value } :: decoded)

def findColumn (columns : List Column) (name : String) : Option Column :=
  columns.find? fun column => column.name = name

def fullRowKeys (kind : ChangeKind) (values old : List Column) :
    List CatalogColumn → Except CaptureError (List Column × List Column)
  | [] => .ok ([], [])
  | column :: rest => do
      let previous := (findColumn old column.name).getD { name := "", value := none }
      match kind, findColumn values column.name with
      | .delete, _ => do
          let (key, oldKey) ← fullRowKeys kind values old rest
          .ok (previous :: key, oldKey)
      | .insert, none => .error .insertCount
      | .insert, some value => do
          let (key, oldKey) ← fullRowKeys kind values old rest
          .ok (value :: key, oldKey)
      -- A column an update leaves out is an unchanged TOAST value, not NULL.
      | .update, value => do
          let (key, oldKey) ← fullRowKeys kind values old rest
          .ok (value.getD previous :: key, previous :: oldKey)

def keyColumn (columns : List Column) (name : String) (err : CaptureError) :
    Except CaptureError Column :=
  match findColumn columns name with
  | none => .error err
  | some column => if column.value = none then .error err else .ok column

def primaryKeys (kind : ChangeKind) (values old : List Column) :
    List String → Except CaptureError (List Column × List Column)
  | [] => .ok ([], [])
  | name :: rest =>
      match kind with
      | .delete => do
          let column ← keyColumn old name .deleteKey
          let (key, oldKey) ← primaryKeys kind values old rest
          .ok (column :: key, oldKey)
      | .insert => do
          let column ← keyColumn values name .rowKey
          let (key, oldKey) ← primaryKeys kind values old rest
          .ok (column :: key, oldKey)
      | .update => do
          let column ← keyColumn values name .rowKey
          let previous ← keyColumn old name .updateOldKey
          let (key, oldKey) ← primaryKeys kind values old rest
          .ok (column :: key, previous :: oldKey)

def ChangeKind.operation : ChangeKind → Operation
  | .insert => .insert
  | .update => .update
  | .delete => .delete

/-- `convert`; duplicate columns are refused, so the old columns are as many as their names. -/
def convert (kind : ChangeKind) (r : Record) (t : Table) : Except CaptureError Row := do
  let columns ← decodeColumns t.columns [] r.columns
  let old ← decodeColumns t.columns [] r.identity
  let row : Row :=
    { schema := r.schema, table := r.table, operation := kind.operation, columns := columns }
  match t.rowIdentity with
  | .fullRow =>
      if kind ≠ .insert ∧ old.length ≠ t.columns.length then
        .error .fullRowIdentity
      else do
        let (key, oldKey) ← fullRowKeys kind columns old t.columns
        .ok { row with identity := .fullRow, key := key, oldKey := oldKey }
  | .primaryKey => do
      let (key, oldKey) ← primaryKeys kind columns old t.keyNames
      if kind = .insert ∧ columns.length ≠ t.columns.length then
        .error .insertCount
      else
        .ok { row with key := key, oldKey := oldKey }

structure Decoder where
  b : Batch := { message := { kind := .other "" } }
  tables : List Table
  durable : Lsn
  active : Bool := false
  skip : Bool := false
  «end» : Lsn := 0
  xid : Nat := 0
  ordinal : Nat := 0

def newDecoder (tables : List Table) (start : Lsn) : Decoder where
  tables := tables
  durable := start

def findTable (tables : List Table) (schema name : String) : Option Table :=
  tables.reverse.find? fun table => table.schema = schema ∧ table.name = name

def Decoder.begin (rt : Runtime) (r : Record) (d : Decoder) : Except CaptureError Decoder :=
  if d.active then
    .error .nestedTransaction
  else
    match rt.lsn.parse r.nextLsn with
    | none => .error .beginWithoutEnd
    | some lsn =>
        if lsn = 0 then
          .error .beginWithoutEnd
        else
          .ok { d with
                active := true, «end» := lsn, xid := r.xid, ordinal := 0,
                skip := lsn ≤ d.durable,
                b := { d.b with
                  message :=
                    { kind := .transactionRows, transaction := r.nextLsn, lsn := r.nextLsn } } }

def Decoder.publish (r : Record) (d : Decoder) : Plan Call CaptureError Decoder := do
  let b ← d.b.flush
  Plan.request (.append { kind := .transactionEnd, transaction := r.nextLsn, lsn := r.nextLsn,
                          chunk := b.message.chunk })
  Plan.request (.publish r.nextLsn false)
  pure { d with b := b, durable := d.end, active := false }

def Decoder.commit (rt : Runtime) (r : Record) (d : Decoder) : Plan Call CaptureError Decoder :=
  if ¬ d.active ∨ r.xid ≠ d.xid then
    Plan.fail .commitWithoutBegin
  else if rt.lsn.parse r.nextLsn ≠ some d.end then
    Plan.fail .commitMismatch
  else if d.skip then
    pure { d with active := false }
  else
    d.publish r

def Decoder.change (rt : Runtime) (read : ReadFile) (kind : ChangeKind) (r : Record) (d : Decoder) :
    Plan Call CaptureError Decoder :=
  if ¬ d.active ∨ r.xid ≠ d.xid then
    Plan.fail .rowOutside
  else if d.skip then
    pure d
  else
    match findTable d.tables r.schema r.table with
    | none => Plan.fail .unexpectedTable
    | some t => do
        let row ← Plan.lift (convert kind r t)
        let b ← Batcher.add rt read { row with ordinal := d.ordinal + 1 } d.b
        pure { d with b := b, ordinal := d.ordinal + 1 }

def Decoder.record (rt : Runtime) (read : ReadFile) (d : Decoder) (r : Record) :
    Plan Call CaptureError Decoder :=
  match r.action with
  | .begin => Plan.lift (d.begin rt r)
  | .commit => d.commit rt r
  | .change kind => d.change rt read kind r
  | .truncate => Plan.fail .truncate
  | .message => Plan.fail .logicalMessage
  | .other action => Plan.fail (.unknownAction action)

/-- A data frame of the replication stream: its size, the records it decodes to, and whether
something follows them that does not decode. -/
structure Frame where
  size : Nat := 0
  records : List Record
  garbled : Bool := false

/-- A record of a frame. An error comes with the durable position, which the caller reads then. -/
def Decoder.recordAt (rt : Runtime) (read : ReadFile) (d : Decoder) (r : Record) :
    Plan Call (CaptureError × Lsn) Decoder :=
  (d.record rt read r).mapError (·, d.durable)

def Decoder.consume (rt : Runtime) (read : ReadFile) (frame : Frame) (d : Decoder) :
    Plan Call (CaptureError × Lsn) Decoder :=
  if frame.size > rt.cfg.maxRowBytes * 2 then
    Plan.fail (.recordTooLarge, d.durable)
  else do
    let d ← frame.records.foldlM (Decoder.recordAt rt read) d
    if frame.garbled then Plan.fail (.invalidRecord, d.durable) else pure d

end GoSync.Capture
