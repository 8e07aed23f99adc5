import GoSync.MySql.Rows
import GoSync.SourceTypes
import Mathlib

/-!
# The two ways a MySQL value is read

A row reaches the queue either through the projections of the snapshot or as an image of the binlog. For
integer and binary columns this module sets the two texts side by side: what the server inserted from the
snapshot is found again by a later update or delete exactly if they agree in every identity column.
-/

namespace GoSync.MySql

section Types

inductive SourceType where
  | integer (name : IntegerName) (unsigned : Bool)
  | binary
  | varbinary
  | blob (size : Size)
  deriving DecidableEq, Repr

def SourceType.dataType : SourceType → String
  | .integer name _ => name.name
  | .binary => "binary"
  | .varbinary => "varbinary"
  | .blob size => size.blob

def InRange (width : IntegerName) (unsigned : Bool) (value : Int) : Prop :=
  if unsigned then 0 ≤ value ∧ value < 2 ^ width.bits
  else -2 ^ (width.bits - 1) ≤ value ∧ value < 2 ^ (width.bits - 1)

instance (width : IntegerName) (unsigned : Bool) (value : Int) : Decidable (InRange width unsigned value) :=
  inferInstanceAs (Decidable (if unsigned then _ else _))

def SourceType.Content : SourceType → Type
  | .integer width unsigned => { value : Int // InRange width unsigned value }
  | .binary | .varbinary | .blob _ => List UInt8

/-- What the row decoder of the binlog delivers: an integer is the signed integer of the column's width
with the same bits, binary strings are Go strings and blobs are byte slices. -/
def SourceType.decoded (print : List UInt8 → String) : (type : SourceType) → type.Content → Value
  | .integer width _, content => .int (content.val.bmod (2 ^ width.bits))
  | .binary, raw | .varbinary, raw => .printed (print raw)
  | .blob _, raw => .bytes raw

def SourceType.projected : (type : SourceType) → type.Content → Value
  | .integer _ _, content => .printed (toString content.val)
  | .binary, raw | .varbinary, raw | .blob _, raw => .printed ("0x" ++ hexUpper raw)

end Types

section Fields

structure SourceColumn where
  name : String
  type : SourceType
  columnType : String
  nullable : Bool := true
  primaryKey : Bool := false
  deriving DecidableEq, Repr

def SourceColumn.column (source : SourceColumn) : Column where
  name := source.name
  type := source.type.dataType
  columnType := source.columnType
  nullable := source.nullable
  primaryKey := source.primaryKey

structure Field where
  source : SourceColumn
  content : Option source.type.Content

def Field.binlog (print : List UInt8 → String) (field : Field) : Value :=
  (field.content.map (field.source.type.decoded print)).getD .null

def Field.snapshot (field : Field) : Value :=
  (field.content.map field.source.type.projected).getD .null

/-- Two texts of one type that the server reads as the same value: hexadecimal digits may differ in case. -/
def SameText : SourceType → String → String → Prop
  | .integer _ _, left, right => left = right
  | .binary, left, right | .varbinary, left, right | .blob _, left, right => lower left = lower right

def Field.Faithful (field : Field) : Prop :=
  match field.source.type, field.content with
  | _, none => True
  | .integer width unsigned, some content =>
      unsigned = false ∨ content.val < 2 ^ (width.bits - 1)
  | .binary, some _ | .varbinary, some _ => False
  | .blob _, some _ => True

def identityFields (fields : List Field) : List Field :=
  if fields.any (·.source.primaryKey) then fields.filter (·.source.primaryKey) else fields

def tableOf (schema name engine : String) (fields : List Field) : Table where
  schema := schema
  name := name
  engine := engine
  columns := fields.map (·.source.column)

def SameKey : List Field → List GoSync.Column → List GoSync.Column → Prop
  | [], [], [] => True
  | field :: fields, left :: lefts, right :: rights =>
      left.name = right.name ∧ Option.Rel (SameText field.source.type) left.value right.value
        ∧ SameKey fields lefts rights
  | _, _, _ => False

end Fields

section Texts

def SourceType.binlogText (print : List UInt8 → String) : (type : SourceType) → type.Content → String
  | .integer width _, content => toString (content.val.bmod (2 ^ width.bits))
  | .binary, raw | .varbinary, raw => print raw
  | .blob _, raw => "0x" ++ hexEncode raw

def SourceType.snapshotText : (type : SourceType) → type.Content → String
  | .integer _ _, content => toString content.val
  | .binary, raw | .varbinary, raw | .blob _, raw => "0x" ++ hexUpper raw

def Field.binlogText (print : List UInt8 → String) (field : Field) : Option String :=
  field.content.map (field.source.type.binlogText print)

def Field.snapshotText (field : Field) : Option String :=
  field.content.map field.source.type.snapshotText

theorem binaryType_blob (size : Size) : binaryType (SourceType.blob size).dataType = true := by
  cases size <;> decide

theorem valueText_decoded (print : List UInt8 → String) (source : SourceColumn)
    (content : source.type.Content) :
    valueText print source.column (source.type.decoded print content)
      = .ok (some (source.type.binlogText print content)) := by
  obtain ⟨name, type, columnType, nullable, primaryKey⟩ := source
  cases type with
  | integer width unsigned => rfl
  | binary => rfl
  | varbinary => rfl
  | blob size =>
      change Except.ok (some (if binaryType (SourceType.blob size).dataType then _ else _)) = _
      rw [if_pos (binaryType_blob size)]
      rfl

theorem valueText_projected (print : List UInt8 → String) (source : SourceColumn)
    (content : source.type.Content) :
    valueText print source.column (source.type.projected content)
      = .ok (some (source.type.snapshotText content)) := by
  obtain ⟨name, type, columnType, nullable, primaryKey⟩ := source
  cases type <;> rfl

theorem valueText_binlog (print : List UInt8 → String) (field : Field) :
    valueText print field.source.column (field.binlog print)
      = .ok (field.binlogText print) := by
  obtain ⟨source, content⟩ := field
  cases content with
  | none => rfl
  | some content => exact valueText_decoded print source content

theorem valueText_snapshot (print : List UInt8 → String) (field : Field) :
    valueText print field.source.column field.snapshot
      = .ok field.snapshotText := by
  obtain ⟨source, content⟩ := field
  cases content with
  | none => rfl
  | some content => exact valueText_projected print source content

theorem bmod_eq_self_iff {width : IntegerName} {unsigned : Bool} {value : Int}
    (h : InRange width unsigned value) :
    value.bmod (2 ^ width.bits) = value ↔ unsigned = false ∨ value < 2 ^ (width.bits - 1) := by
  cases width <;> cases unsigned <;> simp [InRange, IntegerName.bits, Int.bmod] at h ⊢ <;> omega

theorem lower_marked_hexUpper (raw : List UInt8) :
    lower ("0x" ++ hexEncode raw) = lower ("0x" ++ hexUpper raw) := by
  have happend : ∀ text : String, lower ("0x" ++ text) = lower "0x" ++ lower text := by
    intro text
    rw [lower, String.toList_append, List.map_append]
    rfl
  rw [happend, happend, lower_hexEncode, lower_hexUpper]

theorem length_lower_hexUpper (raw : List UInt8) :
    (lower ("0x" ++ hexUpper raw)).length = 2 + 2 * raw.length := by
  have hdigits : (hexEncode raw).toList.length = 2 * raw.length := by
    rw [hexEncode, String.toList_ofList, List.length_flatMap]
    simp [Nat.mul_comm]
  simp only [lower, hexUpper, String.toList_append, String.toList_ofList, List.length_map,
    List.length_append, hdigits]
  rfl

variable {print : List UInt8 → String}

theorem lower_print_ne (hprint : ∀ raw, (print raw).length ≤ raw.length) (raw : List UInt8) :
    lower (print raw) ≠ lower ("0x" ++ hexUpper raw) := by
  intro h
  have hlength := congrArg List.length h
  rw [length_lower_hexUpper, lower, List.length_map, String.length_toList] at hlength
  have hle := hprint raw
  omega

theorem sameText_iff (hprint : ∀ raw, (print raw).length ≤ raw.length) (field : Field) :
    Option.Rel (SameText field.source.type) (field.binlogText print) field.snapshotText
      ↔ field.Faithful := by
  obtain ⟨⟨name, type, columnType, nullable, primaryKey⟩, content⟩ := field
  cases content with
  | none => simp [Field.Faithful, Field.binlogText, Field.snapshotText]
  | some content =>
      simp only [Field.binlogText, Field.snapshotText, Option.map_some, Option.rel_some_some]
      cases type with
      | integer width unsigned => exact Int.repr_inj.trans (bmod_eq_self_iff content.property)
      | binary => exact iff_of_false (lower_print_ne hprint content) not_false
      | varbinary => exact iff_of_false (lower_print_ne hprint content) not_false
      | blob size => exact iff_of_true (lower_marked_hexUpper content) trivial

end Texts

section Keys

variable (print : List UInt8 → String) (schema name engine : String)

def columnsOf (text : Field → Option String) (fields : List Field) : List GoSync.Column :=
  fields.map fun field =>
    { name := field.source.name, type := field.source.columnType, value := text field }

theorem toColumns_tableOf {value : Field → Value} {text : Field → Option String}
    (htext : ∀ field, valueText print field.source.column (value field) = .ok (text field))
    (fields : List Field) :
    toColumns print (tableOf schema name engine fields) (fields.map value)
      = .ok (columnsOf text fields) := by
  rw [toColumns, tableOf, List.zip_map']
  induction fields with
  | nil => rfl
  | cons field fields ih =>
      rw [List.map_cons, List.mapM_cons, ih]
      dsimp only
      rw [htext]
      rfl

theorem rowIdentity_tableOf (fields : List Field) :
    (tableOf schema name engine fields).rowIdentity
      = if fields.any (·.source.primaryKey) then .primaryKey else .fullRow := by
  rw [Table.rowIdentity, tableOf, List.any_map]
  rfl

theorem key_tableOf (text : Field → Option String) (fields : List Field) :
    key (tableOf schema name engine fields) (columnsOf text fields)
      = columnsOf text (identityFields fields) := by
  rw [key, rowIdentity_tableOf, identityFields]
  split_ifs with hkeyed
  · dsimp only
    rw [tableOf, columnsOf, List.zip_map', List.filter_map, List.map_map]
    rfl
  · rfl

/-- The row that is made of two images that convert. -/
theorem makeRow_eq {table : Table} {images : Images} {old current : List GoSync.Column} (ordinal : Nat)
    (hbefore : ∀ values ∈ images.before, values.length = table.columns.length)
    (hafter : ∀ values ∈ images.after, values.length = table.columns.length)
    (hold : toColumns print table (images.before.getD []) = .ok old)
    (hcurrent : toColumns print table (images.after.getD []) = .ok current) :
    makeRow print table images ordinal
      = match images.operation with
        | .insert | .read =>
            .ok { identity := table.rowIdentity, schema := table.schema, table := table.name
                  operation := images.operation, ordinal := ordinal
                  columns := current, key := key table current }
        | .update =>
            .ok { identity := table.rowIdentity, schema := table.schema, table := table.name
                  operation := images.operation, ordinal := ordinal
                  oldKey := key table old, key := key table current, columns := current }
        | .delete =>
            .ok { identity := table.rowIdentity, schema := table.schema, table := table.name
                  operation := images.operation, ordinal := ordinal, key := key table old }
        | .other _ => .error .operation := by
  have hbefore : images.before.any (fun values => values.length ≠ table.columns.length) = false := by
    rw [Option.any_eq_false]
    intro values hvalues
    exact decide_eq_false (not_not_intro (hbefore values hvalues))
  have hafter : images.after.any (fun values => values.length ≠ table.columns.length) = false := by
    rw [Option.any_eq_false]
    intro values hvalues
    exact decide_eq_false (not_not_intro (hafter values hvalues))
  rw [makeRow, hbefore, hafter, hold, hcurrent]
  cases images.operation <;> rfl

theorem toColumns_nil (table : Table) : toColumns print table [] = .ok [] := by
  rw [toColumns, List.zip_nil_right]
  rfl

theorem makeRow_read (fields : List Field) (ordinal : Nat) :
    ∃ row, makeRow print (tableOf schema name engine fields)
        { operation := .read, after := some (fields.map Field.snapshot) } ordinal = .ok row
      ∧ row.key = columnsOf Field.snapshotText (identityFields fields) := by
  refine ⟨_, makeRow_eq print ordinal (by simp) (by simp [tableOf]) (toColumns_nil print _)
    (toColumns_tableOf print schema name engine (valueText_snapshot print) fields), ?_⟩
  exact key_tableOf schema name engine _ fields

theorem makeRow_delete (fields : List Field) (ordinal : Nat) :
    ∃ row, makeRow print (tableOf schema name engine fields)
        { operation := .delete, before := some (fields.map (Field.binlog print)) } ordinal = .ok row
      ∧ row.key = columnsOf (Field.binlogText print) (identityFields fields) := by
  refine ⟨_, makeRow_eq print ordinal (by simp [tableOf]) (by simp)
    (toColumns_tableOf print schema name engine (valueText_binlog print) fields)
    (toColumns_nil print _), ?_⟩
  exact key_tableOf schema name engine _ fields

/-- An update names the row by its old values. -/
theorem makeRow_update {before after : List Field}
    (hsame : after.map Field.source = before.map Field.source) (ordinal : Nat) :
    ∃ row, makeRow print (tableOf schema name engine before)
        { operation := .update, before := some (before.map (Field.binlog print))
          after := some (after.map (Field.binlog print)) } ordinal = .ok row
      ∧ row.oldKey = columnsOf (Field.binlogText print) (identityFields before) := by
  have htable : tableOf schema name engine before = tableOf schema name engine after := by
    have hcolumns := congrArg (List.map SourceColumn.column) hsame
    rw [List.map_map, List.map_map] at hcolumns
    rw [tableOf, tableOf]
    exact congrArg (Table.mk schema name engine) hcolumns.symm
  have hafter := toColumns_tableOf print schema name engine (valueText_binlog print) after
  rw [← htable] at hafter
  have hlength : after.length = before.length := by simpa using congrArg List.length hsame
  refine ⟨_, makeRow_eq print ordinal (by simp [tableOf]) (by simp [tableOf, hlength])
    (toColumns_tableOf print schema name engine (valueText_binlog print) before) hafter, ?_⟩
  exact key_tableOf schema name engine _ before

end Keys

section Agreement

variable {print : List UInt8 → String}

theorem sameKey_iff (hprint : ∀ raw, (print raw).length ≤ raw.length) (fields : List Field) :
    SameKey fields (columnsOf (Field.binlogText print) fields) (columnsOf Field.snapshotText fields)
      ↔ ∀ field ∈ fields, field.Faithful := by
  induction fields with
  | nil => exact iff_of_true trivial (List.forall_mem_nil _)
  | cons field fields ih =>
      rw [List.forall_mem_cons, ← ih, ← sameText_iff hprint]
      exact and_iff_right rfl

/-- A value has one text in the snapshot and in the binlog exactly if it is NULL, in a blob, or an integer
below the sign bit of its width. A row that the snapshot inserted is found by the updates and deletes of
the binlog exactly if all values that identify it are such. -/
theorem binlog_matches_snapshot_iff (hprint : ∀ raw, (print raw).length ≤ raw.length) :
    (∀ field : Field, ∃ binlog snapshot,
      valueText print field.source.column (field.binlog print) = .ok binlog
        ∧ valueText print field.source.column field.snapshot = .ok snapshot
        ∧ (Option.Rel (SameText field.source.type) binlog snapshot ↔ field.Faithful))
    ∧ ∀ (schema name engine : String) (before after : List Field) (first second : Nat),
        after.map Field.source = before.map Field.source →
          ∃ inserted updated deleted,
            makeRow print (tableOf schema name engine before)
                { operation := .read, after := some (before.map Field.snapshot) } first = .ok inserted
              ∧ makeRow print (tableOf schema name engine before)
                  { operation := .update, before := some (before.map (Field.binlog print))
                    after := some (after.map (Field.binlog print)) } second = .ok updated
              ∧ makeRow print (tableOf schema name engine before)
                  { operation := .delete, before := some (before.map (Field.binlog print)) } second
                = .ok deleted
              ∧ (SameKey (identityFields before) updated.oldKey inserted.key
                  ↔ ∀ field ∈ identityFields before, field.Faithful)
              ∧ (SameKey (identityFields before) deleted.key inserted.key
                  ↔ ∀ field ∈ identityFields before, field.Faithful) := by
  constructor
  · intro field
    exact ⟨_, _, valueText_binlog print field, valueText_snapshot print field, sameText_iff hprint field⟩
  · intro schema name engine before after first second hsame
    obtain ⟨inserted, hread, hinserted⟩ := makeRow_read print schema name engine before first
    obtain ⟨updated, hupdate, hupdated⟩ := makeRow_update print schema name engine hsame second
    obtain ⟨deleted, hdelete, hdeleted⟩ := makeRow_delete print schema name engine before second
    refine ⟨inserted, updated, deleted, hread, hupdate, hdelete, ?_, ?_⟩
    · rw [hupdated, hinserted]
      exact sameKey_iff hprint _
    · rw [hdeleted, hinserted]
      exact sameKey_iff hprint _

def printAscii (raw : List UInt8) : String :=
  String.ofList (raw.map fun byte => Char.ofNat byte.toNat)

theorem length_printAscii (raw : List UInt8) : (printAscii raw).length ≤ raw.length := by
  simp [printAscii]

def keyField (type : SourceType) (content : type.Content) : Field where
  source := ⟨"id", type, "", false, true⟩
  content := some content

def belowSign : Field :=
  keyField (.integer .bigint true) ⟨2 ^ 63 - 1, by decide⟩

theorem binlog_matches_snapshot_below_sign :
    ∃ inserted deleted,
      makeRow printAscii (tableOf "db" "bag" "InnoDB" [belowSign])
          { operation := .read, after := some ([belowSign].map Field.snapshot) } 1 = .ok inserted
        ∧ makeRow printAscii (tableOf "db" "bag" "InnoDB" [belowSign])
            { operation := .delete, before := some ([belowSign].map (Field.binlog printAscii)) } 2
          = .ok deleted
        ∧ SameKey (identityFields [belowSign]) deleted.key inserted.key := by
  obtain ⟨inserted, -, deleted, hread, -, hdelete, -, hkey⟩ :=
    (binlog_matches_snapshot_iff length_printAscii).2 "db" "bag" "InnoDB" [belowSign] [belowSign] 1 2 rfl
  refine ⟨inserted, deleted, hread, hdelete, hkey.mpr ?_⟩
  intro field hfield
  obtain rfl : field = belowSign := List.mem_singleton.mp hfield
  exact .inr (by decide)

/-- A row read by the snapshot is deleted later under another key. -/
def MissesSnapshot (field : Field) : Prop :=
  ∃ inserted deleted,
    makeRow printAscii (tableOf "db" "bag" "InnoDB" [field])
        { operation := .read, after := some [field.snapshot] } 1 = .ok inserted
      ∧ makeRow printAscii (tableOf "db" "bag" "InnoDB" [field])
          { operation := .delete, before := some [field.binlog printAscii] } 2 = .ok deleted
      ∧ ¬SameKey [field] deleted.key inserted.key

/-- The sign bit of an unsigned key turns into a minus sign, and a binary key keeps its raw bytes: neither
finds the row of the snapshot. -/
theorem binlog_misses_snapshot :
    MissesSnapshot (keyField (.integer .bigint true) ⟨2 ^ 63, by decide⟩)
      ∧ MissesSnapshot (keyField .binary [49]) := by
  constructor
  · refine ⟨_, _, rfl, rfl, ?_⟩
    rintro ⟨-, htext, -⟩
    have htext : toString (Int.bmod (2 ^ 63) (2 ^ 64)) = toString (2 ^ 63 : Int) :=
      Option.rel_some_some.mp htext
    exact absurd (Int.repr_injective htext) (by decide)
  · refine ⟨_, _, rfl, rfl, ?_⟩
    rintro ⟨-, htext, -⟩
    have htext : SameText .binary (printAscii [49]) ("0x" ++ hexUpper [49]) :=
      Option.rel_some_some.mp htext
    exact lower_print_ne length_printAscii [49] htext

end Agreement

end GoSync.MySql
