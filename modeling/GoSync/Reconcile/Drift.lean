import GoSync.MySql.Values
import GoSync.Reconcile.Scan
import GoSync.Reconcile.Types
import GoSync.Server.Session

/-!
# Drift that is none

The reconciliation of a table with its exact copy, for the SQL Server, SQL Server legacy and MySQL
collectors. It reports mismatches exactly if some value has two normal forms.
-/

namespace GoSync.Reconcile

open Rpc App

section Reports

variable {D : Dialect}

def TypedTable.scan (table : TypedTable D) (digests : List BucketDigest) : Scan where
  columns := table.columns.map fun column =>
    { name := column.name, type := D.typeName column.kind, primary := column.primary }
  digests := digests
  columns_ne_nil := by
    rw [ne_eq, List.map_eq_nil_iff]
    exact table.columns_ne

variable {table : TypedTable D}

def mismatches (rt : Runtime) (cfg : Server.Syncer) (request : ReconcileRequest)
    (scan : Except ScanError (List Digest)) (stored : List (TypedRow table)) : Option Nat := do
  let source ← scan.toOption
  let result := (table.scan (source.map Digest.wire)).result request
  let target ← (Server.reconcileDigests cfg
    (targetDigests rt request.buckets (stored.map fun row => row.cells.map Cell.storedText)) result).toOption
  some (Server.sameDigests result.digests (target.map Digest.wire))

/-- The row the server digests has the texts it stores. -/
theorem targetRow_eq (request : ReconcileRequest) (hschema : request.sourceSchema = table.schema)
    (htable : request.table = table.name) (digests : List BucketDigest) (row : TypedRow table) :
    targetRow ((table.scan digests).result request) (row.cells.map Cell.storedText)
      = row.row Cell.storedText := by
  have hcolumns : ∀ make : (String × String) × Option String → Column,
      (∀ name type value, make ((name, type), value) = { name := name, type := type, value := value }) →
      (((((table.scan digests).result request).columns.zip
        ((table.scan digests).result request).columnTypes).zip (row.cells.map Cell.storedText)).map make)
        = row.cells.map (columnOf Cell.storedText) := by
    intro make hmake
    simp only [Scan.result, TypedTable.scan, ← row.columns_eq, List.map_map, List.zip_map']
    exact List.map_congr_left fun cell _ => hmake _ _ _
  have hprimaryKeys : ((table.scan digests).result request).primaryKeys
      = (table.columns.filter TypedColumn.primary).map TypedColumn.name := by
    simp only [Scan.result, TypedTable.scan, List.filter_map, List.map_map]
    rfl
  have hkey : ∀ cell ∈ row.cells,
      (decide (cell.column.name ∈ (table.columns.filter TypedColumn.primary).map TypedColumn.name)
        = cell.column.primary) := by
    intro cell hcell
    have hmem : cell.column ∈ table.columns := row.columns_eq ▸ List.mem_map_of_mem hcell
    rw [Bool.eq_iff_iff, decide_eq_true_iff]
    constructor
    · intro hname
      obtain ⟨column, hcolumn, hname⟩ := List.mem_map.mp hname
      obtain ⟨hother, hprimary⟩ := List.mem_filter.mp hcolumn
      obtain rfl := List.inj_on_of_nodup_map table.names_nodup hother hmem hname
      exact hprimary
    · intro hprimary
      exact List.mem_map_of_mem (List.mem_filter.mpr ⟨hmem, hprimary⟩)
  rw [targetRow]
  dsimp only
  rw [hcolumns _ fun _ _ _ => rfl, hprimaryKeys, TypedRow.row]
  have hscanned : ((table.scan digests).result request).sourceSchema = table.schema
      ∧ ((table.scan digests).result request).table = table.name := ⟨hschema, htable⟩
  rw [hscanned.1, hscanned.2]
  by_cases hkeyed : table.keyed = true
  · have hsome : (table.columns.filter TypedColumn.primary).map TypedColumn.name ≠ [] := by
      obtain ⟨column, hcolumn, hprimary⟩ := List.any_eq_true.mp hkeyed
      exact List.ne_nil_of_mem (List.mem_map_of_mem (List.mem_filter.mpr ⟨hcolumn, hprimary⟩))
    rw [if_neg hsome, if_pos hkeyed, hkeyed, List.filter_map]
    have hfilter : row.cells.filter ((fun column : Column =>
        decide (column.name ∈ (table.columns.filter TypedColumn.primary).map TypedColumn.name))
          ∘ columnOf Cell.storedText)
        = row.cells.filter fun cell => !true || cell.column.primary :=
      List.filter_congr hkey
    rw [hfilter]
  · have hnone : (table.columns.filter TypedColumn.primary).map TypedColumn.name = [] := by
      rw [List.map_eq_nil_iff, List.filter_eq_nil_iff]
      intro column hcolumn hprimary
      exact hkeyed (List.any_eq_true.mpr ⟨column, hcolumn, hprimary⟩)
    have hfalse : table.keyed = false := Bool.eq_false_iff.mpr hkeyed
    have hall : row.cells.filter (fun cell => !false || cell.column.primary) = row.cells :=
      List.filter_eq_self.mpr fun _ _ => rfl
    rw [if_pos hnone, if_neg hkeyed, hfalse, hall]

theorem sameDigests_eq_zero_iff {source target : List BucketDigest} :
    Server.sameDigests source target = 0 ↔ source = target := by
  rw [Server.sameDigests]
  split_ifs with hlength
  · constructor
    · intro h
      have hsource : source.length = 0 := Nat.le_zero.mp (h ▸ Nat.le_max_left _ _)
      have htarget : target.length = 0 := Nat.le_zero.mp (h ▸ Nat.le_max_right _ _)
      exact absurd (hsource.trans htarget.symm) hlength
    · exact fun h => absurd (congrArg List.length h) hlength
  · rw [not_not] at hlength
    rw [List.countP_eq_zero]
    constructor
    · intro h
      apply List.ext_getElem hlength
      intro index hsource htarget
      have hzip : index < (source.zip target).length := by
        rw [List.length_zip, ← hlength, Nat.min_self]
        exact hsource
      have hpair := h _ (List.getElem_mem hzip)
      rw [List.getElem_zip] at hpair
      simpa using hpair
    · rintro rfl pair hpair
      obtain ⟨index, hindex, rfl⟩ := List.mem_iff_getElem.mp hpair
      rw [List.getElem_zip]
      simp

theorem wire_injective : Function.Injective Digest.wire := by
  rintro ⟨bucket, rows, hash⟩ ⟨bucket', rows', hash'⟩ h
  cases h
  rfl

variable {rt : Runtime} {cfg : Server.Syncer} {request : ReconcileRequest} {rows stored : List (TypedRow table)}

/-- A round over a table reports no mismatch exactly if all values of the table are settled: for any scan that
hashes the rows of the source. -/
theorem mismatches_eq_zero_iff (hschema : request.sourceSchema = table.schema)
    (htable : request.table = table.name) (hbuckets : 0 < request.buckets)
    (hallowed : cfg.allows table.schema table.name = true) (hcopy : stored.Perm rows)
    (hcollision : ¬Collision rt request.buckets (rows.map (TypedRow.row Cell.sourceText))
      (stored.map (TypedRow.row Cell.storedText)))
    {scan : Except ScanError (List Digest)}
    (hscan : scan = (digests rt (rows.map (TypedRow.row Cell.sourceText)) request.buckets).mapError .reconcile) :
    mismatches rt cfg request scan stored = some 0 ↔ ∀ row ∈ rows, ∀ cell ∈ row.cells, cell.Settled := by
  have hidentified : ∀ (text : Cell D → Option String) (list : List (TypedRow table)),
      ∀ row ∈ list.map (TypedRow.row text), Identified row := by
    intro text list row hrow
    obtain ⟨item, -, rfl⟩ := List.mem_map.mp hrow
    exact item.identified text
  rw [← digests_eq_iff hbuckets hcopy hcollision]
  have hsource : digests rt (rows.map (TypedRow.row Cell.sourceText)) request.buckets = _ :=
    Reconcile.digests_eq hbuckets (hidentified Cell.sourceText rows)
  have htarget : digests rt (stored.map (TypedRow.row Cell.storedText)) request.buckets = _ :=
    Reconcile.digests_eq hbuckets (hidentified Cell.storedText stored)
  rw [hsource, htarget, hscan, hsource, mismatches]
  have hread : ∀ digests : List BucketDigest,
      Server.reconcileDigests cfg
          (targetDigests rt request.buckets (stored.map fun row => row.cells.map Cell.storedText))
          ((table.scan digests).result request)
        = .ok (Builder.digests ⟨built rt request.buckets (stored.map (TypedRow.row Cell.storedText))⟩) := by
    intro digests
    have hrows : (stored.map fun row => row.cells.map Cell.storedText).map
        (targetRow ((table.scan digests).result request)) = stored.map (TypedRow.row Cell.storedText) := by
      rw [List.map_map]
      exact List.map_congr_left fun row _ => targetRow_eq request hschema htable digests row
    have hnames : ((table.scan digests).result request).sourceSchema = table.schema
        ∧ ((table.scan digests).result request).table = table.name := ⟨hschema, htable⟩
    have hcolumns : ((table.scan digests).result request).columns ≠ [] := by
      rw [ne_eq, Scan.result, List.map_eq_nil_iff]
      exact (table.scan digests).columns_ne_nil
    have hlengths : ((table.scan digests).result request).columnTypes.length
        = ((table.scan digests).result request).columns.length := by
      rw [Scan.result, List.length_map, List.length_map]
    rw [Server.reconcileDigests, hnames.1, hnames.2,
      if_neg (by simp [table.schema_ne, table.name_ne, hcolumns]), if_neg (not_not.mpr hlengths),
      if_neg (by simp [hallowed]), targetDigests, hrows, htarget]
    rfl
  change (do
    let target : List Digest ← (Server.reconcileDigests cfg _ _).toOption
    some (Server.sameDigests _ (target.map Digest.wire))) = some 0 ↔ _
  rw [hread]
  change some (Server.sameDigests _ _) = some 0 ↔ _
  rw [Option.some.injEq, sameDigests_eq_zero_iff, Except.ok.injEq]
  exact (List.map_injective_iff.mpr wire_injective).eq_iff

end Reports

variable {D : Dialect}

section Scans

variable {round : (scale : Nat) → Moment scale → Moment 6}

theorem mapM_cells {ε α β : Type} {left : Cell D → α} {right : Cell D → β}
    {f : α × β → Except ε Column} {result : Cell D → Column} {cells : List (Cell D)}
    (h : ∀ cell ∈ cells, f (left cell, right cell) = .ok (result cell)) :
    ((cells.map left).zip (cells.map right)).mapM f = .ok (cells.map result) := by
  rw [List.zip_map']
  induction cells with
  | nil => rfl
  | cons cell cells ih =>
      rw [List.forall_mem_cons] at h
      rw [List.map_cons, List.mapM_cons, h.1, ih h.2]
      rfl

theorem keyColumns_cells {ε : Type} (nullKey : ε) {column : Cell D → SqlServer.Column}
    (hprimary : ∀ cell, (column cell).primary = cell.column.primary) (text : Cell D → Option String)
    (keyed : Bool) {cells : List (Cell D)}
    (hvalue : ∀ cell ∈ cells, cell.column.primary = true → text cell ≠ none) :
    SqlServer.keyColumns nullKey (if keyed then .primaryKey else .fullRow) (cells.map column)
        (cells.map (columnOf text))
      = .ok ((cells.filter fun cell => !keyed || cell.column.primary).map (columnOf text)) := by
  let identity : RowIdentity := if keyed then .primaryKey else .fullRow
  let step : List Column → SqlServer.Column × Column → Except ε (List Column) := fun key entry =>
    if identity ≠ .fullRow ∧ ¬entry.1.primary then .ok key
    else if entry.1.primary ∧ entry.2.value = none then .error nullKey
    else .ok (key ++ [entry.2])
  have hfold : ∀ front : List Column,
      ((cells.map column).zip (cells.map (columnOf text))).foldlM step front
        = .ok (front ++ (cells.filter fun cell => !keyed || cell.column.primary).map (columnOf text)) := by
    rw [List.zip_map']
    induction cells with
    | nil =>
        intro front
        exact congrArg Except.ok (List.append_nil front).symm
    | cons cell cells ih =>
        rw [List.forall_mem_cons] at hvalue
        intro front
        rw [List.map_cons, List.foldlM_cons]
        dsimp only [step]
        rw [hprimary]
        by_cases hskip : keyed = true ∧ cell.column.primary = false
        · obtain ⟨rfl, hskip⟩ := hskip
          rw [hskip, if_pos (by simp [identity]), Except.ok_bind, ih hvalue.2, List.filter_cons_of_neg (by simp [hskip])]
        · have hkeep : (!keyed || cell.column.primary) = true := by
            cases keyed <;> cases hprimary : cell.column.primary <;> simp_all
          have hidentity : ¬(identity ≠ .fullRow ∧ ¬cell.column.primary = true) := by
            cases keyed <;> cases hprimary : cell.column.primary <;> simp_all [identity]
          have hnull : ¬(cell.column.primary = true ∧ (columnOf text cell).value = none) :=
            fun h => hvalue.1 h.1 h.2
          rw [if_neg hidentity, if_neg hnull, Except.ok_bind, ih hvalue.2, List.filter_cons, if_pos hkeep,
            List.map_cons, List.append_assoc]
          rfl
  exact hfold []

theorem TypedRow.key_value {table : TypedTable D} (row : TypedRow table) :
    ∀ cell ∈ row.cells, cell.column.primary = true → cell.sourceText ≠ none := by
  intro cell hcell hprimary hnone
  exact row.keyed cell hcell hprimary (Option.map_eq_none_iff.mp hnone)

def sqlServerColumn (column : TypedColumn (sqlServer round)) : SqlServer.Column where
  name := column.name
  type := SqlServer.ColumnType.typeName column.kind
  baseType := SqlServer.ColumnType.baseType column.kind
  primary := column.primary

def TypedTable.inspected (table : TypedTable (sqlServer round)) : SqlServer.Table where
  schema := table.schema
  name := table.name
  rowIdentity := if table.keyed then .primaryKey else .fullRow
  columns := table.columns.map sqlServerColumn

def TypedRow.projected {table : TypedTable (sqlServer round)} (row : TypedRow table) : List (Option String) :=
  row.cells.map fun cell => cell.content.map (SqlServer.ColumnType.projected cell.column.kind)

theorem baseType_class (kind : SqlServer.ColumnType) :
    (kind.baseType ∉ ["float", "real"])
      ∧ (kind.baseType ∈ ["binary", "varbinary", "image", "timestamp"]
          ↔ kind = .image ∨ kind = .timestamp ∨ ∃ varying length, kind = .binary varying length)
      ∧ (kind.baseType = "bit" ↔ kind = .bit) := by
  cases kind with
  | integer name => cases name <;> simp [SqlServer.ColumnType.baseType, SqlServer.IntegerName.name]
  | decimal name precision scale => cases name <;> simp [SqlServer.ColumnType.baseType, DecimalName.name]
  | character name length => cases name <;> simp [SqlServer.ColumnType.baseType, SqlServer.CharacterName.name]
  | text wide => cases wide <;> simp [SqlServer.ColumnType.baseType]
  | binary varying length => cases varying <;> simp [SqlServer.ColumnType.baseType]
  | _ => simp [SqlServer.ColumnType.baseType]

theorem normalizeText_projected (format : SqlServer.FormatFloat) {column : SqlServer.Column}
    {kind : SqlServer.ColumnType} (hbase : column.baseType = kind.baseType) (content : kind.Content) :
    SqlServer.normalizeText format column (kind.projected content) = .ok (kind.sourceText content) := by
  obtain ⟨hfloat, hbinary, hbit⟩ := baseType_class kind
  rw [SqlServer.normalizeText, hbase]
  have hhex : ∀ raw : List UInt8, "0x" ++ String.ofList (lower (hexUpper raw)) = "0x" ++ hexEncode raw := by
    intro raw
    rw [lower_hexUpper, String.ofList_toList]
  cases kind with
  | binary varying length =>
      rw [if_pos (hbinary.mpr (.inr (.inr ⟨_, _, rfl⟩)))]
      exact congrArg Except.ok (hhex content)
  | image =>
      rw [if_pos (hbinary.mpr (.inl rfl))]
      exact congrArg Except.ok (hhex content)
  | timestamp =>
      rw [if_pos (hbinary.mpr (.inr (.inl rfl)))]
      exact congrArg Except.ok (hhex content)
  | bit =>
      rw [if_neg (by simp [hbinary]), if_pos (hbit.mpr rfl)]
      cases content <;> rfl
  | _ =>
      rw [if_neg (by simp [hbinary]), if_neg (by simp [hbit]), if_neg hfloat]
      rfl

/-- A SQL Server scan digests the row as the source prints it. -/
theorem sqlServerRow_eq (format : SqlServer.FormatFloat) {table : TypedTable (sqlServer round)}
    (row : TypedRow table) :
    sqlServerRow format table.inspected row.projected = .ok (row.row Cell.sourceText) := by
  have hcolumns : table.inspected.columns = row.cells.map fun cell => sqlServerColumn cell.column := by
    rw [TypedTable.inspected, ← row.columns_eq, List.map_map]
    rfl
  have htoColumns : SqlServer.toColumns format table.inspected row.projected
      = .ok (row.cells.map (columnOf Cell.sourceText)) := by
    rw [SqlServer.toColumns, hcolumns, TypedRow.projected, if_neg (by simp)]
    apply mapM_cells
    intro cell _
    obtain ⟨column, content⟩ := cell
    cases content with
    | none => rfl
    | some content =>
        have htext : SqlServer.normalizeText format (sqlServerColumn column)
            (SqlServer.ColumnType.projected column.kind content)
              = .ok (SqlServer.ColumnType.sourceText column.kind content) :=
          normalizeText_projected format rfl content
        change ((SqlServer.normalizeText format (sqlServerColumn column)
          (SqlServer.ColumnType.projected column.kind content)).map some >>= _) = _
        rw [htext]
        rfl
  have hkey : SqlServer.rowKey table.inspected (row.cells.map (columnOf Cell.sourceText))
      = .ok ((row.cells.filter fun cell => !table.keyed || cell.column.primary).map
        (columnOf Cell.sourceText)) := by
    rw [SqlServer.rowKey, hcolumns]
    exact keyColumns_cells _ (fun _ => rfl) Cell.sourceText table.keyed row.key_value
  rw [sqlServerRow, htoColumns]
  change ((SqlServer.rowKey table.inspected _).mapError _ >>= _) = _
  rw [hkey]
  rfl

def TypedTable.inspectedLegacy (table : TypedTable (sqlServer round)) : SqlServerLegacy.Table where
  schema := table.schema
  name := table.name
  rowIdentity := if table.keyed then .primaryKey else .fullRow
  columns := table.columns.map sqlServerColumn

def TypedRow.raw {table : TypedTable (sqlServer round)} (row : TypedRow table) :
    List (Option (List UInt8)) :=
  row.cells.map fun cell => cell.content.map (SqlServer.ColumnType.raw cell.column.kind)

theorem normalizeRaw_raw {print : SqlServerLegacy.Printing} (hprint : ∀ text, print.text (utf8 text) = text)
    {column : SqlServer.Column} {kind : SqlServer.ColumnType} (hbase : column.baseType = kind.baseType)
    (content : kind.Content) :
    SqlServerLegacy.normalizeRaw print column (kind.raw content)
        (column.baseType ∈ ["binary", "varbinary", "image", "timestamp", "float", "real"])
      = .ok (kind.sourceText content) := by
  obtain ⟨hfloat, hbinary, hbit⟩ := baseType_class kind
  have hreal : ¬(kind.baseType = "float" ∨ kind.baseType = "real") := by simpa using hfloat
  have hclass : decide (kind.baseType ∈ ["binary", "varbinary", "image", "timestamp", "float", "real"]) = true
      ↔ kind = .image ∨ kind = .timestamp ∨ ∃ varying length, kind = .binary varying length := by
    rw [decide_eq_true_iff, ← hbinary]
    change _ ∈ ["binary", "varbinary", "image", "timestamp"] ++ ["float", "real"] ↔ _
    rw [List.mem_append, or_iff_left hfloat]
  rw [SqlServerLegacy.normalizeRaw, hbase, if_neg hreal]
  cases kind with
  | binary varying length => exact if_pos (hclass.mpr (.inr (.inr ⟨_, _, rfl⟩)))
  | image => exact if_pos (hclass.mpr (.inl rfl))
  | timestamp => exact if_pos (hclass.mpr (.inr (.inl rfl)))
  | bit =>
      have htext : print.text (SqlServer.ColumnType.bit.raw content) = cond content "1" "0" := hprint _
      rw [if_neg (by rw [hclass]; simp), if_pos (hbit.mpr rfl), htext]
      cases content <;> rfl
  | _ =>
      rw [if_neg (by rw [hclass]; simp), if_neg (by rw [hbit]; simp)]
      exact congrArg Except.ok (hprint _)

/-- A legacy scan digests the row as the source prints it. -/
theorem snapshotRow_eq {print : SqlServerLegacy.Printing} (hprint : ∀ text, print.text (utf8 text) = text)
    {table : TypedTable (sqlServer round)} (row : TypedRow table) :
    SqlServerLegacy.snapshotRow print table.inspectedLegacy row.raw
      = .ok { row.row Cell.sourceText with operation := .read } := by
  have hcolumns : table.inspectedLegacy.columns = row.cells.map fun cell => sqlServerColumn cell.column := by
    rw [TypedTable.inspectedLegacy, ← row.columns_eq, List.map_map]
    rfl
  rw [SqlServerLegacy.snapshotRow, hcolumns, TypedRow.raw, mapM_cells]
  · rw [Except.ok_bind]
    have hkey : SqlServerLegacy.key table.inspectedLegacy (row.cells.map (columnOf Cell.sourceText))
        = .ok ((row.cells.filter fun cell => !table.keyed || cell.column.primary).map
          (columnOf Cell.sourceText)) := by
      rw [SqlServerLegacy.key, hcolumns]
      exact keyColumns_cells _ (fun _ => rfl) Cell.sourceText table.keyed row.key_value
    rw [hkey]
    rfl
  · intro cell _
    obtain ⟨column, content⟩ := cell
    cases content with
    | none => rfl
    | some content =>
        have htext := normalizeRaw_raw hprint (show (sqlServerColumn column).baseType = _ from rfl) content
        change ((SqlServerLegacy.normalizeRaw print (sqlServerColumn column) (SqlServer.ColumnType.raw column.kind content)
          _).map some >>= _) = _
        rw [htext]
        rfl

def mySqlColumn (column : TypedColumn (mySql round)) : MySql.Column where
  name := column.name
  type := MySql.ColumnType.dataType column.kind
  columnType := MySql.ColumnType.typeName column.kind
  primaryKey := column.primary

def TypedTable.inspectedMySql (table : TypedTable (mySql round)) : MySql.Table where
  schema := table.schema
  name := table.name
  columns := table.columns.map mySqlColumn

def TypedRow.values {table : TypedTable (mySql round)} (row : TypedRow table) : List MySql.Value :=
  row.cells.map fun cell => (cell.sourceText.map MySql.Value.printed).getD .null

/-- A MySQL scan digests the row as the source prints it. -/
theorem makeRow_eq (print : List UInt8 → String) {table : TypedTable (mySql round)} (row : TypedRow table) :
    MySql.makeRow print table.inspectedMySql { operation := .read, after := some row.values } 0
      = .ok { row.row Cell.sourceText with operation := .read } := by
  have hcolumns : table.inspectedMySql.columns = row.cells.map fun cell => mySqlColumn cell.column := by
    rw [TypedTable.inspectedMySql, ← row.columns_eq, List.map_map]
    rfl
  have hlength : row.values.length = table.inspectedMySql.columns.length := by
    rw [hcolumns, TypedRow.values, List.length_map, List.length_map]
  have hcurrent : MySql.toColumns print table.inspectedMySql row.values
      = .ok (row.cells.map (columnOf Cell.sourceText)) := by
    rw [MySql.toColumns, hcolumns, TypedRow.values]
    apply mapM_cells
    intro cell _
    obtain ⟨column, content⟩ := cell
    cases content <;> rfl
  have hidentity : table.inspectedMySql.rowIdentity = if table.keyed then .primaryKey else .fullRow := by
    rw [MySql.Table.rowIdentity, TypedTable.inspectedMySql, List.any_map]
    rfl
  have hkey : MySql.key table.inspectedMySql (row.cells.map (columnOf Cell.sourceText))
      = (row.cells.filter fun cell => !table.keyed || cell.column.primary).map (columnOf Cell.sourceText) := by
    rw [MySql.key, hidentity, hcolumns]
    cases hkeyed : table.keyed with
    | true =>
        change List.map Prod.snd (List.filter (fun entry : MySql.Column × Column => entry.1.primaryKey) _) = _
        rw [List.zip_map', List.filter_map, List.map_map]
        rfl
    | false =>
        have hall : row.cells.filter (fun cell => !false || cell.column.primary) = row.cells :=
          List.filter_eq_self.mpr fun _ _ => rfl
        rw [hall]
        rfl
  have hmake : MySql.makeRow print table.inspectedMySql
      { operation := .read, after := some row.values } 0
        = .ok { identity := table.inspectedMySql.rowIdentity, schema := table.schema, table := table.name
                operation := .read, columns := row.cells.map (columnOf Cell.sourceText)
                key := MySql.key table.inspectedMySql (row.cells.map (columnOf Cell.sourceText)) } :=
    MySql.makeRow_eq print 0 (fun _ h => absurd h.symm (Option.some_ne_none _))
      (fun values hvalues => Option.some.inj hvalues ▸ hlength) (MySql.toColumns_nil print _) hcurrent
  rw [hmake, hidentity, hkey]
  rfl

end Scans

section Drift

variable {round : (scale : Nat) → Moment scale → Moment 6} {rt : Runtime}

theorem digests_operation {table : TypedTable D} {buckets : Nat} (hbuckets : 0 < buckets)
    (rows : List (TypedRow table)) :
    digests rt (rows.map fun row => { row.row Cell.sourceText with operation := .read }) buckets
      = digests rt (rows.map (TypedRow.row Cell.sourceText)) buckets := by
  have hidentified : ∀ row ∈ rows.map (TypedRow.row Cell.sourceText), Identified row := by
    intro row hrow
    obtain ⟨item, -, rfl⟩ := List.mem_map.mp hrow
    exact item.identified Cell.sourceText
  have hsame : Rearranged (rows.map (TypedRow.row Cell.sourceText))
      (rows.map fun row => { row.row Cell.sourceText with operation := .read }) := by
    refine ⟨_, .refl _, ?_⟩
    rw [List.forall₂_map_left_iff, List.forall₂_map_right_iff]
    exact List.forall₂_same.mpr fun row _ => ⟨rfl, rfl, rfl, .refl _, .refl _⟩
  rw [digests_eq hbuckets (hsame.identified hidentified), digests_eq hbuckets hidentified,
    hsame.built hidentified]

/-- A table, a copy of it and a round over it, with nothing that collides. -/
structure Round {D : Dialect} (rt : Runtime) (cfg : Server.Syncer) (request : ReconcileRequest)
    (table : TypedTable D) (rows stored : List (TypedRow table)) : Prop where
  schema : request.sourceSchema = table.schema
  name : request.table = table.name
  buckets : 0 < request.buckets
  allowed : cfg.allows table.schema table.name = true
  copy : stored.Perm rows
  noCollision : ¬Collision rt request.buckets (rows.map (TypedRow.row Cell.sourceText))
    (stored.map (TypedRow.row Cell.storedText))

/-- A round over a table and its exact copy reports no mismatch exactly if no value of the table is an
identifier with a letter, a row version, or a timestamp whose fraction ends in a zero or has a seventh
digit. -/
theorem drift_free_iff (rt : Runtime) (cfg : Server.Syncer) (request : ReconcileRequest)
    (round : (scale : Nat) → Moment scale → Moment 6) :
    (∀ (table : TypedTable (sqlServer round)) (rows stored : List (TypedRow table)),
      Round rt cfg request table rows stored →
        (∀ format : SqlServer.FormatFloat,
          mismatches rt cfg request
              (scanSqlServer rt format table.inspected request.buckets (rows.map TypedRow.projected)) stored
            = some 0
          ↔ ∀ row ∈ rows, ∀ cell ∈ row.cells, cell.Settled)
        ∧ ∀ print : SqlServerLegacy.Printing, (∀ text, print.text (utf8 text) = text) →
            (∀ column ∈ table.columns, SqlServer.ColumnType.Legacy column.kind) →
              (mismatches rt cfg request
                  (scanLegacy rt print table.inspectedLegacy request.buckets (rows.map TypedRow.raw)) stored
                = some 0
              ↔ ∀ row ∈ rows, ∀ cell ∈ row.cells, cell.Settled))
    ∧ ∀ (table : TypedTable (mySql round)) (rows stored : List (TypedRow table)),
        Round rt cfg request table rows stored →
          ∀ print : List UInt8 → String,
            mismatches rt cfg request
                (scanMySql rt print table.inspectedMySql request.buckets (rows.map TypedRow.values)) stored
              = some 0
            ↔ ∀ row ∈ rows, ∀ cell ∈ row.cells, cell.Settled := by
  refine ⟨fun table rows stored h => ⟨fun format => ?_, fun print hprint _ => ?_⟩,
    fun table rows stored h print => ?_⟩
  · apply mismatches_eq_zero_iff h.schema h.name h.buckets h.allowed h.copy h.noCollision
    exact scanRows_eq (fun row _ => sqlServerRow_eq format row) request.buckets
  · apply mismatches_eq_zero_iff h.schema h.name h.buckets h.allowed h.copy h.noCollision
    rw [← digests_operation h.buckets]
    apply scanRows_eq
    intro row _
    rw [snapshotRow_eq hprint]
    rfl
  · apply mismatches_eq_zero_iff h.schema h.name h.buckets h.allowed h.copy h.noCollision
    rw [← digests_operation h.buckets]
    apply scanRows_eq
    intro row _
    rw [makeRow_eq]
    rfl

def cutOff (scale : Nat) (m : Moment scale) : Moment 6 :=
  { m with fraction := ⟨m.fraction.val / 10 ^ (scale - 6) % 10 ^ 6, Nat.mod_lt _ (by decide)⟩ }

def documents : TypedTable (sqlServer cutOff) where
  schema := "dbo"
  name := "documents"
  columns := [⟨"id", .uniqueidentifier, true⟩]
  schema_ne := by decide
  name_ne := by decide
  columns_ne := List.cons_ne_nil _ _
  names_nodup := by decide
  mapped := by
    intro column hcolumn
    obtain rfl := List.mem_singleton.mp hcolumn
    exact (by decide : (Server.sqlServerTargetType
      { name := "", type := "uniqueidentifier", baseType := "uniqueidentifier" }).isOk = true)

def documents.row (digit : Fin 16) : TypedRow documents where
  cells := [⟨⟨"id", .uniqueidentifier, true⟩, some (Identifier.mk (List.replicate 32 digit) (by simp))⟩]
  columns_eq := rfl
  keyed := by
    intro cell hcell _
    obtain rfl := List.mem_singleton.mp hcell
    exact Option.some_ne_none _

def documents.settings : Server.Syncer where
  id := "one"
  tables := [⟨"dbo", "documents"⟩]

def documents.request : ReconcileRequest where
  requestId := "nightly"
  sourceSchema := "dbo"
  table := "documents"
  buckets := 1
  timeoutSeconds := 60

theorem drift_free_digits :
    mismatches Runtime.plain documents.settings documents.request
        (scanSqlServer Runtime.plain (fun _ => "") documents.inspected 1 [(documents.row 7).projected])
        [documents.row 7]
      = some 0 := by
  have hround : Round Runtime.plain documents.settings documents.request documents [documents.row 7]
      [documents.row 7] :=
    ⟨rfl, rfl, by decide, by decide, .refl _, fun h => h.2 (by decide)⟩
  have hiff := ((drift_free_iff Runtime.plain documents.settings documents.request cutOff).1 documents
    [documents.row 7] [documents.row 7] hround).1 fun _ => ""
  apply hiff.mpr
  intro row hrow cell hcell content hcontent
  obtain rfl := List.mem_singleton.mp hrow
  obtain rfl := List.mem_singleton.mp hcell
  obtain rfl := Option.some.inj hcontent
  exact (by decide : ∀ digit ∈ List.replicate 32 (7 : Fin 16), digit.val < 10)

/-- An identifier with letters is hashed in capital letters on the source and in small ones on the target. -/
theorem identifier_drifts :
    mismatches Runtime.plain documents.settings documents.request
        (scanSqlServer Runtime.plain (fun _ => "") documents.inspected 1 [(documents.row 10).projected])
        [documents.row 10]
      = some 1 := by
  decide +kernel

end Drift

end GoSync.Reconcile
