import GoSync.Capture.Decode
import GoSync.Server.RowChange

/-!
# A source change and its copy

One change of a source table travels as a wal2json record, which `convert` turns into a row event and
`applyRow` executes against the target table. The contents of a table are a multiset of rows.
-/

namespace GoSync.Replication

open Capture (Table CatalogColumn ChangeKind Record WireColumn WireValue CaptureError convert
  decodeColumns findColumn fullRowKeys keyColumn primaryKeys)
open Server (Postgres Syncer Tables TargetRow TargetTable Denotes Reads Matches Comparable applyRow
  changeFirst patch replaceTable targetColumnTypes)

variable {Value : Type} {pg : Postgres Value} {cfg : Syncer} {t : Table} {kind : ChangeKind}
  {r : Record} {old new : TargetRow Value}

def targetColumns (t : Table) : List (String × String) :=
  t.columns.map fun column => (column.name, column.type)

def columnNames (t : Table) : List String :=
  t.columns.map CatalogColumn.name

def identityNames (t : Table) : List String :=
  match t.rowIdentity with
  | .primaryKey => t.keyNames
  | .fullRow => columnNames t

/-- A table as `catalog` accepts it. A key column has a type with an equality operator. -/
structure SourceTable (pg : Postgres Value) (t : Table) : Prop where
  some_column : t.columns ≠ []
  distinct : (columnNames t).Nodup
  bytea : ∀ column ∈ t.columns, column.type = "bytea" → column.oid = 17
  keyed : t.rowIdentity = .primaryKey → t.keyNames ≠ []
  comparable : t.rowIdentity = .primaryKey → Comparable pg (targetColumns t) t.keyNames

def Carried (pg : Postgres Value) (column : CatalogColumn) : WireValue → Option Value → Prop
  | .null, none => True
  | .string text, some value | .literal text, some value =>
      pg.castText column.type (if column.oid = 17 then "\\x" ++ text else text) = some value
  | _, _ => False

def Carries (pg : Postgres Value) (t : Table) (row : TargetRow Value) (wire : WireColumn) : Prop :=
  ∃ column ∈ t.columns, column.name = wire.name ∧ column.type = wire.type ∧ column.oid = wire.oid
    ∧ ∃ value, row.lookup wire.name = some value ∧ Carried pg column wire.value value

/-- wal2json's record of a change: the new row without its unchanged TOAST columns, and the old
identity. -/
structure Recorded (pg : Postgres Value) (t : Table) (kind : ChangeKind) (old new : TargetRow Value)
    (r : Record) : Prop where
  schema : r.schema = t.schema
  table : r.table = t.name
  columns : ∀ wire ∈ r.columns, Carries pg t new wire
  columns_distinct : (r.columns.map WireColumn.name).Nodup
  identity : ∀ wire ∈ r.identity, Carries pg t old wire
  identity_distinct : (r.identity.map WireColumn.name).Nodup
  complete : kind = .insert → r.identity = [] ∧ ∀ name ∈ columnNames t, name ∈ r.columns.map WireColumn.name
  unchanged : kind = .update → ∀ name ∉ r.columns.map WireColumn.name, new.lookup name = old.lookup name
  deleted : kind = .delete → r.columns = []
  identified : kind ≠ .insert → ∀ name ∈ identityNames t, name ∈ r.identity.map WireColumn.name

variable {event : Row}

section Conversion

theorem marked_not_binary (text : String) : ("\\x" ++ text).startsWith "0x" ≠ true := by
  rw [ne_eq, String.startsWith_string_iff, String.toList_append]
  rintro ⟨rest, hrest⟩
  have hhead := congrArg List.head? hrest
  simp at hhead

variable {column : CatalogColumn}

/-- The text that is sent is read as the value it stands for. -/
theorem decoded_reads {wire : WireColumn} {value : Option Value}
    (hbytea : column.type = "bytea" → column.oid = 17) (hoid : column.oid = wire.oid)
    (h : Carried pg column wire.value value) :
    ∃ text, wire.value.text = .ok text
      ∧ Reads pg column.type (if wire.oid = 17 then text.map ("\\x" ++ ·) else text) value := by
  have hreads : ∀ {text : String} {value : Value},
      pg.castText column.type (if column.oid = 17 then "\\x" ++ text else text) = some value →
        Reads pg column.type (if column.oid = 17 then some ("\\x" ++ text) else some text) (some value) := by
    intro text value hcast
    by_cases hbinary : column.oid = 17
    · rw [if_pos hbinary] at hcast ⊢
      exact ⟨hcast, fun hstarts => marked_not_binary text hstarts.2⟩
    · rw [if_neg hbinary] at hcast ⊢
      exact ⟨hcast, fun hstarts => hbinary (hbytea hstarts.1)⟩
  rw [← hoid]
  cases hwire : wire.value with
  | null =>
      cases value with
      | none => exact ⟨none, rfl, by split <;> trivial⟩
      | some value => simp [hwire, Carried] at h
  | absent => cases value <;> simp [hwire, Carried] at h
  | string text | literal text =>
      cases value with
      | none => simp [hwire, Carried] at h
      | some value =>
          rw [hwire] at h
          exact ⟨some text, rfl, hreads h⟩

variable {row : TargetRow Value}

theorem lookup_targetColumns (hdistinct : (columnNames t).Nodup)
    (hmem : column ∈ t.columns) : (targetColumns t).lookup column.name = some column.type := by
  have hnodup : ((targetColumns t).map Prod.fst).Nodup := by
    rwa [targetColumns, List.map_map]
  exact Assoc.lookup_of_mem hnodup (List.mem_map_of_mem hmem)

theorem known_eq (hdistinct : (columnNames t).Nodup) (hmem : column ∈ t.columns) :
    (t.columns.reverse.find? fun candidate => candidate.name = column.name) = some column := by
  cases hfind : t.columns.reverse.find? fun candidate => candidate.name = column.name with
  | none => simpa using List.find?_eq_none.mp hfind column (List.mem_reverse.mpr hmem)
  | some found =>
      have hname : found.name = column.name := by simpa using List.find?_some hfind
      have hfound : found ∈ t.columns := List.mem_reverse.mp (List.mem_of_find?_eq_some hfind)
      rw [List.inj_on_of_nodup_map hdistinct hfound hmem hname]

/-- The columns on the wire denote the cells they carry. -/
theorem decodeColumns_eq (hsource : SourceTable pg t) {wires : List WireColumn} {seen : List String}
    (hcarries : ∀ wire ∈ wires, Carries pg t row wire) (hnodup : (wires.map WireColumn.name).Nodup)
    (hfresh : ∀ wire ∈ wires, wire.name ∉ seen) :
    ∃ columns, decodeColumns t.columns seen wires = .ok columns
      ∧ columns.map Column.name = wires.map WireColumn.name
      ∧ ∀ column ∈ columns, Denotes pg (targetColumns t) row column := by
  induction wires generalizing seen with
  | nil => exact ⟨[], rfl, rfl, List.forall_mem_nil _⟩
  | cons wire wires ih =>
      obtain ⟨hfirst, hrest⟩ := List.forall_mem_cons.mp hcarries
      obtain ⟨hunseen, hothers⟩ := List.forall_mem_cons.mp hfresh
      rw [List.map_cons, List.nodup_cons] at hnodup
      obtain ⟨column, hmem, hname, htype, hoid, value, hvalue, hcarried⟩ := hfirst
      obtain ⟨text, htext, hreads⟩ := decoded_reads (hsource.bytea column hmem) hoid hcarried
      have hlater : ∀ other ∈ wires, other.name ∉ wire.name :: seen := by
        intro other hother
        rw [List.mem_cons, not_or]
        exact ⟨fun heq => hnodup.1 (heq ▸ List.mem_map_of_mem hother), hothers other hother⟩
      obtain ⟨columns, hcolumns, hnames, hdenotes⟩ := ih hrest hnodup.2 hlater
      have hknown := known_eq hsource.distinct hmem
      rw [hname] at hknown
      refine ⟨{ name := wire.name, type := column.type,
                value := if wire.oid = 17 then text.map ("\\x" ++ ·) else text } :: columns, ?_, ?_, ?_⟩
      · rw [decodeColumns, hknown]
        dsimp only
        rw [if_neg (by simp [hunseen, htype, hoid]), htext, Except.ok_bind, hcolumns, Except.ok_bind]
      · rw [List.map_cons, List.map_cons, hnames]
      · refine List.forall_mem_cons.mpr ⟨⟨by simp, column.type, value, ?_, hvalue, hreads⟩, hdenotes⟩
        exact hname ▸ lookup_targetColumns hsource.distinct hmem

variable {name : String}

theorem findColumn_of_mem {columns : List Column} (hname : name ∈ columns.map Column.name) :
    ∃ column ∈ columns, findColumn columns name = some column ∧ column.name = name := by
  obtain ⟨column, hmem, rfl⟩ := List.mem_map.mp hname
  cases hfind : findColumn columns column.name with
  | none => simpa using List.find?_eq_none.mp hfind column hmem
  | some found =>
      exact ⟨found, List.mem_of_find?_eq_some hfind, rfl, by simpa using List.find?_some hfind⟩

theorem keyColumn_eq {columns : List Column} (err : CaptureError)
    (hdenotes : ∀ column ∈ columns, Denotes pg (targetColumns t) row column)
    (hname : name ∈ columns.map Column.name) (hvalue : row.lookup name ≠ some none) :
    ∃ column ∈ columns, keyColumn columns name err = .ok column ∧ column.name = name := by
  obtain ⟨column, hmem, hfind, rfl⟩ := findColumn_of_mem hname
  refine ⟨column, hmem, ?_, rfl⟩
  obtain ⟨type, value, -, hlookup, hreads⟩ := (hdenotes column hmem).value
  rw [keyColumn, hfind]
  dsimp only
  rw [if_neg]
  intro hnull
  rw [hnull] at hreads
  cases value with
  | none => exact hvalue hlookup
  | some value => exact hreads

structure Identity (pg : Postgres Value) (t : Table) (kind : ChangeKind) (old : TargetRow Value)
    (names : List String) (values key oldKey : List Column) : Prop where
  inserted : kind = .insert → ∀ column ∈ key, column ∈ values
  updated : kind = .update → oldKey.map Column.name = names
    ∧ ∀ column ∈ oldKey, Denotes pg (targetColumns t) old column
  deleted : kind = .delete → key.map Column.name = names
    ∧ ∀ column ∈ key, Denotes pg (targetColumns t) old column

variable {values olds : List Column}

/-- The keys that are sent name the row by its primary key. -/
theorem primaryKeys_eq {names : List String}
    (hnew : ∀ column ∈ values, Denotes pg (targetColumns t) new column)
    (hold : ∀ column ∈ olds, Denotes pg (targetColumns t) old column)
    (hnewKey : kind ≠ .delete → ∀ name ∈ names, name ∈ values.map Column.name ∧ new.lookup name ≠ some none)
    (holdKey : kind ≠ .insert → ∀ name ∈ names, name ∈ olds.map Column.name ∧ old.lookup name ≠ some none) :
    ∃ key oldKey, primaryKeys kind values olds names = .ok (key, oldKey)
      ∧ Identity pg t kind old names values key oldKey := by
  induction names with
  | nil => exact ⟨[], [], rfl, by simp, by simp, by simp⟩
  | cons name names ih =>
      obtain ⟨key, oldKey, hkeys, hidentity⟩ := ih
        (fun hkind => (List.forall_mem_cons.mp (hnewKey hkind)).2)
        (fun hkind => (List.forall_mem_cons.mp (holdKey hkind)).2)
      cases kind with
      | insert =>
          obtain ⟨hname, hvalue⟩ := hnewKey (by simp) name List.mem_cons_self
          obtain ⟨column, hmem, hcolumn, -⟩ := keyColumn_eq .rowKey hnew hname hvalue
          refine ⟨column :: key, oldKey, ?_, ?_, by simp, by simp⟩
          · rw [primaryKeys]
            simp only [hcolumn, hkeys, Except.ok_bind]
          · exact fun _ => List.forall_mem_cons.mpr ⟨hmem, hidentity.inserted rfl⟩
      | update =>
          obtain ⟨hname, hvalue⟩ := hnewKey (by simp) name List.mem_cons_self
          obtain ⟨column, -, hcolumn, -⟩ := keyColumn_eq .rowKey hnew hname hvalue
          obtain ⟨hname', hvalue'⟩ := holdKey (by simp) name List.mem_cons_self
          obtain ⟨previous, hmem, hprevious, rfl⟩ := keyColumn_eq .updateOldKey hold hname' hvalue'
          refine ⟨column :: key, previous :: oldKey, ?_, by simp, ?_, by simp⟩
          · rw [primaryKeys]
            simp only [hcolumn, hprevious, hkeys, Except.ok_bind]
          · obtain ⟨hnames, hdenotes⟩ := hidentity.updated rfl
            exact fun _ => ⟨by rw [List.map_cons, hnames],
              List.forall_mem_cons.mpr ⟨hold previous hmem, hdenotes⟩⟩
      | delete =>
          obtain ⟨hname, hvalue⟩ := holdKey (by simp) name List.mem_cons_self
          obtain ⟨column, hmem, hcolumn, rfl⟩ := keyColumn_eq .deleteKey hold hname hvalue
          refine ⟨column :: key, oldKey, ?_, by simp, by simp, ?_⟩
          · rw [primaryKeys]
            simp only [hcolumn, hkeys, Except.ok_bind]
          · obtain ⟨hnames, hdenotes⟩ := hidentity.deleted rfl
            exact fun _ => ⟨by rw [List.map_cons, hnames],
              List.forall_mem_cons.mpr ⟨hold column hmem, hdenotes⟩⟩

theorem mem_of_primaryKeys_update {names : List String} {keys : List Column × List Column}
    (h : primaryKeys .update values olds names = .ok keys) (hname : name ∈ names) :
    name ∈ values.map Column.name := by
  induction names generalizing keys with
  | nil => cases hname
  | cons first names ih =>
      rw [primaryKeys] at h
      obtain ⟨column, hcolumn, h⟩ := Except.bind_eq_ok.mp h
      obtain ⟨previous, -, h⟩ := Except.bind_eq_ok.mp h
      obtain ⟨rest, hrest, -⟩ := Except.bind_eq_ok.mp h
      rcases List.mem_cons.mp hname with rfl | hname
      · rw [keyColumn] at hcolumn
        cases hfind : findColumn values name with
        | none => simp [hfind] at hcolumn
        | some found =>
            have heq : found.name = name := by simpa using List.find?_some hfind
            exact heq ▸ List.mem_map_of_mem (List.mem_of_find?_eq_some hfind)
      · exact ih hrest hname

/-- Without a primary key they name it by all its columns. -/
theorem fullRowKeys_eq {columns : List CatalogColumn}
    (hold : ∀ column ∈ olds, Denotes pg (targetColumns t) old column)
    (hnewKey : kind = .insert → ∀ column ∈ columns, column.name ∈ values.map Column.name)
    (holdKey : kind ≠ .insert → ∀ column ∈ columns, column.name ∈ olds.map Column.name) :
    ∃ key oldKey, fullRowKeys kind values olds columns = .ok (key, oldKey)
      ∧ Identity pg t kind old (columns.map CatalogColumn.name) values key oldKey := by
  induction columns with
  | nil => exact ⟨[], [], rfl, by simp, by simp, by simp⟩
  | cons column columns ih =>
      obtain ⟨key, oldKey, hkeys, hidentity⟩ := ih
        (fun hkind => (List.forall_mem_cons.mp (hnewKey hkind)).2)
        (fun hkind => (List.forall_mem_cons.mp (holdKey hkind)).2)
      cases kind with
      | insert =>
          obtain ⟨value, hmem, hfind, -⟩ := findColumn_of_mem (hnewKey rfl column List.mem_cons_self)
          refine ⟨value :: key, oldKey, ?_, ?_, by simp, by simp⟩
          · simp only [fullRowKeys, hfind, hkeys, Except.ok_bind]
          · exact fun _ => List.forall_mem_cons.mpr ⟨hmem, hidentity.inserted rfl⟩
      | update =>
          obtain ⟨previous, hmem, hfind, hname⟩ :=
            findColumn_of_mem (holdKey (by simp) column List.mem_cons_self)
          obtain ⟨hnames, hdenotes⟩ := hidentity.updated rfl
          refine ⟨(findColumn values column.name).getD previous :: key, previous :: oldKey, ?_, by simp, ?_,
            by simp⟩
          · rw [fullRowKeys, hkeys, Except.ok_bind, hfind]
            rfl
          · exact fun _ => ⟨by rw [List.map_cons, List.map_cons, hnames, hname],
              List.forall_mem_cons.mpr ⟨hold previous hmem, hdenotes⟩⟩
      | delete =>
          obtain ⟨previous, hmem, hfind, hname⟩ :=
            findColumn_of_mem (holdKey (by simp) column List.mem_cons_self)
          obtain ⟨hnames, hdenotes⟩ := hidentity.deleted rfl
          refine ⟨previous :: key, oldKey, ?_, by simp, by simp, ?_⟩
          · rw [fullRowKeys, hkeys, Except.ok_bind, hfind]
            rfl
          · exact fun _ => ⟨by rw [List.map_cons, List.map_cons, hnames, hname],
              List.forall_mem_cons.mpr ⟨hold previous hmem, hdenotes⟩⟩

structure Converted (pg : Postgres Value) (t : Table) (kind : ChangeKind) (old new : TargetRow Value)
    (r : Record) (event : Row) : Prop where
  schema : event.schema = t.schema
  table : event.table = t.name
  operation : event.operation = kind.operation
  columns : ∀ column ∈ event.columns, Denotes pg (targetColumns t) new column
  names : event.columns.map Column.name = r.columns.map WireColumn.name
  identity : Identity pg t kind old (identityNames t) event.columns event.key event.oldKey

theorem Carries.mem {wire : WireColumn} (h : Carries pg t row wire) : wire.name ∈ columnNames t := by
  obtain ⟨column, hmem, hname, -⟩ := h
  exact hname ▸ List.mem_map_of_mem hmem

theorem length_eq_of_carries (hsource : SourceTable pg t) {wires : List WireColumn}
    (hcarries : ∀ wire ∈ wires, Carries pg t row wire) (hnodup : (wires.map WireColumn.name).Nodup)
    (hall : ∀ name ∈ columnNames t, name ∈ wires.map WireColumn.name) :
    wires.length = t.columns.length := by
  have hsubset : wires.map WireColumn.name ⊆ columnNames t := by
    intro name hname
    obtain ⟨wire, hwire, rfl⟩ := List.mem_map.mp hname
    exact (hcarries wire hwire).mem
  have hle := (List.subperm_of_subset hnodup hsubset).length_le
  have hge := (List.subperm_of_subset hsource.distinct hall).length_le
  simp only [columnNames, List.length_map] at hle hge
  exact Nat.le_antisymm hle hge

theorem keyNames_subset (t : Table) : t.keyNames ⊆ columnNames t := by
  intro name hname
  obtain ⟨column, hcolumn, rfl⟩ := List.mem_map.mp hname
  exact List.mem_map_of_mem (List.mem_of_mem_filter hcolumn)

theorem identityNames_subset (t : Table) : identityNames t ⊆ columnNames t := by
  unfold identityNames
  split
  · exact keyNames_subset t
  · exact List.Subset.refl _

/-- A recorded change of a table with its keys can be converted. -/
theorem convert_ok (hsource : SourceTable pg t) (hrecord : Recorded pg t kind old new r)
    (hnew : t.rowIdentity = .primaryKey → kind ≠ .delete → ∀ name ∈ t.keyNames, new.lookup name ≠ some none)
    (hold : t.rowIdentity = .primaryKey → kind ≠ .insert → ∀ name ∈ t.keyNames, old.lookup name ≠ some none)
    (hlisted : t.rowIdentity = .primaryKey → kind = .update →
      ∀ name ∈ t.keyNames, name ∈ r.columns.map WireColumn.name) :
    ∃ event, convert kind r t = .ok event ∧ Converted pg t kind old new r event := by
  obtain ⟨columns, hcolumns, hnames, hdenotes⟩ := decodeColumns_eq hsource hrecord.columns
    hrecord.columns_distinct fun _ _ => List.not_mem_nil
  obtain ⟨olds, holds, holdNames, holdDenotes⟩ := decodeColumns_eq hsource hrecord.identity
    hrecord.identity_distinct fun _ _ => List.not_mem_nil
  have hlength : columns.length = r.columns.length := by
    simpa using congrArg List.length hnames
  have holdLength : olds.length = r.identity.length := by
    simpa using congrArg List.length holdNames
  cases hidentity : t.rowIdentity with
  | fullRow =>
      have hids : identityNames t = columnNames t := by rw [identityNames, hidentity]
      have hcomplete : ¬ (kind ≠ .insert ∧ olds.length ≠ t.columns.length) := by
        rintro ⟨hkind, hne⟩
        exact hne (holdLength.trans (length_eq_of_carries hsource hrecord.identity
          hrecord.identity_distinct (hids ▸ hrecord.identified hkind)))
      obtain ⟨key, oldKey, hkeys, hfound⟩ := fullRowKeys_eq holdDenotes
        (fun hkind column hmem => hnames ▸ (hrecord.complete hkind).2 column.name (List.mem_map_of_mem hmem))
        (fun hkind column hmem => holdNames ▸ hrecord.identified hkind column.name
          (hids ▸ List.mem_map_of_mem hmem))
      refine ⟨{ identity := .fullRow, schema := r.schema, table := r.table, operation := kind.operation,
                key := key, oldKey := oldKey, columns := columns }, ?_, ?_⟩
      · simp only [convert, hcolumns, holds, Except.ok_bind, hidentity, hcomplete, if_false, hkeys]
      · exact ⟨hrecord.schema, hrecord.table, rfl, hdenotes, hnames, hids ▸ hfound⟩
  | primaryKey =>
      have hids : identityNames t = t.keyNames := by rw [identityNames, hidentity]
      have hcomplete : ¬ (kind = .insert ∧ columns.length ≠ t.columns.length) := by
        rintro ⟨hkind, hne⟩
        exact hne (hlength.trans (length_eq_of_carries hsource hrecord.columns
          hrecord.columns_distinct (hrecord.complete hkind).2))
      have hlistedKey : kind ≠ .delete → ∀ name ∈ t.keyNames, name ∈ columns.map Column.name := by
        intro hkind name hname
        rw [hnames]
        cases kind with
        | insert => exact (hrecord.complete rfl).2 name (keyNames_subset t hname)
        | update => exact hlisted hidentity rfl name hname
        | delete => exact absurd rfl hkind
      obtain ⟨key, oldKey, hkeys, hfound⟩ := primaryKeys_eq hdenotes holdDenotes
        (fun hkind name hname => ⟨hlistedKey hkind name hname, hnew hidentity hkind name hname⟩)
        (fun hkind name hname => ⟨holdNames ▸ hrecord.identified hkind name (hids ▸ hname),
          hold hidentity hkind name hname⟩)
      refine ⟨{ schema := r.schema, table := r.table, operation := kind.operation,
                key := key, oldKey := oldKey, columns := columns }, ?_, ?_⟩
      · simp only [convert, hcolumns, holds, Except.ok_bind, hidentity, hkeys, hcomplete, if_false]
      · exact ⟨hrecord.schema, hrecord.table, rfl, hdenotes, hnames, hids ▸ hfound⟩

theorem keys_listed_of_convert (hsource : SourceTable pg t) (hrecord : Recorded pg t .update old new r)
    (hidentity : t.rowIdentity = .primaryKey) (h : convert .update r t = .ok event) :
    ∀ name ∈ t.keyNames, name ∈ r.columns.map WireColumn.name := by
  intro name hname
  obtain ⟨columns, hcolumns, hnames, -⟩ := decodeColumns_eq hsource hrecord.columns
    hrecord.columns_distinct fun _ _ => List.not_mem_nil
  unfold convert at h
  rw [hcolumns, Except.ok_bind] at h
  obtain ⟨olds, -, h⟩ := Except.bind_eq_ok.mp h
  rw [hidentity] at h
  obtain ⟨keys, hkeys, -⟩ := Except.bind_eq_ok.mp h
  exact hnames ▸ mem_of_primaryKeys_update hkeys hname

end Conversion

section Copies

def copyOf (t : Table) (tables : Tables Value) (rows : List (TargetRow Value)) : Tables Value :=
  Function.update tables t.name (some { columns := targetColumns t, rows := rows })

variable {tables : Tables Value} {rows rows' : List (TargetRow Value)}

theorem copyOf_self :
    copyOf t tables rows t.name = some { columns := targetColumns t, rows := rows } :=
  Function.update_self ..

theorem replaceTable_copyOf {next : Tables Value} :
    replaceTable pg (copyOf t tables rows) t.name { columns := targetColumns t, rows := rows' } = .ok next
      ↔ pg.admits (copyOf t tables rows') = true ∧ next = copyOf t tables rows' := by
  unfold replaceTable copyOf
  rw [Function.update_idem]
  by_cases hadmits : pg.admits
      (Function.update tables t.name (some { columns := targetColumns t, rows := rows' })) = true
  · rw [if_pos hadmits, Except.ok.injEq]
    simp only [hadmits, true_and]
    exact eq_comm
  · rw [if_neg hadmits]
    simp [hadmits]

theorem copyOf_inj (h : copyOf t tables rows = copyOf t tables rows') :
    rows = rows' := by
  have hcopy := congrFun h t.name
  rw [copyOf_self, copyOf_self] at hcopy
  exact congrArg TargetTable.rows (Option.some.inj hcopy)

theorem targetColumns_names (t : Table) : (targetColumns t).map Prod.fst = columnNames t := by
  rw [targetColumns, List.map_map]
  rfl

/-- What an insert of the source does in the copy. -/
theorem applyRow_inserted (hsource : SourceTable pg t) (hallowed : cfg.allows t.schema t.name = true)
    (hrecord : Recorded pg t .insert old new r) (hnew : new.map Prod.fst = columnNames t)
    (hevent : Converted pg t .insert old new r event) :
    applyRow pg cfg (targetColumnTypes (copyOf t tables rows)) event (copyOf t tables rows)
      = replaceTable pg (copyOf t tables rows) t.name
          { columns := targetColumns t, rows := rows ++ [new] } := by
  have htable := hevent.table
  rw [← htable]
  refine Server.applyRow_insert_eq hevent.operation (by rw [hevent.schema, htable, hallowed])
    (htable ▸ copyOf_self) (by simpa [targetColumns] using hsource.some_column)
    (by rw [targetColumns_names]; exact hsource.distinct) (by rw [targetColumns_names, hnew])
    (fun column hmem => (hevent.columns column hmem).gives) (hevent.names ▸ hrecord.columns_distinct) ?_ ?_
  · intro column hcolumn
    rw [hevent.names]
    apply (hrecord.complete rfl).2
    rw [← targetColumns_names]
    exact List.mem_map_of_mem hcolumn
  · intro column hcolumn
    exact (hevent.columns column (hevent.identity.inserted rfl column hcolumn)).plain

theorem identityNames_ne_nil (hsource : SourceTable pg t) : identityNames t ≠ [] := by
  unfold identityNames
  split
  · exact hsource.keyed ‹_›
  · simpa [columnNames] using hsource.some_column

variable (pick : TargetRow Value → Bool) {next : Tables Value}

/-- What an update of the source does in the copy. -/
theorem applyRow_updated_iff (hsource : SourceTable pg t) (hallowed : cfg.allows t.schema t.name = true)
    (hrecord : Recorded pg t .update old new r) (hevent : Converted pg t .update old new r event)
    (hpick : ∀ row, pick row = true ↔ Matches pg (identityNames t) old row) :
    applyRow pg cfg (targetColumnTypes (copyOf t tables rows)) event (copyOf t tables rows) = .ok next
      ↔ (r.columns ≠ [] ∧ Comparable pg (targetColumns t) (identityNames t))
        ∧ ∃ rows', changeFirst pick
            (fun row => some (patch (r.columns.map WireColumn.name) new row)) rows = some rows'
          ∧ replaceTable pg (copyOf t tables rows) t.name { columns := targetColumns t, rows := rows' }
            = .ok next := by
  have htable := hevent.table
  obtain ⟨hnames, hdenotes⟩ := hevent.identity.updated rfl
  have hkeyed : event.oldKey ≠ [] := by
    intro hempty
    rw [hempty] at hnames
    exact identityNames_ne_nil hsource hnames.symm
  have hwritten : event.columns ≠ [] ↔ r.columns ≠ [] := by
    rw [not_iff_not, ← List.map_eq_nil_iff, hevent.names, List.map_eq_nil_iff]
  rw [Server.applyRow_update_eq_ok_iff hevent.operation (by rw [hevent.schema, htable, hallowed])
    (htable ▸ copyOf_self) (by simpa [targetColumns] using hsource.some_column)
    (fun column hmem => (hevent.columns column hmem).gives) (hevent.names ▸ hrecord.columns_distinct)
    hkeyed (fun column hmem => (hdenotes column hmem).gives) (hnames ▸ hpick), hnames, hwritten,
    hevent.names, htable]

/-- What a delete of the source does in the copy. -/
theorem applyRow_deleted_iff (hsource : SourceTable pg t) (hallowed : cfg.allows t.schema t.name = true)
    (hrecord : Recorded pg t .delete old new r) (hevent : Converted pg t .delete old new r event)
    (hpick : ∀ row, pick row = true ↔ Matches pg (identityNames t) old row) :
    applyRow pg cfg (targetColumnTypes (copyOf t tables rows)) event (copyOf t tables rows) = .ok next
      ↔ (True ∧ Comparable pg (targetColumns t) (identityNames t))
        ∧ ∃ rows', changeFirst pick (fun _ => none) rows = some rows'
          ∧ replaceTable pg (copyOf t tables rows) t.name { columns := targetColumns t, rows := rows' }
            = .ok next := by
  have htable := hevent.table
  obtain ⟨hnames, hdenotes⟩ := hevent.identity.deleted rfl
  have hkeyed : event.key ≠ [] := by
    intro hempty
    rw [hempty] at hnames
    exact identityNames_ne_nil hsource hnames.symm
  have hempty : event.columns = [] := by
    rw [← List.map_eq_nil_iff, hevent.names, hrecord.deleted rfl]
    rfl
  rw [Server.applyRow_delete_eq_ok_iff hevent.operation (by rw [hevent.schema, htable, hallowed])
    (htable ▸ copyOf_self) (by simpa [targetColumns] using hsource.some_column) hempty hkeyed
    (fun column hmem => (hdenotes column hmem).gives) (hnames ▸ hpick), hnames, htable, true_and]

end Copies

section Changes

variable [DecidableEq Value] {contents : Multiset (TargetRow Value)} {tables : Tables Value}

def changed (kind : ChangeKind) (old new : TargetRow Value) (contents : Multiset (TargetRow Value)) :
    Multiset (TargetRow Value) :=
  match kind with
  | .insert => new ::ₘ contents
  | .update => new ::ₘ contents.erase old
  | .delete => contents.erase old

theorem new_mem_changed (hkind : kind ≠ .delete) : new ∈ changed kind old new contents := by
  cases kind with
  | insert => exact Multiset.mem_cons_self ..
  | update => exact Multiset.mem_cons_self ..
  | delete => exact absurd rfl hkind

/-- What a table may hold: rows with its columns, and with a primary key if it has one. -/
structure TableContents (pg : Postgres Value) (t : Table) (contents : Multiset (TargetRow Value)) : Prop where
  aligned : ∀ row ∈ contents, row.map Prod.fst = columnNames t
  not_null : t.rowIdentity = .primaryKey →
    ∀ row ∈ contents, ∀ name ∈ t.keyNames, row.lookup name ≠ some none
  unique : t.rowIdentity = .primaryKey →
    ∀ row ∈ contents, ∀ other ∈ contents.erase row, ¬ Matches pg t.keyNames row other

/-- One change of a source table with its record, and a target that can hold the new contents. -/
structure SourceChange (pg : Postgres Value) (cfg : Syncer) (t : Table) (kind : ChangeKind)
    (old new : TargetRow Value) (r : Record) (contents : Multiset (TargetRow Value))
    (tables : Tables Value) : Prop where
  source : SourceTable pg t
  before : TableContents pg t contents
  after : TableContents pg t (changed kind old new contents)
  old_mem : kind ≠ .insert → old ∈ contents
  record : Recorded pg t kind old new r
  reflexive : ∀ value, pg.same value value = true
  allowed : cfg.allows t.schema t.name = true
  admitted : ∀ rows : List (TargetRow Value), (rows : Multiset (TargetRow Value)) = changed kind old new contents →
    pg.admits (copyOf t tables rows) = true

/-- The record of a change converts, and the event takes the copy to the new contents. -/
def Mirrored (pg : Postgres Value) (cfg : Syncer) (t : Table) (kind : ChangeKind) (r : Record)
    (tables : Tables Value) (rows : List (TargetRow Value)) (after : Multiset (TargetRow Value)) : Prop :=
  ∃ event rows', convert kind r t = .ok event
    ∧ applyRow pg cfg (targetColumnTypes (copyOf t tables rows)) event (copyOf t tables rows)
      = .ok (copyOf t tables rows')
    ∧ (rows' : Multiset (TargetRow Value)) = after

structure Mirrorable (pg : Postgres Value) (t : Table) (kind : ChangeKind) (old new : TargetRow Value)
    (r : Record) (contents : Multiset (TargetRow Value)) : Prop where
  /-- The new image of an update has the primary key. -/
  key : t.rowIdentity = .primaryKey → kind = .update →
    ∀ name ∈ t.keyNames, name ∈ r.columns.map WireColumn.name
  /-- The new image of an update has some column. -/
  written : kind = .update → r.columns ≠ []
  /-- All columns of a keyless table can be compared. -/
  comparable : t.rowIdentity = .fullRow → kind ≠ .insert → Comparable pg (targetColumns t) (columnNames t)
  /-- A row that compares equal to the old row of a keyless table is that row, or the update changes
  neither of them. -/
  identified : t.rowIdentity = .fullRow → kind ≠ .insert →
    ∀ other ∈ contents, Matches pg (columnNames t) old other →
      other = old ∨ kind = .update ∧ old = new
        ∧ ∀ name ∈ r.columns.map WireColumn.name, other.lookup name = new.lookup name

/-- The order of the rows does not matter if all rows that match do equally well. -/
theorem copied_iff {after : Multiset (TargetRow Value)} {possible : Prop}
    {pick : TargetRow Value → Bool} {change : TargetRow Value → Option (TargetRow Value)}
    (hadmitted : ∀ rows : List (TargetRow Value), (rows : Multiset (TargetRow Value)) = after →
      pg.admits (copyOf t tables rows) = true)
    (happly : ∀ rows next, applyRow pg cfg (targetColumnTypes (copyOf t tables rows)) event
        (copyOf t tables rows) = .ok next
      ↔ possible ∧ ∃ rows', changeFirst pick change rows = some rows'
        ∧ replaceTable pg (copyOf t tables rows) t.name { columns := targetColumns t, rows := rows' }
          = .ok next) :
    (∀ rows : List (TargetRow Value), (rows : Multiset (TargetRow Value)) = contents →
        ∃ rows', applyRow pg cfg (targetColumnTypes (copyOf t tables rows)) event (copyOf t tables rows)
            = .ok (copyOf t tables rows')
          ∧ (rows' : Multiset (TargetRow Value)) = after)
      ↔ possible ∧ (∃ row ∈ contents, pick row = true)
        ∧ ∀ row ∈ contents, pick row = true →
          ((change row).toList : Multiset (TargetRow Value)) + contents.erase row = after := by
  rw [← Server.changeFirst_listings_iff]
  constructor
  · intro h
    refine ⟨?_, ?_⟩
    · obtain ⟨rows', happlied, -⟩ := h contents.toList (Multiset.coe_toList contents)
      exact ((happly _ _).mp happlied).1
    · intro rows hrows
      obtain ⟨rows', happlied, hafter⟩ := h rows hrows
      obtain ⟨-, changed, hchanged, hreplaced⟩ := (happly _ _).mp happlied
      obtain rfl := copyOf_inj (replaceTable_copyOf.mp hreplaced).2
      exact ⟨_, hchanged, hafter⟩
  · rintro ⟨hpossible, h⟩ rows hrows
    obtain ⟨rows', hchanged, hafter⟩ := h rows hrows
    exact ⟨rows', (happly _ _).mpr ⟨hpossible, rows', hchanged,
      replaceTable_copyOf.mpr ⟨hadmitted rows' hafter, rfl⟩⟩, hafter⟩

theorem SourceChange.matches_old (h : SourceChange pg cfg t kind old new r contents tables)
    (hkind : kind ≠ .insert) : Matches pg (identityNames t) old old := by
  refine Server.matches_self h.reflexive ?_
  intro name hname
  apply Assoc.lookup_isSome_iff.mpr
  rw [h.before.aligned old (h.old_mem hkind)]
  exact identityNames_subset t hname

theorem SourceChange.found_iff (h : SourceChange pg cfg t kind old new r contents tables)
    (hkind : kind ≠ .insert) (harmless : TargetRow Value → Prop) :
    (∀ row ∈ contents, Matches pg (identityNames t) old row → row = old ∨ harmless row)
      ↔ (t.rowIdentity = .fullRow →
        ∀ row ∈ contents, Matches pg (columnNames t) old row → row = old ∨ harmless row) := by
  cases hidentity : t.rowIdentity with
  | fullRow => simp [identityNames, hidentity]
  | primaryKey =>
      simp only [identityNames, hidentity, reduceCtorEq, false_implies, iff_true]
      intro row hrow hmatches
      by_cases heq : row = old
      · exact .inl heq
      · exact absurd hmatches (h.before.unique hidentity old (h.old_mem hkind) row
          ((Multiset.mem_erase_of_ne heq).mpr hrow))

theorem SourceChange.comparable_iff (h : SourceChange pg cfg t kind old new r contents tables) :
    Comparable pg (targetColumns t) (identityNames t)
      ↔ (t.rowIdentity = .fullRow → Comparable pg (targetColumns t) (columnNames t)) := by
  cases hidentity : t.rowIdentity with
  | fullRow => simp [identityNames, hidentity]
  | primaryKey => simpa [identityNames, hidentity] using h.source.comparable hidentity

theorem swapped_iff {α : Type} [DecidableEq α] {contents : Multiset α} {old other new patched : α}
    (hold : old ∈ contents) (hother : other ∈ contents) (hne : other ≠ old) :
    patched ::ₘ contents.erase other = new ::ₘ contents.erase old ↔ old = new ∧ patched = other := by
  obtain ⟨rest, rfl⟩ := Multiset.exists_cons_of_mem hold
  obtain ⟨rest, rfl⟩ := Multiset.exists_cons_of_mem ((Multiset.mem_cons.mp hother).resolve_left hne)
  rw [Multiset.erase_cons_head, Multiset.erase_cons_tail _ hne.symm, Multiset.erase_cons_head]
  constructor
  · intro h
    have hpair : patched ::ₘ {old} = new ::ₘ ({other} : Multiset α) := by
      apply add_right_cancel (b := rest)
      simpa [Multiset.cons_add] using h
    rcases Multiset.cons_eq_cons.mp hpair with ⟨-, hsame⟩ | ⟨-, rest', hleft, hright⟩
    · exact absurd (Multiset.singleton_inj.mp hsame).symm hne
    · exact ⟨(Multiset.singleton_eq_cons_iff _).mp hleft |>.1,
        ((Multiset.singleton_eq_cons_iff _).mp hright).1.symm⟩
  · rintro ⟨rfl, rfl⟩
    exact Multiset.cons_swap ..

theorem SourceChange.updated_iff (h : SourceChange pg cfg t .update old new r contents tables)
    {row : TargetRow Value} (hrow : row ∈ contents) :
    patch (r.columns.map WireColumn.name) new row ::ₘ contents.erase row = new ::ₘ contents.erase old
      ↔ row = old ∨ old = new
        ∧ ∀ name ∈ r.columns.map WireColumn.name, row.lookup name = new.lookup name := by
  have hold : old ∈ contents := h.old_mem (by simp)
  have hnew : new.map Prod.fst = columnNames t := h.after.aligned new (new_mem_changed (by simp))
  by_cases heq : row = old
  · subst heq
    have hpatch : patch (r.columns.map WireColumn.name) new row = new :=
      Server.patch_eq ((h.before.aligned row hrow).trans hnew.symm) (hnew ▸ h.source.distinct)
        (h.record.unchanged rfl)
    simp [hpatch]
  · have hrowNames := h.before.aligned row hrow
    have hlisted : ∀ name ∈ r.columns.map WireColumn.name, name ∈ row.map Prod.fst := by
      intro name hname
      obtain ⟨wire, hwire, rfl⟩ := List.mem_map.mp hname
      exact hrowNames ▸ (h.record.columns wire hwire).mem
    rw [swapped_iff hold hrow heq, Server.patch_eq_self_iff (hrowNames ▸ h.source.distinct)
      (hnew.trans hrowNames.symm) hlisted]
    simp [heq]

theorem erased_iff {α : Type} [DecidableEq α] {contents : Multiset α} {old row : α}
    (hold : old ∈ contents) (hrow : row ∈ contents) :
    contents.erase row = contents.erase old ↔ row = old := by
  constructor
  · intro h
    rw [← Multiset.cons_inj_left (contents.erase old), Multiset.cons_erase hold, ← h,
      Multiset.cons_erase hrow]
  · rintro rfl
    rfl

theorem SourceChange.new_not_null (h : SourceChange pg cfg t kind old new r contents tables)
    (hidentity : t.rowIdentity = .primaryKey) (hkind : kind ≠ .delete) :
    ∀ name ∈ t.keyNames, new.lookup name ≠ some none :=
  h.after.not_null hidentity new (new_mem_changed hkind)

theorem SourceChange.old_not_null (h : SourceChange pg cfg t kind old new r contents tables)
    (hidentity : t.rowIdentity = .primaryKey) (hkind : kind ≠ .insert) :
    ∀ name ∈ t.keyNames, old.lookup name ≠ some none :=
  h.before.not_null hidentity old (h.old_mem hkind)

theorem SourceChange.insert_copied {rows : List (TargetRow Value)}
    (h : SourceChange pg cfg t .insert old new r rows tables)
    (hevent : Converted pg t .insert old new r event) :
    applyRow pg cfg (targetColumnTypes (copyOf t tables rows)) event (copyOf t tables rows)
        = .ok (copyOf t tables (rows ++ [new]))
      ∧ ((rows ++ [new] : List (TargetRow Value)) : Multiset (TargetRow Value))
        = changed .insert old new rows := by
  have hafter : ((rows ++ [new] : List (TargetRow Value)) : Multiset (TargetRow Value))
      = changed .insert old new rows := by
    rw [changed, ← Multiset.coe_add, ← Multiset.singleton_add, add_comm]
    rfl
  refine ⟨?_, hafter⟩
  rw [applyRow_inserted h.source h.allowed h.record (h.after.aligned new (new_mem_changed (by simp))) hevent,
    replaceTable_copyOf]
  exact ⟨h.admitted _ hafter, rfl⟩

/-- An update or a delete changes the first row that matches; it has the right effect in every order of the
rows if every row that matches will do. -/
theorem SourceChange.changed_iff (h : SourceChange pg cfg t kind old new r contents tables)
    (hkind : kind ≠ .insert) {possible : Prop}
    {change : TargetRow Value → Option (TargetRow Value)} {harmless : TargetRow Value → Prop}
    (happly : ∀ pick : TargetRow Value → Bool,
      (∀ row, pick row = true ↔ Matches pg (identityNames t) old row) → ∀ rows next,
      applyRow pg cfg (targetColumnTypes (copyOf t tables rows)) event (copyOf t tables rows) = .ok next
        ↔ (possible ∧ Comparable pg (targetColumns t) (identityNames t))
          ∧ ∃ rows', changeFirst pick change rows = some rows'
            ∧ replaceTable pg (copyOf t tables rows) t.name { columns := targetColumns t, rows := rows' }
              = .ok next)
    (hchange : ∀ row ∈ contents, ((change row).toList : Multiset (TargetRow Value)) + contents.erase row
      = changed kind old new contents ↔ row = old ∨ harmless row) :
    (∀ rows : List (TargetRow Value), (rows : Multiset (TargetRow Value)) = contents →
        ∃ rows', applyRow pg cfg (targetColumnTypes (copyOf t tables rows)) event (copyOf t tables rows)
            = .ok (copyOf t tables rows')
          ∧ (rows' : Multiset (TargetRow Value)) = changed kind old new contents)
      ↔ possible ∧ (t.rowIdentity = .fullRow → Comparable pg (targetColumns t) (columnNames t))
        ∧ (t.rowIdentity = .fullRow → ∀ row ∈ contents, Matches pg (columnNames t) old row →
          row = old ∨ harmless row) := by
  classical
  rw [copied_iff h.admitted (happly (fun row => decide (Matches pg (identityNames t) old row))
    fun _ => decide_eq_true_iff), h.comparable_iff, ← h.found_iff hkind, and_assoc]
  refine and_congr_right fun _ => and_congr_right fun _ => ?_
  constructor
  · rintro ⟨-, hall⟩ row hrow hmatches
    exact (hchange row hrow).mp (hall row hrow (decide_eq_true hmatches))
  · intro hall
    refine ⟨⟨old, h.old_mem hkind, decide_eq_true (h.matches_old hkind)⟩, fun row hrow hmatches => ?_⟩
    exact (hchange row hrow).mpr (hall row hrow (of_decide_eq_true hmatches))

/-- **When a change is mirrored.** Whatever the order of the rows in the target. -/
theorem change_mirrored_iff (h : SourceChange pg cfg t kind old new r contents tables) :
    (∀ rows : List (TargetRow Value), (rows : Multiset (TargetRow Value)) = contents →
        Mirrored pg cfg t kind r tables rows (changed kind old new contents))
      ↔ Mirrorable pg t kind old new r contents := by
  by_cases hkey : t.rowIdentity = .primaryKey → kind = .update →
      ∀ name ∈ t.keyNames, name ∈ r.columns.map WireColumn.name
  · obtain ⟨event, hconvert, hevent⟩ := convert_ok h.source h.record h.new_not_null h.old_not_null hkey
    have hmirrored : ∀ rows : List (TargetRow Value),
        Mirrored pg cfg t kind r tables rows (changed kind old new contents)
          ↔ ∃ rows', applyRow pg cfg (targetColumnTypes (copyOf t tables rows)) event (copyOf t tables rows)
              = .ok (copyOf t tables rows')
            ∧ (rows' : Multiset (TargetRow Value)) = changed kind old new contents := by
      intro rows
      simp [Mirrored, hconvert]
    simp only [hmirrored]
    cases kind with
    | insert =>
        refine iff_of_true ?_ ⟨by simp, by simp, by simp, by simp⟩
        rintro rows rfl
        exact ⟨rows ++ [new], h.insert_copied hevent⟩
    | update =>
        rw [h.changed_iff (by simp)
          (fun pick hpick _ _ => applyRow_updated_iff pick h.source h.allowed h.record hevent hpick)
          fun row hrow => h.updated_iff hrow]
        constructor
        · rintro ⟨hwritten, hcomparable, hfound⟩
          exact ⟨hkey, fun _ => hwritten, fun hidentity _ => hcomparable hidentity,
            fun hidentity _ row hrow hmatches =>
              (hfound hidentity row hrow hmatches).imp_right fun hsame => ⟨rfl, hsame⟩⟩
        · intro hall
          exact ⟨hall.written rfl, fun hidentity => hall.comparable hidentity (by simp),
            fun hidentity row hrow hmatches =>
              (hall.identified hidentity (by simp) row hrow hmatches).imp_right And.right⟩
    | delete =>
        rw [h.changed_iff (by simp)
          (fun pick hpick _ _ => applyRow_deleted_iff pick h.source h.allowed h.record hevent hpick)
          fun row hrow => (iff_of_eq (by simp [changed])).trans (erased_iff (h.old_mem (by simp)) hrow)
            |>.trans (or_iff_left id).symm]
        constructor
        · rintro ⟨-, hcomparable, hfound⟩
          exact ⟨by simp, by simp, fun hidentity _ => hcomparable hidentity,
            fun hidentity _ row hrow hmatches =>
              .inl ((hfound hidentity row hrow hmatches).resolve_right id)⟩
        · intro hall
          exact ⟨trivial, fun hidentity => hall.comparable hidentity (by simp),
            fun hidentity row hrow hmatches =>
              (hall.identified hidentity (by simp) row hrow hmatches).imp_right fun hsame => by
                cases hsame.1⟩
  · refine iff_of_false ?_ fun hall => hkey hall.key
    intro hall
    obtain ⟨event, -, hconvert, -⟩ := hall contents.toList (Multiset.coe_toList contents)
    refine hkey fun hidentity hkind => ?_
    subst hkind
    exact keys_listed_of_convert h.source h.record hidentity hconvert

def pairTable (identity : RowIdentity) (type : String) : Table where
  rowIdentity := identity
  schema := "public"
  name := "t"
  columns := [{ name := "a", type := "text", primary := identity = .primaryKey },
    { name := "b", type := type }]

omit [DecidableEq Value] in
theorem pairTable_source {identity : RowIdentity} {type : String} (htype : type ≠ "bytea")
    (htext : pg.comparable "text" = true) : SourceTable pg (pairTable identity type) where
  some_column := List.cons_ne_nil _ _
  distinct := by
    show ["a", "b"].Nodup
    decide
  bytea := by simp [pairTable, htype]
  keyed := by
    rintro rfl
    simp [Table.keyNames, pairTable]
  comparable := by
    rintro rfl name hname found hfound
    have hkey : name = "a" := by simpa [Table.keyNames, pairTable] using hname
    subst hkey
    cases hfound
    exact htext

/-- An update of one of two equal rows of a keyless table, where one column is NULL and the other is
left out as unchanged. -/
theorem change_mirrored_duplicate :
    Mirrored Postgres.plain { id := "s", tables := [⟨"public", "t"⟩] } (pairTable .fullRow "text") .update
      { action := .change .update, xid := 1, schema := "public", table := "t",
        columns := [{ name := "a", type := "text", value := .string "y" }],
        identity := [{ name := "a", type := "text", value := .null },
          { name := "b", type := "text", value := .string "long" }] }
      (fun _ => none)
      [[("a", none), ("b", some "long")], [("a", some "z"), ("b", none)], [("a", none), ("b", some "long")]]
      (changed .update [("a", none), ("b", some "long")] [("a", some "y"), ("b", some "long")]
        ([[("a", none), ("b", some "long")], [("a", some "z"), ("b", none)],
          [("a", none), ("b", some "long")]] : List (TargetRow String))) := by
  refine (change_mirrored_iff ?_).mpr ?_ _ rfl
  · refine ⟨pairTable_source (by decide) rfl, ⟨by decide, by decide, nofun⟩, ⟨by decide, by decide, nofun⟩,
      by decide, ?_, ?_, by decide, fun _ _ => rfl⟩
    · refine ⟨rfl, rfl, ?_, by decide, ?_, by decide, by decide, ?_, by decide, by decide⟩
      · refine List.forall_mem_singleton.mpr ?_
        exact ⟨_, List.mem_cons_self, rfl, rfl, rfl, _, rfl, rfl⟩
      · refine List.forall_mem_cons.mpr ⟨?_, List.forall_mem_singleton.mpr ?_⟩
        · exact ⟨_, List.mem_cons_self, rfl, rfl, rfl, _, rfl, trivial⟩
        · exact ⟨_, List.mem_cons_of_mem _ List.mem_cons_self, rfl, rfl, rfl, _, rfl, rfl⟩
      · intro _ name hname
        have hne : (name == "a") = false := by simpa using hname
        simp only [List.lookup_cons, hne]
    · simp [Postgres.plain]
  · refine ⟨nofun, by decide, fun _ _ _ _ _ _ => rfl, ?_⟩
    intro _ _ other hother hmatches
    obtain rfl | rfl | rfl : other = [("a", none), ("b", some "long")] ∨ other = [("a", some "z"), ("b", none)]
        ∨ other = [("a", none), ("b", some "long")] := by simpa using hother
    · exact .inl rfl
    · obtain ⟨value, found, hvalue, hfound, hsame⟩ := hmatches "a" List.mem_cons_self
      cases hvalue
      cases hfound
      cases hsame
    · exact .inl rfl

/-- Two changes that are not mirrored: an update whose new image leaves out the unchanged key, and a
delete from a keyless table with a column that cannot be compared. -/
theorem change_not_mirrored :
    let keyed : Record :=
      { action := .change .update, xid := 1, schema := "public", table := "t",
        columns := [{ name := "b", type := "text", value := .string "2" }],
        identity := [{ name := "a", type := "text", value := .string "k" }] }
    let keyless : Record :=
      { action := .change .delete, xid := 1, schema := "public", table := "t",
        identity := [{ name := "a", type := "text", value := .string "k" },
          { name := "b", type := "json", value := .string "1" }] }
    let pg : Postgres String := { Postgres.plain with comparable := fun type => type ≠ "json" }
    let row : TargetRow String := [("a", some "k"), ("b", some "1")]
    SourceChange pg { id := "s", tables := [⟨"public", "t"⟩] } (pairTable .primaryKey "text") .update
        row [("a", some "k"), ("b", some "2")] keyed {row} (fun _ => none)
      ∧ convert .update keyed (pairTable .primaryKey "text") = .error .rowKey
      ∧ SourceChange pg { id := "s", tables := [⟨"public", "t"⟩] } (pairTable .fullRow "json") .delete
        row row keyless {row} (fun _ => none)
      ∧ ∃ event, convert .delete keyless (pairTable .fullRow "json") = .ok event
        ∧ applyRow pg { id := "s", tables := [⟨"public", "t"⟩] }
            (targetColumnTypes (copyOf (pairTable .fullRow "json") (fun _ => none) [row])) event
            (copyOf (pairTable .fullRow "json") (fun _ => none) [row]) = .error .statement := by
  intro keyed keyless pg row
  refine ⟨?_, rfl, ?_, _, rfl, rfl⟩
  · refine ⟨pairTable_source (by decide) rfl, ⟨by decide, by decide, ?_⟩, ⟨by decide, by decide, ?_⟩,
      by decide, ?_, ?_, by decide, fun _ _ => rfl⟩
    · simp [row]
    · simp [row, changed]
    · refine ⟨rfl, rfl, ?_, by decide, ?_, by decide, by decide, ?_, by decide, by decide⟩
      · refine List.forall_mem_singleton.mpr ?_
        exact ⟨_, List.mem_cons_of_mem _ List.mem_cons_self, rfl, rfl, rfl, _, rfl, rfl⟩
      · refine List.forall_mem_singleton.mpr ?_
        exact ⟨_, List.mem_cons_self, rfl, rfl, rfl, _, rfl, rfl⟩
      · intro _ name hname
        have hne : (name == "b") = false := by simpa [keyed] using hname
        simp only [row, List.lookup_cons, hne]
    · simp [pg, Postgres.plain]
  · refine ⟨pairTable_source (by decide) rfl, ⟨by decide, by decide, nofun⟩, ⟨by decide, by decide, nofun⟩,
      by decide, ?_, ?_, by decide, fun _ _ => rfl⟩
    · refine ⟨rfl, rfl, nofun, by decide, ?_, by decide, by decide, nofun, by decide, by decide⟩
      refine List.forall_mem_cons.mpr ⟨?_, List.forall_mem_singleton.mpr ?_⟩
      · exact ⟨_, List.mem_cons_self, rfl, rfl, rfl, _, rfl, rfl⟩
      · exact ⟨_, List.mem_cons_of_mem _ List.mem_cons_self, rfl, rfl, rfl, _, rfl, rfl⟩
    · simp [pg, Postgres.plain]

end Changes

end GoSync.Replication
