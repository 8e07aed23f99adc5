import GoSync.Reconcile.Multiset

/-!
# Tables of one engine and their copies

A source engine prints the values of its types in its own way, and the target prints the values it stores
for them. A dialect is such a pair of printers with the values on which `normalize` evens out the
difference. For a table of a dialect and its exact copy, the digests of source and target agree if all values
are such; they agree otherwise only if different rows collide.
-/

namespace GoSync.Reconcile

/-- How an engine and the target print the values of the types of the engine. -/
structure Dialect where
  Kind : Type
  typeName : Kind → String
  /-- The types that the target has a type for. -/
  Mapped : Kind → Prop
  Content : Kind → Type
  sourceText : (kind : Kind) → Content kind → String
  storedText : (kind : Kind) → Content kind → String
  /-- The values whose two texts have one normal form. -/
  Settled : (kind : Kind) → Content kind → Prop
  settled_of_eq : ∀ {rt : Runtime} {kind : Kind} {content stored : Content kind},
    normalize rt (typeName kind) (sourceText kind content)
        = normalize rt (typeName kind) (storedText kind stored) →
      Settled kind content
  eq_of_settled : ∀ {rt : Runtime} {kind : Kind} {content : Content kind}, Settled kind content →
    normalize rt (typeName kind) (sourceText kind content)
      = normalize rt (typeName kind) (storedText kind content)

variable {D : Dialect}

structure TypedColumn (D : Dialect) where
  name : String
  kind : D.Kind
  primary : Bool

structure TypedTable (D : Dialect) where
  schema : String
  name : String
  columns : List (TypedColumn D)
  schema_ne : schema ≠ ""
  name_ne : name ≠ ""
  columns_ne : columns ≠ []
  names_nodup : (columns.map TypedColumn.name).Nodup
  mapped : ∀ column ∈ columns, D.Mapped column.kind

structure Cell (D : Dialect) where
  column : TypedColumn D
  content : Option (D.Content column.kind)

/-- A row of a table: a cell for every column, with a value in every key column. -/
structure TypedRow (table : TypedTable D) where
  cells : List (Cell D)
  columns_eq : cells.map Cell.column = table.columns
  keyed : ∀ cell ∈ cells, cell.column.primary = true → cell.content ≠ none

def Cell.Settled (cell : Cell D) : Prop :=
  ∀ content ∈ cell.content, D.Settled cell.column.kind content

def Cell.sourceText (cell : Cell D) : Option String :=
  cell.content.map (D.sourceText cell.column.kind)

def Cell.storedText (cell : Cell D) : Option String :=
  cell.content.map (D.storedText cell.column.kind)

def columnOf (text : Cell D → Option String) (cell : Cell D) : Column where
  name := cell.column.name
  type := D.typeName cell.column.kind
  value := text cell

def TypedTable.keyed (table : TypedTable D) : Bool :=
  table.columns.any TypedColumn.primary

variable {table : TypedTable D}

def TypedRow.row (text : Cell D → Option String) (row : TypedRow table) : Row where
  schema := table.schema
  table := table.name
  operation := .other ""
  identity := if table.keyed then .primaryKey else .fullRow
  key := (row.cells.filter fun cell => !table.keyed || cell.column.primary).map (columnOf text)
  columns := row.cells.map (columnOf text)

section Identity

variable (text : Cell D → Option String) (row : TypedRow table)

theorem TypedRow.column_names : (row.row text).columns.map Column.name = table.columns.map TypedColumn.name := by
  rw [← row.columns_eq, TypedRow.row, List.map_map, List.map_map]
  rfl

theorem TypedRow.identityColumns_row :
    identityColumns (row.row text)
      = (row.cells.filter fun cell => !table.keyed || cell.column.primary).map (columnOf text) := by
  rw [identityColumns, TypedRow.row]
  cases hkeyed : table.keyed with
  | true => rfl
  | false =>
      have hall : row.cells.filter (fun cell => !false || cell.column.primary) = row.cells :=
        List.filter_eq_self.mpr fun _ _ => rfl
      rw [hall]
      rfl

theorem TypedRow.identified : Identified (row.row text) := by
  have hnames : ((row.row text).columns.map Column.name).Nodup := by
    rw [TypedRow.column_names]
    exact table.names_nodup
  refine ⟨?_, hnames, ?_⟩
  · rw [TypedRow.identityColumns_row]
    intro hempty
    have hnone := List.filter_eq_nil_iff.mp (List.map_eq_nil_iff.mp hempty)
    cases hkeyed : table.keyed with
    | true =>
        obtain ⟨column, hcolumn, hprimary⟩ := List.any_eq_true.mp hkeyed
        rw [← row.columns_eq] at hcolumn
        obtain ⟨cell, hcell, rfl⟩ := List.mem_map.mp hcolumn
        exact hnone cell hcell (by rw [hprimary, Bool.or_true])
    | false =>
        obtain ⟨column, hcolumn⟩ := List.exists_mem_of_ne_nil _ table.columns_ne
        rw [← row.columns_eq] at hcolumn
        obtain ⟨cell, hcell, -⟩ := List.mem_map.mp hcolumn
        exact hnone cell hcell (by rw [hkeyed]; rfl)
  · refine List.Nodup.sublist ?_ hnames
    exact (List.filter_sublist.map (columnOf text)).map Column.name

end Identity

section Entries

variable {rt : Runtime}

def contents (rt : Runtime) (row : Row) : List (String × Option String) :=
  row.columns.map (entry rt)

theorem columnsBytes_congr {columns others : List Column} (hnames : (columns.map Column.name).Nodup)
    (h : columns.map (entry rt) = others.map (entry rt)) : columnsBytes rt columns = columnsBytes rt others := by
  have hothers : (others.map Column.name).Nodup := by
    have hfirst := congrArg (List.map Prod.fst) h
    rw [List.map_map, List.map_map] at hfirst
    exact (show columns.map Column.name = others.map Column.name from hfirst) ▸ hnames
  rw [columnsBytes_eq, columnsBytes_eq, sorted_entries_eq hnames hothers fun e => by rw [h]]

theorem Cell.entry_eq_of_settled {cell : Cell D} (h : cell.Settled) :
    entry rt (columnOf Cell.sourceText cell) = entry rt (columnOf Cell.storedText cell) := by
  obtain ⟨column, content⟩ := cell
  cases content with
  | none => rfl
  | some content =>
      have heq : normalize rt (D.typeName column.kind) (D.sourceText column.kind content)
          = normalize rt (D.typeName column.kind) (D.storedText column.kind content) :=
        D.eq_of_settled (h content rfl)
      exact congrArg (fun text => (column.name, some text)) heq

theorem Cell.settled_of_entry_eq {cell stored : Cell D} (hcolumn : cell.column = stored.column)
    (h : entry rt (columnOf Cell.sourceText cell) = entry rt (columnOf Cell.storedText stored)) :
    cell.Settled := by
  obtain ⟨column, content⟩ := cell
  obtain ⟨other, kept⟩ := stored
  obtain rfl : column = other := hcolumn
  cases content with
  | none => exact fun value hvalue => nomatch hvalue
  | some content =>
      intro value hvalue
      obtain rfl : content = value := Option.some.inj hvalue
      cases kept with
      | none => cases (Prod.mk.inj h).2
      | some kept => exact D.settled_of_eq (Option.some.inj (Prod.mk.inj h).2)

theorem settled_of_entries_eq {cells stored : List (Cell D)}
    (hcolumns : cells.map Cell.column = stored.map Cell.column)
    (h : (cells.map (columnOf Cell.sourceText)).map (entry rt)
      = (stored.map (columnOf Cell.storedText)).map (entry rt)) :
    ∀ cell ∈ cells, cell.Settled := by
  induction cells generalizing stored with
  | nil => exact List.forall_mem_nil _
  | cons cell cells ih =>
      obtain _ | ⟨other, stored⟩ := stored
      · cases hcolumns
      rw [List.map_cons, List.map_cons, List.cons.injEq] at hcolumns
      simp only [List.map_cons, List.cons.injEq] at h
      rw [List.forall_mem_cons]
      exact ⟨Cell.settled_of_entry_eq hcolumns.1 h.1, ih hcolumns.2 h.2⟩

theorem map_entry_of_settled {cells : List (Cell D)} (h : ∀ cell ∈ cells, cell.Settled) :
    (cells.map (columnOf Cell.sourceText)).map (entry rt)
      = (cells.map (columnOf Cell.storedText)).map (entry rt) := by
  rw [List.map_map, List.map_map]
  apply List.map_congr_left
  intro cell hcell
  exact Cell.entry_eq_of_settled (h cell hcell)

end Entries

section Agreement

variable {rt : Runtime} {buckets : Nat}

theorem built_congr {α : Type} {items : List α} {left right : α → Row}
    (hhash : ∀ item ∈ items, rowHash rt (left item) = rowHash rt (right item))
    (hbucket : ∀ item ∈ items, bucketOf rt buckets (left item) = bucketOf rt buckets (right item)) :
    built rt buckets (items.map left) = built rt buckets (items.map right) := by
  apply List.map_congr_left
  intro index _
  apply congrArg total
  unfold assigned
  induction items with
  | nil => rfl
  | cons item items ih =>
      rw [List.forall_mem_cons] at hhash hbucket
      rw [List.map_cons, List.map_cons, List.filter_cons, List.filter_cons, hbucket.1]
      split
      · rw [List.map_cons, List.map_cons, hhash.1, ih hhash.2 hbucket.2]
      · exact ih hhash.2 hbucket.2

theorem TypedRow.hashes_eq {row : TypedRow table} (h : ∀ cell ∈ row.cells, cell.Settled) :
    rowHash rt (row.row Cell.sourceText) = rowHash rt (row.row Cell.storedText)
      ∧ bucketOf rt buckets (row.row Cell.sourceText) = bucketOf rt buckets (row.row Cell.storedText) := by
  have hrow := row.identified Cell.sourceText
  constructor
  · rw [rowHash, rowHash, rowBytes, rowBytes, columnsBytes_congr hrow.columns (map_entry_of_settled h)]
    rfl
  · have hidentity := hrow.identity_names
    rw [TypedRow.identityColumns_row] at hidentity
    rw [bucketOf, bucketOf, TypedRow.identityColumns_row, TypedRow.identityColumns_row, columnsHash,
      columnsHash, columnsBytes_congr hidentity]
    apply map_entry_of_settled
    intro cell hcell
    exact h cell (List.mem_of_mem_filter hcell)

/-- Different rows with the same digests: a collision of SHA-256, of the exclusive or or of the sum. -/
def Collision (rt : Runtime) (buckets : Nat) (rows others : List Row) : Prop :=
  digests rt rows buckets = digests rt others buckets
    ∧ ¬(rows.map (contents rt)).Perm (others.map (contents rt))

/-- Equal tables have equal digests exactly if every cell survives the way. -/
theorem digests_eq_iff (hbuckets : 0 < buckets) {rows stored : List (TypedRow table)}
    (hcopy : stored.Perm rows)
    (hcollision : ¬Collision rt buckets (rows.map (TypedRow.row Cell.sourceText))
      (stored.map (TypedRow.row Cell.storedText))) :
    digests rt (rows.map (TypedRow.row Cell.sourceText)) buckets
        = digests rt (stored.map (TypedRow.row Cell.storedText)) buckets
      ↔ ∀ row ∈ rows, ∀ cell ∈ row.cells, cell.Settled := by
  have hidentified : ∀ (text : Cell D → Option String) (list : List (TypedRow table)),
      ∀ row ∈ list.map (TypedRow.row text), Identified row := by
    intro text list row hrow
    obtain ⟨item, -, rfl⟩ := List.mem_map.mp hrow
    exact item.identified text
  constructor
  · intro heq row hrow
    have hperm := not_not.mp fun hperm => hcollision ⟨heq, hperm⟩
    have hmem : contents rt (row.row Cell.sourceText)
        ∈ (rows.map (TypedRow.row Cell.sourceText)).map (contents rt) :=
      List.mem_map_of_mem (List.mem_map_of_mem hrow)
    obtain ⟨target, htarget, hcontents⟩ := List.mem_map.mp (hperm.mem_iff.mp hmem)
    obtain ⟨other, -, rfl⟩ := List.mem_map.mp htarget
    exact settled_of_entries_eq (row.columns_eq.trans other.columns_eq.symm) hcontents.symm
  · intro hsettled
    have hsame : built rt buckets (rows.map (TypedRow.row Cell.sourceText))
        = built rt buckets (rows.map (TypedRow.row Cell.storedText)) := by
      have hhashes : ∀ row ∈ rows,
          rowHash rt (row.row Cell.sourceText) = rowHash rt (row.row Cell.storedText)
            ∧ bucketOf rt buckets (row.row Cell.sourceText)
              = bucketOf rt buckets (row.row Cell.storedText) :=
        fun row hrow => TypedRow.hashes_eq (hsettled row hrow)
      exact built_congr (fun row hrow => (hhashes row hrow).1) fun row hrow => (hhashes row hrow).2
    rw [Reconcile.digests_eq hbuckets (hidentified _ rows), Reconcile.digests_eq hbuckets (hidentified _ stored),
      hsame, built_perm (hcopy.map (TypedRow.row Cell.storedText))]

end Agreement

end GoSync.Reconcile
