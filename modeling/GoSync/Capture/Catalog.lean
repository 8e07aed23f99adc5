import GoSync.Event
import GoSync.Lib.Outcome

/-!
# The catalog of the source

`catalog` reads the description of each configured table and refuses the tables it cannot capture.
What the query returns for a table is a parameter.
-/

namespace GoSync.Capture

structure CatalogColumn where
  name : String
  type : String
  oid : Nat := 0
  notNull : Bool := false
  default : Option String := none
  primary : Bool := false
  deriving DecidableEq, Repr

structure Table where
  rowIdentity : RowIdentity := .primaryKey
  schema : String
  name : String
  oid : Nat := 0
  identity : String := ""
  columns : List CatalogColumn
  deriving DecidableEq, Repr

def Table.ref (table : Table) : TableRef :=
  { schema := table.schema, name := table.name }

def Table.keyNames (table : Table) : List String :=
  (table.columns.filter CatalogColumn.primary).map CatalogColumn.name

def Table.document (table : Table) : SchemaTable where
  schema := table.schema
  name := table.name
  columns := table.columns.map fun column =>
    { name := column.name, type := column.type, notNull := column.notNull,
      primary := column.primary }

inductive TablesError where
  | empty
  | names
  deriving DecidableEq, Repr

def TablesError.message : TablesError → String
  | .empty => "tables must not be empty"
  | .names => "table names must be nonempty, unique and contain no nul"

def validateNames (seen : List TableRef) : List TableRef → Except TablesError Unit
  | [] => .ok ()
  | table :: rest =>
      if table.schema = "" ∨ table.name = "" ∨ (table.schema ++ table.name).toList.contains '\x00'
          ∨ table ∈ seen then
        .error .names
      else
        validateNames (table :: seen) rest

def validateTables (tables : List TableRef) : Except TablesError Unit :=
  if tables = [] then .error .empty else validateNames [] tables

structure CatalogRow where
  oid : Nat := 0
  kind : String := "r"
  persistence : String := "p"
  identity : String := "d"
  inherited : Bool := false
  column : CatalogColumn
  rowSecurity : Bool := false
  generated : String := ""
  deriving DecidableEq, Repr

inductive CatalogError where
  | kind
  | features
  | missing
  | noPrimaryKey
  | replicaIdentity
  deriving DecidableEq, Repr

def tableText (table : TableRef) : String :=
  table.schema ++ "." ++ table.name

/-- `pgx.Identifier.Sanitize`. -/
def sanitize (table : TableRef) : String :=
  let quoted (name : String) := "\"" ++ name.replace "\"" "\"\"" ++ "\""
  quoted table.schema ++ "." ++ quoted table.name

def CatalogError.message (table : TableRef) : CatalogError → String
  | .kind => tableText table ++ " must be an ordinary persistent, non-inherited table"
  | .features => tableText table ++ ": row security and generated columns are unsupported"
  | .missing => "table " ++ tableText table ++ " missing or has no columns"
  | .noPrimaryKey =>
      "table " ++ tableText table ++ " has no primary key; configure explicitly: ALTER TABLE "
        ++ sanitize table ++ " REPLICA IDENTITY FULL;"
  | .replicaIdentity => "table " ++ tableText table ++ " needs default/full replica identity"

def readColumns : List CatalogRow → Table → Except CatalogError Table
  | [], table => .ok table
  | row :: rest, table =>
      if row.kind ≠ "r" ∨ row.persistence ≠ "p" ∨ row.inherited then
        .error .kind
      else if row.rowSecurity ∨ row.generated ≠ "" then
        .error .features
      else
        readColumns rest
          { table with
            oid := row.oid, identity := row.identity, columns := table.columns ++ [row.column] }

def identify (table : Table) : Except CatalogError Table :=
  if table.columns = [] then
    .error .missing
  else if table.keyNames = [] then
    if table.identity ≠ "f" then .error .noPrimaryKey else .ok { table with rowIdentity := .fullRow }
  else if table.identity ≠ "d" ∧ table.identity ≠ "f" then
    .error .replicaIdentity
  else
    .ok table

def readTable (rows : List CatalogRow) (want : TableRef) : Except CatalogError Table := do
  let table ← readColumns rows { schema := want.schema, name := want.name, columns := [] }
  identify table

def catalog (tables : List TableRef) (query : TableRef → List CatalogRow) :
    Except (TableRef × CatalogError) (List Table) :=
  tables.mapM fun want => (readTable (query want) want).mapError (want, ·)

theorem validateNames_ok {seen tables : List TableRef} (h : validateNames seen tables = .ok ()) :
    (∀ table ∈ tables, table.schema ≠ "" ∧ table.name ≠ "" ∧ table ∉ seen) ∧ tables.Nodup := by
  induction tables generalizing seen with
  | nil => simp
  | cons table rest ih =>
      unfold validateNames at h
      split_ifs at h with hinvalid
      simp only [not_or] at hinvalid
      obtain ⟨hschema, hname, -, hfresh⟩ := hinvalid
      obtain ⟨hrest, hnodup⟩ := ih h
      refine ⟨?_, List.nodup_cons.mpr ⟨?_, hnodup⟩⟩
      · intro other hmem
        rcases List.mem_cons.mp hmem with rfl | hmem
        · exact ⟨hschema, hname, hfresh⟩
        · obtain ⟨hotherSchema, hotherName, hother⟩ := hrest other hmem
          exact ⟨hotherSchema, hotherName, fun hseen => hother (List.mem_cons_of_mem _ hseen)⟩
      · intro hmem
        exact (hrest table hmem).2.2 List.mem_cons_self

theorem readColumns_ref {rows : List CatalogRow} {table result : Table}
    (h : readColumns rows table = .ok result) : result.ref = table.ref := by
  induction rows generalizing table with
  | nil =>
      cases h
      rfl
  | cons row rest ih =>
      unfold readColumns at h
      split_ifs at h
      exact (ih h).trans rfl

theorem identify_ok {table result : Table} (h : identify table = .ok result) :
    result.ref = table.ref ∧ result.columns ≠ [] := by
  unfold identify at h
  split_ifs at h with hcolumns
  all_goals
    cases h
    exact ⟨rfl, hcolumns⟩

theorem catalog_ok {tables : List TableRef} {query : TableRef → List CatalogRow}
    {result : List Table} (h : catalog tables query = .ok result) :
    result.map Table.ref = tables ∧ ∀ table ∈ result, table.columns ≠ [] := by
  induction tables generalizing result with
  | nil =>
      cases h
      exact ⟨rfl, fun _ hmem => nomatch hmem⟩
  | cons want rest ih =>
      rw [catalog, List.mapM_cons] at h
      obtain ⟨table, htable, hrest⟩ := Except.bind_eq_ok.mp h
      obtain ⟨others, hothers, hresult⟩ := Except.bind_eq_ok.mp hrest
      cases hresult
      obtain ⟨read, hread, hidentify⟩ := Except.bind_eq_ok.mp (Except.mapError_eq_ok.mp htable)
      obtain ⟨href, hcolumns⟩ := identify_ok hidentify
      obtain ⟨hrefs, hall⟩ := ih hothers
      refine ⟨?_, ?_⟩
      · rw [List.map_cons, hrefs, href, readColumns_ref hread]
        rfl
      · intro candidate hmem
        rcases List.mem_cons.mp hmem with rfl | hmem
        · exact hcolumns
        · exact hall candidate hmem

end GoSync.Capture
