import GoSync.Lib.Outcome
import GoSync.Server.Target

/-!
# Table contents

What the statements of a snapshot do to the contents of every single table: activation widens tables,
`DELETE FROM` empties them, and every row event adds one row to its own table.
-/

namespace GoSync.Server

variable {Value : Type} {pg : Postgres Value} {cfg : Syncer} {tables next : Tables Value}

section Columns

def TargetTable.widen (table : TargetTable Value) (added : List (String × String)) :
    TargetTable Value where
  columns := table.columns ++ added
  rows := table.rows.map fun row => row ++ added.map fun column => (column.1, none)

@[simp] theorem TargetTable.widen_nil (table : TargetTable Value) : table.widen [] = table := by
  simp [widen]

theorem TargetTable.widen_append (table : TargetTable Value) (first second : List (String × String)) :
    (table.widen first).widen second = table.widen (first ++ second) := by
  simp [widen, Function.comp_def]

/-- The tables have at most gained columns that they lacked, and that are allowed. -/
def WidenedBy (allowed : String → String × String → Prop) (before after : Tables Value) : Prop :=
  ∀ name, ∃ added, after name = (before name).map (TargetTable.widen · added)
    ∧ ∀ column ∈ added, allowed name column
      ∧ ∀ table, before name = some table → table.columns.lookup column.1 = none

section Widening

variable {allowed other : String → String × String → Prop} {first second third : Tables Value}

theorem WidenedBy.refl (tables : Tables Value) : WidenedBy allowed tables tables :=
  fun name => ⟨[], by simp, by simp⟩

theorem WidenedBy.trans (h : WidenedBy allowed first second) (hnext : WidenedBy allowed second third) :
    WidenedBy allowed first third := by
  intro name
  obtain ⟨added, hsecond, hadded⟩ := h name
  obtain ⟨more, hthird, hmore⟩ := hnext name
  refine ⟨added ++ more, ?_, ?_⟩
  · rw [hthird, hsecond, Option.map_map]
    simp only [Function.comp_def, TargetTable.widen_append]
  · refine List.forall_mem_append.mpr ⟨hadded, fun column hmem => ⟨(hmore column hmem).1, ?_⟩⟩
    intro table htable
    have hlacked := (hmore column hmem).2 (table.widen added) (by rw [hsecond, htable]; rfl)
    rw [TargetTable.widen, List.lookup_append, Option.or_eq_none_iff] at hlacked
    exact hlacked.1

theorem WidenedBy.mono (h : WidenedBy allowed first second)
    (hallowed : ∀ name column, allowed name column → other name column) :
    WidenedBy other first second := by
  intro name
  obtain ⟨added, hsecond, hadded⟩ := h name
  exact ⟨added, hsecond, fun column hmem => ⟨hallowed name column (hadded column hmem).1,
    (hadded column hmem).2⟩⟩

end Widening

def WidenedAt (schemas : List SchemaTable) (name : String) (before after : Option (TargetTable Value)) :
    Prop :=
  ∃ added, after = before.map (TargetTable.widen · added)
    ∧ ∀ column ∈ added, (∃ schema ∈ schemas, schema.name = name
        ∧ column.1 ∈ schema.columns.map fun column => identifier column.name)
      ∧ ∀ table, before = some table → table.columns.lookup column.1 = none

def Widened (schemas : List SchemaTable) (before after : Tables Value) : Prop :=
  ∀ name, WidenedAt schemas name (before name) (after name)

theorem Widened.refl (schemas : List SchemaTable) (tables : Tables Value) :
    Widened schemas tables tables :=
  WidenedBy.refl tables

structure Addable (pg : Postgres Value) (cfg : Syncer) (schema : SchemaTable) (source : SchemaColumn)
    (column : String × String) : Prop where
  enabled : cfg.autoAddColumns = true
  nullable : source.nullable.getD (!source.notNull) = true
  notKey : source.primary = false
  name : column.1 = identifier source.name
  type : ∃ text, safeTargetType schema source = .ok text ∧ pg.formatType text = some column.2

def Planned (pg : Postgres Value) (cfg : Syncer) (schemas : List SchemaTable) (name : String)
    (column : String × String) : Prop :=
  ∃ schema ∈ schemas, schema.name = name ∧ ∃ source ∈ schema.columns, Addable pg cfg schema source column

variable {schemas : List SchemaTable}

theorem WidenedBy.widened {before after : Tables Value}
    (h : WidenedBy (Planned pg cfg schemas) before after) : Widened schemas before after := by
  refine h.mono ?_
  rintro name column ⟨schema, hschema, hname, source, hsource, haddable⟩
  exact ⟨schema, hschema, hname, List.mem_map.mpr ⟨source, hsource, haddable.name.symm⟩⟩

theorem replaceTable_eq {name : String} {table : TargetTable Value}
    (h : replaceTable pg tables name table = .ok next) :
    next = Function.update tables name (some table) := by
  unfold replaceTable at h
  dsimp only at h
  split_ifs at h
  exact (Except.ok.inj h).symm

theorem addColumn_widenedBy {name column type : String} {allowed : String → String × String → Prop}
    (hallowed : ∀ formatted, pg.formatType type = some formatted →
      allowed name (identifier column, formatted))
    (h : addColumn pg tables name column type = .ok next) : WidenedBy allowed tables next := by
  unfold addColumn at h
  split at h
  · rename_i table formatted htable hformatted
    split_ifs at h with hknown
    rw [replaceTable_eq h]
    intro other
    by_cases hname : other = name
    · subst hname
      refine ⟨[(identifier column, formatted)], ?_, ?_⟩
      · rw [Function.update_self, htable]
        rfl
      · intro added hadded
        rw [List.mem_singleton.mp hadded]
        refine ⟨hallowed formatted hformatted, ?_⟩
        intro found hfound
        cases htable.symm.trans hfound
        exact Option.not_isSome_iff_eq_none.mp hknown
    · exact ⟨[], by simp [Function.update_of_ne hname], by simp⟩
  · cases h

theorem addColumns_widenedBy {schema : SchemaTable}
    (hschema : schema ∈ schemas) {columns : List SchemaColumn}
    (hcolumns : ∀ column ∈ columns, column ∈ schema.columns) {types : List (String × String)}
    (h : addColumns pg cfg schema columns types tables = .ok next) :
    WidenedBy (Planned pg cfg schemas) tables next := by
  induction columns generalizing types tables with
  | nil =>
      cases h
      exact .refl _
  | cons column columns ih =>
      have hrest := fun other hmem => hcolumns other (List.mem_cons_of_mem column hmem)
      rw [addColumns] at h
      split_ifs at h with hknown hsafe
      · exact ih hrest h
      · split at h
        · cases h
        · rename_i type htype
          rw [not_or, not_or, not_not, not_not, Bool.not_eq_true] at hsafe
          obtain ⟨middle, hadd, h⟩ := Except.bind_eq_ok.mp h
          refine (addColumn_widenedBy ?_ hadd).trans (ih hrest h)
          intro formatted hformatted
          exact ⟨schema, hschema, rfl, column, hcolumns column List.mem_cons_self, hsafe.1, hsafe.2.1,
            hsafe.2.2, rfl, type, htype, hformatted⟩

theorem activate_widenedBy (h : activate pg cfg schemas tables = .ok next) :
    WidenedBy (Planned pg cfg schemas) tables next := by
  suffices ∀ part, (∀ schema ∈ part, schema ∈ schemas) → ∀ tables,
      activate pg cfg part tables = .ok next → WidenedBy (Planned pg cfg schemas) tables next from
    this schemas (fun _ hmem => hmem) tables h
  clear h
  intro part hpart
  induction part with
  | nil =>
      intro tables h
      cases h
      exact .refl _
  | cons schema part ih =>
      intro tables h
      obtain ⟨types, -, h⟩ := Except.bind_eq_ok.mp h
      obtain ⟨middle, hadd, h⟩ := Except.bind_eq_ok.mp h
      have hfirst := addColumns_widenedBy (hpart schema List.mem_cons_self) (fun _ hmem => hmem) hadd
      exact hfirst.trans (ih (fun other hmem => hpart other (List.mem_cons_of_mem _ hmem)) middle h)

theorem activate_widened
    (h : activate pg cfg schemas tables = .ok next) : Widened schemas tables next :=
  (activate_widenedBy h).widened

end Columns

section Rows

theorem clearTables_eq {scope : List TableRef} {tables cleared : Tables Value}
    (h : scope.foldlM (fun current table => clearTable pg current table.name) tables = .ok cleared)
    (name : String) :
    cleared name = if name ∈ scope.map TableRef.name then
        (tables name).map fun table => { table with rows := [] }
      else tables name := by
  induction scope generalizing tables with
  | nil =>
      cases h
      rfl
  | cons table scope ih =>
      obtain ⟨next, hnext, h⟩ := Except.foldlM_cons_eq_ok.mp h
      unfold clearTable at hnext
      split at hnext
      · cases hnext
      rename_i contents hcontents
      rw [ih h, replaceTable_eq hnext]
      by_cases hname : name = table.name
      · subst hname
        simp [hcontents]
      · simp [hname]

theorem clearTables_isSome {scope : List TableRef} {tables cleared : Tables Value}
    (h : scope.foldlM (fun current table => clearTable pg current table.name) tables = .ok cleared)
    {table : TableRef} (htable : table ∈ scope) : (tables table.name).isSome = true := by
  induction scope generalizing tables with
  | nil => cases htable
  | cons first scope ih =>
      obtain ⟨next, hnext, h⟩ := Except.foldlM_cons_eq_ok.mp h
      unfold clearTable at hnext
      split at hnext
      · cases hnext
      rename_i contents hcontents
      rcases List.mem_cons.mp htable with rfl | hrest
      · rw [hcontents, Option.isSome_some]
      · have hkept := ih h hrest
        rw [replaceTable_eq hnext] at hkept
        by_cases hname : table.name = first.name
        · rw [hname, hcontents, Option.isSome_some]
        · rwa [Function.update_of_ne hname] at hkept

def insertedRow (pg : Postgres Value) (cfg : Syncer)
    (columnTypes : String → Except TargetError (List (String × String)))
    (columns : List (String × String)) (row : Row) :
    Except TargetError (List (String × Option Value)) := do
  let types ← columnTypes row.table
  let applied ← transform cfg row row.columns
  if applied = [] then
    .error .insertEmpty
  else do
    let placeholders ← expressions types applied
    let values ← evaluate pg placeholders
    .ok (columns.map fun column =>
      match values.find? fun value => value.name = column.1 with
      | some value => (column.1, value.value)
      | none => (column.1, pg.defaultValue row.table column.1))

theorem transform_operation (row : Row) (operation : Operation) (columns : List Column) :
    transform cfg { row with operation := operation } columns = transform cfg row columns := by
  induction columns with
  | nil => rfl
  | cons column columns ih =>
      rw [transform, transform, ih]
      rfl

variable {types : String → Except TargetError (List (String × String))}

/-- An insert that succeeds appends one row. -/
theorem applyRow_insert {row : Row}
    (h : applyRow pg cfg types { row with operation := .insert } tables = .ok next) :
    ∃ table added, tables row.table = some table ∧ insertedRow pg cfg types table.columns row = .ok added
      ∧ next = Function.update tables row.table (some { table with rows := table.rows ++ [added] }) := by
  obtain ⟨prepared, hprepared, h⟩ := Except.bind_eq_ok.mp h
  obtain ⟨issued, hissued, hprepared⟩ := Except.bind_eq_ok.mp hprepared
  unfold Sql.command at hissued
  split at hissued
  · cases hissued
  obtain ⟨columnTypes, htypes, hissued⟩ := Except.bind_eq_ok.mp hissued
  obtain ⟨applied, happlied, hissued⟩ := Except.bind_eq_ok.mp hissued
  obtain ⟨keys, -, hissued⟩ := Except.bind_eq_ok.mp hissued
  rw [transform_operation] at happlied
  dsimp only at htypes happlied hissued
  split at hissued
  · cases hissued
  rename_i hempty
  obtain ⟨placeholders, hplaceholders, hissued⟩ := Except.bind_eq_ok.mp hissued
  cases hissued
  obtain ⟨values, hvalues, hprepared⟩ := Except.bind_eq_ok.mp hprepared
  cases hprepared
  change insertRow pg tables row.table values = .ok next at h
  unfold insertRow at h
  split at h
  · cases h
  rename_i table htable
  split_ifs at h
  refine ⟨table, _, htable, ?_, replaceTable_eq h⟩
  refine Except.bind_eq_ok.mpr ⟨columnTypes, htypes, Except.bind_eq_ok.mpr ⟨applied, happlied, ?_⟩⟩
  rw [if_neg hempty]
  exact Except.bind_eq_ok.mpr ⟨placeholders, hplaceholders,
    Except.bind_eq_ok.mpr ⟨values, hvalues, rfl⟩⟩

/-- Rows are inserted in order, each into its own table. -/
theorem insertRows_eq {rows : List Row} {tables last : Tables Value}
    (h : rows.foldlM (fun current row =>
      applyRow pg cfg types { row with operation := .insert } current) tables = .ok last)
    (name : String) :
    (tables name = none → last name = none)
      ∧ ∀ table, tables name = some table → ∃ added,
        (rows.filter fun row => row.table = name).mapM (insertedRow pg cfg types table.columns)
            = .ok added
          ∧ last name = some { table with rows := table.rows ++ added } := by
  induction rows generalizing tables with
  | nil =>
      cases h
      exact ⟨id, fun table htable => ⟨[], rfl, by simpa using htable⟩⟩
  | cons row rows ih =>
      obtain ⟨next, hnext, h⟩ := Except.foldlM_cons_eq_ok.mp h
      obtain ⟨contents, first, hcontents, hfirst, rfl⟩ := applyRow_insert hnext
      obtain ⟨hnone, hsome⟩ := ih h
      by_cases hname : name = row.table
      · subst hname
        refine ⟨fun hmissing => absurd (hcontents.symm.trans hmissing) (Option.some_ne_none _), ?_⟩
        intro table htable
        cases hcontents.symm.trans htable
        obtain ⟨added, hadded, hlast⟩ := hsome _ (Function.update_self ..)
        refine ⟨first :: added, ?_, ?_⟩
        · rw [List.filter_cons_of_pos (by simp), List.mapM_cons]
          exact Except.bind_eq_ok.mpr ⟨first, hfirst, Except.bind_eq_ok.mpr ⟨added, hadded, rfl⟩⟩
        · rw [hlast]
          simp
      · rw [Function.update_of_ne hname] at hnone hsome
        refine ⟨hnone, fun table htable => ?_⟩
        rw [List.filter_cons_of_neg (by simpa using Ne.symm hname)]
        exact hsome table htable

end Rows

end GoSync.Server
