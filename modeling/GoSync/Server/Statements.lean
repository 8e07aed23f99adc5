import GoSync.Server.RowChange

/-!
# Statements

The values of the statement that a row event comes to are given by the columns of the event one by one.
-/

namespace GoSync.Server

variable {Value : Type}

variable {pg : Postgres Value} {cfg : Syncer}
  {columnTypes : String → Except TargetError (List (String × String))}

section Values

structure Written (pg : Postgres Value) (types : List (String × String)) (column : AppliedColumn)
    (value : Expression Value) : Prop where
  name : value.name = column.name
  value : ∃ type arg, types.lookup column.name = some type ∧ argument type column = .ok arg
    ∧ cast pg type arg = .ok value.value

/-- Every value is the argument of its column, cast to the type. -/
theorem written_of_evaluate {types : List (String × String)} {columns : List AppliedColumn}
    {placeholders : List Placeholder} {values : List (Expression Value)}
    (hplaceholders : expressions types columns = .ok placeholders)
    (hvalues : evaluate pg placeholders = .ok values) :
    List.Forall₂ (Written pg types) columns values := by
  have hfirst := Except.mapM_eq_ok_iff.mp hplaceholders
  have hsecond := Except.mapM_eq_ok_iff.mp hvalues
  clear hplaceholders hvalues
  induction hfirst generalizing values with
  | nil =>
      obtain rfl := List.forall₂_nil_left_iff.mp hsecond
      exact .nil
  | @cons column placeholder _ _ hcolumn _ ih =>
      obtain ⟨value, rest, hvalue, hrest, rfl⟩ := List.forall₂_cons_left_iff.mp hsecond
      refine .cons ?_ (ih hrest)
      unfold expression at hcolumn
      split at hcolumn
      · cases hcolumn
      rename_i type htype
      obtain ⟨arg, harg, hcolumn⟩ := Except.bind_eq_ok.mp hcolumn
      cases hcolumn
      obtain ⟨result, hresult, hvalue⟩ := Except.bind_eq_ok.mp hvalue
      cases hvalue
      exact ⟨rfl, type, arg, htype, harg, hresult⟩

def Statement.values : Statement Value → List (Expression Value)
  | .insert values | .update values _ => values
  | .delete _ => []

/-- Every value of a statement comes from a column of the row. -/
theorem written_of_statement {row : Row} {prepared : Statement Value}
    (h : statement pg cfg columnTypes row = .ok prepared)
    (hdelete : ∀ predicate, prepared ≠ .delete predicate) :
    ∃ types applied, columnTypes row.table = .ok types ∧ transform cfg row row.columns = .ok applied
      ∧ List.Forall₂ (Written pg types) applied prepared.values := by
  obtain ⟨issued, hprepared, h⟩ := Except.bind_eq_ok.mp h
  unfold Sql.command at hprepared
  split at hprepared
  · cases hprepared
  obtain ⟨types, htypes, hprepared⟩ := Except.bind_eq_ok.mp hprepared
  obtain ⟨applied, happlied, hprepared⟩ := Except.bind_eq_ok.mp hprepared
  obtain ⟨keys, -, hprepared⟩ := Except.bind_eq_ok.mp hprepared
  refine ⟨types, applied, htypes, happlied, ?_⟩
  split at hprepared
  · split_ifs at hprepared
    obtain ⟨placeholders, hplaceholders, hprepared⟩ := Except.bind_eq_ok.mp hprepared
    cases hprepared
    obtain ⟨values, hvalues, h⟩ := Except.bind_eq_ok.mp h
    cases h
    exact written_of_evaluate hplaceholders hvalues
  · split_ifs at hprepared
    obtain ⟨placeholders, hplaceholders, hprepared⟩ := Except.bind_eq_ok.mp hprepared
    cases hprepared
    obtain ⟨values, hvalues, h⟩ := Except.bind_eq_ok.mp h
    cases h
    exact written_of_evaluate hplaceholders hvalues
  · split_ifs at hprepared
    obtain ⟨assignments, hassignments, hprepared⟩ := Except.bind_eq_ok.mp hprepared
    obtain ⟨conditions, -, hprepared⟩ := Except.bind_eq_ok.mp hprepared
    cases hprepared
    obtain ⟨values, hvalues, h⟩ := Except.bind_eq_ok.mp h
    obtain ⟨predicate, -, h⟩ := Except.bind_eq_ok.mp h
    split_ifs at h
    cases h
    exact written_of_evaluate hassignments hvalues
  · split_ifs at hprepared
    obtain ⟨conditions, -, hprepared⟩ := Except.bind_eq_ok.mp hprepared
    cases hprepared
    obtain ⟨predicate, -, h⟩ := Except.bind_eq_ok.mp h
    cases h
    exact absurd rfl (hdelete predicate)
  · cases hprepared

def valueAt (values : List (Expression Value)) (name : String) : Option (Option Value) :=
  (values.find? fun value => value.name = name).map Expression.value

theorem lookup_assign (values : List (Expression Value)) (row : TargetRow Value) (name : String) :
    (assign values row).lookup name
      = (row.lookup name).map fun old => (valueAt values name).getD old := by
  induction row with
  | nil => rfl
  | cons cell row ih =>
      have hname : (assign values (cell :: row)) = (cell.1, (valueAt values cell.1).getD cell.2)
          :: assign values row := by
        rw [assign, List.map_cons, valueAt]
        cases values.find? fun value => value.name = cell.1 with
        | none => rfl
        | some value => rfl
      rw [hname]
      by_cases hcell : name = cell.1
      · subst hcell
        rw [List.lookup_cons_self]
        obtain ⟨_, _⟩ := cell
        rw [List.lookup_cons_self]
        rfl
      · have hne : (name == cell.1) = false := beq_false_of_ne hcell
        obtain ⟨_, _⟩ := cell
        rw [List.lookup_cons, List.lookup_cons, hne]
        exact ih

def newRow (pg : Postgres Value) (name : String) (columns : List (String × String))
    (values : List (Expression Value)) : TargetRow Value :=
  columns.map fun column =>
    match values.find? fun value => value.name = column.1 with
    | some value => (column.1, value.value)
    | none => (column.1, pg.defaultValue name column.1)

theorem lookup_newRow {name column : String} {columns : List (String × String)}
    (hcolumn : column ∈ columns.map Prod.fst) (values : List (Expression Value)) :
    (newRow pg name columns values).lookup column
      = some ((valueAt values column).getD (pg.defaultValue name column)) := by
  induction columns with
  | nil => cases hcolumn
  | cons first columns ih =>
      have hname : newRow pg name (first :: columns) values
          = (first.1, (valueAt values first.1).getD (pg.defaultValue name first.1))
            :: newRow pg name columns values := by
        rw [newRow, List.map_cons, valueAt]
        cases values.find? fun value => value.name = first.1 with
        | none => rfl
        | some value => rfl
      rw [hname]
      by_cases hfirst : column = first.1
      · rw [hfirst, List.lookup_cons_self]
      · rw [List.lookup_cons, beq_false_of_ne hfirst]
        exact ih ((List.mem_cons.mp hcolumn).resolve_left hfirst)

theorem names_newRow {name : String} {columns : List (String × String)}
    {values : List (Expression Value)} :
    (newRow pg name columns values).map Prod.fst = columns.map Prod.fst := by
  rw [newRow, List.map_map]
  apply List.map_congr_left
  intro column _
  dsimp only [Function.comp_apply]
  split <;> rfl

theorem names_assign {values : List (Expression Value)} {row : TargetRow Value} :
    (assign values row).map Prod.fst = row.map Prod.fst := by
  rw [assign, List.map_map]
  apply List.map_congr_left
  intro cell _
  dsimp only [Function.comp_apply]
  split <;> rfl

end Values

section Executed

variable {tables next : Tables Value} {name : String} {prepared : Statement Value}

def Statement.rows (pg : Postgres Value) (name : String) (columns : List (String × String))
    (rows : List (TargetRow Value)) : Statement Value → Option (List (TargetRow Value))
  | .insert values => some (rows ++ [newRow pg name columns values])
  | .update values predicate =>
      changeFirst (matchesRow pg predicate) (fun old => some (assign values old)) rows
  | .delete predicate => changeFirst (matchesRow pg predicate) (fun _ => none) rows

theorem rows_of_changeRow {keys : List (Expression Value)}
    {change : TargetRow Value → Option (TargetRow Value)} {mismatch : TargetError}
    (h : changeRow pg tables name keys change mismatch = .ok next) :
    ∃ table rows, tables name = some table
      ∧ changeFirst (matchesRow pg keys) change table.rows = some rows
      ∧ next = Function.update tables name (some { table with rows := rows }) := by
  unfold changeRow at h
  split at h
  · cases h
  rename_i table htable
  split_ifs at h
  split at h
  · cases h
  rename_i rows hrows
  exact ⟨table, rows, htable, hrows, replaceTable_eq h⟩

theorem rows_of_execute (h : prepared.execute pg tables name = .ok next) :
    ∃ table rows, tables name = some table ∧ prepared.rows pg name table.columns table.rows = some rows
      ∧ next = Function.update tables name (some { table with rows := rows }) := by
  cases prepared with
  | insert values =>
      simp only [Statement.execute, insertRow] at h
      split at h
      · cases h
      rename_i table htable
      split_ifs at h
      exact ⟨table, _, htable, rfl, replaceTable_eq h⟩
  | update values predicate => exact rows_of_changeRow h
  | delete predicate => exact rows_of_changeRow h

end Executed

end GoSync.Server
