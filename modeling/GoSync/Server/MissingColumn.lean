import GoSync.Server.Snapshot

/-!
# Columns added by a schema

Activation adds the columns of a staged schema inside the transaction of `store`, while rows are written
with the column types that are cached, or with those of the committed catalog. So rows of the same snapshot
do not find an added column. Once the activation is committed later transactions do, unless the cache has
outlived it: because the commit was reported as failed, or because the types were read by a target that had
been opened before.
-/

namespace GoSync.Server

variable {Raw Value Hash : Type} {rt : Runtime Raw Value Hash} {pg : Postgres Value} {cfg : Syncer}

def HasColumn (tables : Tables Value) (name column : String) : Prop :=
  ∃ types, targetColumnTypes tables name = .ok types ∧ (types.lookup column).isSome = true

section Activation

variable {tables before after next : Tables Value} {name column : String}
  {schemas : List SchemaTable}

theorem hasColumn_iff : HasColumn tables name column
    ↔ ∃ table, tables name = some table ∧ (table.columns.lookup column).isSome = true := by
  unfold HasColumn targetColumnTypes
  cases tables name with
  | none => simp
  | some table =>
      by_cases hempty : table.columns = []
      · simp [hempty]
      · simp [hempty]

theorem WidenedBy.hasColumn {allowed : String → String × String → Prop}
    (h : WidenedBy allowed before after) (hcolumn : HasColumn before name column) :
    HasColumn after name column := by
  rw [hasColumn_iff] at hcolumn ⊢
  obtain ⟨table, htable, hlookup⟩ := hcolumn
  obtain ⟨added, hafter, -⟩ := h name
  refine ⟨table.widen added, by rw [hafter, htable]; rfl, ?_⟩
  rw [TargetTable.widen, List.lookup_append, Option.isSome_or, hlookup, Bool.true_or]

theorem Widened.hasColumn (h : Widened schemas before after) (hcolumn : HasColumn before name column) :
    HasColumn after name column :=
  WidenedBy.hasColumn h hcolumn

theorem WidenedBy.hasColumn_or {allowed : String → String × String → Prop}
    (h : WidenedBy allowed before after) (hcolumn : HasColumn after name column) :
    HasColumn before name column ∨ ∃ type, allowed name (column, type) := by
  obtain ⟨added, hafter, hadded⟩ := h name
  rw [hasColumn_iff] at hcolumn ⊢
  obtain ⟨table, htable, hlookup⟩ := hcolumn
  rw [hafter, Option.map_eq_some_iff] at htable
  obtain ⟨old, hold, rfl⟩ := htable
  rw [TargetTable.widen, List.lookup_append, Option.isSome_or, Bool.or_eq_true] at hlookup
  rcases hlookup with hknown | hnew
  · exact .inl ⟨old, hold, hknown⟩
  · obtain ⟨⟨key, type⟩, hmem, hkey⟩ := List.lookup_isSome_iff.mp hnew
    obtain rfl : column = key := by simpa using hkey
    exact .inr ⟨type, (hadded _ hmem).1⟩

theorem addColumn_hasColumn {type : String} (h : addColumn pg tables name column type = .ok next) :
    HasColumn next name (identifier column) := by
  unfold addColumn at h
  split at h
  · rename_i table formatted htable hformatted
    split_ifs at h with hknown
    rw [hasColumn_iff, replaceTable_eq h]
    refine ⟨_, Function.update_self .., ?_⟩
    rw [List.lookup_append, Option.isSome_or]
    simp
  · cases h

/-- A schema document brings all its columns. -/
theorem addColumns_hasColumn {schema : SchemaTable} {columns : List SchemaColumn}
    {types : List (String × String)}
    (htypes : ∀ column, identifier column = column → (types.lookup column).isSome = true →
      HasColumn tables schema.name column)
    (hcolumns : ∀ column ∈ columns, column ∈ schema.columns)
    (h : addColumns pg cfg schema columns types tables = .ok next) :
    ∀ column ∈ columns, identifier column.name = column.name →
      HasColumn next schema.name column.name := by
  induction columns generalizing types tables with
  | nil => exact List.forall_mem_nil _
  | cons first columns ih =>
      have hrest := fun other hmem => hcolumns other (List.mem_cons_of_mem first hmem)
      rw [addColumns] at h
      split_ifs at h with hknown hsafe
      · have hwidened := addColumns_widenedBy (List.mem_singleton_self schema) hrest h
        refine List.forall_mem_cons.mpr ⟨?_, ih htypes hrest h⟩
        exact fun hshort => hwidened.hasColumn (htypes _ hshort hknown)
      · split at h
        · cases h
        · rename_i type htype
          obtain ⟨middle, hadd, h⟩ := Except.bind_eq_ok.mp h
          have hwidened : WidenedBy (fun _ _ => True) tables middle :=
            addColumn_widenedBy (fun _ _ => trivial) hadd
          have hfinal := addColumns_widenedBy (List.mem_singleton_self schema) hrest h
          have hadded := addColumn_hasColumn hadd
          refine List.forall_mem_cons.mpr ⟨fun hshort => ?_, ih ?_ hrest h⟩
          · rw [hshort] at hadded
            exact hfinal.hasColumn hadded
          · intro column hshort hcolumn
            rw [List.lookup_append, Option.isSome_or, Bool.or_eq_true] at hcolumn
            rcases hcolumn with hold | hnew
            · exact hwidened.hasColumn (htypes column hshort hold)
            · by_cases hsame : column = first.name
              · subst hsame
                rwa [hshort] at hadded
              · simp [List.lookup_cons, beq_eq_false_iff_ne.mpr hsame] at hnew

theorem activate_hasColumn (h : activate pg cfg schemas tables = .ok next) :
    ∀ schema ∈ schemas, ∀ column ∈ schema.columns, identifier column.name = column.name →
      HasColumn next schema.name column.name := by
  induction schemas generalizing tables with
  | nil => exact List.forall_mem_nil _
  | cons first schemas ih =>
      obtain ⟨types, htypes, h⟩ := Except.bind_eq_ok.mp h
      obtain ⟨middle, hadd, h⟩ := Except.bind_eq_ok.mp h
      have hfirst := addColumns_hasColumn (fun column _ hcolumn => ⟨types, htypes, hcolumn⟩)
        (fun _ hmem => hmem) hadd
      refine List.forall_mem_cons.mpr ⟨?_, ih h⟩
      exact fun column hcolumn hshort => (activate_widened h).hasColumn (hfirst column hcolumn hshort)

end Activation

section Errors

variable {types : List (String × String)} {column : AppliedColumn} {applied : List AppliedColumn}
  {name : String} {committed tables : Tables Value} {row : Row}

theorem expression_missing_iff :
    expression types column = .error (.missingColumn name)
      ↔ types.lookup column.name = none ∧ column.name = name := by
  unfold expression
  cases types.lookup column.name with
  | none => simp
  | some type =>
      simp only [reduceCtorEq, false_and, iff_false]
      intro h
      obtain h | ⟨arg, -, h⟩ := Except.bind_eq_error.mp h
      · unfold argument at h
        split_ifs at h
        · cases h
        · split at h
          · split_ifs at h
            split at h <;> cases h
          · cases h
      · cases h

theorem expressions_missing_iff :
    expressions types applied = .error (.missingColumn name)
      ↔ ∃ front column back, applied = front ++ column :: back
        ∧ (∀ other ∈ front, (expression types other).isOk)
        ∧ types.lookup column.name = none ∧ column.name = name := by
  rw [expressions, Except.mapM_eq_error]
  simp only [expression_missing_iff]

theorem transform_ne_missing {columns : List Column} :
    transform cfg row columns ≠ .error (.missingColumn name) := by
  induction columns with
  | nil => exact fun h => nomatch h
  | cons first columns ih =>
      intro h
      rw [transform] at h
      obtain h | ⟨front, -, h⟩ := Except.bind_eq_error.mp h
      · unfold appliedColumns at h
        split at h
        · cases h
        · split_ifs at h
          split at h
          · cases h
          · split at h <;> cases h
      · obtain h | ⟨back, -, h⟩ := Except.bind_eq_error.mp h
        · exact ih h
        · cases h

theorem evaluate_ne_missing {placeholders : List Placeholder} :
    evaluate pg placeholders ≠ .error (.missingColumn name) := by
  intro h
  obtain ⟨front, placeholder, back, -, -, h⟩ := Except.mapM_eq_error.mp h
  obtain h | ⟨value, -, h⟩ := Except.bind_eq_error.mp h
  · unfold cast at h
    split at h
    · cases h
    · cases h
    · split at h <;> cases h
  · cases h

variable {target : String}

theorem replaceTable_ne_missing {table : TargetTable Value} :
    replaceTable pg tables target table ≠ .error (.missingColumn name) := by
  intro h
  unfold replaceTable at h
  dsimp only at h
  split_ifs at h
  cases h

theorem insertRow_ne_missing {values : List (Expression Value)} :
    insertRow pg tables target values ≠ .error (.missingColumn name) := by
  intro h
  unfold insertRow at h
  split at h
  · cases h
  · split_ifs at h
    · exact replaceTable_ne_missing h
    · cases h

theorem targetColumnTypes_ne_missing :
    targetColumnTypes tables target ≠ .error (.missingColumn name) := by
  intro h
  unfold targetColumnTypes at h
  split at h
  · cases h
  · split_ifs at h
    cases h

theorem changeRow_ne_missing {keys : List (Expression Value)}
    {change : List (String × Option Value) → Option (List (String × Option Value))}
    {mismatch : TargetError} (hmismatch : mismatch ≠ .missingColumn name) :
    changeRow pg tables target keys change mismatch ≠ .error (.missingColumn name) := by
  intro h
  unfold changeRow at h
  split at h
  · cases h
  · split_ifs at h
    · split at h
      · exact hmismatch (Except.error.inj h)
      · exact replaceTable_ne_missing h
    · cases h

def placeholderColumns (row : Row) (columns keys : List AppliedColumn) : List AppliedColumn :=
  match row.operation with
  | .read | .insert => columns
  | .update => if columns = [] ∨ keys = [] then [] else columns ++ keys
  | .delete => keys
  | .other _ => []

/-- The row is for a configured table, and the first column of its statement that cannot be written is one
that these column types do not have. -/
def RowLacks (cfg : Syncer) (view : String → Except TargetError (List (String × String))) (row : Row) :
    Prop :=
  cfg.allows row.schema row.table = true
    ∧ ∃ types columns keys, view row.table = .ok types
      ∧ transform cfg row row.columns = .ok columns ∧ transform cfg row (keySource row) = .ok keys
      ∧ ∃ front column back, placeholderColumns row columns keys = front ++ column :: back
        ∧ (∀ other ∈ front, (expression types other).isOk) ∧ types.lookup column.name = none

theorem expressions_append_error {front back : List AppliedColumn} {err : TargetError} :
    expressions types (front ++ back) = .error err
      ↔ expressions types front = .error err
        ∨ ∃ placeholders, expressions types front = .ok placeholders
          ∧ expressions types back = .error err := by
  unfold expressions
  rw [List.mapM_append, Except.bind_eq_error]
  simp only [Except.bind_eq_error, pure, Except.pure, reduceCtorEq, and_false, exists_false, or_false]

theorem evaluated_ne_missing {issued : Sql.Command} : issued.evaluated pg ≠ .error (.missingColumn name) := by
  intro h
  cases issued with
  | insert values =>
      obtain h | ⟨_, -, h⟩ := Except.bind_eq_error.mp h
      · exact evaluate_ne_missing h
      · cases h
  | update values keys =>
      obtain h | ⟨_, -, h⟩ := Except.bind_eq_error.mp h
      · exact evaluate_ne_missing h
      obtain h | ⟨_, -, h⟩ := Except.bind_eq_error.mp h
      · exact evaluate_ne_missing h
      split_ifs at h
      cases h
  | delete keys =>
      obtain h | ⟨_, -, h⟩ := Except.bind_eq_error.mp h
      · exact evaluate_ne_missing h
      · cases h

theorem execute_ne_missing {prepared : Statement Value} {table : String} :
    prepared.execute pg tables table ≠ .error (.missingColumn name) := by
  cases prepared with
  | insert values => exact insertRow_ne_missing
  | update values predicate => exact changeRow_ne_missing (by simp)
  | delete predicate => exact changeRow_ne_missing (by simp)

theorem applyRow_missing_iff_command {view : String → Except TargetError (List (String × String))} :
    applyRow pg cfg view row tables = .error (.missingColumn name)
      ↔ Sql.command cfg view row = .error (.missingColumn name) := by
  unfold applyRow statement
  rw [Except.bind_eq_error, Except.bind_eq_error, or_assoc, or_iff_left]
  rintro (⟨issued, -, h⟩ | ⟨prepared, -, h⟩)
  · exact evaluated_ne_missing h
  · exact execute_ne_missing h

theorem expressions_bind_error {α : Type} {make : List Placeholder → α} {err : TargetError} :
    (expressions types applied >>= fun values => .ok (make values)) = .error err
      ↔ expressions types applied = .error err := by
  simp [Except.bind_eq_error]

/-- The error for a missing column comes exactly where the column types lack one. -/
theorem applyRow_missing_iff {view : String → Except TargetError (List (String × String))}
    (tables : Tables Value) (hview : ∀ name, view row.table ≠ .error (.missingColumn name)) :
    (∃ name, applyRow pg cfg view row tables = .error (.missingColumn name)) ↔ RowLacks cfg view row := by
  have happly (name : String) (hallowed : cfg.allows row.schema row.table = true) :
      applyRow pg cfg view row tables = .error (.missingColumn name)
        ↔ ∃ types, view row.table = .ok types ∧ ∃ columns, transform cfg row row.columns = .ok columns
          ∧ ∃ keys, transform cfg row (keySource row) = .ok keys
            ∧ expressions types (placeholderColumns row columns keys) = .error (.missingColumn name) := by
    rw [applyRow_missing_iff_command, Sql.command, if_neg (not_not.mpr hallowed), Except.bind_eq_error,
      or_iff_right (hview name)]
    refine exists_congr fun types => and_congr_right fun _ => ?_
    rw [Except.bind_eq_error, or_iff_right transform_ne_missing]
    refine exists_congr fun columns => and_congr_right fun _ => ?_
    rw [Except.bind_eq_error, or_iff_right transform_ne_missing]
    refine exists_congr fun keys => and_congr_right fun _ => ?_
    unfold placeholderColumns
    cases row.operation with
    | read | insert | delete =>
        dsimp only
        split_ifs with hempty
        · simp [hempty, expressions, pure, Except.pure]
        · exact expressions_bind_error
    | update =>
        dsimp only
        split_ifs with hempty
        · simp [expressions, pure, Except.pure]
        · rw [Except.bind_eq_error, expressions_append_error]
          exact or_congr_right (exists_congr fun _ => and_congr_right fun _ => expressions_bind_error)
    | other other => simp [expressions, pure, Except.pure]
  by_cases hallowed : cfg.allows row.schema row.table = true
  · simp only [happly _ hallowed, expressions_missing_iff, RowLacks, hallowed, true_and]
    constructor
    · rintro ⟨name, types, htypes, columns, hcolumns, keys, hkeys, front, column, back, hsplit, hfront,
        hmissing, -⟩
      exact ⟨types, columns, keys, htypes, hcolumns, hkeys, front, column, back, hsplit, hfront, hmissing⟩
    · rintro ⟨types, columns, keys, htypes, hcolumns, hkeys, front, column, back, hsplit, hfront, hmissing⟩
      exact ⟨column.name, types, htypes, columns, hcolumns, keys, hkeys, front, column, back, hsplit,
        hfront, hmissing, rfl⟩
  · simp [applyRow_missing_iff_command, Sql.command, RowLacks, hallowed]

theorem columnTypes_ne_missing {cache : TypeCache} :
    columnTypes cache tables target ≠ .error (.missingColumn name) := by
  intro h
  unfold columnTypes at h
  split at h
  · cases h
  · exact targetColumnTypes_ne_missing h

end Errors

section Store

variable {env : Surroundings} {message : Message} {raw : Raw} {err : TargetError}

theorem checkFile_ne_target : checkFile cfg message ≠ .error (.target err) := by
  intro h
  unfold checkFile validateFileMessage at h
  repeat' split at h
  all_goals cases h

theorem schemaBarrier_ne_target {current : SyncState} :
    schemaBarrier message current ≠ .error (.target err) := by
  intro h
  unfold schemaBarrier at h
  split_ifs at h <;> cases h

theorem checkTransaction_ne_target {current : SyncState} :
    checkTransaction message current ≠ .error (.target err) := by
  intro h
  unfold checkTransaction at h
  repeat' split at h
  all_goals cases h

variable [DecidableEq Hash] {db : Db Raw Value Hash}

theorem store_target_error (h : store rt env message raw db = .error (.target err)) :
    ∃ current cleared, switchGeneration message db = .ok (current, cleared)
      ∧ applyMessage rt env db.tables message raw current.phase cleared = .error (.target err) := by
  unfold store at h
  split_ifs at h
  · cases h
  obtain h | ⟨⟨current, cleared⟩, hswitch, h⟩ := Except.bind_eq_error.mp h
  · unfold switchGeneration at h
    split_ifs at h
    cases h
  refine ⟨current, cleared, hswitch, ?_⟩
  dsimp only at h
  split at h
  · split_ifs at h
    cases h
  · split_ifs at h
    · cases h
    unfold receive at h
    obtain h | ⟨_, -, h⟩ := Except.bind_eq_error.mp h
    · exact absurd h checkFile_ne_target
    obtain h | ⟨pending, -, h⟩ := Except.bind_eq_error.mp h
    · exact absurd h schemaBarrier_ne_target
    obtain h | ⟨openTransaction, -, h⟩ := Except.bind_eq_error.mp h
    · exact absurd h checkTransaction_ne_target
    obtain h | ⟨⟨middle, phase⟩, -, h⟩ := Except.bind_eq_error.mp h
    · exact h
    · dsimp only at h
      split_ifs at h
      cases h

end Store

section Messages

variable {types : TypeCache} {message : Message} {raw : Raw} {db db' : Db Raw Value Hash}
  {err : TargetError} {committed tables next : Tables Value} {row : Row} {name : String}

def rowsWritten (rt : Runtime Raw Value Hash) (message : Message) (db : Db Raw Value Hash) : List Row :=
  match message.kind with
  | .snapshotEnd => (db.snapshotRows.filter fun row => row.generation = message.generation).map
      fun row => { row.payload with operation := .insert }
  | .transactionEnd => (db.inbox.filter fun row => row.generation = message.generation).flatMap
      fun row => ((rt.codec.unmarshal row.payload).map Message.rows).getD []
  | _ => []

theorem addColumns_ne_missing {schema : SchemaTable} {columns : List SchemaColumn}
    {known : List (String × String)} :
    addColumns pg cfg schema columns known tables ≠ .error (.missingColumn name) := by
  induction columns generalizing known tables with
  | nil => exact fun h => nomatch h
  | cons column columns ih =>
      intro h
      rw [addColumns] at h
      split_ifs at h
      · exact ih h
      · cases h
      · split at h
        · cases h
        · obtain h | ⟨next, -, h⟩ := Except.bind_eq_error.mp h
          · unfold addColumn at h
            split at h
            · split_ifs at h
              · cases h
              · exact replaceTable_ne_missing h
            · cases h
          · exact ih h

theorem activate_ne_missing {schemas : List SchemaTable} :
    activate pg cfg schemas tables ≠ .error (.missingColumn name) := by
  induction schemas generalizing tables with
  | nil => exact fun h => nomatch h
  | cons schema schemas ih =>
      intro h
      obtain h | ⟨known, -, h⟩ := Except.bind_eq_error.mp h
      · exact targetColumnTypes_ne_missing h
      obtain h | ⟨next, -, h⟩ := Except.bind_eq_error.mp h
      · exact addColumns_ne_missing h
      · exact ih h

theorem activateSnapshot_ne_missing :
    activateSnapshot rt message db ≠ .error (.target (.missingColumn name)) := by
  intro h
  unfold activateSnapshot applyStagedSchemas at h
  dsimp only at h
  split_ifs at h
  · cases h
  · obtain h | ⟨tables, -, h⟩ := Except.bind_eq_error.mp h
    · obtain ⟨cause, hcause, hsame⟩ := Except.mapError_eq_error.mp h
      cases hsame
      exact activate_ne_missing hcause
    · cases h

theorem clearTables_ne_missing {scope : List ScopeRow} :
    scope.foldlM (fun current row => clearTable pg current row.table.name) tables
      ≠ .error (.missingColumn name) := by
  intro h
  obtain ⟨front, row, back, current, -, -, h⟩ := Except.foldlM_eq_error.mp h
  unfold clearTable at h
  split at h
  · cases h
  · exact replaceTable_ne_missing h

theorem publishSnapshot_missing {generation : String}
    (h : publishSnapshot rt types committed generation db = .error (.target (.missingColumn name))) :
    ∃ row ∈ db.snapshotRows.filter fun row => row.generation = generation, ∃ tables,
      applyRow rt.pg rt.cfg (columnTypes types committed) { row.payload with operation := .insert } tables
        = .error (.missingColumn name) := by
  unfold publishSnapshot at h
  obtain h | ⟨cleared, -, h⟩ := Except.bind_eq_error.mp h
  · obtain ⟨cause, hcause, hsame⟩ := Except.mapError_eq_error.mp h
    cases hsame
    exact absurd hcause clearTables_ne_missing
  obtain h | ⟨tables, -, h⟩ := Except.bind_eq_error.mp h
  · obtain ⟨cause, hcause, hsame⟩ := Except.mapError_eq_error.mp h
    cases hsame
    obtain ⟨page, current, hpage, hfailed⟩ := Paging.scan_eq_error (fun _ _ _ _ _ hrow => hrow) _ _ _ hcause
    obtain ⟨front, row, back, tables, rfl, -, hrow⟩ := Except.foldlM_eq_error.mp hfailed
    exact ⟨row, hpage row (by simp), tables, hrow⟩
  · cases h

theorem applyPage_inbox {page : List (InboxRow Raw)} {state next : List (InboxRow Raw) × Tables Value}
    (h : applyPage rt types committed message page state = .ok next) :
    ∀ entry ∈ next.1, entry ∈ state.1 := by
  obtain ⟨batch, -, h⟩ := Except.bind_eq_ok.mp h
  refine Except.foldlM_invariant (fun current => ∀ entry ∈ current.1, entry ∈ state.1) ?_
    (fun _ hmem => hmem) h
  intro item _ before after hbefore hafter
  split at hafter
  · cases hafter
    exact hbefore
  · obtain ⟨tables, -, hafter⟩ := Except.bind_eq_ok.mp hafter
    cases hafter
    exact fun entry hmem => hbefore entry (List.mem_filter.mp hmem).1

/-- A page fails with the error of one of its rows. -/
theorem applyPage_target_error {page : List (InboxRow Raw)}
    {state : List (InboxRow Raw) × Tables Value}
    (h : applyPage rt types committed message page state = .error (.target err)) :
    ∃ entry ∈ page, ∃ chunk, rt.codec.unmarshal entry.payload = some chunk
      ∧ ∃ row ∈ chunk.rows, ∃ tables,
        applyRow rt.pg rt.cfg (columnTypes types committed) row tables = .error err := by
  obtain h | ⟨batch, hbatch, h⟩ := Except.bind_eq_error.mp h
  · obtain ⟨front, entry, back, -, -, h⟩ := Except.mapM_eq_error.mp h
    split at h <;> cases h
  · obtain ⟨front, item, back, current, hsplit, -, h⟩ := Except.foldlM_eq_error.mp h
    split at h
    · cases h
    obtain h | ⟨tables, -, h⟩ := Except.bind_eq_error.mp h
    · obtain ⟨cause, hcause, hsame⟩ := Except.mapError_eq_error.mp h
      cases hsame
      obtain ⟨before, row, after, tables, hrows, -, hrow⟩ := Except.foldlM_eq_error.mp hcause
      obtain ⟨entry, hentry, hdecode⟩ := Except.exists_of_mapM_eq_ok hbatch item (by simp [hsplit])
      split at hdecode
      · cases hdecode
      · rename_i chunk hchunk
        cases hdecode
        change chunk.rows = _ at hrows
        exact ⟨entry, hentry, chunk, hchunk, row, by simp [hrows], tables, hrow⟩
    · cases h

theorem applyTransaction_target_error
    (h : applyTransaction rt types committed message db = .error (.target err)) :
    ∃ entry ∈ db.inbox.filter fun row => row.generation = message.generation, ∃ chunk, rt.codec.unmarshal entry.payload = some chunk
      ∧ ∃ row ∈ chunk.rows, ∃ tables,
        applyRow rt.pg rt.cfg (columnTypes types committed) row tables = .error err := by
  unfold applyTransaction at h
  obtain h | ⟨⟨inbox, tables⟩, -, h⟩ := Except.bind_eq_error.mp h
  · obtain ⟨page, state, hpage, hfailed⟩ := Paging.scan_eq_error (by
      intro batch state next hnext entry hmem
      rw [List.mem_filter] at hmem ⊢
      exact ⟨applyPage_inbox hnext entry hmem.1, hmem.2⟩) _ _ _ h
    obtain ⟨entry, hentry, hrest⟩ := applyPage_target_error hfailed
    exact ⟨entry, hpage entry hentry, hrest⟩
  · cases h

theorem Loading.rowsWritten_eq {generation : String} {scope : List TableRef} {chunks : List Message}
    {target : Target Raw Value Hash} (h : Loading rt generation scope chunks tables target) (hkind : message.kind = .snapshotEnd)
    (hgeneration : message.generation = generation) :
    rowsWritten rt message target.db
      = (chunks.flatMap Message.rows).map fun row => { row with operation := .insert } := by
  have hall : (target.db.snapshotRows.filter fun row => row.generation = message.generation)
      = chunks.flatMap snapshotRowsOf := by
    rw [h.rows, List.filter_eq_self]
    intro row hrow
    obtain ⟨chunk, hchunk, hrow⟩ := List.mem_flatMap.mp hrow
    obtain ⟨_, -, rfl⟩ := List.mem_map.mp hrow
    exact decide_eq_true ((h.order.generation chunk hchunk).trans hgeneration.symm)
  have hpayload : (chunks.flatMap snapshotRowsOf).map SnapshotRow.payload
      = chunks.flatMap Message.rows := by
    rw [List.map_flatMap]
    exact List.flatMap_congr fun message _ => snapshotRowsOf_payload message
  simp only [rowsWritten, hkind]
  rw [hall, ← hpayload, List.map_map]
  rfl

variable [DecidableEq Hash] {env : Surroundings} {target : Target Raw Value Hash} {delivery : Delivery Raw}

/-- A message whose rows lack no column does not fail for lack of one. -/
theorem store_ne_missing (hkind : message.kind = .snapshotEnd ∨ message.kind = .transactionEnd)
    (hrows : ∀ row ∈ rowsWritten rt message db, ¬ RowLacks rt.cfg (columnTypes env.types db.tables) row) :
    store rt env message raw db ≠ .error (.target (.missingColumn name)) := by
  intro hmissing
  obtain ⟨current, cleared, hswitch, happly⟩ := store_target_error hmissing
  have hlacks {row : Row} {tables : Tables Value} (hfailed : applyRow rt.pg rt.cfg
      (columnTypes env.types db.tables) row tables = .error (.missingColumn name)) :
      RowLacks rt.cfg (columnTypes env.types db.tables) row :=
    (applyRow_missing_iff tables fun _ => columnTypes_ne_missing).mp ⟨name, hfailed⟩
  rcases switchGeneration_cases hswitch with ⟨-, rfl, rfl⟩ | ⟨-, -, hbegin, -, -⟩
  · unfold applyMessage at happly
    rcases hkind with hkind | hkind
    · simp only [hkind] at happly
      split_ifs at happly
      · cases happly
      obtain happly | ⟨activated, hactivated, happly⟩ := Except.bind_eq_error.mp happly
      · exact activateSnapshot_ne_missing happly
      obtain happly | ⟨_, -, happly⟩ := Except.bind_eq_error.mp happly
      · obtain ⟨row, hrow, tables, hfailed⟩ := publishSnapshot_missing happly
        rw [activateSnapshot_frame hactivated] at hrow
        refine hrows _ ?_ (hlacks hfailed)
        simp only [rowsWritten, hkind]
        exact List.mem_map_of_mem hrow
      · cases happly
    · simp only [hkind] at happly
      split_ifs at happly
      · cases happly
      obtain happly | ⟨_, -, happly⟩ := Except.bind_eq_error.mp happly
      · obtain ⟨entry, hentry, chunk, hchunk, row, hrow, tables, hfailed⟩ :=
          applyTransaction_target_error happly
        refine hrows row ?_ (hlacks hfailed)
        simp only [rowsWritten, hkind]
        exact List.mem_flatMap.mpr ⟨entry, hentry, by simpa [hchunk] using hrow⟩
      · cases happly
  · rcases hkind with hkind | hkind <;> simp [hkind] at hbegin

/-- A message that is applied has written all its rows, so none of them lacked a column. -/
theorem Target.Ready.accepted_rows (h : target.Ready rt)
    (haccepted : delivery.accepted rt target = some message) (hrow : row ∈ rowsWritten rt message target.db) :
    ¬ RowLacks rt.cfg (columnTypes target.types target.db.tables) row := by
  obtain ⟨backend, raw, reported, current, cleared, rfl, hswitch, -, hreceive⟩ :=
    receive_of_accepted_some haccepted
  -- The row has been written on some state of the tables.
  suffices ∃ before after, applyRow rt.pg rt.cfg (columnTypes target.types target.db.tables) row before
      = .ok after by
    obtain ⟨before, after, hok⟩ := this
    intro hlacks
    obtain ⟨name, hmissing⟩ := (applyRow_missing_iff before fun _ => columnTypes_ne_missing).mpr hlacks
    cases hok.symm.trans hmissing
  rcases switchGeneration_cases hswitch with ⟨hsame, rfl, rfl⟩ | ⟨-, -, hbegin, -, -⟩
  · obtain ⟨pending, openTransaction, middle, phase, -, -, hcheck, happly, -, -⟩ :=
      receive_cases hreceive
    have hcases := applyMessage_cases happly
    cases hkind : message.kind with
    | snapshotEnd =>
        simp only [hkind] at hcases
        obtain ⟨-, hphase, activated, hactivated, hpublished⟩ := hcases
        obtain ⟨generation, scope, chunks, tables, hloading⟩ := h.loading hphase
        have hgeneration := hsame.trans hloading.current
        rw [hloading.rowsWritten_eq hkind hgeneration] at hrow
        have hframe := activateSnapshot_frame hactivated
        rw [publishSnapshot_eq activated (by rw [hframe]; exact hloading.scope)
          (by rw [hframe]; exact hloading.rows)
          (fun chunk hmem => (hloading.order.generation chunk hmem).trans hgeneration.symm)
          hloading.order.seq] at hpublished
        obtain ⟨emptied, -, hpublished⟩ := Except.bind_eq_ok.mp hpublished
        obtain ⟨final, hfinal, -⟩ := Except.bind_eq_ok.mp hpublished
        rw [Except.mapError_eq_ok] at hfinal
        obtain ⟨source, hsource, rfl⟩ := List.mem_map.mp hrow
        exact Except.exists_of_foldlM_eq_ok hfinal source hsource
    | transactionEnd =>
        simp only [hkind] at hcases
        obtain ⟨-, -, happlied⟩ := hcases
        obtain ⟨htransaction, -⟩ := checkTransaction_end (by simp [hkind]) hcheck
        obtain ⟨chunks, hchunks, -⟩ := h.sound.staged.inbox
        obtain ⟨tables, htables, -⟩ := (applyTransaction_types_iff hchunks.inbox
          (fun entry hmem => (hchunks.order.generation _ (List.mem_map_of_mem hmem)).trans hsame.symm)
          (List.pairwise_map.mp hchunks.order.seq :) hchunks.decode
          (fun entry hmem => (hchunks.transaction entry hmem).trans htransaction)).mp happlied
        simp only [rowsWritten, hkind, List.mem_flatMap] at hrow
        obtain ⟨waiting, hwaiting, hrow⟩ := hrow
        rw [hchunks.inbox] at hwaiting
        obtain ⟨entry, hentry, rfl⟩ := List.mem_map.mp (List.mem_filter.mp hwaiting).1
        refine Except.exists_of_foldlM_eq_ok htables row (List.mem_flatMap.mpr ⟨entry, hentry, ?_⟩)
        simpa [inboxRow, hchunks.decode entry hentry] using hrow
    | _ => simp [rowsWritten, hkind] at hrow
  · simp [rowsWritten, hbegin] at hrow

end Messages

section Refresh

variable {committed : Tables Value} {row : Row} {schemas : List SchemaTable} {types : TypeCache}

theorem appliedColumns_names {column : Column} {applied : List AppliedColumn}
    (h : appliedColumns cfg row column = .ok applied) :
    ∀ result ∈ applied, result.name = column.name
      ∨ cfg.fileMapping row.schema row.table column.name = some result.name := by
  unfold appliedColumns at h
  split at h
  · cases h
    simp
  · rename_i content hcontent
    split_ifs at h
    · split at h
      · cases h
        simp [hcontent]
      · split at h
        · cases h
        · cases h
          simp [hcontent]
    · cases h
      simp

theorem transform_names {columns : List Column} {applied : List AppliedColumn}
    (h : transform cfg row columns = .ok applied) :
    ∀ result ∈ applied, ∃ column ∈ columns, result.name = column.name
      ∨ cfg.fileMapping row.schema row.table column.name = some result.name := by
  induction columns generalizing applied with
  | nil =>
      cases h
      exact List.forall_mem_nil _
  | cons column columns ih =>
      obtain ⟨first, hfirst, h⟩ := Except.bind_eq_ok.mp h
      obtain ⟨rest, hrest, h⟩ := Except.bind_eq_ok.mp h
      cases h
      refine List.forall_mem_append.mpr ⟨?_, ?_⟩
      · intro result hresult
        exact ⟨column, List.mem_cons_self, appliedColumns_names hfirst result hresult⟩
      · intro result hresult
        obtain ⟨other, hother, hname⟩ := ih hrest result hresult
        exact ⟨other, List.mem_cons_of_mem _ hother, hname⟩

/-- The columns of the row are in the schema of its table, under names that PostgreSQL keeps, and the
content columns of its embedded files are in the catalog. -/
def Described (cfg : Syncer) (schemas : List SchemaTable) (tables : Tables Value) (row : Row) : Prop :=
  ∀ column ∈ row.columns ++ row.key ++ row.oldKey,
    (identifier column.name = column.name ∧ ∃ schema ∈ schemas, schema.name = row.table
        ∧ column.name ∈ schema.columns.map SchemaColumn.name)
      ∧ ∀ content, cfg.fileMapping row.schema row.table column.name = some content →
        HasColumn tables row.table content

theorem placeholderColumns_subset {columns keys : List AppliedColumn} {column : AppliedColumn}
    (h : column ∈ placeholderColumns row columns keys) : column ∈ columns ∨ column ∈ keys := by
  unfold placeholderColumns at h
  split at h
  · exact .inl h
  · exact .inl h
  · split_ifs at h
    · cases h
    · exact List.mem_append.mp h
  · exact .inr h
  · cases h

/-- A row of described columns lacks none. -/
theorem Described.not_rowLacks (h : Described cfg schemas committed row)
    (hschemas : ∀ schema ∈ schemas, ∀ column ∈ schema.columns, identifier column.name = column.name →
      HasColumn committed schema.name column.name) :
    ¬ RowLacks cfg (targetColumnTypes committed) row := by
  rintro ⟨-, types, columns, keys, htypes, hcolumns, hkeys, front, result, back, hsplit, -, hnone⟩
  have hlacks : ¬ HasColumn committed row.table result.name := by
    rintro ⟨other, hother, hsome⟩
    cases htypes.symm.trans hother
    rw [hnone] at hsome
    cases hsome
  apply hlacks
  obtain ⟨column, hmem, hname⟩ : ∃ column ∈ row.columns ++ row.key ++ row.oldKey,
      result.name = column.name
        ∨ cfg.fileMapping row.schema row.table column.name = some result.name := by
    have hwritten : result ∈ placeholderColumns row columns keys := by simp [hsplit]
    rcases placeholderColumns_subset hwritten with hresult | hresult
    · obtain ⟨column, hcolumn, hname⟩ := transform_names hcolumns result hresult
      exact ⟨column, by simp [hcolumn], hname⟩
    · obtain ⟨column, hcolumn, hname⟩ := transform_names hkeys result hresult
      refine ⟨column, ?_, hname⟩
      unfold keySource at hcolumn
      split_ifs at hcolumn <;> simp [hcolumn]
  obtain ⟨⟨hshort, schema, hschema, htable, hlisted⟩, hcontent⟩ := h column hmem
  rcases hname with hsame | hmapped
  · obtain ⟨listed, hlisted, hlistedName⟩ := List.mem_map.mp hlisted
    rw [← hlistedName] at hshort
    rw [hsame, ← hlistedName, ← htable]
    exact hschemas schema hschema listed hlisted hshort
  · exact hcontent result.name hmapped

def UpToDate (types : TypeCache) (committed : Tables Value) : Prop :=
  ∀ table columns, types.lookup table = some columns → targetColumnTypes committed table = .ok columns

theorem upToDate_nil (committed : Tables Value) : UpToDate [] committed := by
  intro table columns hlookup
  simp at hlookup

theorem UpToDate.columnTypes_eq (h : UpToDate types committed) :
    columnTypes types committed = targetColumnTypes committed := by
  funext table
  unfold columnTypes
  cases hlookup : types.lookup table with
  | none => rfl
  | some columns => exact (h table columns hlookup).symm

/-- The target notices what changes the catalog: a commit reports its success, and no read of column types
breaks off or dates from before. -/
def Delivery.Noticed : Delivery Raw → Prop
  | .store _ _ _ reported => reported = true
  | .rememberFirst _ _ => False
  | _ => True

variable [DecidableEq Hash] {target : Target Raw Value Hash} {delivery : Delivery Raw} {message : Message}

/-- What the target notices keeps its cache up to date. -/
theorem UpToDate.deliver (h : UpToDate target.types target.db.tables) (hnoticed : delivery.Noticed) :
    UpToDate (target.deliver rt delivery).types (target.deliver rt delivery).db.tables := by
  cases delivery with
  | failed => exact h
  | restart => exact upToDate_nil _
  | rememberFirst count table => exact absurd hnoticed id
  | remember table =>
      simp only [Target.deliver, remember]
      split
      · rename_i columns _ hcolumns
        intro other found hfound
        rw [List.lookup_cons] at hfound
        by_cases heq : other = table
        · subst heq
          simp only [beq_self_eq_true, Option.some.injEq] at hfound
          exact hfound ▸ hcolumns
        · simp only [beq_false_of_ne heq] at hfound
          exact h other found hfound
      · exact h
  | store backend message raw reported =>
      obtain rfl : reported = true := hnoticed
      cases hstore : Server.store rt { types := target.types, backend := backend } message raw
          target.db with
      | error err =>
          simp only [Target.deliver, hstore]
          exact h
      | ok db =>
          simp only [Target.deliver, hstore, typesAfter]
          obtain ⟨-, ⟨hsame, hold, rfl⟩ | ⟨current, cleared, hswitch, hseq, hreceive⟩⟩ := store_cases hstore
          · rw [if_pos ⟨hsame, hold⟩]
            exact h
          · have hnew : ¬ (message.generation = target.db.syncState.generation
                ∧ message.seq ≤ target.db.syncState.received) := by
              rintro ⟨hsame, hold⟩
              rw [(switchGeneration_received hswitch).1, receivedOf, if_pos hsame.symm] at hseq
              omega
            rw [if_neg hnew]
            split_ifs with hkind
            · exact upToDate_nil _
            · rw [true_and, not_or] at hkind
              obtain ⟨pending, openTransaction, middle, phase, -, -, -, happly, -, rfl⟩ :=
                receive_cases hreceive
              have hcatalog := (applyMessage_frame happly).2.2.1 hkind.1 hkind.2
              rw [(switchGeneration_received hswitch).2.2] at hcatalog
              intro table columns hlookup
              change targetColumnTypes middle.tables table = .ok columns
              rw [hcatalog]
              exact h table columns hlookup

theorem UpToDate.deliveries {deliveries : List (Delivery Raw)}
    (h : UpToDate target.types target.db.tables) (hnoticed : ∀ delivery ∈ deliveries, delivery.Noticed) :
    UpToDate (deliveries.foldl (Target.deliver rt) target).types
      (deliveries.foldl (Target.deliver rt) target).db.tables := by
  induction deliveries generalizing target with
  | nil => exact h
  | cons delivery rest ih =>
      obtain ⟨hfirst, hrest⟩ := List.forall_mem_cons.mp hnoticed
      exact ih (h.deliver hfirst) hrest

theorem upToDate_of_schemaEnd (haccepted : delivery.accepted rt target = some message)
    (hkind : message.kind = .schemaEnd) (hnoticed : delivery.Noticed) :
    UpToDate (target.deliver rt delivery).types (target.deliver rt delivery).db.tables := by
  cases delivery with
  | failed | remember table | rememberFirst count table | restart => cases haccepted
  | store backend other raw reported =>
      obtain rfl : reported = true := hnoticed
      simp only [Delivery.accepted] at haccepted
      split_ifs at haccepted with hnew
      cases haccepted
      obtain ⟨⟨db, hstore⟩, hseq⟩ := And.imp_left Except.isOk_iff.mp hnew
      simp only [Target.deliver, hstore, typesAfter]
      rw [if_neg, if_pos ⟨trivial, .inr hkind⟩]
      · exact upToDate_nil db.tables
      · rintro ⟨hsame, hold⟩
        rw [receivedOf, if_pos hsame.symm] at hseq
        omega

/-- A column never disappears. -/
theorem HasColumn.deliver {name column : String} (h : HasColumn target.db.tables name column) :
    HasColumn (target.deliver rt delivery).db.tables name column := by
  cases haccepted : delivery.accepted rt target with
  | none =>
      rw [deliver_of_accepted_none haccepted]
      exact h
  | some message =>
      obtain ⟨backend, raw, reported, current, cleared, rfl, hswitch, -, hreceive⟩ :=
        receive_of_accepted_some haccepted
      obtain ⟨pending, openTransaction, middle, phase, -, -, -, happly, -, hdb⟩ :=
        receive_cases hreceive
      rw [hdb]
      change HasColumn middle.tables name column
      rw [← (switchGeneration_received hswitch).2.2] at h
      have hcases := applyMessage_cases happly
      by_cases hsnapshot : message.kind = .snapshotEnd
      · simp only [hsnapshot] at hcases
        obtain ⟨-, -, activated, hactivated, hpublished⟩ := hcases
        have hactive := (activateSnapshot_widened hactivated).hasColumn h
        rwa [HasColumn, (publishSnapshot_frame hpublished).1]
      by_cases hrefresh : message.kind = .schemaEnd
      · simp only [hrefresh] at hcases
        exact (applyStagedSchemas_widened hcases.2.2).hasColumn h
      · rwa [HasColumn, (applyMessage_frame happly).2.2.1 hsnapshot hrefresh]

theorem HasColumn.deliveries {name column : String} {deliveries : List (Delivery Raw)}
    (h : HasColumn target.db.tables name column) :
    HasColumn (deliveries.foldl (Target.deliver rt) target).db.tables name column := by
  induction deliveries generalizing target with
  | nil => exact h
  | cons delivery rest ih => exact ih h.deliver

/-- After a refresh the tables have the staged columns. -/
theorem hasColumn_of_schemaEnd (haccepted : delivery.accepted rt target = some message)
    (hkind : message.kind = .schemaEnd) :
    ∀ schema ∈ stagedSchemas message.generation message.schemaVersion target.db.schemaStage,
      ∀ column ∈ schema.columns, identifier column.name = column.name →
        HasColumn (target.deliver rt delivery).db.tables schema.name column.name := by
  obtain ⟨backend, raw, reported, current, cleared, rfl, hswitch, -, hreceive⟩ :=
    receive_of_accepted_some haccepted
  rcases switchGeneration_cases hswitch with ⟨-, rfl, rfl⟩ | ⟨-, -, hbegin, -, -⟩
  · obtain ⟨pending, openTransaction, middle, phase, -, -, -, happly, -, hdb⟩ :=
      receive_cases hreceive
    rw [hdb]
    have hcases := applyMessage_cases happly
    simp only [hkind] at hcases
    obtain ⟨-, -, hactivated⟩ := hcases
    unfold applyStagedSchemas at hactivated
    dsimp only at hactivated
    split_ifs at hactivated
    obtain ⟨tables, htables, hactivated⟩ := Except.bind_eq_ok.mp hactivated
    cases hactivated
    exact activate_hasColumn (Except.mapError_eq_ok.mp htables)
  · simp [hkind] at hbegin

end Refresh

/-- **Added columns.** A row fails for lack of a column exactly if its statement has a column that is not
among the types at hand, the cached ones or those of the committed catalog. A snapshot or a transaction
without such rows does not fail for lack of a column, and one with such a row is not applied. After a schema
refresh that the target has noticed, rows with columns of the schema lack none. -/
theorem added_columns_usable_iff [DecidableEq Hash] (rt : Runtime Raw Value Hash) :
    (∀ (types : TypeCache) (committed : Tables Value) (row : Row),
      (∀ tables name, applyRow rt.pg rt.cfg (columnTypes types committed) row tables
          ≠ .error (.missingColumn name))
        ↔ ¬ RowLacks rt.cfg (columnTypes types committed) row)
      ∧ ∀ (tables : Tables Value) (deliveries : List (Delivery Raw)),
        (∀ delivery ∈ deliveries, delivery.Decoded rt) →
        let target := deliveries.foldl (Target.deliver rt) { db := { tables := tables } }
        let lacks (target : Target Raw Value Hash) (row : Row) :=
          RowLacks rt.cfg (columnTypes target.types target.db.tables) row
        (∀ backend message raw reported, message.kind = .snapshotEnd ∨ message.kind = .transactionEnd →
          ((∀ row ∈ rowsWritten rt message target.db, ¬ lacks target row) →
            ∀ name, store rt { types := target.types, backend := backend } message raw target.db
              ≠ .error (.target (.missingColumn name)))
          ∧ ((Delivery.store backend message raw reported).accepted rt target = some message →
            ∀ row ∈ rowsWritten rt message target.db, ¬ lacks target row))
        ∧ ∀ (refresh : Delivery Raw) (message : Message) (later : List (Delivery Raw)),
          refresh.accepted rt target = some message → message.kind = .schemaEnd →
          (∀ delivery ∈ refresh :: later, delivery.Noticed) →
          let after := (refresh :: later).foldl (Target.deliver rt) target
          columnTypes after.types after.db.tables = targetColumnTypes after.db.tables
            ∧ ∀ row, Described rt.cfg
                (stagedSchemas message.generation message.schemaVersion target.db.schemaStage)
                after.db.tables row → ¬ lacks after row := by
  refine ⟨?_, ?_⟩
  · intro types committed row
    constructor
    · intro hnever hlacks
      obtain ⟨name, hmissing⟩ :=
        (applyRow_missing_iff committed fun _ => columnTypes_ne_missing).mpr hlacks
      exact hnever committed name hmissing
    · intro hno tables name hmissing
      exact hno ((applyRow_missing_iff tables fun _ => columnTypes_ne_missing).mp ⟨name, hmissing⟩)
  · intro tables deliveries hdecoded target lacks
    have hready : target.Ready rt := ready_run tables hdecoded
    refine ⟨?_, ?_⟩
    · intro backend message raw reported hkind
      exact ⟨fun hrows name => store_ne_missing hkind hrows,
        fun haccepted row hrow => hready.accepted_rows haccepted hrow⟩
    · intro refresh message later haccepted hkind hnoticed after
      obtain ⟨hfirst, hlater⟩ := List.forall_mem_cons.mp hnoticed
      have hview : columnTypes after.types after.db.tables = targetColumnTypes after.db.tables :=
        ((upToDate_of_schemaEnd haccepted hkind hfirst).deliveries hlater).columnTypes_eq
      refine ⟨hview, fun row hrow => ?_⟩
      rw [show lacks after row = RowLacks rt.cfg (targetColumnTypes after.db.tables) row from
        congrArg (RowLacks rt.cfg · row) hview]
      refine hrow.not_rowLacks ?_
      intro schema hschema column hcolumn hshort
      exact (hasColumn_of_schemaEnd haccepted hkind schema hschema column hcolumn hshort).deliveries

def growing : Runtime Message String Message :=
  .plain { id := "s", tables := [{ schema := "public", name := "a" }], autoAddColumns := true }

def growingSchema (columns : List String) : Option SchemaTable :=
  some { schema := "public", name := "a"
         columns := columns.map fun name => { name := name, type := "text" } }

def grownRow : Row :=
  { schema := "public", table := "a", operation := .insert
    columns := [{ name := "x", value := some "1" }, { name := "y", value := some "2" }] }

def growingDelivery (version : String) (message : Message) (reported : Bool := true) : Delivery Message :=
  .store (fun _ => true) { message with generation := "g", schemaVersion := version }
    { message with generation := "g", schemaVersion := version } reported

def beforeGrowth : List (Delivery Message) :=
  [growingDelivery "v" { kind := .snapshotBegin, seq := 1, tables := [{ schema := "public", name := "a" }] },
    growingDelivery "v" { kind := .schema, seq := 2, schema := growingSchema ["x"] },
    growingDelivery "v" { kind := .snapshotEnd, seq := 3 }, .remember "a",
    growingDelivery "w" { kind := .schema, seq := 4, schema := growingSchema ["x", "y"] }]

def onlyX (name : String) : Option (TargetTable String) :=
  if name = "a" then some { columns := [("x", "text")] } else none

/-- The refresh is noticed, and a transaction writes the added column. -/
theorem added_columns_usable_after_refresh :
    let later := [.remember "a", growingDelivery "w"
      { kind := .transactionRows, transaction := "t", seq := 6, rows := [grownRow] }]
    let refresh := growingDelivery "w" { kind := .schemaEnd, seq := 5 }
    let after := (refresh :: later).foldl (Target.deliver growing)
      (beforeGrowth.foldl (Target.deliver growing) { db := { tables := onlyX } })
    let last : Message :=
      { kind := .transactionEnd, generation := "g", schemaVersion := "w", transaction := "t", seq := 7 }
    ¬ RowLacks growing.cfg (columnTypes after.types after.db.tables) grownRow
      ∧ ∀ name, store growing { types := after.types, backend := fun _ => true } last last after.db
        ≠ .error (.target (.missingColumn name)) := by
  intro later refresh after last
  have hdecoded : ∀ delivery ∈ beforeGrowth ++ refresh :: later, delivery.Decoded growing := by
    simp [beforeGrowth, refresh, later, growingDelivery, Delivery.Decoded, growing, Runtime.plain,
      Codec.plain]
  obtain ⟨-, hruns⟩ := added_columns_usable_iff growing
  obtain ⟨-, hrefresh⟩ := hruns onlyX beforeGrowth
    fun delivery hmem => hdecoded delivery (List.mem_append_left _ hmem)
  obtain ⟨-, hrows⟩ := hrefresh refresh
    { kind := .schemaEnd, generation := "g", schemaVersion := "w", seq := 5 } later (by decide +kernel) rfl
    (by simp [refresh, later, growingDelivery, Delivery.Noticed])
  have hlacks : ¬ RowLacks growing.cfg (columnTypes after.types after.db.tables) grownRow := by
    refine hrows grownRow ?_
    have hstaged : stagedSchemas "g" "w"
        (beforeGrowth.foldl (Target.deliver growing) { db := { tables := onlyX } }).db.schemaStage
          = (growingSchema ["x", "y"]).toList := by decide +kernel
    rw [hstaged]
    intro column hcolumn
    refine ⟨⟨?_, _, List.mem_singleton_self _, rfl, ?_⟩, by simp [growing, Syncer.fileMapping, Runtime.plain]⟩
    · revert column
      decide +kernel
    · revert column
      decide +kernel
  refine ⟨hlacks, ?_⟩
  obtain ⟨hmessages, -⟩ := hruns onlyX _ hdecoded
  rw [List.foldl_append] at hmessages
  refine (hmessages (fun _ => true) last last true (.inr rfl)).1 ?_
  have hwritten : rowsWritten growing last after.db = [grownRow] := by decide +kernel
  intro row hrow
  rw [show row = grownRow from List.mem_singleton.mp (hwritten ▸ hrow)]
  exact hlacks

/-- The commit of the refresh is reported as failed: the cached types stay, and the transaction does not find
the column that the catalog has. -/
example :
    let after := [growingDelivery "w" { kind := .schemaEnd, seq := 5 } false,
      growingDelivery "w" { kind := .schemaEnd, seq := 5 }, growingDelivery "w"
        { kind := .transactionRows, transaction := "t", seq := 6, rows := [grownRow] }].foldl
      (Target.deliver growing) (beforeGrowth.foldl (Target.deliver growing) { db := { tables := onlyX } })
    let last : Message :=
      { kind := .transactionEnd, generation := "g", schemaVersion := "w", transaction := "t", seq := 7 }
    (targetColumnTypes after.db.tables "a").toOption = some [("x", "text"), ("y", "text")]
      ∧ (match store growing { types := after.types, backend := fun _ => true } last last after.db with
        | .error err => some err
        | .ok _ => none) = some (.target (.missingColumn "y")) := by
  decide +kernel

/-- The schema of a snapshot adds column `y`, and the first row that has it is refused. -/
theorem added_column_missing_in_snapshot :
    let deliveries := [growingDelivery "v"
        { kind := .snapshotBegin, seq := 1, tables := [{ schema := "public", name := "a" }] },
      growingDelivery "v" { kind := .schema, seq := 2, schema := growingSchema ["x", "y"] },
      growingDelivery "v" { kind := .snapshotRows, seq := 3, rows := [{ grownRow with operation := .read }] }]
    let loading := deliveries.foldl (Target.deliver growing) { db := { tables := onlyX } }
    let last : Message := { kind := .snapshotEnd, generation := "g", schemaVersion := "v", seq := 4 }
    (activateSnapshot growing last loading.db).isOk
      ∧ (match store growing { types := loading.types, backend := fun _ => true } last last loading.db with
        | .error err => some err
        | .ok _ => none) = some (.target (.missingColumn "y")) := by
  decide +kernel

end GoSync.Server
