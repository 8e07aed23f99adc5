import GoSync.Lib.Assoc
import GoSync.Server.Contents
import Mathlib.Algebra.Order.Group.Multiset
import Mathlib.Data.Multiset.Basic

/-!
# The effect of one row event

What `applyRow` does to a table when the texts of the event stand for the values of a row: an `INSERT`
adds the row, an `UPDATE` overwrites the listed columns of the first row that matches the identity, a
`DELETE` removes that row.
-/

namespace GoSync.Server

variable {Value : Type} {pg : Postgres Value} {cfg : Syncer}

abbrev TargetRow (Value : Type) := List (String × Option Value)

section Texts

def Reads (pg : Postgres Value) (type : String) : Option String → Option Value → Prop
  | none, none => True
  | some text, some value =>
      pg.castText type text = some value ∧ ¬ (type = "bytea" ∧ text.startsWith "0x" = true)
  | _, _ => False

/-- A column of an event stands for the value that a row has in it. -/
structure Denotes (pg : Postgres Value) (types : List (String × String)) (row : TargetRow Value)
    (column : Column) : Prop where
  plain : column.encoding ≠ "base64"
  value : ∃ type value, types.lookup column.name = some type ∧ row.lookup column.name = some value
    ∧ Reads pg type column.value value

variable {types : List (String × String)} {row : TargetRow Value} {columns : List Column}

theorem transform_plain (event : Row) (h : ∀ column ∈ columns, column.encoding ≠ "base64") :
    transform cfg event columns
      = .ok (columns.map fun column => { name := column.name, value := .text column.value }) := by
  induction columns with
  | nil => rfl
  | cons column columns ih =>
      obtain ⟨hplain, hrest⟩ := List.forall_mem_cons.mp h
      have hcolumn : appliedColumns cfg event column
          = .ok [{ name := column.name, value := .text column.value }] := by
        unfold appliedColumns
        split
        · rfl
        · rw [if_neg hplain]
      rw [transform, hcolumn, ih hrest]
      rfl

structure Gives (pg : Postgres Value) (types : List (String × String)) (row : TargetRow Value)
    (column : Column) : Prop where
  plain : column.encoding ≠ "base64"
  value : ∃ type value arg, types.lookup column.name = some type ∧ row.lookup column.name = some value
    ∧ argument type { name := column.name, value := .text column.value } = .ok arg
    ∧ Server.cast pg type arg = .ok value

theorem Denotes.gives {column : Column} (h : Denotes pg types row column) : Gives pg types row column := by
  refine ⟨h.plain, ?_⟩
  obtain ⟨type, value, htype, hvalue, hreads⟩ := h.value
  cases htext : column.value with
  | none =>
      cases value with
      | none => exact ⟨type, none, .text none, htype, hvalue, rfl, rfl⟩
      | some value => simp [htext, Reads] at hreads
  | some text =>
      cases value with
      | none => simp [htext, Reads] at hreads
      | some value =>
          rw [htext] at hreads
          refine ⟨type, some value, .text (some text), htype, hvalue, ?_, ?_⟩
          · simp only [argument, Bool.false_eq_true, if_false, if_neg hreads.2]
          · simp only [Server.cast, hreads.1]

theorem evaluate_of_gives (h : ∀ column ∈ columns, Gives pg types row column) :
    ∃ placeholders values,
      expressions types (columns.map fun column => { name := column.name, value := .text column.value })
          = .ok placeholders
        ∧ evaluate pg placeholders = .ok values
        ∧ values.map Expression.name = columns.map Column.name
        ∧ ∀ value ∈ values, row.lookup value.name = some value.value
          ∧ types.lookup value.name = some value.type := by
  induction columns with
  | nil => exact ⟨[], [], rfl, rfl, rfl, List.forall_mem_nil _⟩
  | cons column columns ih =>
      obtain ⟨hcolumn, hrest⟩ := List.forall_mem_cons.mp h
      obtain ⟨placeholders, values, hplaceholders, hvalues, hnames, hlookup⟩ := ih hrest
      obtain ⟨type, value, arg, htype, hvalue, hargument, hcast⟩ := hcolumn.value
      have hexpression : expression types { name := column.name, value := .text column.value }
          = .ok { name := column.name, type := type, arg := arg } := by
        simp only [expression, htype, hargument, Except.ok_bind]
      refine ⟨{ name := column.name, type := type, arg := arg } :: placeholders,
        { name := column.name, type := type, value := value } :: values, ?_, ?_, ?_, ?_⟩
      · rw [expressions, List.map_cons, List.mapM_cons]
        exact Except.bind_eq_ok.mpr ⟨_, hexpression, Except.bind_eq_ok.mpr ⟨placeholders, hplaceholders, rfl⟩⟩
      · rw [evaluate, List.mapM_cons]
        refine Except.bind_eq_ok.mpr ⟨_, Except.bind_eq_ok.mpr ⟨value, hcast, rfl⟩, ?_⟩
        exact Except.bind_eq_ok.mpr ⟨values, hvalues, rfl⟩
      · rw [List.map_cons, List.map_cons, hnames]
      · exact List.forall_mem_cons.mpr ⟨⟨hvalue, htype⟩, hlookup⟩

end Texts

variable {names : List String} {keys : List (Expression Value)}

section Matching

def Matches (pg : Postgres Value) (names : List String) (wanted row : TargetRow Value) : Prop :=
  ∀ name ∈ names, ∃ value found, wanted.lookup name = some value ∧ row.lookup name = some found
    ∧ notDistinct pg value found = true

theorem notDistinct_self (hsame : ∀ value, pg.same value value = true) (value : Option Value) :
    notDistinct pg value value = true := by
  cases value with
  | none => rfl
  | some value => exact hsame value

theorem matches_self {row : TargetRow Value}
    (hsame : ∀ value, pg.same value value = true) (hrow : ∀ name ∈ names, (row.lookup name).isSome) :
    Matches pg names row row := by
  intro name hname
  obtain ⟨value, hvalue⟩ := Option.isSome_iff_exists.mp (hrow name hname)
  exact ⟨value, value, hvalue, hvalue, notDistinct_self hsame value⟩

theorem matchesRow_iff {wanted row : TargetRow Value} (hnames : keys.map Expression.name = names)
    (hkeys : ∀ key ∈ keys, wanted.lookup key.name = some key.value) :
    matchesRow pg keys row = true ↔ Matches pg names wanted row := by
  subst hnames
  rw [matchesRow, List.all_eq_true]
  constructor
  · intro h name hname
    obtain ⟨key, hkey, rfl⟩ := List.mem_map.mp hname
    have hmatch := h key hkey
    cases hfound : row.lookup key.name with
    | none => simp [hfound] at hmatch
    | some found =>
        rw [hfound] at hmatch
        exact ⟨key.value, found, hkeys key hkey, rfl, hmatch⟩
  · intro h key hkey
    obtain ⟨value, found, hvalue, hfound, hsame⟩ := h key.name (List.mem_map_of_mem hkey)
    cases (hkeys key hkey).symm.trans hvalue
    rw [hfound]
    exact hsame

theorem changeFirst_eq_some {α : Type} {pick : α → Bool} {change : α → Option α}
    {rows rows' : List α} (h : changeFirst pick change rows = some rows') :
    ∃ front row back, rows = front ++ row :: back ∧ rows.find? pick = some row
      ∧ rows' = front ++ ((change row).toList ++ back) := by
  induction rows generalizing rows' with
  | nil => cases h
  | cons first rows ih =>
      rw [changeFirst] at h
      split_ifs at h with hpick
      · cases h
        exact ⟨[], first, rows, rfl, List.find?_cons_of_pos hpick, rfl⟩
      · obtain ⟨rest, hrest, rfl⟩ := Option.map_eq_some_iff.mp h
        obtain ⟨front, row, back, rfl, hrow, rfl⟩ := ih hrest
        refine ⟨first :: front, row, back, rfl, ?_, rfl⟩
        rw [List.find?_cons_of_neg (by simpa using hpick), hrow]

theorem changeFirst_isSome {α : Type} {pick : α → Bool} {change : α → Option α} {rows : List α}
    {row : α} (hrow : row ∈ rows) (hpick : pick row = true) :
    ∃ rows', changeFirst pick change rows = some rows' := by
  induction rows with
  | nil => cases hrow
  | cons first rows ih =>
      rw [changeFirst]
      by_cases hfirst : pick first = true
      · exact ⟨_, if_pos hfirst⟩
      · rw [if_neg hfirst]
        rcases List.mem_cons.mp hrow with rfl | hrow
        · exact absurd hpick hfirst
        · obtain ⟨rest, hrest⟩ := ih hrow
          exact ⟨first :: rest, by rw [hrest]; rfl⟩

/-- The rows of a table have no order, so a change of the first row that is picked has one outcome
only if every row that may be picked gives it. -/
theorem changeFirst_listings_iff {α : Type} [DecidableEq α] {pick : α → Bool} {change : α → Option α}
    {contents after : Multiset α} :
    (∀ rows : List α, (rows : Multiset α) = contents →
        ∃ rows', changeFirst pick change rows = some rows' ∧ (rows' : Multiset α) = after)
      ↔ (∃ row ∈ contents, pick row = true)
        ∧ ∀ row ∈ contents, pick row = true →
          ((change row).toList : Multiset α) + contents.erase row = after := by
  constructor
  · intro h
    refine ⟨?_, ?_⟩
    · obtain ⟨rows', hrows', -⟩ := h contents.toList (Multiset.coe_toList contents)
      obtain ⟨front, row, back, hsplit, hfind, -⟩ := changeFirst_eq_some hrows'
      have hpick := List.find?_some hfind
      refine ⟨row, ?_, hpick⟩
      rw [← Multiset.mem_toList, hsplit]
      exact List.mem_append_right _ List.mem_cons_self
    · intro row hrow hpick
      have hlisting : ((row :: (contents.erase row).toList : List α) : Multiset α) = contents := by
        rw [← Multiset.cons_coe, Multiset.coe_toList, Multiset.cons_erase hrow]
      obtain ⟨rows', hrows', hafter⟩ := h _ hlisting
      rw [changeFirst, if_pos hpick, Option.some.injEq] at hrows'
      rw [← hafter, ← hrows', ← Multiset.coe_add, Multiset.coe_toList]
  · rintro ⟨⟨row, hrow, hpick⟩, hall⟩ rows rfl
    obtain ⟨rows', hrows'⟩ : ∃ rows', changeFirst pick change rows = some rows' :=
      changeFirst_isSome (Multiset.mem_coe.mp hrow) hpick
    refine ⟨rows', hrows', ?_⟩
    obtain ⟨front, first, back, rfl, hfind, rfl⟩ := changeFirst_eq_some hrows'
    have hfirst := List.find?_some hfind
    rw [← hall first (by simp) hfirst, ← Multiset.coe_add, ← Multiset.coe_add, ← Multiset.coe_add,
      ← Multiset.cons_coe, Multiset.add_cons, Multiset.erase_cons_head, add_left_comm]

def patch (names : List String) (new row : TargetRow Value) : TargetRow Value :=
  row.map fun cell => if cell.1 ∈ names then (cell.1, (new.lookup cell.1).getD cell.2) else cell

theorem assign_eq_patch {values : List (Expression Value)}
    {new row : TargetRow Value} (hnames : values.map Expression.name = names)
    (hvalues : ∀ value ∈ values, new.lookup value.name = some value.value) :
    assign values row = patch names new row := by
  subst hnames
  apply List.map_congr_left
  intro cell _
  split
  · rename_i value hvalue
    have hname : value.name = cell.1 := by simpa using List.find?_some hvalue
    have hmem := List.mem_of_find?_eq_some hvalue
    rw [if_pos (hname ▸ List.mem_map_of_mem hmem), ← hname, hvalues value hmem]
    rfl
  · rename_i hnone
    rw [if_neg]
    intro hmem
    obtain ⟨value, hvalue, hname⟩ := List.mem_map.mp hmem
    simpa [hname] using List.find?_eq_none.mp hnone value hvalue

theorem eq_of_lookup {row row' : TargetRow Value} (hnames : row.map Prod.fst = row'.map Prod.fst)
    (hnodup : (row'.map Prod.fst).Nodup) (h : ∀ cell ∈ row, row'.lookup cell.1 = some cell.2) :
    row = row' := by
  induction row generalizing row' with
  | nil => exact (List.map_eq_nil_iff.mp hnames.symm).symm
  | cons cell row ih =>
      cases row' with
      | nil => cases hnames
      | cons cell' row' =>
          rw [List.map_cons, List.map_cons, List.cons.injEq] at hnames
          rw [List.map_cons, List.nodup_cons] at hnodup
          obtain ⟨hfirst, hrest⟩ := List.forall_mem_cons.mp h
          rw [hnames.1, List.lookup_cons_self, Option.some.injEq] at hfirst
          have hsame : cell = cell' := Prod.ext hnames.1 hfirst.symm
          rw [hsame, ih hnames.2 hnodup.2]
          intro other hother
          have hne : other.1 ≠ cell'.1 := fun heq =>
            hnodup.1 (hnames.2 ▸ heq ▸ List.mem_map_of_mem hother)
          have hlookup := hrest other hother
          rwa [List.lookup_cons, beq_eq_false_iff_ne.mpr hne] at hlookup

theorem patch_names (names : List String) (new row : TargetRow Value) :
    (patch names new row).map Prod.fst = row.map Prod.fst := by
  rw [patch, List.map_map]
  apply List.map_congr_left
  intro cell _
  dsimp only [Function.comp_apply]
  split <;> rfl

theorem patch_eq {old new : TargetRow Value}
    (hnames : old.map Prod.fst = new.map Prod.fst) (hnodup : (new.map Prod.fst).Nodup)
    (hkept : ∀ name, name ∉ names → new.lookup name = old.lookup name) : patch names new old = new := by
  refine eq_of_lookup ((patch_names names new old).trans hnames) hnodup ?_
  intro patched hpatched
  obtain ⟨cell, hcell, rfl⟩ := List.mem_map.mp hpatched
  split
  · obtain ⟨value, hvalue⟩ := Option.isSome_iff_exists.mp
      (Assoc.lookup_isSome_iff.mpr (hnames ▸ List.mem_map_of_mem hcell : cell.1 ∈ new.map Prod.fst))
    rw [hvalue]
    rfl
  · rename_i hleft
    rw [hkept cell.1 hleft, Assoc.lookup_of_mem (hnames ▸ hnodup) hcell]

theorem patch_eq_self_iff {new row : TargetRow Value}
    (hnodup : (row.map Prod.fst).Nodup) (hnames : new.map Prod.fst = row.map Prod.fst)
    (hlisted : ∀ name ∈ names, name ∈ row.map Prod.fst) :
    patch names new row = row ↔ ∀ name ∈ names, row.lookup name = new.lookup name := by
  constructor
  · intro h name hname
    obtain ⟨cell, hcell, rfl⟩ := List.mem_map.mp (hlisted name hname)
    have hkept := List.map_eq_map_iff.mp (h.trans (List.map_id row).symm) cell hcell
    obtain ⟨value, hvalue⟩ := Option.isSome_iff_exists.mp
      (Assoc.lookup_isSome_iff.mpr (hnames ▸ List.mem_map_of_mem hcell : cell.1 ∈ new.map Prod.fst))
    rw [if_pos hname, hvalue] at hkept
    rw [Assoc.lookup_of_mem hnodup hcell, hvalue]
    exact congrArg (some ·.2) hkept.symm
  · intro h
    refine (List.map_congr_left ?_).trans (List.map_id row)
    intro cell hcell
    by_cases hname : cell.1 ∈ names
    · rw [if_pos hname, ← h cell.1 hname, Assoc.lookup_of_mem hnodup hcell]
      rfl
    · rw [if_neg hname]
      rfl

end Matching

section Effects

variable {event : Row} {tables : Tables Value} {table : TargetTable Value} {old new : TargetRow Value}
  {pick : TargetRow Value → Bool}

def Comparable (pg : Postgres Value) (types : List (String × String)) (names : List String) : Prop :=
  ∀ name ∈ names, ∀ type, types.lookup name = some type → pg.comparable type = true

variable {name : String}

theorem targetColumnTypes_eq (htable : tables name = some table)
    (hcolumns : table.columns ≠ []) : targetColumnTypes tables name = .ok table.columns := by
  unfold targetColumnTypes
  rw [htable]
  dsimp only
  rw [if_neg hcolumns]

theorem comparable_iff {types : List (String × String)} (hnames : keys.map Expression.name = names)
    (htypes : ∀ key ∈ keys, types.lookup key.name = some key.type) :
    (keys.all fun key => pg.comparable key.type) = true ↔ Comparable pg types names := by
  subst hnames
  rw [List.all_eq_true]
  constructor
  · intro h name hname type htype
    obtain ⟨key, hkey, rfl⟩ := List.mem_map.mp hname
    cases (htypes key hkey).symm.trans htype
    exact h key hkey
  · intro h key hkey
    exact h key.name (List.mem_map_of_mem hkey) key.type (htypes key hkey)

variable {next : Tables Value}

theorem changeRow_eq_ok_iff
    {change : TargetRow Value → Option (TargetRow Value)} {mismatch : TargetError}
    (htable : tables name = some table) (hnames : keys.map Expression.name = names)
    (htypes : ∀ key ∈ keys, table.columns.lookup key.name = some key.type) :
    changeRow pg tables name keys change mismatch = .ok next
      ↔ Comparable pg table.columns names ∧ ∃ rows,
        changeFirst (matchesRow pg keys) change table.rows = some rows
          ∧ replaceTable pg tables name { table with rows := rows } = .ok next := by
  unfold changeRow
  rw [htable]
  dsimp only
  rw [← comparable_iff hnames htypes]
  by_cases hcomparable : (keys.all fun key => pg.comparable key.type) = true
  · rw [if_neg (not_not.mpr hcomparable)]
    simp only [hcomparable, true_and]
    cases changeFirst (matchesRow pg keys) change table.rows with
    | none => simp
    | some rows => simp
  · rw [if_pos hcomparable]
    simp [hcomparable]

theorem insertRow_eq {values : List (Expression Value)}
    (htable : tables name = some table) (hnodup : (values.map Expression.name).Nodup)
    (hnew : new.map Prod.fst = table.columns.map Prod.fst)
    (hdistinct : (table.columns.map Prod.fst).Nodup)
    (hvalues : ∀ value ∈ values, new.lookup value.name = some value.value)
    (hcomplete : ∀ column ∈ table.columns, column.1 ∈ values.map Expression.name) :
    insertRow pg tables name values
      = replaceTable pg tables name { table with rows := table.rows ++ [new] } := by
  unfold insertRow
  rw [htable]
  dsimp only
  rw [if_neg (not_not.mpr hnodup)]
  congr 4
  apply eq_of_lookup
  · rw [hnew, List.map_map]
    apply List.map_congr_left
    intro column _
    dsimp only [Function.comp_apply]
    split <;> rfl
  · rwa [hnew]
  · intro cell hcell
    obtain ⟨column, hcolumn, rfl⟩ := List.mem_map.mp hcell
    split
    · rename_i value hfound
      have hname : value.name = column.1 := by simpa using List.find?_some hfound
      rw [← hname]
      exact hvalues value (List.mem_of_find?_eq_some hfound)
    · rename_i hnone
      obtain ⟨value, hvalue, hname⟩ := List.mem_map.mp (hcomplete column hcolumn)
      exact absurd hname (by simpa using List.find?_eq_none.mp hnone value hvalue)

/-- An insert appends its row. -/
theorem applyRow_insert_eq (hoperation : event.operation = .insert)
    (hallowed : cfg.allows event.schema event.table = true) (htable : tables event.table = some table)
    (hexists : table.columns ≠ []) (hdistinct : (table.columns.map Prod.fst).Nodup)
    (hnew : new.map Prod.fst = table.columns.map Prod.fst)
    (hcolumns : ∀ column ∈ event.columns, Gives pg table.columns new column)
    (hnodup : (event.columns.map Column.name).Nodup)
    (hcomplete : ∀ column ∈ table.columns, column.1 ∈ event.columns.map Column.name)
    (hkey : ∀ column ∈ event.key, column.encoding ≠ "base64") :
    applyRow pg cfg (targetColumnTypes tables) event tables
      = replaceTable pg tables event.table { table with rows := table.rows ++ [new] } := by
  have hplain : ∀ column ∈ event.columns, column.encoding ≠ "base64" :=
    fun column hmem => (hcolumns column hmem).plain
  obtain ⟨placeholders, values, hplaceholders, hvalues, hnames, hlookup⟩ :=
    evaluate_of_gives hcolumns
  have hwritten : event.columns ≠ [] := by
    obtain ⟨column, rest, hcons⟩ := List.exists_cons_of_ne_nil hexists
    intro hempty
    have hmem := hcomplete column (by simp [hcons])
    simp [hempty] at hmem
  simp only [applyRow, statement, Sql.command, keySource, Sql.Command.evaluated, hallowed,
    not_true_eq_false, if_false,
    targetColumnTypes_eq htable hexists, Except.ok_bind, transform_plain event hplain, hoperation, reduceCtorEq,
    false_and, transform_plain event hkey, List.map_eq_nil_iff, hwritten, hplaceholders, hvalues]
  exact insertRow_eq htable (hnames ▸ hnodup) hnew hdistinct (fun value hmem => (hlookup value hmem).1)
    (by rwa [hnames])

/-- An update patches the first row that matches its old key. -/
theorem applyRow_update_eq_ok_iff (hoperation : event.operation = .update)
    (hallowed : cfg.allows event.schema event.table = true) (htable : tables event.table = some table)
    (hexists : table.columns ≠ [])
    (hcolumns : ∀ column ∈ event.columns, Gives pg table.columns new column)
    (hnodup : (event.columns.map Column.name).Nodup) (hkeyed : event.oldKey ≠ [])
    (hkey : ∀ column ∈ event.oldKey, Gives pg table.columns old column)
    (hpick : ∀ row, pick row = true ↔ Matches pg (event.oldKey.map Column.name) old row) :
    applyRow pg cfg (targetColumnTypes tables) event tables = .ok next
      ↔ (event.columns ≠ [] ∧ Comparable pg table.columns (event.oldKey.map Column.name))
        ∧ ∃ rows, changeFirst pick
            (fun row => some (patch (event.columns.map Column.name) new row)) table.rows = some rows
          ∧ replaceTable pg tables event.table { table with rows := rows } = .ok next := by
  have hplain : ∀ column ∈ event.columns, column.encoding ≠ "base64" :=
    fun column hmem => (hcolumns column hmem).plain
  have hkeyPlain : ∀ column ∈ event.oldKey, column.encoding ≠ "base64" :=
    fun column hmem => (hkey column hmem).plain
  obtain ⟨assignments, values, hassignments, hvalues, hnames, hlookup⟩ := evaluate_of_gives hcolumns
  obtain ⟨conditions, keys, hconditions, hkeys, hkeyNames, hkeyLookup⟩ := evaluate_of_gives hkey
  have hmatches : matchesRow pg keys = pick := by
    funext row
    rw [Bool.eq_iff_iff, hpick row]
    exact matchesRow_iff hkeyNames fun key hmem => (hkeyLookup key hmem).1
  have hassign : (fun row => some (assign values row))
      = fun row => some (patch (event.columns.map Column.name) new row) := by
    funext row
    rw [assign_eq_patch hnames fun value hmem => (hlookup value hmem).1]
  have happly : applyRow pg cfg (targetColumnTypes tables) event tables
      = if event.columns = [] then .error .updateIncomplete
        else changeRow pg tables event.table keys
          (fun row => some (patch (event.columns.map Column.name) new row)) .updateMismatch := by
    rw [← hassign]
    simp only [applyRow, statement, Sql.command, keySource, hallowed, not_true_eq_false, if_false,
      targetColumnTypes_eq htable hexists, Except.ok_bind, transform_plain event hplain, hoperation, ne_eq,
      hkeyed, not_false_eq_true, and_self, if_true, transform_plain event hkeyPlain, List.map_eq_nil_iff,
      or_false, hassignments, hconditions]
    split_ifs
    · rfl
    · simp only [Except.ok_bind, Sql.Command.evaluated, hvalues, hkeys, hnames, hnodup, not_true_eq_false, if_false,
        Statement.execute]
  rw [happly]
  by_cases hwritten : event.columns = []
  · simp [hwritten]
  · rw [if_neg hwritten, changeRow_eq_ok_iff htable hkeyNames fun key hmem => (hkeyLookup key hmem).2,
      hmatches]
    simp [hwritten]

/-- A delete removes the first row that matches its key. -/
theorem applyRow_delete_eq_ok_iff (hoperation : event.operation = .delete)
    (hallowed : cfg.allows event.schema event.table = true) (htable : tables event.table = some table)
    (hexists : table.columns ≠ []) (hcolumns : event.columns = []) (hkeyed : event.key ≠ [])
    (hkey : ∀ column ∈ event.key, Gives pg table.columns old column)
    (hpick : ∀ row, pick row = true ↔ Matches pg (event.key.map Column.name) old row) :
    applyRow pg cfg (targetColumnTypes tables) event tables = .ok next
      ↔ Comparable pg table.columns (event.key.map Column.name)
        ∧ ∃ rows, changeFirst pick (fun _ => none) table.rows = some rows
          ∧ replaceTable pg tables event.table { table with rows := rows } = .ok next := by
  have hkeyPlain : ∀ column ∈ event.key, column.encoding ≠ "base64" :=
    fun column hmem => (hkey column hmem).plain
  obtain ⟨conditions, keys, hconditions, hkeys, hkeyNames, hkeyLookup⟩ := evaluate_of_gives hkey
  have hmatches : matchesRow pg keys = pick := by
    funext row
    rw [Bool.eq_iff_iff, hpick row]
    exact matchesRow_iff hkeyNames fun key hmem => (hkeyLookup key hmem).1
  have happly : applyRow pg cfg (targetColumnTypes tables) event tables
      = changeRow pg tables event.table keys (fun _ => none) .deleteMismatch := by
    simp only [applyRow, statement, Sql.command, keySource, Sql.Command.evaluated, hallowed, not_true_eq_false,
      if_false, targetColumnTypes_eq htable hexists, Except.ok_bind, hcolumns, transform, hoperation,
      reduceCtorEq, false_and, transform_plain event hkeyPlain, List.map_eq_nil_iff, hkeyed, hconditions, hkeys,
      Statement.execute]
  rw [happly, changeRow_eq_ok_iff htable hkeyNames fun key hmem => (hkeyLookup key hmem).2, hmatches]

end Effects

end GoSync.Server
