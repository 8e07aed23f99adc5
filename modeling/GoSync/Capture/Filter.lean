import GoSync.Event
import GoSync.Lib.Quoting
import Mathlib.Data.List.TakeWhile

/-!
# The table filter of the replication slot

`pluginArgs` names the configured tables in the option `add-tables` of wal2json: each name is escaped,
the names are joined, and the whole is quoted as a literal. The replication command reads the literal, and
wal2json splits its value at commas and dots; a backslash makes the next character an ordinary one, and a
`*` without one stands for any name.
-/

namespace GoSync.Capture

def apostrophe : Char :=
  Char.ofNat 39

def isSpecial (c : Char) : Bool :=
  " \\.,*'\t\n\r".toList.contains c

def filterName (name : String) : List Char :=
  name.toList.flatMap fun c => if isSpecial c then ['\\', c] else [c]

def tablesFilter (tables : List TableRef) : List Char :=
  [','].intercalate (tables.map fun table => filterName table.schema ++ '.' :: filterName table.name)

def pluginArgs (tables : List TableRef) : List String :=
  ["\"format-version\" '2'", "\"include-transaction\" 'true'", "\"include-lsn\" 'true'",
    "\"include-xids\" 'true'", "\"include-types\" 'true'", "\"include-type-oids\" 'true'",
    "\"numeric-data-types-as-string\" 'true'",
    String.ofList ("\"add-tables\" ".toList ++ Quoting.enclose apostrophe (tablesFilter tables))]

section Parsing

def parseOption (text : String) : Option (String × List Char) :=
  match text.toList with
  | [] => none
  | first :: rest =>
      if first ≠ '"' then
        none
      else
        match Quoting.readQuoted '"' rest with
        | some (name, blank :: opening :: rest) =>
            if blank ≠ ' ' ∨ opening ≠ apostrophe then
              none
            else
              match Quoting.readQuoted apostrophe rest with
              | some (value, []) => some (String.ofList name, value)
              | _ => none
        | _ => none

inductive Selector where
  | any
  | named (name : String)
  deriving DecidableEq, Repr

structure SelectTable where
  schema : Selector
  table : Selector
  deriving DecidableEq, Repr

def marked : List Char → Option (List (Char × Bool))
  | [] => some []
  | [c] => if c = '\\' then none else some [(c, false)]
  | c :: d :: rest =>
      if c = '\\' then (marked rest).map ((d, true) :: ·) else (marked (d :: rest)).map ((c, false) :: ·)

def selector (part : List (Char × Bool)) : Option Selector :=
  if part = [] then none
  else if ('*', false) ∈ part then some .any
  else some (.named (String.ofList (part.map Prod.fst)))

def selectTable (entry : List (Char × Bool)) : Option SelectTable :=
  match entry.splitOn ('.', false) with
  | [schema, table] => do
      let schema ← selector schema
      let table ← selector table
      some ⟨schema, table⟩
  | _ => none

def selectTables (value : List Char) : Option (List SelectTable) := do
  let chars ← marked (value.takeWhile fun c => c ≠ '\x00')
  (chars.splitOn (',', false)).mapM selectTable

end Parsing

section RoundTrip

def markedName (name : String) : List (Char × Bool) :=
  name.toList.map fun c => (c, isSpecial c)

theorem marked_cons {c : Char} (hc : c ≠ '\\') (rest : List Char) :
    marked (c :: rest) = (marked rest).map ((c, false) :: ·) := by
  cases rest with
  | nil => simp [marked, hc]
  | cons d rest => simp [marked, hc]

theorem marked_filterName (name : String) (rest : List Char) :
    marked (filterName name ++ rest) = (marked rest).map (markedName name ++ ·) := by
  unfold filterName markedName
  induction name.toList with
  | nil => simp
  | cons c chars ih =>
      rw [List.flatMap_cons, List.append_assoc, List.map_cons]
      by_cases hspecial : isSpecial c = true
      · rw [if_pos hspecial, List.cons_append, List.singleton_append, marked, if_pos rfl, ih, hspecial,
          Option.map_map]
        rfl
      · have hne : c ≠ '\\' := by
          rintro rfl
          exact hspecial (by decide)
        rw [Bool.not_eq_true] at hspecial
        rw [hspecial, if_neg Bool.false_ne_true, List.singleton_append, marked_cons hne, ih, Option.map_map]
        rfl

theorem not_mem_markedName {c : Char} (hc : isSpecial c = true) (name : String) :
    (c, false) ∉ markedName name := by
  intro hmem
  obtain ⟨other, -, hother⟩ := List.mem_map.mp hmem
  obtain ⟨rfl, hplain⟩ := Prod.mk.inj hother
  rw [hc] at hplain
  cases hplain

def markedTable (table : TableRef) : List (Char × Bool) :=
  markedName table.schema ++ ('.', false) :: markedName table.name

theorem tablesFilter_cons (table next : TableRef) (tables : List TableRef) :
    tablesFilter (table :: next :: tables)
      = filterName table.schema ++ '.' :: filterName table.name ++ ',' :: tablesFilter (next :: tables) := by
  simp [tablesFilter, List.intercalate]

theorem tablesFilter_singleton (table : TableRef) :
    tablesFilter [table] = filterName table.schema ++ '.' :: filterName table.name := by
  simp [tablesFilter, List.intercalate]

variable {tables : List TableRef}

theorem marked_tablesFilter (hne : tables ≠ []) :
    marked (tablesFilter tables) = some ([(',', false)].intercalate (tables.map markedTable)) := by
  have htable (table : TableRef) (rest : List Char) :
      marked (filterName table.schema ++ '.' :: filterName table.name ++ rest)
        = (marked rest).map (markedTable table ++ ·) := by
    rw [List.append_assoc, marked_filterName, List.cons_append, marked_cons (by decide),
      marked_filterName, Option.map_map, Option.map_map]
    congr 1
    funext chars
    simp [markedTable]
  induction tables with
  | nil => exact absurd rfl hne
  | cons table tables ih =>
      cases tables with
      | nil =>
          have hlast := htable table []
          rw [List.append_nil] at hlast
          rw [tablesFilter_singleton, hlast]
          simp [marked, List.intercalate]
      | cons next tables =>
          rw [tablesFilter_cons, htable, marked_cons (by decide), ih (List.cons_ne_nil _ _)]
          simp [List.intercalate]

theorem selector_markedName {name : String} (hname : name ≠ "") :
    selector (markedName name) = some (.named name) := by
  have hchars : markedName name ≠ [] := by
    simpa [markedName] using hname
  rw [selector, if_neg hchars, if_neg (not_mem_markedName (by decide) name), markedName, List.map_map]
  congr 2
  exact (congrArg String.ofList (List.map_id name.toList)).trans String.ofList_toList

theorem selectTable_markedTable {table : TableRef} (hschema : table.schema ≠ "") (hname : table.name ≠ "") :
    selectTable (markedTable table) = some ⟨.named table.schema, .named table.name⟩ := by
  have hsplit : (markedTable table).splitOn ('.', false)
      = [markedName table.schema, markedName table.name] := by
    have hjoin : markedTable table
        = [('.', false)].intercalate [markedName table.schema, markedName table.name] := by
      simp [markedTable, List.intercalate]
    rw [hjoin]
    apply List.splitOn_intercalate
    · intro part hpart
      rcases List.mem_pair.mp hpart with rfl | rfl <;> exact not_mem_markedName (by decide) _
    · exact List.cons_ne_nil _ _
  rw [selectTable, hsplit]
  simp only [selector_markedName hschema, selector_markedName hname, Option.bind_eq_bind, Option.bind_some]

def IsName (name : String) : Prop :=
  name ≠ "" ∧ '\x00' ∉ name.toList

theorem not_mem_filterName {name : String} (hname : '\x00' ∉ name.toList) : '\x00' ∉ filterName name := by
  intro hmem
  obtain ⟨c, hc, hmem⟩ := List.mem_flatMap.mp hmem
  have hzero : '\x00' = c := by
    split_ifs at hmem
    · exact (List.mem_pair.mp hmem).resolve_left (by decide)
    · exact List.mem_singleton.mp hmem
  exact hname (hzero ▸ hc)

theorem not_mem_tablesFilter (hnames : ∀ table ∈ tables, IsName table.schema ∧ IsName table.name) :
    '\x00' ∉ tablesFilter tables := by
  have hdot : '\x00' ≠ '.' := by decide
  have hcomma : '\x00' ≠ ',' := by decide
  have hentry (table : TableRef) (htable : table ∈ tables) :
      '\x00' ∉ filterName table.schema ++ '.' :: filterName table.name := by
    obtain ⟨hschema, hname⟩ := hnames table htable
    simp only [List.mem_append, List.mem_cons, hdot, false_or, not_or]
    exact ⟨not_mem_filterName hschema.2, not_mem_filterName hname.2⟩
  clear hnames
  induction tables with
  | nil => simp [tablesFilter, List.intercalate]
  | cons table tables ih =>
      obtain ⟨hfirst, hrest⟩ := List.forall_mem_cons.mp hentry
      cases tables with
      | nil =>
          rw [tablesFilter_singleton]
          exact hfirst
      | cons next tables =>
          rw [tablesFilter_cons, List.mem_append, List.mem_cons, not_or, not_or]
          exact ⟨hfirst, hcomma, ih hrest⟩

theorem mapM_selectTable (hnames : ∀ table ∈ tables, IsName table.schema ∧ IsName table.name) :
    (tables.map markedTable).mapM selectTable
      = some (tables.map fun table => ⟨.named table.schema, .named table.name⟩) := by
  induction tables with
  | nil => rfl
  | cons table tables ih =>
      obtain ⟨⟨hschema, hname⟩, hrest⟩ := List.forall_mem_cons.mp hnames
      rw [List.map_cons, List.mapM_cons, selectTable_markedTable hschema.1 hname.1, ih hrest]
      rfl

/-- The filter selects the configured tables and no others. -/
theorem selectTables_tablesFilter (hne : tables ≠ [])
    (hnames : ∀ table ∈ tables, IsName table.schema ∧ IsName table.name) :
    selectTables (tablesFilter tables)
      = some (tables.map fun table => ⟨.named table.schema, .named table.name⟩) := by
  have hwhole : (tablesFilter tables).takeWhile (fun c => c ≠ '\x00') = tablesFilter tables := by
    apply List.takeWhile_eq_self_iff.mpr
    intro c hc
    exact decide_eq_true fun hzero => not_mem_tablesFilter hnames (hzero ▸ hc)
  have hsplit : ([(',', false)].intercalate (tables.map markedTable)).splitOn (',', false)
      = tables.map markedTable := by
    apply List.splitOn_intercalate
    · intro entry hentry
      obtain ⟨table, -, rfl⟩ := List.mem_map.mp hentry
      rw [markedTable, List.mem_append, List.mem_cons]
      rintro (hmem | hdot | hmem)
      · exact not_mem_markedName (by decide) _ hmem
      · exact absurd hdot (by decide)
      · exact not_mem_markedName (by decide) _ hmem
    · simpa using hne
  rw [selectTables, hwhole, marked_tablesFilter hne]
  change (([(',', false)].intercalate (tables.map markedTable)).splitOn (',', false)).mapM selectTable = _
  rw [hsplit, mapM_selectTable hnames]

theorem parseOption_enclosed (name value : List Char) :
    parseOption (String.ofList (Quoting.enclose '"' name ++ ' ' :: Quoting.enclose apostrophe value))
      = some (String.ofList name, value) := by
  have hname : Quoting.readQuoted '"' (Quoting.double '"' name ++ '"' :: ' ' :: Quoting.enclose apostrophe value)
      = some (name, ' ' :: Quoting.enclose apostrophe value) :=
    Quoting.readQuoted_double name (by simp)
  have hvalue : Quoting.readQuoted apostrophe (Quoting.double apostrophe value ++ [apostrophe])
      = some (value, []) := Quoting.readQuoted_double value (by simp)
  have htext : (String.ofList (Quoting.enclose '"' name ++ ' ' :: Quoting.enclose apostrophe value)).toList
      = '"' :: (Quoting.double '"' name ++ '"' :: ' ' :: Quoting.enclose apostrophe value) := by
    rw [String.toList_ofList, Quoting.enclose]
    simp
  rw [parseOption, htext]
  dsimp only
  rw [if_neg (not_not.mpr rfl), hname, Quoting.enclose, List.cons_append]
  dsimp only
  rw [if_neg (by simp), hvalue]

/-- **The filter selects the configured tables.** -/
theorem pluginArgs_selects (tables : List TableRef) (hne : tables ≠ [])
    (hnames : ∀ table ∈ tables, IsName table.schema ∧ IsName table.name) :
    ∃ options value, (pluginArgs tables).mapM parseOption = some options
      ∧ options.lookup "add-tables" = some value
      ∧ selectTables value
        = some (tables.map fun table => ⟨.named table.schema, .named table.name⟩) := by
  refine ⟨[("format-version", "2".toList), ("include-transaction", "true".toList),
    ("include-lsn", "true".toList), ("include-xids", "true".toList), ("include-types", "true".toList),
    ("include-type-oids", "true".toList), ("numeric-data-types-as-string", "true".toList),
    ("add-tables", tablesFilter tables)], tablesFilter tables, ?_, rfl, selectTables_tablesFilter hne hnames⟩
  have hfixed : ["\"format-version\" '2'", "\"include-transaction\" 'true'", "\"include-lsn\" 'true'",
      "\"include-xids\" 'true'", "\"include-types\" 'true'", "\"include-type-oids\" 'true'",
      "\"numeric-data-types-as-string\" 'true'"].mapM parseOption
      = some [("format-version", "2".toList), ("include-transaction", "true".toList),
        ("include-lsn", "true".toList), ("include-xids", "true".toList), ("include-types", "true".toList),
        ("include-type-oids", "true".toList), ("numeric-data-types-as-string", "true".toList)] := by
    decide
  have hsplit : pluginArgs tables = ["\"format-version\" '2'", "\"include-transaction\" 'true'",
      "\"include-lsn\" 'true'", "\"include-xids\" 'true'", "\"include-types\" 'true'",
      "\"include-type-oids\" 'true'", "\"numeric-data-types-as-string\" 'true'"]
      ++ [String.ofList ("\"add-tables\" ".toList
        ++ Quoting.enclose apostrophe (tablesFilter tables))] := rfl
  have hlast : parseOption (String.ofList ("\"add-tables\" ".toList
      ++ Quoting.enclose apostrophe (tablesFilter tables))) = some ("add-tables", tablesFilter tables) := by
    have hname : "\"add-tables\" ".toList = Quoting.enclose '"' "add-tables".toList ++ [' '] := by decide
    rw [hname, List.append_assoc, List.singleton_append, parseOption_enclosed, String.ofList_toList]
  rw [hsplit, List.mapM_append, hfixed]
  simp only [List.mapM_cons, List.mapM_nil, hlast]
  rfl

/-- Names made of separators, quotes and wildcards. -/
theorem pluginArgs_selects_specials :
    ∃ options value, (pluginArgs [⟨"a.b,c", "*'\\ \""⟩, ⟨"*", "t"⟩]).mapM parseOption = some options
      ∧ options.lookup "add-tables" = some value
      ∧ selectTables value
        = some [⟨.named "a.b,c", .named "*'\\ \""⟩, ⟨.named "*", .named "t"⟩] :=
  pluginArgs_selects [⟨"a.b,c", "*'\\ \""⟩, ⟨"*", "t"⟩] (by decide) (by simp [IsName])

end RoundTrip

end GoSync.Capture
