import GoSync.Capture.Batch
import GoSync.Lib.Paging
import Mathlib.Data.String.Basic

/-!
# The fingerprint of a capture configuration

`Fingerprint` hashes one of five JSON documents. The tables in it are sorted by their dotted text, which two
different tables may share; `slices.SortFunc` then leaves their order open. The document with file columns
replaces the one of the engine and has the slot in it, whatever the engine.
-/

namespace GoSync.Fingerprint

open Capture (FileColumn tableText)

structure FileWatch where
  rootDir : String := ""
  scanInterval : String := ""
  includes : List String := []
  excludes : List String := []
  events : List String := []
  maxFileBytes : Int := 0
  chunkBytes : Int := 0
  deriving DecidableEq, Repr

/-- The part of `config.Config` that `Fingerprint` reads; `engine` is the result of `Engine`. -/
structure Config where
  engine : Engine := .postgres
  sourceId : String
  slot : String := ""
  serverId : UInt32 := 0
  watch : FileWatch := {}
  tables : List TableRef := []
  fileColumns : List FileColumn := []
  deriving DecidableEq, Repr

inductive ConfigError where
  | tables (err : Capture.TablesError)
  | ruleNames
  | ruleRoot
  | ruleBytes
  | ruleTable
  | ruleUnique
  deriving DecidableEq, Repr

def ConfigError.message : ConfigError → String
  | .tables err => err.message
  | .ruleNames => "file_columns require schema, table, column and root_dir without nul"
  | .ruleRoot => "file_columns root_dir must be an absolute path"
  | .ruleBytes => "file_columns max_bytes must be positive and no larger than max_row_bytes"
  | .ruleTable => "file_columns must reference a selected table"
  | .ruleUnique => "file_columns must be unique"

def ruleKey (rule : FileColumn) : String × String × String :=
  (rule.schema, rule.table, rule.column)

def validateRules (tables : List TableRef) (maxRowBytes : Int) (seen : List (String × String × String)) :
    List FileColumn → Except ConfigError Unit
  | [] => .ok ()
  | rule :: rest =>
      if rule.schema = "" ∨ rule.table = "" ∨ rule.column = "" ∨ rule.rootDir = ""
          ∨ (rule.schema ++ rule.table ++ rule.column ++ rule.rootDir).toList.contains '\x00' then
        .error .ruleNames
      else if rule.rootDir.toList.head? ≠ some '/' then
        .error .ruleRoot
      else if rule.maxBytes < 1 ∨ rule.maxBytes > maxRowBytes then
        .error .ruleBytes
      else if ({ schema := rule.schema, name := rule.table } : TableRef) ∉ tables then
        .error .ruleTable
      else if ruleKey rule ∈ seen then
        .error .ruleUnique
      else
        validateRules tables maxRowBytes (ruleKey rule :: seen) rest

def validate (maxRowBytes : Int) (c : Config) : Except ConfigError Unit :=
  if c.engine ≠ .files ∧ c.tables = [] then
    .error (.tables .empty)
  else do
    (Capture.validateNames [] c.tables).mapError .tables
    validateRules c.tables maxRowBytes [] c.fileColumns

section Documents

inductive Json where
  | string (text : String)
  | number (value : Int)
  | array (items : List Json)
  | object (fields : List (String × Json))

def tableJson (table : TableRef) : Json :=
  .object [("schema", .string table.schema), ("name", .string table.name)]

def ruleJson (rule : FileColumn) : Json :=
  .object [("schema", .string rule.schema), ("table", .string rule.table),
    ("column", .string rule.column), ("root_dir", .string rule.rootDir), ("max_bytes", .number rule.maxBytes)]

def optional {α : Type} [DecidableEq α] (key : String) (empty value : α) (json : α → Json) :
    List (String × Json) :=
  if value = empty then [] else [(key, json value)]

def textsJson (texts : List String) : Json :=
  .array (texts.map .string)

def watchJson (watch : FileWatch) : Json :=
  .object ([("root_dir", .string watch.rootDir)]
    ++ optional "scan_interval" "" watch.scanInterval .string
    ++ optional "include" [] watch.includes textsJson
    ++ optional "exclude" [] watch.excludes textsJson
    ++ optional "events" [] watch.events textsJson
    ++ optional "max_file_bytes" 0 watch.maxFileBytes .number
    ++ optional "chunk_bytes" 0 watch.chunkBytes .number)

/-- What `Fingerprint` rests on: a sort by the dotted text that leaves open the order of equal ones, and a
hash of JSON documents without collisions. -/
structure Hashing (δ : Type) where
  sort : List TableRef → List TableRef
  sort_perm : ∀ tables, (sort tables).Perm tables
  sort_pairwise : ∀ tables, (sort tables).Pairwise fun first second => tableText first ≤ tableText second
  digest : Json → δ
  digest_injective : Function.Injective digest

def ruleText (rule : FileColumn) : String :=
  rule.schema ++ "\x00" ++ rule.table ++ "\x00" ++ rule.column

variable {δ : Type} (env : Hashing δ)

def tablesJson (c : Config) : Json :=
  .array ((env.sort c.tables).map tableJson)

/-- The document that is hashed. Each condition of the source replaces what was there before. -/
def document (c : Config) : Json :=
  if c.fileColumns ≠ [] then
    .object [("Engine", .string c.engine.name), ("Source", .string c.sourceId), ("Slot", .string c.slot),
      ("Tables", tablesJson env c),
      ("FileColumns", .array ((Paging.ordered ruleText c.fileColumns).map ruleJson))]
  else
    match c.engine with
    | .files =>
        .object [("Engine", .string c.engine.name), ("Source", .string c.sourceId),
          ("Watch", watchJson c.watch)]
    | .mysql =>
        .object [("Engine", .string c.engine.name), ("Source", .string c.sourceId),
          ("ServerID", .number c.serverId.toNat), ("Tables", tablesJson env c)]
    | .sqlserver | .sqlserverLegacy =>
        .object [("Engine", .string c.engine.name), ("Source", .string c.sourceId),
          ("Tables", tablesJson env c)]
    | .postgres =>
        .object [("Source", .string c.sourceId), ("Slot", .string c.slot), ("Tables", tablesJson env c)]

def fingerprint (c : Config) : δ :=
  env.digest (document env c)

end Documents

section Injective

theorem tableJson_injective : Function.Injective tableJson := by
  rintro ⟨schema, name⟩ ⟨otherSchema, otherName⟩ h
  simpa [tableJson] using h

theorem ruleJson_injective : Function.Injective ruleJson := by
  rintro ⟨schema, table, column, rootDir, maxBytes⟩ ⟨schema', table', column', rootDir', maxBytes'⟩ h
  simpa [ruleJson] using h

theorem textsJson_injective : Function.Injective textsJson := by
  intro first second h
  simp only [textsJson, Json.array.injEq] at h
  exact List.map_injective_iff.mpr (fun _ _ hsame => Json.string.inj hsame) h

section Optional

variable {α : Type} [DecidableEq α] {key other : String} {empty value value' : α} {json : α → Json}

theorem lookup_optional_ne (hkey : other ≠ key) : (optional key empty value json).lookup other = none := by
  unfold optional
  split_ifs
  · rfl
  · simp [List.lookup_cons, beq_eq_false_iff_ne.mpr hkey]

theorem lookup_optional_injective (hjson : Function.Injective json)
    (h : (optional key empty value json).lookup key = (optional key empty value' json).lookup key) :
    value = value' := by
  unfold optional at h
  split_ifs at h with hvalue hvalue'
  · rw [hvalue, hvalue']
  · simp at h
  · simp at h
  · simp only [List.lookup_cons, beq_self_eq_true, Option.some.injEq] at h
    exact hjson h

end Optional

theorem watchJson_injective : Function.Injective watchJson := by
  intro first second h
  have hfields := Json.object.inj h
  have hlookup (key : String) := congrArg (List.lookup key) hfields
  simp only [List.lookup_append] at hlookup
  have hroot := hlookup "root_dir"
  have hinterval := hlookup "scan_interval"
  have hincludes := hlookup "include"
  have hexcludes := hlookup "exclude"
  have hevents := hlookup "events"
  have hmaximum := hlookup "max_file_bytes"
  have hchunk := hlookup "chunk_bytes"
  simp [lookup_optional_ne, List.lookup_cons] at hroot hinterval hincludes hexcludes hevents hmaximum hchunk
  obtain ⟨root, interval, includes, excludes, events, maximum, chunk⟩ := first
  obtain ⟨root', interval', includes', excludes', events', maximum', chunk'⟩ := second
  obtain rfl := hroot
  obtain rfl := lookup_optional_injective (fun _ _ hsame => Json.string.inj hsame) hinterval
  obtain rfl := lookup_optional_injective textsJson_injective hincludes
  obtain rfl := lookup_optional_injective textsJson_injective hexcludes
  obtain rfl := lookup_optional_injective textsJson_injective hevents
  obtain rfl := lookup_optional_injective (fun _ _ hsame => Json.number.inj hsame) hmaximum
  obtain rfl := lookup_optional_injective (fun _ _ hsame => Json.number.inj hsame) hchunk
  rfl

theorem Engine.name_injective : Function.Injective Engine.name := by
  intro first second
  cases first <;> cases second <;> decide

end Injective

section Rules

variable {tables : List TableRef} {maxRowBytes : Int} {rules others : List FileColumn}

structure Ruled (rules : List FileColumn) : Prop where
  nul : ∀ rule ∈ rules, '\x00' ∉ rule.schema.toList ∧ '\x00' ∉ rule.table.toList
    ∧ '\x00' ∉ rule.column.toList
  distinct : (rules.map ruleKey).Nodup

theorem validateRules_ok {seen : List (String × String × String)}
    (h : validateRules tables maxRowBytes seen rules = .ok ()) :
    Ruled rules ∧ ∀ rule ∈ rules, ruleKey rule ∉ seen := by
  induction rules generalizing seen with
  | nil => exact ⟨⟨List.forall_mem_nil _, List.nodup_nil⟩, List.forall_mem_nil _⟩
  | cons rule rest ih =>
      rw [validateRules] at h
      split_ifs at h with hnames hroot hbytes htable hseen
      obtain ⟨hrest, hfresh⟩ := ih h
      have hnul : '\x00' ∉ rule.schema.toList ∧ '\x00' ∉ rule.table.toList
          ∧ '\x00' ∉ rule.column.toList := by
        simp only [not_or] at hnames
        have hall := hnames.2.2.2.2
        simp only [String.toList_append, List.contains_iff_mem, List.mem_append, not_or] at hall
        exact ⟨hall.1.1.1, hall.1.1.2, hall.1.2⟩
      refine ⟨⟨List.forall_mem_cons.mpr ⟨hnul, hrest.nul⟩, ?_⟩, ?_⟩
      · rw [List.map_cons, List.nodup_cons]
        refine ⟨?_, hrest.distinct⟩
        intro hmem
        obtain ⟨other, hother, hkey⟩ := List.mem_map.mp hmem
        exact hfresh other hother (hkey ▸ List.mem_cons_self)
      · refine List.forall_mem_cons.mpr ⟨hseen, ?_⟩
        exact fun other hother hmem => hfresh other hother (List.mem_cons_of_mem _ hmem)

theorem splitOn_ruleText {rule : FileColumn}
    (h : '\x00' ∉ rule.schema.toList ∧ '\x00' ∉ rule.table.toList ∧ '\x00' ∉ rule.column.toList) :
    (ruleText rule).toList.splitOn '\x00'
      = [rule.schema.toList, rule.table.toList, rule.column.toList] := by
  have htext : (ruleText rule).toList
      = ['\x00'].intercalate [rule.schema.toList, rule.table.toList, rule.column.toList] := by
    simp [ruleText, List.intercalate]
  rw [htext]
  apply List.splitOn_intercalate
  · intro part hpart
    simp only [List.mem_cons, List.not_mem_nil, or_false] at hpart
    rcases hpart with rfl | rfl | rfl
    · exact h.1
    · exact h.2.1
    · exact h.2.2
  · simp

theorem Ruled.nodup_ruleText (h : Ruled rules) : (rules.map ruleText).Nodup := by
  rw [List.Nodup, List.pairwise_map]
  refine List.Pairwise.imp_of_mem ?_ (List.pairwise_map.mp h.distinct)
  intro first second hfirst hsecond hne heq
  have hparts := (splitOn_ruleText (h.nul first hfirst)).symm.trans
    (heq ▸ splitOn_ruleText (h.nul second hsecond))
  simp only [List.cons.injEq, and_true, String.toList_inj] at hparts
  exact hne (by rw [ruleKey, ruleKey, hparts.1, hparts.2.1, hparts.2.2])

theorem Ruled.ordered_eq_iff (h : Ruled rules) (hother : Ruled others) :
    Paging.ordered ruleText rules = Paging.ordered ruleText others ↔ ∀ rule, rule ∈ rules ↔ rule ∈ others := by
  constructor
  · intro heq rule
    rw [← (Paging.ordered_perm ruleText rules).mem_iff, heq, (Paging.ordered_perm ruleText others).mem_iff]
  · intro hsame
    have hperm : rules.Perm others :=
      (List.perm_ext_iff_of_nodup h.distinct.of_map hother.distinct.of_map).mpr hsame
    refine Paging.eq_of_perm_of_ordered ?_ ?_ (Paging.ordered_pairwise _ _) (Paging.ordered_pairwise _ _)
    · exact (Paging.ordered_perm _ _).trans (hperm.trans (Paging.ordered_perm _ _).symm)
    · exact ((Paging.ordered_perm ruleText others).map ruleText).nodup_iff.mpr hother.nodup_ruleText

end Rules

inductive Scope where
  | slot (name : String)
  | serverId (id : UInt32)
  | watch (watch : FileWatch)
  | none
  deriving DecidableEq, Repr

def Config.scope (c : Config) : Scope :=
  match c.engine with
  | .postgres => .slot c.slot
  | .mysql => .serverId c.serverId
  | .files => .watch c.watch
  | .sqlserver | .sqlserverLegacy => .none

/-- The same capture: engine, source, tables, file columns and scope of the engine. -/
structure SameScope (c d : Config) : Prop where
  engine : c.engine = d.engine
  sourceId : c.sourceId = d.sourceId
  tables : ∀ table, table ∈ c.tables ↔ table ∈ d.tables
  fileColumns : ∀ rule, rule ∈ c.fileColumns ↔ rule ∈ d.fileColumns
  scope : c.scope = d.scope

/-- Where the fingerprint tells two configurations apart as it should, for the same engine, source and
file columns. -/
def Separated {δ : Type} (env : Hashing δ) (c d : Config) : Prop :=
  c.engine = d.engine → c.sourceId = d.sourceId → (∀ rule, rule ∈ c.fileColumns ↔ rule ∈ d.fileColumns) →
    if c.fileColumns ≠ [] then
      (∀ table, table ∈ c.tables ↔ table ∈ d.tables) →
        (c.scope = d.scope ↔ c.slot = d.slot ∧ env.sort c.tables = env.sort d.tables)
    else if c.engine = .files then
      c.watch = d.watch → ∀ table, table ∈ c.tables ↔ table ∈ d.tables
    else
      (∀ table, table ∈ c.tables ↔ table ∈ d.tables) → c.scope = d.scope →
        env.sort c.tables = env.sort d.tables

section Comparing

variable {δ : Type} {env : Hashing δ} {c d : Config}

theorem tablesJson_eq_iff : tablesJson env c = tablesJson env d ↔ env.sort c.tables = env.sort d.tables := by
  rw [tablesJson, tablesJson, Json.array.injEq]
  exact (List.map_injective_iff.mpr tableJson_injective).eq_iff

theorem mem_iff_of_sort_eq (h : env.sort c.tables = env.sort d.tables) :
    ∀ table, table ∈ c.tables ↔ table ∈ d.tables := by
  intro table
  rw [← (env.sort_perm c.tables).mem_iff, h, (env.sort_perm d.tables).mem_iff]

theorem fingerprint_eq_iff : fingerprint env c = fingerprint env d ↔ document env c = document env d :=
  env.digest_injective.eq_iff

theorem document_rules_iff (hc : Ruled c.fileColumns) (hd : Ruled d.fileColumns)
    (hrules : c.fileColumns ≠ []) (hrules' : d.fileColumns ≠ []) :
    document env c = document env d ↔ c.engine = d.engine ∧ c.sourceId = d.sourceId ∧ c.slot = d.slot
      ∧ env.sort c.tables = env.sort d.tables ∧ ∀ rule, rule ∈ c.fileColumns ↔ rule ∈ d.fileColumns := by
  rw [document, document, if_pos hrules, if_pos hrules', ← hc.ordered_eq_iff hd, ← tablesJson_eq_iff]
  simp only [Json.object.injEq, List.cons.injEq, Prod.mk.injEq, Json.string.injEq, Json.array.injEq,
    true_and, and_true, Engine.name_injective.eq_iff,
    (List.map_injective_iff.mpr ruleJson_injective).eq_iff]

theorem document_plain_iff (hrules : c.fileColumns = []) (hrules' : d.fileColumns = []) :
    document env c = document env d ↔ c.engine = d.engine ∧ c.sourceId = d.sourceId ∧ c.scope = d.scope
      ∧ (c.engine ≠ .files → env.sort c.tables = env.sort d.tables) := by
  unfold document Config.scope
  rw [if_neg (not_not.mpr hrules), if_neg (not_not.mpr hrules')]
  by_cases hengine : c.engine = d.engine
  · rw [hengine]
    cases d.engine with
    | postgres => simp [tablesJson_eq_iff]
    | sqlserver => simp [tablesJson_eq_iff]
    | sqlserverLegacy => simp [tablesJson_eq_iff]
    | mysql => simp [tablesJson_eq_iff, UInt32.toNat_inj]
    | files => simp [watchJson_injective.eq_iff]
  · refine iff_of_false ?_ fun h => hengine h.1
    intro heq
    cases hc : c.engine <;> cases hd : d.engine <;> simp_all [Engine.name]

theorem document_ne (hrules : c.fileColumns ≠ []) (hrules' : d.fileColumns = []) :
    document env c ≠ document env d := by
  rw [document, document, if_pos hrules, if_neg (not_not.mpr hrules')]
  cases d.engine <;> simp

theorem sort_eq_of_tables {first second : List TableRef} (hfirst : first.Nodup) (hsecond : second.Nodup)
    (hsame : ∀ table, table ∈ first ↔ table ∈ second)
    (htexts : ∀ table ∈ second, ∀ other ∈ second, tableText table = tableText other → table = other) :
    env.sort first = env.sort second := by
  have hperm : first.Perm second := (List.perm_ext_iff_of_nodup hfirst hsecond).mpr hsame
  refine Paging.eq_of_perm_of_ordered ?_ ?_ (env.sort_pairwise first) (env.sort_pairwise second)
  · exact (env.sort_perm first).trans (hperm.trans (env.sort_perm second).symm)
  · refine ((env.sort_perm second).map tableText).nodup_iff.mpr ?_
    exact hsecond.map_on fun table htable other hother heq => htexts table htable other hother heq

theorem validate_ok {maxRowBytes : Int} (h : validate maxRowBytes c = .ok ()) :
    c.tables.Nodup ∧ Ruled c.fileColumns := by
  unfold validate at h
  split_ifs at h
  obtain ⟨⟨⟩, hnames, hrules⟩ := Except.bind_eq_ok.mp h
  rw [Except.mapError_eq_ok] at hnames
  exact ⟨(Capture.validateNames_ok hnames).2, (validateRules_ok hrules).1⟩

theorem fingerprint_rules_iff (hc : Ruled c.fileColumns) (hd : Ruled d.fileColumns)
    (hrules : c.fileColumns ≠ []) (hrules' : d.fileColumns ≠ []) :
    (fingerprint env c = fingerprint env d ↔ SameScope c d) ↔ Separated env c d := by
  rw [fingerprint_eq_iff, document_rules_iff hc hd hrules hrules', Separated, if_pos hrules]
  constructor
  · intro h hengine hsource hfiles htables
    constructor
    · intro hscope
      obtain ⟨-, -, hslot, hsort, -⟩ := h.mpr ⟨hengine, hsource, htables, hfiles, hscope⟩
      exact ⟨hslot, hsort⟩
    · rintro ⟨hslot, hsort⟩
      exact (h.mp ⟨hengine, hsource, hslot, hsort, hfiles⟩).scope
  · intro h
    constructor
    · rintro ⟨hengine, hsource, hslot, hsort, hfiles⟩
      have htables := mem_iff_of_sort_eq hsort
      exact ⟨hengine, hsource, htables, hfiles, (h hengine hsource hfiles htables).mpr ⟨hslot, hsort⟩⟩
    · rintro ⟨hengine, hsource, htables, hfiles, hscope⟩
      obtain ⟨hslot, hsort⟩ := (h hengine hsource hfiles htables).mp hscope
      exact ⟨hengine, hsource, hslot, hsort, hfiles⟩

theorem scope_eq_iff_watch (hfiles : c.engine = .files) (hengine : c.engine = d.engine) :
    c.scope = d.scope ↔ c.watch = d.watch := by
  simp only [Config.scope, hfiles, hengine ▸ hfiles, Scope.watch.injEq]

/-- Two configurations without file columns. -/
theorem fingerprint_plain_iff (hrules : c.fileColumns = []) (hrules' : d.fileColumns = []) :
    (fingerprint env c = fingerprint env d ↔ SameScope c d) ↔ Separated env c d := by
  have hfiles : ∀ rule, rule ∈ c.fileColumns ↔ rule ∈ d.fileColumns := by
    intro rule
    rw [hrules, hrules']
  rw [fingerprint_eq_iff, document_plain_iff hrules hrules', Separated, if_neg (not_not.mpr hrules)]
  by_cases hengine' : c.engine = .files
  · rw [if_pos hengine']
    constructor
    · intro h hengine hsource _ hwatch
      have hscope := (scope_eq_iff_watch hengine' hengine).mpr hwatch
      exact (h.mp ⟨hengine, hsource, hscope, fun hne => absurd hengine' hne⟩).tables
    · intro h
      constructor
      · rintro ⟨hengine, hsource, hscope, -⟩
        have hwatch := (scope_eq_iff_watch hengine' hengine).mp hscope
        exact ⟨hengine, hsource, h hengine hsource hfiles hwatch, hfiles, hscope⟩
      · intro hsame
        exact ⟨hsame.engine, hsame.sourceId, hsame.scope, fun hne => absurd hengine' hne⟩
  · rw [if_neg hengine']
    constructor
    · intro h hengine hsource _ htables hscope
      exact (h.mpr ⟨hengine, hsource, htables, hfiles, hscope⟩).2.2.2 hengine'
    · intro h
      constructor
      · rintro ⟨hengine, hsource, hscope, hsort⟩
        exact ⟨hengine, hsource, mem_iff_of_sort_eq (hsort hengine'), hfiles, hscope⟩
      · rintro ⟨hengine, hsource, htables, -, hscope⟩
        exact ⟨hengine, hsource, hscope, fun _ => h hengine hsource hfiles htables hscope⟩

theorem fingerprint_mixed_iff (hmixed : c.fileColumns ≠ [] ∧ d.fileColumns = []
      ∨ c.fileColumns = [] ∧ d.fileColumns ≠ []) :
    (fingerprint env c = fingerprint env d ↔ SameScope c d) ↔ Separated env c d := by
  have hdiffer : ¬ ∀ rule, rule ∈ c.fileColumns ↔ rule ∈ d.fileColumns := by
    intro hsame
    rcases hmixed with ⟨hc, hd⟩ | ⟨hc, hd⟩
    · exact hc (List.eq_nil_iff_forall_not_mem.mpr fun rule hmem => by simpa [hd] using (hsame rule).mp hmem)
    · exact hd (List.eq_nil_iff_forall_not_mem.mpr fun rule hmem => by simpa [hc] using (hsame rule).mpr hmem)
  have hdocuments : document env c ≠ document env d := by
    rcases hmixed with ⟨hc, hd⟩ | ⟨hc, hd⟩
    · exact document_ne hc hd
    · exact (document_ne hd hc).symm
  refine iff_of_true ?_ fun _ _ hsame => absurd hsame hdiffer
  rw [fingerprint_eq_iff]
  exact iff_of_false hdocuments fun hsame => hdiffer hsame.fileColumns

end Comparing

/-- Two accepted configurations have one fingerprint exactly when they are one capture, if and only if they
are `Separated`; and tables of which no two share their dotted text are sorted in one way. -/
theorem fingerprint_identifies_iff {δ : Type} (env : Hashing δ) (maxRowBytes maxRowBytes' : Int) (c d : Config)
    (hc : validate maxRowBytes c = .ok ()) (hd : validate maxRowBytes' d = .ok ()) :
    ((fingerprint env c = fingerprint env d ↔ SameScope c d) ↔ Separated env c d)
      ∧ ((∀ table ∈ d.tables, ∀ other ∈ d.tables, tableText table = tableText other → table = other) →
        (∀ table, table ∈ c.tables ↔ table ∈ d.tables) → env.sort c.tables = env.sort d.tables) := by
  obtain ⟨htables, hruled⟩ := validate_ok hc
  obtain ⟨htables', hruled'⟩ := validate_ok hd
  refine ⟨?_, fun htexts hsame => sort_eq_of_tables htables htables' hsame htexts⟩
  by_cases hrules : c.fileColumns = [] <;> by_cases hrules' : d.fileColumns = []
  · exact fingerprint_plain_iff hrules hrules'
  · exact fingerprint_mixed_iff (.inr ⟨hrules, hrules'⟩)
  · exact fingerprint_mixed_iff (.inl ⟨hrules, hrules'⟩)
  · exact fingerprint_rules_iff hruled hruled' hrules hrules'

def Hashing.plain : Hashing Json where
  sort := Paging.ordered tableText
  sort_perm := Paging.ordered_perm tableText
  sort_pairwise := Paging.ordered_pairwise tableText
  digest := id
  digest_injective := Function.injective_id

def ordersFirst : Config :=
  { sourceId := "s", slot := "p", tables := [⟨"a", "x"⟩, ⟨"a", "y"⟩] }

def ordersSecond : Config :=
  { ordersFirst with tables := [⟨"a", "y"⟩, ⟨"a", "x"⟩] }

def ordersOther : Config :=
  { ordersFirst with slot := "q" }

/-- The order of the tables does not matter, the slot does. -/
theorem fingerprint_identifies_tables :
    validate 1024 ordersFirst = .ok () ∧ validate 1024 ordersSecond = .ok () ∧ validate 1024 ordersOther = .ok ()
      ∧ Separated Hashing.plain ordersFirst ordersSecond ∧ Separated Hashing.plain ordersFirst ordersOther
      ∧ fingerprint Hashing.plain ordersFirst = fingerprint Hashing.plain ordersSecond
      ∧ fingerprint Hashing.plain ordersFirst ≠ fingerprint Hashing.plain ordersOther := by
  have htables (table : TableRef) : table ∈ ordersFirst.tables ↔ table ∈ ordersSecond.tables := by
    simp only [ordersFirst, ordersSecond, List.mem_cons, List.not_mem_nil, or_false]
    exact or_comm
  obtain ⟨hiff, hsort⟩ := fingerprint_identifies_iff Hashing.plain 1024 1024 ordersFirst ordersSecond
    (by decide) (by decide)
  obtain ⟨hother, -⟩ := fingerprint_identifies_iff Hashing.plain 1024 1024 ordersFirst ordersOther
    (by decide) (by decide)
  have hseparated : Separated Hashing.plain ordersFirst ordersSecond := by
    intro _ _ _
    exact fun _ _ => hsort (by decide) htables
  have hseparated' : Separated Hashing.plain ordersFirst ordersOther := by
    intro _ _ _
    exact fun _ _ => rfl
  refine ⟨by decide, by decide, by decide, hseparated, hseparated', ?_, ?_⟩
  · exact (hiff.mpr hseparated).mpr ⟨rfl, rfl, htables, fun _ => Iff.rfl, rfl⟩
  · intro hsame
    exact absurd ((hother.mpr hseparated').mp hsame).scope (by decide)

def dottedFirst : Config :=
  { sourceId := "s", slot := "p", tables := [⟨"a.b", "c"⟩, ⟨"a", "b.c"⟩] }

def dottedSecond : Config :=
  { dottedFirst with tables := [⟨"a", "b.c"⟩, ⟨"a.b", "c"⟩] }

def replicaFirst : Config :=
  { engine := .mysql, sourceId := "s", serverId := 1, tables := [⟨"a", "x"⟩]
    fileColumns := [{ schema := "a", table := "x", column := "f", rootDir := "/r", maxBytes := 1 }] }

def replicaSecond : Config :=
  { replicaFirst with serverId := 2 }

/-- One set of tables in two orders has two fingerprints under a stable sort; two MySQL replicas with file
columns have one, whatever the sort. -/
theorem fingerprint_misses :
    validate 1024 dottedFirst = .ok () ∧ validate 1024 dottedSecond = .ok ()
      ∧ SameScope dottedFirst dottedSecond
      ∧ fingerprint Hashing.plain dottedFirst ≠ fingerprint Hashing.plain dottedSecond
      ∧ validate 1024 replicaFirst = .ok () ∧ validate 1024 replicaSecond = .ok ()
      ∧ ¬ SameScope replicaFirst replicaSecond
      ∧ ∀ (δ : Type) (env : Hashing δ), fingerprint env replicaFirst = fingerprint env replicaSecond := by
  refine ⟨by decide, by decide, ⟨rfl, rfl, ?_, fun _ => Iff.rfl, rfl⟩, ?_, by decide, by decide, ?_, ?_⟩
  · intro table
    simp only [dottedFirst, dottedSecond, List.mem_cons, List.not_mem_nil, or_false]
    exact or_comm
  · intro heq
    obtain ⟨-, -, -, hsort⟩ := (document_plain_iff rfl rfl).mp (fingerprint_eq_iff.mp heq)
    exact absurd (hsort (by decide)) (by decide)
  · intro hsame
    exact absurd hsame.scope (by decide)
  · intro δ env
    rfl

end GoSync.Fingerprint
