import GoSync.Capture.Batch
import GoSync.Lib.Run
import GoSync.Server.Statements

/-!
# Embedded file columns

A column of paths at the source becomes two columns at the target: the path and the content of the file.
`fileembed.Apply` reads the file when the row is captured and marks the column, and the server writes the
content for marked columns only. The rows of the target table are followed here together with what was read
for their path, which neither side keeps.
-/

namespace GoSync.Replication

open Capture (Config FileColumn embedColumn embedFiles)
open Server (AppliedColumn Arg Expression Postgres Statement Syncer Tables TargetError TargetRow Written
  appliedColumns applyRow argument assign cast changeFirst matchesRow newRow statement targetColumnTypes
  transform valueAt)

/-- A rule of the collector and the mapping of the server for the same column, as both configurations are
accepted: rules are unique, and the content goes to another column. -/
structure Mapping (collector : Config) (server : Syncer) where
  rule : FileColumn
  content : String
  configured : rule ∈ collector.fileColumns
  unique : (collector.fileColumns.map fun other => (other.schema, other.table, other.column)).Nodup
  mapped : server.fileMapping rule.schema rule.table rule.column = some content
  distinct : content ≠ rule.column

/-- A row as a collector converts it, and the files as they are when it is embedded. -/
structure FileRow where
  row : Row
  files : Row → FileColumn → String → Except String (List UInt8)

def FileRow.embedded (collector : Config) (change : FileRow) : Except Capture.CaptureError Row :=
  embedFiles collector (fun row rule path => (change.files row rule path).map base64Encode) change.row

variable {collector : Config} {server : Syncer} (m : Mapping collector server)
  {tag : Option (Option Tag)}

namespace Mapping

structure Captured (change : FileRow) : Prop where
  schema : change.row.schema = m.rule.schema
  table : change.row.table = m.rule.table
  plain : ∀ column ∈ change.row.columns, column.encoding ≠ "base64"
  names : (change.row.columns.map Column.name).Nodup

def Sole (change : FileRow) : Prop :=
  ∀ column ∈ change.row.columns, column.name ≠ m.rule.column → column.name ≠ m.content
    ∧ server.fileMapping m.rule.schema m.rule.table column.name ≠ some m.content
    ∧ server.fileMapping m.rule.schema m.rule.table column.name ≠ some m.rule.column

abbrev Tag := String × List UInt8

def noted (change : FileRow) (columns : List Column) : Option (Option Tag) :=
  (columns.find? fun column => column.name = m.rule.column).map fun column =>
    column.value.bind fun path =>
      (change.files change.row m.rule path).toOption.map fun content => (path, content)

section Embedding

variable {m} {change : FileRow} {event : Row}

structure Embeds (m : Mapping collector server) (change : FileRow) (column embedded : Column) : Prop where
  name : embedded.name = column.name
  null : column.name = m.rule.column → column.value = none → embedded = column
  file : column.name = m.rule.column → ∀ path, column.value = some path → ∃ content,
    change.files change.row m.rule path = .ok content
      ∧ embedded = { column with
                      value := some (base64Encode content)
                      sourceValue := some path
                      encoding := "base64" }

theorem embedColumn_eq_ok {read : FileColumn → String → Except String String} {rule : FileColumn}
    {column embedded : Column} (h : embedColumn read rule column = .ok embedded) :
    (embedded = column ∧ (column.name ≠ rule.column ∨ column.value = none))
      ∨ column.name = rule.column ∧ ∃ path encoded, column.value = some path
        ∧ read rule path = .ok encoded
        ∧ embedded = { column with
                        value := some encoded, sourceValue := some path, encoding := "base64" } := by
  unfold embedColumn at h
  split_ifs at h with hname
  · cases h
    exact .inl ⟨rfl, .inl hname⟩
  · rw [not_not] at hname
    split at h
    · rename_i hvalue
      cases h
      exact .inl ⟨rfl, .inr hvalue⟩
    · rename_i path hvalue
      split at h
      · cases h
      · rename_i encoded hread
        cases h
        exact .inr ⟨hname, path, encoded, hvalue, hread, rfl⟩

theorem forall₂_mapM {α β γ ε : Type} {r : α → β → Prop} {r' : α → γ → Prop} {f : β → Except ε γ}
    {xs : List α} {ys : List β} {zs : List γ} (h : List.Forall₂ r xs ys) (hmap : ys.mapM f = .ok zs)
    (hstep : ∀ x y z, r x y → f y = .ok z → r' x z) : List.Forall₂ r' xs zs := by
  have hzs := Except.mapM_eq_ok_iff.mp hmap
  clear hmap
  induction h generalizing zs with
  | nil =>
      obtain rfl := List.forall₂_nil_left_iff.mp hzs
      exact .nil
  | cons hxy _ ih =>
      obtain ⟨z, rest, hz, hrest, rfl⟩ := List.forall₂_cons_left_iff.mp hzs
      exact .cons (hstep _ _ _ hxy hz) (ih hrest)

def embedRule (read : Capture.ReadFile) (row embedded : Row) (rule : FileColumn) :
    Except Capture.CaptureError Row :=
  if rule.schema ≠ embedded.schema ∨ rule.table ≠ embedded.table then
    .ok embedded
  else do
    let columns ← embedded.columns.mapM (embedColumn (read row) rule)
    .ok { embedded with columns := columns }

structure Midway (row : Row) (r : Column → Column → Prop) (embedded : Row) : Prop where
  frame : embedded = { row with columns := embedded.columns }
  columns : List.Forall₂ r row.columns embedded.columns

theorem Midway.rule {row embedded next : Row} {r r' : Column → Column → Prop} {rule : FileColumn}
    {read : Capture.ReadFile} (h : Midway row r embedded)
    (hnext : embedRule read row embedded rule = .ok next)
    (hskip : rule.schema ≠ row.schema ∨ rule.table ≠ row.table →
      ∀ column current, r column current → r' column current)
    (hstep : rule.schema = row.schema → rule.table = row.table → ∀ column current result,
      r column current → embedColumn (read row) rule current = .ok result → r' column result) :
    Midway row r' next := by
  have hschema : embedded.schema = row.schema := by rw [h.frame]
  have htable : embedded.table = row.table := by rw [h.frame]
  rw [embedRule, hschema, htable] at hnext
  split_ifs at hnext with hother
  · cases hnext
    exact ⟨h.frame, h.columns.imp (hskip hother)⟩
  · rw [not_or, not_not, not_not] at hother
    obtain ⟨columns, hcolumns, hnext⟩ := Except.bind_eq_ok.mp hnext
    cases hnext
    refine ⟨?_, forall₂_mapM h.columns hcolumns (hstep hother.1 hother.2)⟩
    rw [h.frame]

theorem Midway.others {row embedded next : Row} {r : Column → Column → Prop} {rules : List FileColumn}
    {read : Capture.ReadFile} (hschema : row.schema = m.rule.schema) (htable : row.table = m.rule.table)
    (hothers : ∀ rule ∈ rules, (rule.schema, rule.table, rule.column)
      ≠ (m.rule.schema, m.rule.table, m.rule.column))
    (hname : ∀ column current, r column current → current.name = column.name)
    (hfree : ∀ column result : Column, column.name ≠ m.rule.column → result.name = column.name →
      r column result)
    (h : Midway row r embedded)
    (hloop : rules.foldlM (embedRule read row) embedded = .ok next) : Midway row r next := by
  refine Except.foldlM_invariant (Midway row r) ?_ h hloop
  intro rule hrule state after hstate hafter
  refine hstate.rule hafter (fun _ _ _ hr => hr) ?_
  intro hruleSchema hruleTable column current result hr hcolumn
  have hcolumnName : rule.column ≠ m.rule.column := by
    intro hsame
    apply hothers rule hrule
    rw [hruleSchema, hruleTable, hschema, htable, hsame]
  rcases embedColumn_eq_ok hcolumn with ⟨rfl, -⟩ | ⟨hcurrent, path, encoded, -, -, rfl⟩
  · exact hr
  · have hcolumns := hname column current hr
    exact hfree column _ (by rw [← hcolumns, hcurrent]; exact hcolumnName) hcolumns

/-- The collector puts the file in place of its path and leaves the rest. -/
theorem embeds_of_embedded (hchange : m.Captured change)
    (h : change.embedded collector = .ok event) : Midway change.row (m.Embeds change) event := by
  obtain ⟨front, back, hsplit⟩ := List.append_of_mem m.configured
  have hunique := m.unique
  rw [hsplit, List.map_append, List.map_cons, List.nodup_append, List.nodup_cons] at hunique
  have hdiffer (rule : FileColumn) (hrule : rule ∈ front ++ back) :
      (rule.schema, rule.table, rule.column) ≠ (m.rule.schema, m.rule.table, m.rule.column) := by
    obtain ⟨hfront, ⟨hback, -⟩, hcross⟩ := hunique
    intro hsame
    rcases List.mem_append.mp hrule with hrule | hrule
    · exact hcross _ (List.mem_map_of_mem hrule) _ List.mem_cons_self hsame
    · exact hback (hsame ▸ List.mem_map_of_mem hrule)
  have h : collector.fileColumns.foldlM
      (embedRule (fun row rule path => (change.files row rule path).map base64Encode) change.row)
      change.row = .ok event := h
  rw [hsplit] at h
  obtain ⟨before, hbefore, h⟩ := Except.foldlM_append_eq_ok.mp h
  obtain ⟨after, hafter, h⟩ := Except.foldlM_cons_eq_ok.mp h
  have hfirst : Midway change.row
      (fun column current => current.name = column.name ∧ (column.name = m.rule.column → current = column))
      before := by
    refine Midway.others hchange.schema hchange.table
      (fun rule hrule => hdiffer rule (List.mem_append_left _ hrule)) (fun _ _ hr => hr.1) ?_ ?_ hbefore
    · exact fun _ _ hother hname => ⟨hname, fun hmapped => absurd hmapped hother⟩
    · exact ⟨rfl, List.forall₂_same.mpr fun _ _ => ⟨rfl, fun _ => rfl⟩⟩
  have hsecond : Midway change.row (m.Embeds change) after := by
    refine hfirst.rule hafter ?_ ?_
    · rintro (hno | hno)
      · exact absurd hchange.schema.symm hno
      · exact absurd hchange.table.symm hno
    · rintro - - column current result ⟨hname, hcurrent⟩ hresult
      rcases embedColumn_eq_ok hresult with
        ⟨rfl, hskipped⟩ | ⟨hmapped, path, encoded, hvalue, hread, rfl⟩
      · refine ⟨hname, fun hmapped _ => hcurrent hmapped, ?_⟩
        intro hmapped path hvalue
        obtain rfl := hcurrent hmapped
        rcases hskipped with hother | hnull
        · exact absurd hmapped hother
        · exact absurd (hnull.symm.trans hvalue) (Option.some_ne_none path).symm
      · have hmapped : column.name = m.rule.column := hname.symm.trans hmapped
        obtain rfl := hcurrent hmapped
        refine ⟨rfl, fun _ hnull => ?_, fun _ other hother => ?_⟩
        · exact absurd (hnull.symm.trans hvalue) (Option.some_ne_none path).symm
        · cases hvalue.symm.trans hother
          cases hfile : change.files change.row m.rule path with
          | error reason =>
              rw [hfile] at hread
              cases hread
          | ok content =>
              rw [hfile] at hread
              cases hread
              exact ⟨content, rfl, rfl⟩
  refine Midway.others hchange.schema hchange.table
    (fun rule hrule => hdiffer rule (List.mem_append_right _ hrule)) (fun _ _ hr => hr.name) ?_ hsecond h
  exact fun _ _ hother hname =>
    ⟨hname, fun hmapped => absurd hmapped hother, fun hmapped => absurd hmapped hother⟩

end Embedding

variable {applied : List AppliedColumn}

section Writing

variable {m} {Value : Type} {pg : Postgres Value} {change : FileRow} {event : Row}

theorem appliedColumns_eq_ok {column : Column} (h : appliedColumns server event column = .ok applied) :
    (applied = [{ name := column.name, value := .text column.value }]
        ∧ (column.encoding ≠ "base64"
          ∨ server.fileMapping event.schema event.table column.name = none))
      ∨ column.encoding = "base64" ∧ ∃ content bytes,
        server.fileMapping event.schema event.table column.name = some content
          ∧ (∀ value, column.value = some value → base64Decode value = bytes)
          ∧ applied = [{ name := column.name, value := .text column.sourceValue },
            { name := content, value := .bytes bytes, binary := true }] := by
  unfold appliedColumns at h
  split at h
  · rename_i hunmapped
    cases h
    exact .inl ⟨rfl, .inr hunmapped⟩
  · rename_i content hmapped
    split_ifs at h with hencoding
    · refine .inr ⟨hencoding, content, ?_⟩
      split at h
      · rename_i hvalue
        cases h
        exact ⟨none, hmapped, fun value hsome => absurd (hvalue.symm.trans hsome) (by simp), rfl⟩
      · rename_i value hvalue
        split at h
        · cases h
        · rename_i decoded hdecoded
          cases h
          refine ⟨some decoded, hmapped, fun other hother => ?_, rfl⟩
          cases hvalue.symm.trans hother
          exact hdecoded
    · cases h
      exact .inl ⟨rfl, .inl hencoding⟩

/-- The two target columns among the columns that the server writes. -/
inductive Writes (m : Mapping collector server) (applied : List AppliedColumn) : Option (Option Tag) → Prop
  | unlisted (hnone : ∀ column ∈ applied, column.name ≠ m.rule.column ∧ column.name ≠ m.content) :
      Writes m applied none
  | null (hsource : applied.find? (fun column => column.name = m.rule.column)
        = some { name := m.rule.column, value := .text none })
      (hnone : ∀ column ∈ applied, column.name ≠ m.content) : Writes m applied (some none)
  | file (path : String) (content : List UInt8)
      (hsource : applied.find? (fun column => column.name = m.rule.column)
        = some { name := m.rule.column, value := .text (some path) })
      (hcontent : applied.find? (fun column => column.name = m.content)
        = some { name := m.content, value := .bytes (some content), binary := true }) :
      Writes m applied (some (some (path, content)))

theorem other_of_appliedColumns {column : Column}
    (hschema : event.schema = m.rule.schema) (htable : event.table = m.rule.table)
    (hother : column.name ≠ m.rule.column) (hsole : column.name ≠ m.content
      ∧ server.fileMapping m.rule.schema m.rule.table column.name ≠ some m.content
      ∧ server.fileMapping m.rule.schema m.rule.table column.name ≠ some m.rule.column)
    (h : appliedColumns server event column = .ok applied) :
    ∀ result ∈ applied, result.name ≠ m.rule.column ∧ result.name ≠ m.content := by
  rcases appliedColumns_eq_ok h with ⟨rfl, -⟩ | ⟨-, content, bytes, hmapped, -, rfl⟩
  · exact List.forall_mem_singleton.mpr ⟨hother, hsole.1⟩
  · rw [hschema, htable] at hmapped
    refine List.forall_mem_cons.mpr ⟨⟨hother, hsole.1⟩, List.forall_mem_singleton.mpr ⟨?_, ?_⟩⟩
    · rintro rfl
      exact hsole.2.2 hmapped
    · rintro rfl
      exact hsole.2.1 hmapped

theorem mapped_of_appliedColumns {column embedded : Column}
    (hschema : event.schema = m.rule.schema) (htable : event.table = m.rule.table)
    (hembeds : m.Embeds change column embedded) (hmapped : column.name = m.rule.column)
    (hplain : column.encoding ≠ "base64") (h : appliedColumns server event embedded = .ok applied) :
    m.Writes applied (some (column.value.bind fun path =>
      (change.files change.row m.rule path).toOption.map fun content => (path, content))) := by
  have hmapping : server.fileMapping event.schema event.table m.rule.column = some m.content := by
    rw [hschema, htable, m.mapped]
  cases hvalue : column.value with
  | none =>
      obtain rfl := hembeds.null hmapped hvalue
      rcases appliedColumns_eq_ok h with ⟨rfl, -⟩ | ⟨hmarked, -⟩
      · rw [hmapped, hvalue]
        exact .null (by simp) (by simpa using m.distinct.symm)
      · exact absurd hmarked hplain
  | some path =>
      obtain ⟨content, hcontent, rfl⟩ := hembeds.file hmapped path hvalue
      rcases appliedColumns_eq_ok h with ⟨-, hno | hno⟩ | ⟨-, target, bytes, htarget, hbytes, rfl⟩
      · exact absurd rfl hno
      · dsimp only at hno
        rw [hmapped, hmapping] at hno
        cases hno
      · dsimp only at htarget
        rw [hmapped, hmapping] at htarget
        cases htarget
        rw [← hbytes _ rfl, base64Decode_encode]
        simp only [hmapped, hcontent, Option.bind_some, Except.toOption, Option.map_some]
        refine .file path content (by simp) ?_
        simp [m.distinct.symm]

theorem Writes.append_left {front back : List AppliedColumn}
    (hfront : ∀ column ∈ front, column.name ≠ m.rule.column ∧ column.name ≠ m.content)
    (h : m.Writes back tag) : m.Writes (front ++ back) tag := by
  have hsource : front.find? (fun column => column.name = m.rule.column) = none :=
    List.find?_eq_none.mpr fun column hcolumn => by simpa using (hfront column hcolumn).1
  have hcontent : front.find? (fun column => column.name = m.content) = none :=
    List.find?_eq_none.mpr fun column hcolumn => by simpa using (hfront column hcolumn).2
  cases h with
  | unlisted hnone => exact .unlisted (List.forall_mem_append.mpr ⟨hfront, hnone⟩)
  | null hnull hnone =>
      refine .null ?_ (List.forall_mem_append.mpr ⟨fun column hcolumn => (hfront column hcolumn).2, hnone⟩)
      rw [List.find?_append, hsource, hnull]
      rfl
  | file path content hpath hbytes =>
      refine .file path content ?_ ?_
      · rw [List.find?_append, hsource, hpath]
        rfl
      · rw [List.find?_append, hcontent, hbytes]
        rfl

theorem Writes.append_right {front back : List AppliedColumn} {tag : Option Tag}
    (hback : ∀ column ∈ back, column.name ≠ m.rule.column ∧ column.name ≠ m.content)
    (h : m.Writes front (some tag)) : m.Writes (front ++ back) (some tag) := by
  cases h with
  | null hnull hnone =>
      refine .null ?_ (List.forall_mem_append.mpr ⟨hnone, fun column hcolumn => (hback column hcolumn).2⟩)
      rw [List.find?_append, hnull]
      rfl
  | file path content hpath hbytes =>
      refine .file path content ?_ ?_
      · rw [List.find?_append, hpath]
        rfl
      · rw [List.find?_append, hbytes]
        rfl

/-- The server writes the file to its column and the path beside it. -/
theorem writes_of_transform {columns embedded : List Column}
    (hschema : event.schema = m.rule.schema) (htable : event.table = m.rule.table)
    (hembeds : List.Forall₂ (m.Embeds change) columns embedded)
    (hplain : ∀ column ∈ columns, column.encoding ≠ "base64") (hnames : (columns.map Column.name).Nodup)
    (hsole : ∀ column ∈ columns, column.name ≠ m.rule.column → column.name ≠ m.content
      ∧ server.fileMapping m.rule.schema m.rule.table column.name ≠ some m.content
      ∧ server.fileMapping m.rule.schema m.rule.table column.name ≠ some m.rule.column)
    (h : transform server event embedded = .ok applied) :
    m.Writes applied (m.noted change columns) := by
  induction hembeds generalizing applied with
  | nil =>
      cases h
      exact .unlisted (List.forall_mem_nil _)
  | @cons column result columns results hcolumn _ ih =>
      obtain ⟨first, hfirst, h⟩ := Except.bind_eq_ok.mp h
      obtain ⟨rest, hrest, h⟩ := Except.bind_eq_ok.mp h
      cases h
      obtain ⟨hfresh, hnames⟩ := List.nodup_cons.mp hnames
      have htail := ih (fun other hother => hplain other (List.mem_cons_of_mem _ hother)) hnames
        (fun other hother => hsole other (List.mem_cons_of_mem _ hother)) hrest
      by_cases hmapped : column.name = m.rule.column
      · have hhead := mapped_of_appliedColumns hschema htable hcolumn hmapped
          (hplain column List.mem_cons_self) hfirst
        have hnone : m.noted change columns = none := by
          rw [noted, Option.map_eq_none_iff, List.find?_eq_none]
          intro other hother hsame
          apply hfresh
          rw [hmapped, ← of_decide_eq_true hsame]
          exact List.mem_map_of_mem hother
        have hnoted : m.noted change (column :: columns) = some (column.value.bind fun path =>
            (change.files change.row m.rule path).toOption.map fun content => (path, content)) := by
          rw [noted, List.find?_cons_of_pos (by simpa using hmapped), Option.map_some]
        rw [hnoted]
        rw [hnone] at htail
        cases htail with
        | unlisted hothers => exact hhead.append_right hothers
      · have hnoted : m.noted change (column :: columns) = m.noted change columns := by
          rw [noted, noted, List.find?_cons_of_neg (by simpa using hmapped)]
        rw [hnoted]
        refine htail.append_left (other_of_appliedColumns hschema htable ?_ ?_ hfirst)
        · rwa [hcolumn.name]
        · rw [hcolumn.name]
          exact hsole column List.mem_cons_self hmapped

end Writing

section Values

variable {Value : Type} {pg : Postgres Value} {change : FileRow} {event : Row}

def Cast (pg : Postgres Value) (path : String) (value : Value) : Prop :=
  ∃ type arg, argument type { name := m.rule.column, value := .text (some path) } = .ok arg
    ∧ cast pg type arg = .ok (some value)

variable {m}

theorem valueAt_of_written {types : List (String × String)}
    {values : List (Expression Value)} (h : List.Forall₂ (Written pg types) applied values)
    (name : String) :
    match applied.find? fun column => column.name = name with
    | none => valueAt values name = none
    | some column => ∃ type arg value, types.lookup name = some type ∧ argument type column = .ok arg
        ∧ cast pg type arg = .ok value ∧ valueAt values name = some value := by
  induction h with
  | nil => rfl
  | @cons column value applied values hwritten _ ih =>
      by_cases hname : column.name = name
      · rw [List.find?_cons_of_pos (by simpa using hname)]
        obtain ⟨type, arg, htype, harg, hcast⟩ := hwritten.value
        rw [hname] at htype
        refine ⟨type, arg, value.value, htype, harg, hcast, ?_⟩
        rw [valueAt, List.find?_cons_of_pos (by simpa [hwritten.name] using hname), Option.map_some]
      · have hvalue : valueAt (value :: values) name = valueAt values name := by
          rw [valueAt, valueAt, List.find?_cons_of_neg (by simpa [hwritten.name] using hname)]
        rw [List.find?_cons_of_neg (by simpa using hname), hvalue]
        exact ih

theorem cast_path {type path : String} {arg : Arg} {value : Option Value}
    (harg : argument type { name := m.rule.column, value := .text (some path) } = .ok arg)
    (hcast : cast pg type arg = .ok value) : ∃ result, value = some result ∧ m.Cast pg path result := by
  have hsome : ∃ result, value = some result := by
    have hargs : (∃ bytes, arg = .bytes (some bytes)) ∨ arg = .text (some path) := by
      simp only [argument, Bool.false_eq_true, if_false] at harg
      split_ifs at harg
      · split at harg
        · cases harg
        · cases harg
          exact .inl ⟨_, rfl⟩
      · cases harg
        exact .inr rfl
    rcases hargs with ⟨bytes, rfl⟩ | rfl
    · cases hcast
      exact ⟨_, rfl⟩
    · simp only [Server.cast] at hcast
      split at hcast
      · cases hcast
      · cases hcast
        exact ⟨_, rfl⟩
  obtain ⟨result, rfl⟩ := hsome
  exact ⟨result, rfl, type, arg, harg, hcast⟩

inductive Sets (m : Mapping collector server) (pg : Postgres Value) (types : List (String × String))
    (values : List (Expression Value)) : Option (Option Tag) → Prop
  | unlisted (hsource : valueAt values m.rule.column = none) (hcontent : valueAt values m.content = none) :
      Sets m pg types values none
  | null (hsource : valueAt values m.rule.column = some none) (hcontent : valueAt values m.content = none) :
      Sets m pg types values (some none)
  | file (path : String) (content : List UInt8) (value : Value) (hcast : m.Cast pg path value)
      (hcolumn : m.rule.column ∈ types.map Prod.fst)
      (hsource : valueAt values m.rule.column = some (some value))
      (hcontent : valueAt values m.content = some (some (pg.castBytes content))) :
      Sets m pg types values (some (some (path, content)))

/-- The values of a statement set the file and the path together. -/
theorem Writes.sets {types : List (String × String)}
    {values : List (Expression Value)} (h : m.Writes applied tag)
    (hvalues : List.Forall₂ (Written pg types) applied values) : m.Sets pg types values tag := by
  have hsource := valueAt_of_written hvalues m.rule.column
  have hcontent := valueAt_of_written hvalues m.content
  have hunwritten (name : String) (hnone : ∀ column ∈ applied, column.name ≠ name) :
      applied.find? (fun column => column.name = name) = none :=
    List.find?_eq_none.mpr fun column hcolumn => by simpa using hnone column hcolumn
  cases h with
  | unlisted hnone =>
      rw [hunwritten _ fun column hcolumn => (hnone column hcolumn).1] at hsource
      rw [hunwritten _ fun column hcolumn => (hnone column hcolumn).2] at hcontent
      exact .unlisted hsource hcontent
  | null hnull hnone =>
      rw [hnull] at hsource
      rw [hunwritten _ hnone] at hcontent
      obtain ⟨type, arg, value, -, harg, hcast, hvalue⟩ := hsource
      cases harg
      cases hcast
      exact .null hvalue hcontent
  | file path content hpath hbytes =>
      rw [hpath] at hsource
      rw [hbytes] at hcontent
      obtain ⟨type, arg, value, htype, harg, hcast, hvalue⟩ := hsource
      obtain ⟨result, rfl, hresult⟩ := cast_path harg hcast
      obtain ⟨type', arg', value', -, harg', hcast', hvalue'⟩ := hcontent
      simp only [argument, if_true] at harg'
      split_ifs at harg'
      cases harg'
      cases hcast'
      obtain ⟨front, back, rfl, -⟩ := List.lookup_eq_some_iff.mp htype
      exact .file path content result hresult (by simp) hvalue hvalue'

theorem sets_of_statement {prepared : Statement Value} {tables : Tables Value}
    (hchange : m.Captured change) (hsole : m.Sole change)
    (hevent : change.embedded collector = .ok event)
    (h : statement pg server (targetColumnTypes tables) event = .ok prepared)
    (hdelete : ∀ predicate, prepared ≠ .delete predicate) :
    ∃ types, targetColumnTypes tables m.rule.table = .ok types
      ∧ m.Sets pg types prepared.values (m.noted change change.row.columns) := by
  have hmidway := embeds_of_embedded hchange hevent
  have hschema : event.schema = m.rule.schema := by rw [hmidway.frame, ← hchange.schema]
  have htable : event.table = m.rule.table := by rw [hmidway.frame, ← hchange.table]
  obtain ⟨types, applied, htypes, happlied, hwritten⟩ := Server.written_of_statement h hdelete
  rw [htable] at htypes
  refine ⟨types, htypes, Writes.sets ?_ hwritten⟩
  exact writes_of_transform hschema htable hmidway.columns hchange.plain hchange.names hsole happlied

end Values

section Rows

variable {Value : Type}

abbrev Tagged (Value : Type) := TargetRow Value × Option Tag

/-- The row has the content that was read for its path, and NULL with a NULL path. -/
structure Holds (pg : Postgres Value) (entry : Tagged Value) : Prop where
  content : entry.1.lookup m.content = some (entry.2.map fun tag => pg.castBytes tag.2)
  source : ∀ tag ∈ entry.2, ∃ value, m.Cast pg tag.1 value
    ∧ entry.1.lookup m.rule.column = some (some value)
  null : entry.1.lookup m.rule.column = some none → entry.1.lookup m.content = some none

def track (pg : Postgres Value) (columns : List (String × String)) (tag : Option (Option Tag))
    (rows : List (Tagged Value)) : Statement Value → Option (List (Tagged Value))
  | .insert values => some (rows ++ [(newRow pg m.rule.table columns values, tag.join)])
  | .update values predicate =>
      changeFirst (fun entry => matchesRow pg predicate entry.1)
        (fun entry => some (assign values entry.1, tag.getD entry.2)) rows
  | .delete predicate => changeFirst (fun entry => matchesRow pg predicate entry.1) (fun _ => none) rows

theorem changeFirst_map {α β : Type} {f : α → β} {pick : β → Bool} {change : β → Option β}
    {change' : α → Option α} (hchange : ∀ x, (change' x).map f = change (f x)) (rows : List α) :
    changeFirst pick change (rows.map f)
      = (changeFirst (fun x => pick (f x)) change' rows).map (List.map f) := by
  induction rows with
  | nil => rfl
  | cons row rows ih =>
      rw [List.map_cons, changeFirst, changeFirst, ih]
      split_ifs
      · rw [Option.map_some, List.map_append, ← hchange row]
        cases change' row with
        | none => rfl
        | some next => rfl
      · rw [Option.map_map, Option.map_map]
        rfl

theorem rows_eq_track (pg : Postgres Value) (columns : List (String × String)) (tag : Option (Option Tag))
    (rows : List (Tagged Value)) (prepared : Statement Value) :
    prepared.rows pg m.rule.table columns (rows.map Prod.fst)
      = (m.track pg columns tag rows prepared).map (List.map Prod.fst) := by
  cases prepared with
  | insert values => simp [Statement.rows, track]
  | update values predicate =>
      refine changeFirst_map ?_ rows
      intro entry
      rfl
  | delete predicate =>
      refine changeFirst_map ?_ rows
      intro entry
      rfl

variable {m} {pg : Postgres Value} {columns : List (String × String)} {values : List (Expression Value)}
  {tag : Option (Option Tag)}

theorem holds_iff {entry : Tagged Value} :
    m.Holds pg entry
      ↔ entry.1.lookup m.content = some (entry.2.map fun tag => pg.castBytes tag.2)
        ∧ ∀ tag ∈ entry.2, ∃ value, m.Cast pg tag.1 value
          ∧ entry.1.lookup m.rule.column = some (some value) := by
  refine ⟨fun h => ⟨h.content, h.source⟩, fun h => ⟨h.1, h.2, fun hnull => ?_⟩⟩
  cases htag : entry.2 with
  | none => rw [h.1, htag, Option.map_none]
  | some tag =>
      obtain ⟨value, -, hvalue⟩ := h.2 tag htag
      cases hnull.symm.trans hvalue

theorem holds_newRow_iff (hsets : m.Sets pg columns values tag)
    (hexists : m.content ∈ columns.map Prod.fst) :
    m.Holds pg (newRow pg m.rule.table columns values, tag.join)
      ↔ (tag.join = none → pg.defaultValue m.rule.table m.content = none) := by
  have hlookup (column : String) (hcolumn : column ∈ columns.map Prod.fst) :
      (newRow pg m.rule.table columns values).lookup column
        = some ((valueAt values column).getD (pg.defaultValue m.rule.table column)) :=
    Server.lookup_newRow hcolumn values
  rw [holds_iff, hlookup m.content hexists]
  cases hsets with
  | unlisted _ hunset => simp [hunset]
  | null _ hunset => simp [hunset]
  | file path content value hcast hcolumn hpath hbytes =>
      have hsource := hlookup m.rule.column hcolumn
      rw [hpath] at hsource
      simp only [hbytes, Option.join_some, Option.map_some, Option.getD_some, Option.mem_some, forall_eq',
        hsource, true_and, reduceCtorEq, false_imp_iff, iff_true]
      exact ⟨value, hcast, rfl⟩

/-- An update keeps the pair unless it removes the path of a file. -/
theorem holds_assign_iff {entry : Tagged Value} (hsets : m.Sets pg columns values tag)
    (hentry : m.Holds pg entry) (hshape : entry.1.map Prod.fst = columns.map Prod.fst) :
    m.Holds pg (assign values entry.1, tag.getD entry.2) ↔ (tag = some none → entry.2 = none) := by
  have hsource := Server.lookup_assign values entry.1 m.rule.column
  have hcontent := Server.lookup_assign values entry.1 m.content
  rw [hentry.content, Option.map_some] at hcontent
  rw [holds_iff, hcontent]
  cases hsets with
  | unlisted hnosource hnocontent =>
      rw [hnosource] at hsource
      simp only [hnocontent, Option.getD_none, hsource, true_and, reduceCtorEq, false_imp_iff, iff_true]
      intro tag htag
      obtain ⟨value, hcast, hvalue⟩ := hentry.source tag htag
      exact ⟨value, hcast, by rw [hvalue]; rfl⟩
  | null hnull hnocontent =>
      simp [hnocontent]
  | file path content value hcast hcolumn hpath hbytes =>
      rw [← hshape] at hcolumn
      obtain ⟨old, hold⟩ := Option.isSome_iff_exists.mp (Assoc.lookup_isSome_iff.mpr hcolumn)
      rw [hold, hpath] at hsource
      simp only [hbytes, Option.map_some, Option.getD_some, Option.mem_some, forall_eq', hsource, true_and]
      simp only [Option.some.injEq, reduceCtorEq, false_imp_iff, iff_true]
      exact ⟨value, hcast, rfl⟩

end Rows

end Mapping

structure Watched (Value : Type) where
  tables : Tables Value
  rows : List (Mapping.Tagged Value)

def Watched.performs {Value : Type} (collector : Config) (server : Syncer) (pg : Postgres Value)
    (w : Watched Value) (change : FileRow) : Option (Tables Value × Statement Value) :=
  match change.embedded collector with
  | .error _ => none
  | .ok event =>
      match applyRow pg server (targetColumnTypes w.tables) event w.tables,
          statement pg server (targetColumnTypes w.tables) event with
      | .ok tables, .ok prepared => some (tables, prepared)
      | _, _ => none

namespace Mapping

section Runs

variable {Value : Type} (pg : Postgres Value)

def step (w : Watched Value) (change : FileRow) : Watched Value :=
  match w.performs collector server pg change with
  | none => w
  | some (tables, prepared) =>
      { tables := tables
        rows := (m.track pg (((w.tables m.rule.table).map Server.TargetTable.columns).getD [])
          (m.noted change change.row.columns) w.rows prepared).getD w.rows }

def Coherent (w : Watched Value) : Prop :=
  ∀ entry ∈ w.rows, m.Holds pg entry

/-- What a statement relies on: a row without a file is inserted with a NULL default, and an update to NULL
meets a row that has no file. -/
def KeptBy (w : Watched Value) (tag : Option (Option Tag)) : Statement Value → Prop
  | .insert _ => tag.join = none → pg.defaultValue m.rule.table m.content = none
  | .update _ predicate => tag = some none →
      ∀ entry, w.rows.find? (fun entry => matchesRow pg predicate entry.1) = some entry → entry.2 = none
  | .delete _ => True

def Kept (w : Watched Value) (change : FileRow) : Prop :=
  ∀ tables prepared, w.performs collector server pg change = some (tables, prepared) →
    m.KeptBy pg w (m.noted change change.row.columns) prepared

structure Linked (w : Watched Value) (table : Server.TargetTable Value) : Prop where
  found : w.tables m.rule.table = some table
  rows : table.rows = w.rows.map Prod.fst
  content : m.content ∈ table.columns.map Prod.fst
  shape : ∀ entry ∈ w.rows, entry.1.map Prod.fst = table.columns.map Prod.fst

variable {m pg} {w : Watched Value} {change : FileRow} {table : Server.TargetTable Value}
  {tables : Tables Value} {prepared : Statement Value}

theorem performs_eq_some (h : w.performs collector server pg change = some (tables, prepared)) :
    ∃ event, change.embedded collector = .ok event
      ∧ statement pg server (targetColumnTypes w.tables) event = .ok prepared
      ∧ prepared.execute pg w.tables event.table = .ok tables := by
  unfold Watched.performs at h
  split at h
  · cases h
  rename_i event hevent
  split at h
  · rename_i applied prepared' happlied hprepared
    cases h
    rw [applyRow, hprepared] at happlied
    exact ⟨event, hevent, hprepared, happlied⟩
  · cases h

/-- The tag moves with its row. -/
theorem track_cases {columns : List (String × String)}
    {rows next : List (Tagged Value)} (h : m.track pg columns tag rows prepared = some next) :
    (∃ values, prepared = .insert values
        ∧ next = rows ++ [(newRow pg m.rule.table columns values, tag.join)])
      ∨ (∃ values predicate front entry back, prepared = .update values predicate
        ∧ rows = front ++ entry :: back
        ∧ rows.find? (fun entry => matchesRow pg predicate entry.1) = some entry
        ∧ next = front ++ (assign values entry.1, tag.getD entry.2) :: back)
      ∨ ∃ predicate front entry back, prepared = .delete predicate ∧ rows = front ++ entry :: back
        ∧ next = front ++ back := by
  cases prepared with
  | insert values =>
      cases h
      exact .inl ⟨values, rfl, rfl⟩
  | update values predicate =>
      obtain ⟨front, entry, back, hrows, hfind, rfl⟩ := Server.changeFirst_eq_some h
      exact .inr (.inl ⟨values, predicate, front, entry, back, rfl, hrows, hfind, rfl⟩)
  | delete predicate =>
      obtain ⟨front, entry, back, hrows, -, rfl⟩ := Server.changeFirst_eq_some h
      exact .inr (.inr ⟨predicate, front, entry, back, rfl, hrows, rfl⟩)

theorem Linked.performs (hlinked : m.Linked w table) (hchange : m.Captured change)
    (h : w.performs collector server pg change = some (tables, prepared)) :
    ∃ next, m.track pg table.columns (m.noted change change.row.columns) w.rows prepared = some next
      ∧ m.step pg w change = ⟨tables, next⟩
      ∧ tables m.rule.table = some { table with rows := next.map Prod.fst } := by
  obtain ⟨event, hevent, hprepared, hexecute⟩ := performs_eq_some h
  have htable : event.table = m.rule.table := by
    rw [(embeds_of_embedded hchange hevent).frame, ← hchange.table]
  rw [htable] at hexecute
  obtain ⟨table', rows, htable', hrows, rfl⟩ := Server.rows_of_execute hexecute
  cases hlinked.found.symm.trans htable'
  rw [hlinked.rows, m.rows_eq_track pg table.columns (m.noted change change.row.columns)] at hrows
  obtain ⟨next, hnext, rfl⟩ := Option.map_eq_some_iff.mp hrows
  refine ⟨next, hnext, ?_, Function.update_self ..⟩
  rw [step, h]
  dsimp only
  rw [hlinked.found, Option.map_some, Option.getD_some, hnext, Option.getD_some]

/-- A change keeps rows and tags side by side. -/
theorem Linked.step (hlinked : m.Linked w table) (hchange : m.Captured change) :
    ∃ table', m.Linked (m.step pg w change) table' := by
  cases hperforms : w.performs collector server pg change with
  | none =>
      refine ⟨table, ?_⟩
      rw [Mapping.step, hperforms]
      exact hlinked
  | some performed =>
      obtain ⟨tables, prepared⟩ := performed
      obtain ⟨next, hnext, hstep, htable⟩ := hlinked.performs hchange hperforms
      rw [hstep]
      refine ⟨_, htable, rfl, hlinked.content, ?_⟩
      have hshape := hlinked.shape
      rcases track_cases hnext with ⟨values, -, rfl⟩ | ⟨values, _, front, entry, back, -, hrows, -, rfl⟩
        | ⟨_, front, entry, back, -, hrows, rfl⟩
      · exact List.forall_mem_append.mpr ⟨hshape, List.forall_mem_singleton.mpr Server.names_newRow⟩
      · rw [hrows, List.forall_mem_append, List.forall_mem_cons] at hshape
        obtain ⟨hfront, hentry, hback⟩ := hshape
        exact List.forall_mem_append.mpr
          ⟨hfront, List.forall_mem_cons.mpr ⟨Server.names_assign.trans hentry, hback⟩⟩
      · rw [hrows, List.forall_mem_append, List.forall_mem_cons] at hshape
        exact List.forall_mem_append.mpr ⟨hshape.1, hshape.2.2⟩

/-- A change keeps the column coherent exactly if what its statement relies on is given. -/
theorem coherent_step_iff (hlinked : m.Linked w table) (hcoherent : m.Coherent pg w)
    (hchange : m.Captured change) (hsole : m.Sole change) :
    m.Coherent pg (m.step pg w change) ↔ m.Kept pg w change := by
  cases hperforms : w.performs collector server pg change with
  | none => simp [Mapping.step, Kept, hperforms, hcoherent]
  | some performed =>
      obtain ⟨tables, prepared⟩ := performed
      obtain ⟨next, hnext, hstep, htable⟩ := hlinked.performs hchange hperforms
      obtain ⟨event, hevent, hprepared, -⟩ := performs_eq_some hperforms
      have hkept : m.Kept pg w change ↔ m.KeptBy pg w (m.noted change change.row.columns) prepared := by
        constructor
        · intro h
          exact h tables prepared hperforms
        · intro h tables' prepared' hperforms'
          cases hperforms.symm.trans hperforms'
          exact h
      have hsets (hdelete : ∀ predicate, prepared ≠ .delete predicate) :
          m.Sets pg table.columns prepared.values (m.noted change change.row.columns) := by
        obtain ⟨types, htypes, hsets⟩ := sets_of_statement hchange hsole hevent hprepared hdelete
        rw [targetColumnTypes, hlinked.found] at htypes
        dsimp only at htypes
        split_ifs at htypes
        cases htypes
        exact hsets
      rw [hstep, hkept]
      unfold Coherent at hcoherent ⊢
      rcases track_cases hnext with ⟨values, rfl, rfl⟩
        | ⟨values, predicate, front, entry, back, rfl, hrows, hfind, rfl⟩
        | ⟨predicate, front, entry, back, rfl, hrows, rfl⟩
      · have hsets : m.Sets pg table.columns values (m.noted change change.row.columns) := hsets nofun
        rw [List.forall_mem_append, List.forall_mem_singleton, holds_newRow_iff hsets hlinked.content]
        exact and_iff_right hcoherent
      · have hsets : m.Sets pg table.columns values (m.noted change change.row.columns) := hsets nofun
        have hshape := hlinked.shape
        rw [hrows, List.forall_mem_append, List.forall_mem_cons] at hcoherent hshape
        rw [List.forall_mem_append, List.forall_mem_cons,
          holds_assign_iff hsets hcoherent.2.1 hshape.2.1]
        constructor
        · rintro ⟨-, hentry, -⟩ hnull found hfound
          cases hfind.symm.trans hfound
          exact hentry hnull
        · intro hkept
          exact ⟨hcoherent.1, fun hnull => hkept hnull entry hfind, hcoherent.2.2⟩
      · rw [hrows, List.forall_mem_append, List.forall_mem_cons] at hcoherent
        exact iff_of_true (List.forall_mem_append.mpr ⟨hcoherent.1, hcoherent.2.2⟩) trivial

end Runs

end Mapping

/-- Along a run of captured rows whose file columns nothing else writes, every state is coherent exactly if
every step finds what it relies on. -/
theorem file_columns_coherent_iff {Value : Type} (m : Mapping collector server) (pg : Postgres Value)
    {changes : List FileRow} (hchanges : ∀ change ∈ changes, m.Captured change ∧ m.Sole change)
    {w : Watched Value} {table : Server.TargetTable Value} (hlinked : m.Linked w table)
    (hcoherent : m.Coherent pg w) :
    Run.Along (m.step pg) (fun w change => m.Coherent pg (m.step pg w change)) w changes
      ↔ Run.Along (m.step pg) (m.Kept pg) w changes := by
  refine Run.along_iff (fun w => (∃ table, m.Linked w table) ∧ m.Coherent pg w) ?_ ?_
    ⟨⟨table, hlinked⟩, hcoherent⟩
  · rintro w change hmem ⟨⟨table, hlinked⟩, hcoherent⟩
    obtain ⟨hchange, hsole⟩ := hchanges change hmem
    exact Mapping.coherent_step_iff hlinked hcoherent hchange hsole
  · rintro w change hmem ⟨⟨table, hlinked⟩, -⟩ hnext
    exact ⟨hlinked.step (hchanges change hmem).1, hnext⟩

section Documents

def documentRule : FileColumn :=
  { schema := "public", table := "documents", column := "path", rootDir := "/files", maxBytes := 100 }

def documents : Mapping
    { sourceId := "s", tables := [⟨"public", "documents"⟩], fileColumns := [documentRule] }
    { id := "s", tables := [⟨"public", "documents"⟩]
      fileColumns := [⟨"public", "documents", "path", "content"⟩] } where
  rule := documentRule
  content := "content"
  configured := by decide
  unique := by decide
  mapped := by decide
  distinct := by decide

def emptyDocuments : Watched String where
  tables := fun name =>
    if name = "documents" then
      some { columns := [("id", "text"), ("path", "text"), ("content", "bytea")] }
    else
      none
  rows := []

def document (operation : Operation) (path : Option String) : FileRow where
  row :=
    { schema := "public", table := "documents", operation := operation
      key := [{ name := "id", value := some "1" }]
      columns := [{ name := "id", value := some "1" }, { name := "path", value := path }] }
  files := fun _ _ path => .ok (path.toList.map fun c => c.val.toUInt8)

def hexPostgres : Postgres String :=
  { Postgres.plain with castBytes := hexEncode }

theorem linked_emptyDocuments :
    documents.Linked emptyDocuments { columns := [("id", "text"), ("path", "text"), ("content", "bytea")] } where
  found := rfl
  rows := rfl
  content := by decide
  shape := List.forall_mem_nil _

theorem captured_document (operation : Operation) (path : Option String) :
    documents.Captured (document operation path) ∧ documents.Sole (document operation path) := by
  refine ⟨⟨rfl, rfl, ?_, ?_⟩, ?_⟩
  · simp [document]
  · simp [document]
  · simp [Mapping.Sole, document, documents, documentRule, Syncer.fileMapping]

/-- A document gets another file. -/
theorem file_columns_coherent_moved :
    let changes := [document .insert (some "a"), document .update (some "b")]
    (changes.foldl (documents.step hexPostgres) emptyDocuments).rows
        = [([("id", some "1"), ("path", some "b"), ("content", some "62")], some ("b", [98]))]
      ∧ Run.Along (documents.step hexPostgres)
        (fun w change => documents.Coherent hexPostgres (documents.step hexPostgres w change))
        emptyDocuments changes := by
  intro changes
  have hchanges : ∀ change ∈ changes, documents.Captured change ∧ documents.Sole change :=
    List.forall_mem_cons.mpr ⟨captured_document _ _,
      List.forall_mem_singleton.mpr (captured_document _ _)⟩
  have hkept (operation : Operation) (path : String) (w : Watched String) :
      documents.Kept hexPostgres w (document operation (some path)) := by
    have hnoted : documents.noted (document operation (some path))
        (document operation (some path)).row.columns
        = some (some (path, path.toList.map fun c => c.val.toUInt8)) := rfl
    intro tables prepared _
    rw [hnoted]
    cases prepared with
    | insert values => exact nofun
    | update values predicate => exact nofun
    | delete predicate => trivial
  refine ⟨by decide +kernel, (file_columns_coherent_iff documents hexPostgres hchanges
    linked_emptyDocuments (List.forall_mem_nil _)).mpr ?_⟩
  exact ⟨hkept _ _ _, hkept _ _ _, trivial⟩

/-- The path of a document is set to NULL: the content of the old file stays. -/
theorem file_column_keeps_content :
    let changes := [document .insert (some "a"), document .update none]
    (∀ change ∈ changes, documents.Captured change ∧ documents.Sole change)
      ∧ (changes.foldl (documents.step hexPostgres) emptyDocuments).tables "documents"
        = some { columns := [("id", "text"), ("path", "text"), ("content", "bytea")]
                 rows := [[("id", some "1"), ("path", none), ("content", some "61")]] }
      ∧ ¬ Run.Along (documents.step hexPostgres)
        (fun w change => documents.Coherent hexPostgres (documents.step hexPostgres w change))
        emptyDocuments changes := by
  intro changes
  refine ⟨?_, by decide +kernel, ?_⟩
  · exact List.forall_mem_cons.mpr ⟨captured_document _ _,
      List.forall_mem_singleton.mpr (captured_document _ _)⟩
  · rintro ⟨-, hlast, -⟩
    have hrows : (documents.step hexPostgres (documents.step hexPostgres emptyDocuments
        (document .insert (some "a"))) (document .update none)).rows
        = [([("id", some "1"), ("path", none), ("content", some "61")], none)] := by
      decide +kernel
    have hholds := hlast ([("id", some "1"), ("path", none), ("content", some "61")], none) (by
      rw [hrows]
      exact List.mem_cons_self)
    exact absurd (hholds.null (by decide)) (by decide)

end Documents

end GoSync.Replication
