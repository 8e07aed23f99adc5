import GoSync.Server.Contents
import GoSync.Server.Staging

/-!
# Atomic snapshots

A snapshot is received over many messages and published with its last one. Whatever else happens in
between (messages that are delivered again or refused, restarts), the target tables stay as they are
until then, and the tables in the scope hold the rows of the snapshot afterwards.
-/

namespace GoSync.Server

variable {Raw Value Hash : Type} [DecidableEq Hash] {rt : Runtime Raw Value Hash}

section Accepted

def Delivery.accepted (rt : Runtime Raw Value Hash) (target : Target Raw Value Hash) :
    Delivery Raw → Option Message
  | .store backend message raw _ =>
      if (Server.store rt { types := target.types, backend := backend } message raw target.db).isOk
          ∧ receivedOf message.generation target.db < message.seq then
        some message
      else
        none
  | _ => none

def acceptedOf (rt : Runtime Raw Value Hash) :
    Target Raw Value Hash → List (Delivery Raw) → List Message
  | _, [] => []
  | target, delivery :: rest =>
      (delivery.accepted rt target).toList ++ acceptedOf rt (target.deliver rt delivery) rest

variable {target : Target Raw Value Hash} {delivery : Delivery Raw} {message : Message}

theorem deliver_of_accepted_none (h : delivery.accepted rt target = none) :
    (target.deliver rt delivery).db = target.db := by
  cases delivery with
  | failed | remember table | rememberFirst count table | restart => rfl
  | store backend message raw reported =>
      cases hstore : Server.store rt { types := target.types, backend := backend } message raw
          target.db with
      | error err => simp only [Target.deliver, hstore]
      | ok db =>
          simp only [Target.deliver, hstore]
          obtain ⟨-, ⟨-, -, rfl⟩ | ⟨current, cleared, hswitch, hseq, -⟩⟩ := store_cases hstore
          · rfl
          · have hreceived := (switchGeneration_received hswitch).1
            simp only [Delivery.accepted, hstore] at h
            rw [if_pos ⟨rfl, by omega⟩] at h
            cases h

theorem receive_of_accepted_some (h : delivery.accepted rt target = some message) :
    ∃ backend raw reported current cleared, delivery = .store backend message raw reported
      ∧ switchGeneration message target.db = .ok (current, cleared)
      ∧ message.seq = current.received + 1
      ∧ receive rt { types := target.types, backend := backend } target.db.tables message raw current
          cleared = .ok (target.deliver rt delivery).db := by
  cases delivery with
  | failed | remember table | rememberFirst count table | restart => cases h
  | store backend other raw reported =>
      simp only [Delivery.accepted] at h
      split_ifs at h with hnew
      cases h
      cases hstore : Server.store rt { types := target.types, backend := backend } message raw
          target.db with
      | error err =>
          rw [hstore] at hnew
          exact Bool.noConfusion hnew.1
      | ok db =>
          simp only [Target.deliver, hstore]
          obtain ⟨-, ⟨hgeneration, hold, -⟩ | ⟨current, cleared, hswitch, hseq, hreceive⟩⟩ :=
            store_cases hstore
          · rw [receivedOf, if_pos hgeneration.symm] at hnew
            omega
          · exact ⟨backend, raw, reported, current, cleared, rfl, hswitch, hseq, hreceive⟩

end Accepted

theorem snapshotScope_cases {cfg : Syncer} {ordinal : Nat} {tables : List TableRef}
    {rows scope : List ScopeRow} (h : snapshotScope cfg ordinal tables rows = .ok scope) :
    (∀ table ∈ tables, cfg.allows table.schema table.name = true)
      ∧ scope = rows ++ (tables.zipIdx ordinal).map fun (table, ordinal) =>
          { table := table, ordinal := ordinal } := by
  induction tables generalizing ordinal rows with
  | nil =>
      cases h
      simp
  | cons table tables ih =>
      rw [snapshotScope] at h
      split_ifs at h with hallowed hknown
      obtain ⟨hrest, hscope⟩ := ih h
      refine ⟨List.forall_mem_cons.mpr ⟨hallowed, hrest⟩, ?_⟩
      rw [hscope, List.append_assoc, List.zipIdx_cons, List.map_cons]
      rfl

/-- A snapshot of these tables is being received, with these chunks so far. -/
structure Loading (rt : Runtime Raw Value Hash) (generation : String) (scope : List TableRef)
    (chunks : List Message) (tables : Tables Value) (target : Target Raw Value Hash) : Prop where
  sound : target.Sound rt
  current : target.db.syncState.generation = generation
  phase : target.db.syncState.phase = .snapshot
  allowed : ∀ table ∈ scope, rt.cfg.allows table.schema table.name = true
  scope : target.db.snapshotScope = scopeRows scope
  order : Chunks generation target.db.syncState.received chunks
  rows : target.db.snapshotRows = chunks.flatMap snapshotRowsOf
  tables : target.db.tables = tables

section Loading

variable {target : Target Raw Value Hash} {delivery : Delivery Raw} {message : Message}
  {generation : String} {scope : List TableRef} {chunks : List Message} {tables : Tables Value}

theorem loading_of_snapshotBegin (hsound : target.Sound rt) (hdecoded : delivery.Decoded rt)
    (haccepted : delivery.accepted rt target = some message) (hkind : message.kind = .snapshotBegin) :
    Loading rt message.generation message.tables [] target.db.tables (target.deliver rt delivery) := by
  obtain ⟨backend, raw, reported, current, cleared, rfl, hswitch, hseq, hreceive⟩ :=
    receive_of_accepted_some haccepted
  have hafter := hsound.deliver hdecoded
  have htables := (switchGeneration_received hswitch).2.2
  generalize target.deliver rt (.store backend message raw reported) = after at hreceive hafter ⊢
  obtain ⟨types, db⟩ := after
  obtain ⟨pending, openTransaction, middle, phase, -, -, -, happly, -, rfl⟩ := receive_cases hreceive
  have hcases := applyMessage_cases happly
  simp only [hkind] at hcases
  obtain ⟨rfl, rows, hscope, rfl⟩ := hcases
  obtain ⟨hallowed, rfl⟩ := snapshotScope_cases hscope
  exact ⟨hafter, rfl, rfl, hallowed, rfl, chunks_nil _ _, rfl, htables⟩

theorem Loading.keep (h : Loading rt generation scope chunks tables target)
    (hdecoded : delivery.Decoded rt) (haccepted : delivery.accepted rt target = none) :
    Loading rt generation scope chunks tables (target.deliver rt delivery) := by
  have hsound := h.sound.deliver hdecoded
  have hdb := deliver_of_accepted_none haccepted
  generalize target.deliver rt delivery = after at hsound hdb ⊢
  obtain ⟨types, db⟩ := after
  cases hdb
  exact ⟨hsound, h.current, h.phase, h.allowed, h.scope, h.order, h.rows, h.tables⟩

/-- Schemas and rows are only staged. -/
theorem Loading.add (h : Loading rt generation scope chunks tables target)
    (hdecoded : delivery.Decoded rt) (haccepted : delivery.accepted rt target = some message)
    (hkind : message.kind = .schema ∨ message.kind = .snapshotRows) :
    Loading rt generation scope (chunks ++ [message].filter fun other => other.kind = .snapshotRows)
      tables (target.deliver rt delivery) := by
  obtain ⟨backend, raw, reported, current, cleared, rfl, hswitch, hseq, hreceive⟩ :=
    receive_of_accepted_some haccepted
  have hafter := h.sound.deliver hdecoded
  rcases switchGeneration_cases hswitch with ⟨hsame, rfl, rfl⟩ | ⟨-, -, hbegin, -, -⟩
  · have hgeneration : message.generation = generation := hsame.trans h.current
    generalize target.deliver rt (.store backend message raw reported) = after at hreceive hafter ⊢
    obtain ⟨types, db⟩ := after
    obtain ⟨pending, openTransaction, middle, phase, -, -, -, happly, -, rfl⟩ := receive_cases hreceive
    have hcases := applyMessage_cases happly
    rcases hkind with hkind | hkind
    · simp only [hkind] at hcases
      obtain ⟨rfl, -, heffect⟩ := hcases
      have hlater := h.order.mono (by omega : target.db.syncState.received ≤ message.seq)
      rw [List.filter_cons_of_neg (by simp [hkind]), List.filter_nil, List.append_nil]
      rcases heffect with ⟨-, rfl⟩ | ⟨-, stage, -, rfl⟩
      · exact ⟨hafter, hgeneration, h.phase, h.allowed, h.scope, hlater, h.rows, h.tables⟩
      · exact ⟨hafter, hgeneration, h.phase, h.allowed, h.scope, hlater, h.rows, h.tables⟩
    · simp only [hkind] at hcases
      obtain ⟨rfl, -, rfl⟩ := hcases
      rw [List.filter_cons_of_pos (by simp [hkind]), List.filter_nil]
      refine ⟨hafter, hgeneration, h.phase, h.allowed, h.scope, ?_, ?_, h.tables⟩
      · change Chunks generation message.seq _
        rw [hseq]
        exact h.order.snoc hgeneration hseq
      · rw [List.flatMap_append, ← h.rows]
        simp
  · rcases hkind with hkind | hkind <;> simp [hkind] at hbegin

variable {deliveries : List (Delivery Raw)}

theorem Loading.run (h : Loading rt generation scope chunks tables target)
    (hdecoded : ∀ delivery ∈ deliveries, delivery.Decoded rt)
    (hkinds : ∀ message ∈ acceptedOf rt target deliveries,
      message.kind = .schema ∨ message.kind = .snapshotRows) :
    Loading rt generation scope
      (chunks ++ (acceptedOf rt target deliveries).filter fun message => message.kind = .snapshotRows)
      tables (deliveries.foldl (Target.deliver rt) target) := by
  induction deliveries generalizing target chunks with
  | nil => simpa [acceptedOf] using h
  | cons delivery rest ih =>
      have hfirst := hdecoded delivery List.mem_cons_self
      have hrest := fun other hmem => hdecoded other (List.mem_cons_of_mem _ hmem)
      rw [acceptedOf] at hkinds ⊢
      obtain ⟨hhead, htail⟩ := List.forall_mem_append.mp hkinds
      rw [List.filter_append, ← List.append_assoc]
      cases haccepted : delivery.accepted rt target with
      | none =>
          rw [Option.toList_none, List.filter_nil, List.append_nil]
          exact ih (h.keep hfirst haccepted) hrest htail
      | some message =>
          have hkind := hhead message (by rw [haccepted]; exact List.mem_singleton_self _)
          exact ih (h.add hfirst haccepted hkind) hrest htail

/-- The rows that are staged are those accepted since the snapshot began. -/
theorem loading_of_acceptedOf {opening : Message} {middle : List Message} (hsound : target.Sound rt)
    (hdecoded : ∀ delivery ∈ deliveries, delivery.Decoded rt)
    (haccepted : acceptedOf rt target deliveries = opening :: middle)
    (hopening : opening.kind = .snapshotBegin)
    (hmiddle : ∀ message ∈ middle, message.kind = .schema ∨ message.kind = .snapshotRows) :
    Loading rt opening.generation opening.tables
      (middle.filter fun message => message.kind = .snapshotRows) target.db.tables
      (deliveries.foldl (Target.deliver rt) target) := by
  induction deliveries generalizing target with
  | nil => cases haccepted
  | cons delivery rest ih =>
      have hfirst := hdecoded delivery List.mem_cons_self
      have hrest := fun other hmem => hdecoded other (List.mem_cons_of_mem _ hmem)
      rw [acceptedOf] at haccepted
      cases hnew : delivery.accepted rt target with
      | none =>
          rw [hnew, Option.toList_none, List.nil_append] at haccepted
          rw [← deliver_of_accepted_none hnew]
          exact ih (hsound.deliver hfirst) hrest haccepted
      | some message =>
          rw [hnew, Option.toList_some, List.singleton_append] at haccepted
          obtain ⟨rfl, rfl⟩ := List.cons.inj haccepted
          have hbegun := loading_of_snapshotBegin hsound hfirst hnew hopening
          simpa using hbegun.run hrest hmiddle

omit [DecidableEq Hash] in
/-- Only documents and rows are accepted between the first and the last message of a snapshot. -/
theorem applyMessage_snapshot {env : Surroundings} {committed : Tables Value} {raw : Raw} {phase : Phase}
    {db db' : Db Raw Value Hash}
    (h : applyMessage rt env committed message raw phase db = .ok (db', .snapshot))
    (hbegin : message.kind ≠ .snapshotBegin) :
    phase = .snapshot ∧ (message.kind = .schema ∨ message.kind = .snapshotRows) := by
  have hcases := applyMessage_cases h
  cases hkind : message.kind with
  | snapshotBegin => exact absurd hkind hbegin
  | schema =>
      simp only [hkind] at hcases
      exact ⟨hcases.1.symm, .inl rfl⟩
  | snapshotRows =>
      simp only [hkind] at hcases
      exact ⟨hcases.1.symm, .inr rfl⟩
  | snapshotEnd =>
      simp only [hkind] at hcases
      exact absurd hcases.1 (by simp)
  | schemaEnd | transactionRows | transactionEnd | fileBegin | fileChunk | fileEnd | fileDelete =>
      simp only [hkind] at hcases
      exact absurd (hcases.1.trans hcases.2.1) (by simp)
  | other name =>
      simp only [hkind] at hcases

structure Target.Ready (rt : Runtime Raw Value Hash) (target : Target Raw Value Hash) : Prop where
  sound : target.Sound rt
  loading : target.db.syncState.phase = .snapshot →
    ∃ generation scope chunks tables, Loading rt generation scope chunks tables target

theorem Target.Ready.deliver (h : target.Ready rt) (hdecoded : delivery.Decoded rt) :
    (target.deliver rt delivery).Ready rt := by
  refine ⟨h.sound.deliver hdecoded, fun hphase => ?_⟩
  cases haccepted : delivery.accepted rt target with
  | none =>
      rw [deliver_of_accepted_none haccepted] at hphase
      obtain ⟨generation, scope, chunks, tables, hloading⟩ := h.loading hphase
      exact ⟨generation, scope, chunks, tables, hloading.keep hdecoded haccepted⟩
  | some message =>
      by_cases hbegin : message.kind = .snapshotBegin
      · exact ⟨_, _, _, _, loading_of_snapshotBegin h.sound hdecoded haccepted hbegin⟩
      obtain ⟨backend, raw, reported, current, cleared, rfl, hswitch, -, hreceive⟩ :=
        receive_of_accepted_some haccepted
      rcases switchGeneration_cases hswitch with ⟨-, rfl, rfl⟩ | ⟨-, -, hother, -, -⟩
      · obtain ⟨pending, openTransaction, middle, phase, -, -, -, happly, -, hdb⟩ :=
          receive_cases hreceive
        rw [hdb] at hphase
        obtain rfl : phase = .snapshot := hphase
        obtain ⟨hsnapshot, hkind⟩ := applyMessage_snapshot happly hbegin
        obtain ⟨generation, scope, chunks, tables, hloading⟩ := h.loading hsnapshot
        exact ⟨_, _, _, _, hloading.add hdecoded haccepted hkind⟩
      · exact absurd hother hbegin

theorem ready_run (tables : Tables Value) (hdecoded : ∀ delivery ∈ deliveries, delivery.Decoded rt) :
    (deliveries.foldl (Target.deliver rt) { db := { tables := tables } }).Ready rt := by
  refine List.foldlRecOn deliveries (Target.deliver rt) ?_ ?_
  · exact ⟨⟨.nil, staged_empty tables⟩, Phase.noConfusion⟩
  · exact fun target h delivery hmem => h.deliver (hdecoded delivery hmem)

end Loading

/-- The tables of the scope hold exactly these rows, and no other table has lost anything. -/
structure Replaced (rt : Runtime Raw Value Hash) (schemas : List SchemaTable) (scope : List TableRef)
    (rows : List Row) (before after : Tables Value) : Prop where
  listed : ∀ table ∈ scope, ∃ contents, after table.name = some contents
    ∧ (rows.filter fun row => row.schema = table.schema ∧ row.table = table.name).mapM
        (insertedRow rt.pg rt.cfg (targetColumnTypes before) contents.columns) = .ok contents.rows
  other : ∀ name, name ∉ scope.map TableRef.name → WidenedAt schemas name (before name) (after name)

section Publication

variable {scope : List TableRef} {rows : List Row} {schemas : List SchemaTable}
  {before activated cleared after : Tables Value}

omit [DecidableEq Hash] in
theorem filter_table_eq (hnames : (rt.cfg.tables.map TableRef.name).Nodup)
    (hallowed : ∀ table ∈ scope, rt.cfg.allows table.schema table.name = true)
    (hrows : ∀ row ∈ rows, ({ schema := row.schema, name := row.table } : TableRef) ∈ scope)
    {table : TableRef} (htable : table ∈ scope) :
    (rows.filter fun row => row.schema = table.schema ∧ row.table = table.name)
      = rows.filter fun row => row.table = table.name := by
  apply List.filter_congr
  intro row hrow
  simp only [decide_eq_decide, and_iff_right_iff_imp]
  intro hname
  have hconfigured := Syncer.allows_iff.mp (hallowed table htable)
  have hrow := Syncer.allows_iff.mp (hallowed _ (hrows row hrow))
  exact congrArg TableRef.schema (List.inj_on_of_nodup_map hnames hrow hconfigured hname)

omit [DecidableEq Hash] in
/-- Clearing the scope and inserting the rows replaces the tables. -/
theorem replaced_of_publication (hnames : (rt.cfg.tables.map TableRef.name).Nodup)
    (hallowed : ∀ table ∈ scope, rt.cfg.allows table.schema table.name = true)
    (hrows : ∀ row ∈ rows, ({ schema := row.schema, name := row.table } : TableRef) ∈ scope)
    (hwidened : Widened schemas before activated)
    (hcleared : scope.reverse.foldlM (fun current table => clearTable rt.pg current table.name)
      activated = .ok cleared)
    (hinserted : rows.foldlM (fun current row => applyRow rt.pg rt.cfg (targetColumnTypes before)
      { row with operation := .insert } current) cleared = .ok after) :
    Replaced rt schemas scope rows before after := by
  constructor
  · intro table htable
    obtain ⟨old, hold⟩ := Option.isSome_iff_exists.mp
      (clearTables_isSome hcleared (List.mem_reverse.mpr htable))
    have hempty := clearTables_eq hcleared table.name
    rw [if_pos (List.mem_map_of_mem (List.mem_reverse.mpr htable)), hold] at hempty
    obtain ⟨added, hadded, hafter⟩ := (insertRows_eq hinserted table.name).2 _ hempty
    refine ⟨_, hafter, ?_⟩
    rw [filter_table_eq hnames hallowed hrows htable]
    simpa using hadded
  · intro name hname
    have hkept := clearTables_eq hcleared name
    rw [if_neg (by simpa using hname)] at hkept
    have hnone : (rows.filter fun row => row.table = name) = [] := by
      rw [List.filter_eq_nil_iff]
      intro row hrow hsame
      exact hname (of_decide_eq_true hsame ▸ List.mem_map_of_mem (hrows row hrow))
    obtain ⟨hmissing, hpresent⟩ := insertRows_eq hinserted name
    have hafter : after name = activated name := by
      rw [← hkept]
      cases hcase : cleared name with
      | none => exact hmissing hcase
      | some table =>
          obtain ⟨added, hadded, hafter⟩ := hpresent table hcase
          rw [hnone] at hadded
          cases hadded
          simpa using hafter
    rw [hafter]
    exact hwidened name

end Publication

/-- The end of the snapshot replaces the tables in scope. -/
theorem Loading.publish {generation : String} {scope : List TableRef} {chunks : List Message}
    {tables : Tables Value} {target : Target Raw Value Hash} {delivery : Delivery Raw}
    {message : Message} (h : Loading rt generation scope chunks tables target)
    (hnames : (rt.cfg.tables.map TableRef.name).Nodup) (hdecoded : delivery.Decoded rt)
    (haccepted : delivery.accepted rt target = some message) (hkind : message.kind = .snapshotEnd)
    (hrows : ∀ row ∈ chunks.flatMap Message.rows,
      ({ schema := row.schema, name := row.table } : TableRef) ∈ scope) :
    let after := (target.deliver rt delivery).db
    Replaced rt (stagedSchemas message.generation message.schemaVersion target.db.schemaStage) scope
        (chunks.flatMap Message.rows) tables after.tables
      ∧ after.snapshotRows = [] ∧ after.snapshotScope = [] ∧ after.schemaStage = []
      ∧ after.syncState.phase = .stream := by
  intro after
  obtain ⟨backend, raw, reported, current, cleared, rfl, hswitch, -, hreceive⟩ :=
    receive_of_accepted_some haccepted
  have hafter := (h.sound.deliver hdecoded).staged
  rcases switchGeneration_cases hswitch with ⟨hsame, rfl, rfl⟩ | ⟨-, -, hbegin, -, -⟩
  · obtain ⟨pending, openTransaction, published, phase, -, hbarrier, -, happly, -, hdb⟩ :=
      receive_cases hreceive
    obtain ⟨-, -, rfl⟩ := (schemaBarrier_rows_iff (by simp [hkind]) (by simp [hkind])).mp hbarrier
    have hcases := applyMessage_cases happly
    simp only [hkind] at hcases
    obtain ⟨rfl, -, activated, hactivated, hpublished⟩ := hcases
    have hwidened := activateSnapshot_widened hactivated
    have hframe := activateSnapshot_frame hactivated
    obtain ⟨emptied, final, hemptied, hfinal, rfl⟩ := (publishSnapshot_iff activated
      (by rw [hframe]; exact h.scope) (by rw [hframe]; exact h.rows)
      (fun chunk hmem => (h.order.generation chunk hmem).trans (hsame.trans h.current).symm)
      h.order.seq).mp (h.sound.coherent.publishSnapshot hpublished)
    rw [h.tables] at hwidened hfinal
    rw [hdb] at hafter
    rw [show after = _ from hdb]
    refine ⟨replaced_of_publication hnames h.allowed hrows hwidened hemptied hfinal, rfl, rfl, ?_, rfl⟩
    refine hafter.stage_eq_nil (by simp [advance]) ?_
    simp [advance, hkind]
  · simp [hkind] at hbegin

/-- **Atomic snapshot replacement.** While a snapshot is received the target tables stay as they are.
Its end is either not accepted, and changes nothing, or leaves in every table of the scope exactly the
rows of the snapshot and in every other table what was there, with the columns that its schema
document adds. -/
theorem snapshot_replaces (rt : Runtime Raw Value Hash)
    (hnames : (rt.cfg.tables.map TableRef.name).Nodup) (start : Target Raw Value Hash)
    (hstart : start.Sound rt) (deliveries : List (Delivery Raw))
    (hdecoded : ∀ delivery ∈ deliveries, delivery.Decoded rt) (opening : Message)
    (middle : List Message) (haccepted : acceptedOf rt start deliveries = opening :: middle)
    (hopening : opening.kind = .snapshotBegin)
    (hmiddle : ∀ message ∈ middle, message.kind = .schema ∨ message.kind = .snapshotRows) :
    let loading := deliveries.foldl (Target.deliver rt) start
    let rows := (middle.filter fun message => message.kind = .snapshotRows).flatMap Message.rows
    loading.db.tables = start.db.tables
      ∧ ∀ backend last raw, rt.codec.unmarshal raw = some last → last.kind = .snapshotEnd →
        (∀ row ∈ rows, ({ schema := row.schema, name := row.table } : TableRef) ∈ opening.tables) →
        let delivery := Delivery.store backend last raw
        let after := (loading.deliver rt delivery).db
        (delivery.accepted rt loading = none ∧ after = loading.db)
          ∨ (delivery.accepted rt loading = some last
            ∧ Replaced rt (stagedSchemas last.generation last.schemaVersion loading.db.schemaStage)
                opening.tables rows start.db.tables after.tables
            ∧ after.snapshotRows = [] ∧ after.snapshotScope = [] ∧ after.schemaStage = []
            ∧ after.syncState.phase = .stream) := by
  intro loading rows
  have hloading : Loading rt opening.generation opening.tables
      (middle.filter fun message => message.kind = .snapshotRows) start.db.tables loading :=
    loading_of_acceptedOf hstart hdecoded haccepted hopening hmiddle
  refine ⟨hloading.tables, ?_⟩
  intro backend last raw hdecode hkind hrows delivery after
  cases hlast : delivery.accepted rt loading with
  | none => exact .inl ⟨rfl, deliver_of_accepted_none hlast⟩
  | some message =>
      obtain ⟨_, _, _, _, _, hsame, -⟩ := receive_of_accepted_some hlast
      obtain ⟨-, rfl, -⟩ := Delivery.store.inj hsame
      exact .inr ⟨rfl, hloading.publish hnames hdecode hlast hkind hrows⟩

/-- A chunk of two equal rows that is delivered again after a restart. -/
theorem snapshot_replaces_equal_rows :
    let table : TableRef := { schema := "public", name := "a" }
    let rt := Runtime.plain { id := "s", tables := [table] }
    let row : Row := { schema := "public", table := "a", operation := .read,
                       columns := [{ name := "x", value := some "1" }] }
    let old : TargetTable String := { columns := [("x", "text")], rows := [[("x", some "old")]] }
    let start : Target Message String Message :=
      { db := { tables := fun name => if name = "a" then some old else none } }
    let opening : Message := { kind := .snapshotBegin, generation := "g", seq := 1, tables := [table] }
    let rows : Message := { kind := .snapshotRows, generation := "g", seq := 2, rows := [row, row] }
    let last : Message := { kind := .snapshotEnd, generation := "g", seq := 3 }
    let deliveries : List (Delivery Message) := [.store (fun _ => true) opening opening,
      .store (fun _ => true) rows rows, .restart, .store (fun _ => true) rows rows]
    let loading := deliveries.foldl (Target.deliver rt) start
    let after := (loading.deliver rt (.store (fun _ => true) last last)).db
    loading.db.tables = start.db.tables
      ∧ Replaced rt [] [table] [row, row] start.db.tables after.tables := by
  intro table rt row old start opening rows last deliveries
  have haccepted : acceptedOf rt start deliveries = [opening, rows] := by decide +revert
  have hend : Delivery.accepted rt (deliveries.foldl (Target.deliver rt) start)
      (.store (fun _ => true) last last) = some last := by decide +revert
  have hschemas : stagedSchemas last.generation last.schemaVersion
      (deliveries.foldl (Target.deliver rt) start).db.schemaStage = [] := by decide +revert
  have hdecoded : ∀ delivery ∈ deliveries, delivery.Decoded rt := by
    simp [deliveries, Delivery.Decoded, rt, Runtime.plain, Codec.plain]
  have hreplaces := snapshot_replaces rt (by simp [rt, Runtime.plain]) start ⟨.nil, staged_empty _⟩
    deliveries hdecoded opening [rows] haccepted rfl (by simp [rows])
  generalize deliveries.foldl (Target.deliver rt) start = loading at hend hschemas hreplaces ⊢
  obtain ⟨htables, hlast⟩ := hreplaces
  refine ⟨htables, ?_⟩
  rcases hlast (fun _ => true) last last rfl rfl (by simp [rows, row, table, opening])
    with ⟨hnone, -⟩ | ⟨-, hreplaced, -⟩
  · rw [hend] at hnone
    cases hnone
  · rw [hschemas] at hreplaced
    exact hreplaced

/-- A snapshot of one table adds a column to another one that is configured. -/
theorem snapshot_widens_other_table :
    let first : TableRef := { schema := "public", name := "a" }
    let second : TableRef := { schema := "public", name := "b" }
    let rt := Runtime.plain { id := "s", tables := [first, second], autoAddColumns := true }
    let column (name : String) : SchemaColumn := { name := name, type := "text" }
    let send (message : Message) : Delivery Message :=
      .store (fun _ => true) { message with generation := "g", schemaVersion := "v" }
        { message with generation := "g", schemaVersion := "v" }
    let old : TargetTable String := { columns := [("x", "text")], rows := [[("x", some "old")]] }
    let start : Target Message String Message :=
      { db := { tables := fun name => if name = "a" ∨ name = "b" then some old else none } }
    let deliveries := [send { kind := .snapshotBegin, seq := 1, tables := [first] },
      send { kind := .schema, seq := 2,
             schema := some { schema := "public", name := "a", columns := [column "x"] } },
      send { kind := .schema, seq := 3,
             schema := some { schema := "public", name := "b", columns := [column "x", column "y"] } },
      send { kind := .snapshotEnd, seq := 4 }]
    let after := (deliveries.foldl (Target.deliver rt) start).db
    after.syncState.received = 4 ∧ after.tables "b" ≠ start.db.tables "b"
      ∧ after.tables "b" = some { columns := [("x", "text"), ("y", "text")],
                                  rows := [[("x", some "old"), ("y", none)]] } := by
  decide

end GoSync.Server
