import GoSync.Capture.Replay
import GoSync.Server.InOrder

/-!
# What the server accepts of what a collector publishes

The groups of a sealed queue against the message grammar of the server. A replica that starts at the
snapshot takes each group as a whole and is in the stream again after it. The one group it refuses is
that of a transaction without rows: its end comes where no transaction is open.
-/

namespace GoSync.Replication

open Capture (Table Stamped Streamed Transaction SnapshotGroup TransactionGroup RefreshGroup
  NextTransaction PublishedOnce Collector openCollector DecodesGroup)
open Queue (Checkpoint Limits)
open Server (Replica Tables TargetError acceptAll addSchema applyRows refreshTables loadSnapshot
  storeAll)

variable {Raw Value Hash : Type} {rt : Server.Runtime Raw Value Hash}

/-- What a complete group does to the target tables; its last message says which kind it is. -/
def groupEffect (rt : Server.Runtime Raw Value Hash) (messages : List Message)
    (tables : Tables Value) : Except TargetError (Tables Value) :=
  match messages.getLast?.map Message.kind with
  | some .snapshotEnd =>
      loadSnapshot rt (messages.flatMap Message.tables) (messages.filterMap Message.schema)
        (messages.flatMap Message.rows) tables
  | some .schemaEnd => refreshTables rt (messages.filterMap Message.schema) tables
  | some .transactionEnd => applyRows rt (messages.flatMap Message.rows) tables
  | _ => .ok tables

def groupsEffect (rt : Server.Runtime Raw Value Hash) (groups : List (MarkedGroup Message Checkpoint))
    (tables : Tables Value) : Except TargetError (Tables Value) :=
  groups.foldlM (fun tables group => groupEffect rt group.values tables) tables

theorem groupsEffect_snoc {groups : List (MarkedGroup Message Checkpoint)}
    {group : MarkedGroup Message Checkpoint} {start tables : Tables Value} :
    groupsEffect rt (groups ++ [group]) start = .ok tables
      ↔ ∃ before, groupsEffect rt groups start = .ok before
        ∧ groupEffect rt group.values before = .ok tables := by
  rw [groupsEffect, Except.foldlM_append_eq_ok]
  simp only [List.foldlM_cons, List.foldlM_nil, bind_pure]
  rfl

section Stamps

variable {hash : String} {bodies messages : List Message}

theorem forall₂_append_left {α β : Type} {r : α → β → Prop} {front back : List α} {whole : List β}
    (h : List.Forall₂ r (front ++ back) whole) :
    ∃ first second, whole = first ++ second ∧ List.Forall₂ r front first
      ∧ List.Forall₂ r back second := by
  induction front generalizing whole with
  | nil => exact ⟨[], whole, rfl, .nil, h⟩
  | cons x front ih =>
      cases h with
      | cons hx h =>
          obtain ⟨first, second, rfl, hfirst, hsecond⟩ := ih h
          exact ⟨_ :: first, second, rfl, .cons hx hfirst, hsecond⟩

theorem forall₂_snoc_left {α β : Type} {r : α → β → Prop} {front : List α} {x : α} {whole : List β}
    (h : List.Forall₂ r (front ++ [x]) whole) :
    ∃ first y, whole = first ++ [y] ∧ List.Forall₂ r front first ∧ r x y := by
  obtain ⟨first, second, rfl, hfirst, hsecond⟩ := forall₂_append_left h
  obtain ⟨y, rest, hxy, hrest, rfl⟩ := List.forall₂_cons_left_iff.mp hsecond
  obtain rfl := List.forall₂_nil_left_iff.mp hrest
  exact ⟨first, y, rfl, hfirst, hxy⟩

theorem stamped_same {body message : Message} (h : Stamped hash body message) :
    message.kind = body.kind ∧ message.transaction = body.transaction
      ∧ message.tables = body.tables ∧ message.schema = body.schema ∧ message.rows = body.rows
      ∧ message.schemaVersion = if body.schemaVersion = "" then hash else body.schemaVersion := by
  obtain ⟨st, now, rfl, rfl⟩ := h
  exact ⟨rfl, rfl, rfl, rfl, rfl, rfl⟩

theorem map_stamped {β : Type} {f : Message → β} (hf : ∀ st now body, f (Queue.stamp st now body) = f body)
    (h : List.Forall₂ (Stamped hash) bodies messages) : messages.map f = bodies.map f := by
  induction h with
  | nil => rfl
  | cons hstamped _ ih =>
      obtain ⟨st, now, -, rfl⟩ := hstamped
      rw [List.map_cons, List.map_cons, ih, hf]

theorem groupEffect_stamped (h : List.Forall₂ (Stamped hash) bodies messages) :
    groupEffect rt messages = groupEffect rt bodies := by
  have hkinds : messages.map Message.kind = bodies.map Message.kind :=
    map_stamped (fun _ _ _ => rfl) h
  have htables : messages.map Message.tables = bodies.map Message.tables :=
    map_stamped (fun _ _ _ => rfl) h
  have hschemas : messages.filterMap Message.schema = bodies.filterMap Message.schema := by
    have hmap := congrArg (List.filterMap id) (map_stamped (fun _ _ _ => rfl) h :
      messages.map Message.schema = bodies.map Message.schema)
    rwa [List.filterMap_map, List.filterMap_map] at hmap
  have hrows : messages.map Message.rows = bodies.map Message.rows :=
    map_stamped (fun _ _ _ => rfl) h
  funext tables
  unfold groupEffect
  rw [← List.getLast?_map, ← List.getLast?_map, List.flatMap_def, List.flatMap_def, List.flatMap_def,
    List.flatMap_def, hkinds, htables, hschemas, hrows]

theorem groupEffect_transactionMessages (text : String) (chunks : List (List Row))
    (tables : Tables Value) :
    groupEffect rt (Capture.transactionMessages text chunks) tables
      = applyRows rt chunks.flatten tables := by
  rw [groupEffect, Capture.rows_transactionMessages]
  simp [Capture.transactionMessages]

theorem groupEffect_refreshMessages (version : String) (current : List Table)
    (tables : Tables Value) :
    groupEffect rt (Capture.refreshMessages version current) tables
      = refreshTables rt (current.map Table.document) tables := by
  have hschemas : (Capture.refreshMessages version current).filterMap Message.schema
      = current.map Table.document := by
    simp [Capture.refreshMessages, List.filterMap_map]
  rw [groupEffect, hschemas]
  simp [Capture.refreshMessages]

theorem groupEffect_snapshotMessages (crt : Capture.Runtime) (point : String) (current : List Table)
    (chunks : List (List Row)) (tables : Tables Value) :
    groupEffect rt (Capture.snapshotMessages crt point current chunks) tables
      = loadSnapshot rt crt.cfg.tables (current.map Table.document) chunks.flatten tables := by
  have hscope : (Capture.snapshotMessages crt point current chunks).flatMap Message.tables
      = crt.cfg.tables := by
    simp [Capture.snapshotMessages, Capture.snapshotHeader, Capture.chunkMessages, List.flatMap_map]
  have hschemas : (Capture.snapshotMessages crt point current chunks).filterMap Message.schema
      = current.map Table.document := by
    simp [Capture.snapshotMessages, Capture.snapshotHeader, Capture.chunkMessages, List.filterMap_map]
  have hrows : (Capture.snapshotMessages crt point current chunks).flatMap Message.rows
      = chunks.flatten := by
    simp [Capture.snapshotMessages, Capture.snapshotHeader, Capture.rows_chunkMessages,
      List.flatMap_map]
  rw [groupEffect, hscope, hschemas, hrows]
  simp [Capture.snapshotMessages]

end Stamps

section Walks

variable {version : String} {replica last : Replica Value} {messages : List Message}

theorem acceptAll_append (front back : List Message) (replica : Replica Value) :
    acceptAll rt (front ++ back) replica
      = (acceptAll rt front replica).bind (acceptAll rt back) := by
  rw [acceptAll, List.foldlM_append]
  rfl

theorem acceptAll_cons (message : Message) (messages : List Message) (replica : Replica Value) :
    acceptAll rt (message :: messages) replica
      = (replica.accept rt message).bind (acceptAll rt messages) := by
  rw [acceptAll, List.foldlM_cons]
  rfl

theorem acceptAll_singleton (message : Message) (replica : Replica Value) :
    acceptAll rt [message] replica = replica.accept rt message := by
  simp [acceptAll]

structure Storable (cfg : Server.Syncer) (current : List Table) : Prop where
  names : ∀ table ∈ current, table.schema ≠ "" ∧ table.name ≠ ""
  allowed : ∀ table ∈ current, cfg.allows table.schema table.name = true
  columns : ∀ table ∈ current, table.columns ≠ []
  nodup : (current.map Table.ref).Nodup
  count : current.length = cfg.tables.length

def Describes (version : String) (table : Table) (message : Message) : Prop :=
  message.kind = .schema ∧ message.schemaVersion = version ∧ message.schema = some table.document

theorem addSchema_document {cfg : Server.Syncer} {before after : List Table} {table : Table}
    {message : Message} (hstorable : Storable cfg (before ++ table :: after))
    (hmessage : message.schema = some table.document) :
    addSchema cfg message (before.map Table.document)
      = some ((before ++ [table]).map Table.document) := by
  have hmem : table ∈ before ++ table :: after := by simp
  obtain ⟨hschema, hname⟩ := hstorable.names table hmem
  have hallowed := hstorable.allowed table hmem
  have hcolumns := hstorable.columns table hmem
  have hnodup := hstorable.nodup
  rw [List.map_append, List.map_cons, List.nodup_append] at hnodup
  have hfresh : ¬ ((before.map Table.document).any fun other =>
      other.schema = table.schema ∧ other.name = table.name) = true := by
    rw [List.any_map, List.any_eq_true]
    rintro ⟨other, hother, hsame⟩
    obtain ⟨hotherSchema, hotherName⟩ := of_decide_eq_true hsame
    refine hnodup.2.2 _ (List.mem_map_of_mem hother) _ List.mem_cons_self ?_
    change (⟨other.schema, other.name⟩ : TableRef) = ⟨table.schema, table.name⟩
    rw [← hotherSchema, ← hotherName]
    rfl
  have hdocument : table.document.columns ≠ [] := by
    simpa [Table.document] using hcolumns
  unfold addSchema
  rw [hmessage]
  dsimp only
  rw [if_neg, List.map_append]
  · rfl
  · rintro (h | h | h | h | h)
    · exact hschema h
    · exact hname h
    · exact h hallowed
    · exact hdocument h
    · exact hfresh h

theorem acceptAll_documents {place : List SchemaTable → Server.Position}
    (hplace : ∀ message schemas, message.kind = .schema → message.schemaVersion = version →
      Replica.accept rt message { replica with position := place schemas }
        = (addSchema rt.cfg message schemas).map fun schemas =>
          { replica with position := place schemas })
    {before current : List Table} (hstorable : Storable rt.cfg (before ++ current))
    (hmessages : List.Forall₂ (Describes version) current messages) :
    acceptAll rt messages { replica with position := place (before.map Table.document) }
      = some { replica with position := place ((before ++ current).map Table.document) } := by
  induction hmessages generalizing before with
  | nil => simp [acceptAll]
  | @cons table message current messages hmessage _ ih =>
      obtain ⟨hkind, hversion, hdocument⟩ := hmessage
      rw [acceptAll, List.foldlM_cons, hplace _ _ hkind hversion,
        addSchema_document hstorable hdocument]
      have hmore : Storable rt.cfg ((before ++ [table]) ++ current) := by simpa using hstorable
      have hrest := ih hmore
      rw [List.append_assoc] at hrest
      exact hrest

theorem acceptAll_rows {place : List Row → Server.Position}
    (hplace : ∀ message ∈ messages, ∀ rows,
      Replica.accept rt message { replica with position := place rows }
        = some { replica with position := place (rows ++ message.rows) }) (rows : List Row) :
    acceptAll rt messages { replica with position := place rows }
      = some { replica with position := place (rows ++ messages.flatMap Message.rows) } := by
  induction messages generalizing rows with
  | nil => simp [acceptAll]
  | cons message messages ih =>
      rw [acceptAll, List.foldlM_cons, hplace message List.mem_cons_self, List.flatMap_cons,
        ← List.append_assoc]
      exact ih (fun other hmem => hplace other (List.mem_cons_of_mem _ hmem)) _

end Walks

section Groups

variable {crt : Capture.Runtime} {hash : String} {group : MarkedGroup Message Checkpoint}
  {replica last : Replica Value}

theorem render_ne_empty (crt : Capture.Runtime) (lsn : Capture.Lsn) : crt.lsn.render lsn ≠ "" := by
  intro hempty
  have hparse := crt.lsn.parse_render lsn
  rw [hempty, crt.lsn.parse_empty] at hparse
  cases hparse

theorem stamped_chunks {template : Message} {chunks : List (List Row)} {messages : List Message}
    (h : List.Forall₂ (Stamped hash) (Capture.chunkMessages template chunks) messages)
    (hversion : template.schemaVersion = "") :
    ∀ message ∈ messages, message.kind = template.kind ∧ message.schemaVersion = hash
      ∧ message.transaction = template.transaction := by
  intro message hmem
  obtain ⟨body, hbody, hstamped⟩ := Capture.forall₂_mem_right h hmem
  obtain ⟨hkind, htransaction, -, -, -, hstampedVersion⟩ := stamped_same hstamped
  obtain ⟨entry, -, rfl⟩ := List.mem_map.mp hbody
  exact ⟨hkind, hstampedVersion.trans (if_pos hversion), htransaction⟩

/-- A whole transaction is applied as one. -/
theorem acceptAll_transaction {id : String} {first finish : Message} {rest : List Message}
    (hposition : replica.position = .stream) (hid : id ≠ "")
    (hchunks : ∀ message ∈ first :: rest, message.kind = .transactionRows
      ∧ message.schemaVersion = replica.version ∧ message.transaction = id)
    (hkind : finish.kind = .transactionEnd) (hversion : finish.schemaVersion = replica.version)
    (htransaction : finish.transaction = id) :
    acceptAll rt (first :: rest ++ [finish]) replica
      = (applyRows rt ((first :: rest).flatMap Message.rows) replica.tables).toOption.map fun tables =>
        { replica with position := .stream, tables := tables } := by
  obtain ⟨hfirst, hfirstVersion, hfirstId⟩ := hchunks first List.mem_cons_self
  have hopened : replica.accept rt first
      = some { replica with position := .transaction id first.rows } := by
    simp [Replica.accept, hposition, hfirst, hfirstVersion, hfirstId, hid]
  have hrest : acceptAll rt rest { replica with position := .transaction id first.rows }
      = some { replica with
               position := .transaction id (first.rows ++ rest.flatMap Message.rows) } := by
    refine acceptAll_rows ?_ first.rows
    intro message hmem rows
    obtain ⟨hrows, hrowsVersion, hrowsId⟩ := hchunks message (List.mem_cons_of_mem _ hmem)
    simp [Replica.accept, hrows, hrowsVersion, hrowsId]
  rw [List.cons_append, acceptAll_cons, hopened, Option.bind_some, acceptAll_append, hrest,
    Option.bind_some, acceptAll_singleton]
  simp [Replica.accept, hkind, hversion, htransaction]

/-- A transaction is accepted exactly if it has changes and they can be applied. -/
theorem transactionGroup_accepted_iff {tx : Transaction} (h : TransactionGroup crt hash tx group)
    (hposition : replica.position = .stream) (hversion : replica.version = hash) :
    acceptAll rt group.values replica = some last
      ↔ tx.changes ≠ [] ∧ ∃ tables, groupEffect rt group.values replica.tables = .ok tables
        ∧ last = { position := .stream, version := hash, tables := tables } := by
  obtain ⟨tables, chunks, -, hfull, hconverted, -, hstamped⟩ := h
  rw [groupEffect_stamped hstamped, groupEffect_transactionMessages]
  obtain ⟨rows, finish, hvalues, hrows, hend⟩ := forall₂_snoc_left hstamped
  obtain ⟨hkind, htransaction, -, -, -, hfinish⟩ := stamped_same hend
  rw [hvalues]
  have hchanges : tx.changes = [] ↔ rows = [] := by
    have hcount := hconverted.length_eq
    have hlength := hrows.length_eq
    rw [List.length_zipIdx] at hcount
    rw [Capture.chunkMessages, List.length_map, List.length_zipIdx] at hlength
    rw [← List.length_eq_zero_iff, hcount, ← List.length_eq_zero_iff, ← hlength,
      List.length_eq_zero_iff, List.length_eq_zero_iff]
    constructor
    · intro hflat
      cases chunks with
      | nil => rfl
      | cons chunk chunks =>
          rw [List.flatten_cons, List.append_eq_nil_iff] at hflat
          exact absurd hflat.1 (hfull chunk List.mem_cons_self)
    · rintro rfl
      rfl
  subst hversion
  cases rows with
  | nil =>
      -- Without a chunk the end of the transaction is the first message of its group.
      have hnone : replica.accept rt finish = none := by
        simp [Replica.accept, hposition, hkind]
      simp [hchanges, acceptAll_singleton, hnone]
  | cons first rest =>
      have hsome : tx.changes ≠ [] := fun hnil => by cases hchanges.mp hnil
      rw [acceptAll_transaction hposition (render_ne_empty crt tx.end) (stamped_chunks hrows rfl) hkind
        hfinish htransaction, Capture.rows_stamped hrows, Capture.rows_chunkMessages]
      simp only [hsome, ne_eq, not_false_eq_true, true_and, Except.toOption_map_eq_some]

variable {version : String}

theorem forall₂_describes {current : List Table} {messages : List Message}
    {document : Table → Message} (hkind : ∀ table, (document table).kind = .schema)
    (hschema : ∀ table, (document table).schema = some table.document)
    (hversion : ∀ table, (if (document table).schemaVersion = "" then hash
      else (document table).schemaVersion) = version)
    (h : List.Forall₂ (Stamped hash) (current.map document) messages) :
    List.Forall₂ (Describes version) current messages := by
  rw [List.forall₂_map_left_iff] at h
  refine h.imp ?_
  intro table message hstamped
  obtain ⟨hsameKind, -, -, hsameSchema, -, hsameVersion⟩ := stamped_same hstamped
  exact ⟨hsameKind.trans (hkind table), hsameVersion.trans (hversion table),
    hsameSchema.trans (hschema table)⟩

/-- The documents of a refresh are staged. -/
theorem acceptAll_refresh {current : List Table} {documents : List Message}
    (hposition : replica.position = .stream) (hversion : version ≠ "")
    (hstorable : Storable rt.cfg current) (hnonempty : current ≠ [])
    (h : List.Forall₂ (Describes version) current documents) :
    acceptAll rt documents replica
      = some { replica with position := .refresh version (current.map Table.document) } := by
  cases h with
  | nil => exact absurd rfl hnonempty
  | @cons table message rest messages hfirst hrest =>
      obtain ⟨hkind, hfirstVersion, hschema⟩ := hfirst
      have hadd : addSchema rt.cfg message [] = some ([table].map Table.document) := by
        have hwhole : Storable rt.cfg ([] ++ table :: rest) := hstorable
        exact addSchema_document hwhole hschema
      have hopened : replica.accept rt message
          = some { replica with position := .refresh version ([table].map Table.document) } := by
        simp [Replica.accept, hposition, hkind, hfirstVersion, hversion, hadd]
      rw [acceptAll_cons, hopened, Option.bind_some]
      refine acceptAll_documents ?_ hstorable hrest
      intro message schemas hkind hversion
      simp [Replica.accept, hkind, hversion]

/-- A refresh is accepted if the tables can be widened. -/
theorem refreshGroup_accepted_iff {durable : Capture.Lsn} {current : List Table}
    (h : RefreshGroup crt hash durable current group) (hstorable : Storable rt.cfg current)
    (hnonempty : current ≠ []) (hposition : replica.position = .stream) :
    acceptAll rt group.values replica = some last
      ↔ ∃ tables, groupEffect rt group.values replica.tables = .ok tables
        ∧ last = { position := .stream, version := crt.schemaHash current, tables := tables } := by
  obtain ⟨-, -, -, -, hstamped⟩ := h
  have hversion := crt.schemaHash_ne_empty current
  rw [groupEffect_stamped hstamped, groupEffect_refreshMessages]
  obtain ⟨documents, finish, hvalues, hdocuments, hend⟩ := forall₂_snoc_left hstamped
  obtain ⟨hkind, -, -, -, -, hfinish⟩ := stamped_same hend
  have hdescribes : List.Forall₂ (Describes (crt.schemaHash current)) current documents :=
    forall₂_describes (fun _ => rfl) (fun _ => rfl) (fun _ => if_neg hversion) hdocuments
  have hlast : finish.schemaVersion = crt.schemaHash current := hfinish.trans (if_neg hversion)
  rw [hvalues, acceptAll_append, acceptAll_refresh hposition hversion hstorable hnonempty hdescribes,
    Option.bind_some, acceptAll_singleton, ← Except.toOption_map_eq_some]
  simp [Replica.accept, hkind, hlast, hstorable.count]

/-- A whole snapshot is loaded as one. -/
theorem acceptAll_snapshot {scope : List TableRef} {current : List Table}
    {documents rows : List Message} {finish : Message} (hstorable : Storable rt.cfg current)
    (hdocuments : List.Forall₂ (Describes version) current documents)
    (hrows : ∀ message ∈ rows, message.kind = .snapshotRows ∧ message.schemaVersion = version)
    (hkind : finish.kind = .snapshotEnd) (hversion : finish.schemaVersion = version)
    (start : Tables Value) :
    acceptAll rt (documents ++ rows ++ [finish])
        { position := .snapshot scope [] [], version := version, tables := start }
      = (loadSnapshot rt scope (current.map Table.document) (rows.flatMap Message.rows)
          start).toOption.map fun tables =>
        { position := .stream, version := version, tables := tables } := by
  let opened : Replica Value :=
    { position := .snapshot scope [] [], version := version, tables := start }
  have hstaged : acceptAll rt documents { opened with position := .snapshot scope [] [] }
      = some { opened with position := .snapshot scope (current.map Table.document) [] } := by
    have hwhole : Storable rt.cfg ([] ++ current) := hstorable
    refine acceptAll_documents
      (show ∀ message schemas, message.kind = .schema → message.schemaVersion = version →
        Replica.accept rt message { opened with position := .snapshot scope schemas [] }
          = (addSchema rt.cfg message schemas).map fun schemas =>
            { opened with position := .snapshot scope schemas [] } from ?_) hwhole hdocuments
    intro message schemas hschema hsame
    simp [Replica.accept, hschema, hsame, opened]
  have hloaded : acceptAll rt rows
        { opened with position := .snapshot scope (current.map Table.document) [] }
      = some { opened with
               position := .snapshot scope (current.map Table.document)
                 ([] ++ rows.flatMap Message.rows) } := by
    refine acceptAll_rows ?_ []
    intro message hmem before
    obtain ⟨hrowsKind, hrowsVersion⟩ := hrows message hmem
    simp [Replica.accept, hrowsKind, hrowsVersion, opened]
  rw [acceptAll_append, acceptAll_append]
  change ((acceptAll rt documents opened).bind _).bind _ = _
  rw [hstaged, Option.bind_some, hloaded, Option.bind_some, acceptAll_singleton]
  simp [Replica.accept, hkind, hversion, opened, hstorable.count]

variable (rt) in
/-- The snapshot of a collector is accepted if it can be loaded. -/
theorem snapshotGroup_accepted_iff {point : String}
    (h : SnapshotGroup crt hash point group)
    (hstorable : ∀ current, current.map Table.ref = crt.cfg.tables →
      (∀ table ∈ current, table.columns ≠ []) → Storable rt.cfg current) :
    ∃ opening rest, group.values = opening :: rest
      ∧ opening.kind = .snapshotBegin ∧ opening.tables = crt.cfg.tables
      ∧ opening.schemaVersion = hash ∧ hash ≠ ""
      ∧ ∀ start last, acceptAll rt rest
            { position := .snapshot crt.cfg.tables [] [], version := hash, tables := start } = some last
          ↔ ∃ tables, groupEffect rt group.values start = .ok tables
            ∧ last = { position := .stream, version := hash, tables := tables } := by
  obtain ⟨current, contents, chunks, rfl, hrefs, hcolumns, -, -, -, hstamped⟩ := h
  have hversion := crt.schemaHash_ne_empty current
  rw [groupEffect_stamped hstamped]
  obtain ⟨front, finish, hvalues, hfront, hend⟩ := forall₂_snoc_left hstamped
  obtain ⟨header, rows, rfl, hheader, hrows⟩ := forall₂_append_left hfront
  obtain ⟨opening, documents, hopening, hdocuments, rfl⟩ := List.forall₂_cons_left_iff.mp hheader
  obtain ⟨hopeningKind, -, htables, -, -, hopeningVersion⟩ := stamped_same hopening
  obtain ⟨hkind, -, -, -, -, hfinish⟩ := stamped_same hend
  have hdescribes : List.Forall₂ (Describes (crt.schemaHash current)) current documents :=
    forall₂_describes (fun _ => rfl) (fun _ => rfl) (fun _ => if_pos rfl) hdocuments
  refine ⟨opening, documents ++ rows ++ [finish], by simp [hvalues], hopeningKind, htables,
    hopeningVersion, hversion, ?_⟩
  intro start last
  have hchunks : ∀ message ∈ rows, message.kind = .snapshotRows
      ∧ message.schemaVersion = crt.schemaHash current := by
    intro message hmem
    obtain ⟨hrowsKind, hrowsVersion, -⟩ := stamped_chunks hrows rfl message hmem
    exact ⟨hrowsKind, hrowsVersion⟩
  rw [acceptAll_snapshot (hstorable current hrefs hcolumns) hdescribes hchunks hkind hfinish,
    Capture.rows_stamped hrows, Capture.rows_chunkMessages, Except.toOption_map_eq_some,
    ← groupEffect_snapshotMessages crt point]

end Groups

section Streams

variable {history : List Transaction} {point durable : Capture.Lsn} {tx : Transaction}

/-- The transactions a stream from a position on publishes: those that end after all that precede
them. -/
def ahead : Capture.Lsn → List Transaction → List Transaction
  | _, [] => []
  | position, tx :: rest =>
      if position < tx.end then tx :: ahead tx.end rest else ahead position rest

def publishedBy (history : List Transaction) (point durable : Capture.Lsn) : List Transaction :=
  (ahead point history).filter fun tx => tx.end ≤ durable

theorem ahead_skip {earlier : List Transaction} (hpast : ∀ tx ∈ earlier, tx.end ≤ point)
    (rest : List Transaction) : ahead point (earlier ++ rest) = ahead point rest := by
  induction earlier with
  | nil => rfl
  | cons tx earlier ih =>
      have hle : ¬ point < tx.end := not_lt.mpr (hpast tx List.mem_cons_self)
      rw [List.cons_append, ahead, if_neg hle,
        ih fun other hmem => hpast other (List.mem_cons_of_mem _ hmem)]

theorem lt_of_mem_ahead (h : tx ∈ ahead point history) : point < tx.end := by
  induction history generalizing point with
  | nil => cases h
  | cons first rest ih =>
      rw [ahead] at h
      split_ifs at h with hahead
      · rcases List.mem_cons.mp h with rfl | h
        · exact hahead
        · exact hahead.trans (ih h)
      · exact ih h

theorem publishedBy_self (history : List Transaction) (point : Capture.Lsn) :
    publishedBy history point point = [] := by
  rw [publishedBy, List.filter_eq_nil_iff]
  intro tx hmem
  simpa using lt_of_mem_ahead hmem

theorem publishedBy_subset :
    publishedBy history point durable ⊆ history := by
  intro tx hmem
  have hahead := (List.mem_filter.mp hmem).1
  clear hmem
  induction history generalizing point with
  | nil => exact hahead
  | cons first rest ih =>
      rw [ahead] at hahead
      split_ifs at hahead
      · rcases List.mem_cons.mp hahead with rfl | hahead
        · exact List.mem_cons_self
        · exact List.mem_cons_of_mem _ (ih hahead)
      · exact List.mem_cons_of_mem _ (ih hahead)

theorem ahead_next (h : NextTransaction history durable tx) :
    ahead durable history = tx :: ahead tx.end history := by
  obtain ⟨earlier, later, rfl, hpast, hend⟩ := h
  have hpast' : ∀ t ∈ earlier ++ [tx], t.end ≤ tx.end := by
    intro t hmem
    rcases List.mem_append.mp hmem with hmem | hmem
    · exact (hpast t hmem).trans hend.le
    · rw [List.mem_singleton.mp hmem]
  have hsplit : earlier ++ tx :: later = (earlier ++ [tx]) ++ later := by simp
  rw [ahead_skip hpast, ahead, if_pos hend, hsplit, ahead_skip hpast']

/-- The next transaction is published next. -/
theorem publishedBy_next (h : NextTransaction history durable tx)
    (hahead : ahead point history = publishedBy history point durable ++ ahead durable history) :
    publishedBy history point tx.end = publishedBy history point durable ++ [tx] := by
  have hnext := ahead_next h
  obtain ⟨_, _, -, -, hend⟩ := h
  have hold : (publishedBy history point durable).filter (fun t => t.end ≤ tx.end)
      = publishedBy history point durable := by
    rw [List.filter_eq_self]
    intro t hmem
    have hle : t.end ≤ durable := of_decide_eq_true (List.mem_filter.mp hmem).2
    exact decide_eq_true (hle.trans hend.le)
  have hnew : (ahead tx.end history).filter (fun t => t.end ≤ tx.end) = [] := by
    rw [List.filter_eq_nil_iff]
    intro t hmem
    simpa using lt_of_mem_ahead hmem
  calc publishedBy history point tx.end
      = (publishedBy history point durable ++ tx :: ahead tx.end history).filter
          fun t => t.end ≤ tx.end := by rw [publishedBy, hahead, hnext]
    _ = publishedBy history point durable ++ [tx] := by
        rw [List.filter_append, hold, List.filter_cons_of_pos (by simp), hnew]

variable {crt : Capture.Runtime} {hash current : String}
  {groups : List (MarkedGroup Message Checkpoint)}

theorem streamed_ahead (h : Streamed crt history hash point groups durable current) :
    ahead point history = publishedBy history point durable ++ ahead durable history := by
  induction h with
  | start =>
      rw [publishedBy_self, List.nil_append]
  | transaction _ hnext _ ih =>
      rw [publishedBy_next hnext ih, List.append_assoc, List.singleton_append, ← ahead_next hnext]
      exact ih
  | refresh _ _ ih => exact ih

structure SameTables (source : Capture.Config) (target : Server.Syncer) : Prop where
  valid : Capture.validateTables source.tables = .ok ()
  same : target.tables.Perm source.tables

variable {source : Capture.Config} {target : Server.Syncer}

theorem SameTables.nonempty (h : SameTables source target) : source.tables ≠ [] := by
  intro hempty
  have hvalid := h.valid
  rw [Capture.validateTables, if_pos hempty] at hvalid
  cases hvalid

theorem SameTables.names (h : SameTables source target) :
    (∀ table ∈ source.tables, table.schema ≠ "" ∧ table.name ≠ "" ∧ table ∉ [])
      ∧ source.tables.Nodup := by
  have hvalid := h.valid
  rw [Capture.validateTables, if_neg h.nonempty] at hvalid
  exact Capture.validateNames_ok hvalid

theorem SameTables.allowed (h : SameTables source target) :
    ∀ table ∈ source.tables, target.allows table.schema table.name = true :=
  fun _ hmem => Server.Syncer.allows_iff.mpr (h.same.mem_iff.mpr hmem)

theorem SameTables.storable (h : SameTables source target) {current : List Table}
    (hrefs : current.map Table.ref = source.tables)
    (hcolumns : ∀ table ∈ current, table.columns ≠ []) : Storable target current := by
  have href : ∀ table ∈ current, table.ref ∈ source.tables :=
    fun table hmem => hrefs ▸ List.mem_map_of_mem hmem
  refine ⟨?_, ?_, hcolumns, hrefs ▸ h.names.2, ?_⟩
  · intro table hmem
    obtain ⟨hschema, hname, -⟩ := h.names.1 _ (href table hmem)
    exact ⟨hschema, hname⟩
  · intro table hmem
    exact h.allowed _ (href table hmem)
  · rw [h.same.length_eq, ← hrefs, List.length_map]

variable {replica last : Replica Value}

/-- The groups after the snapshot are accepted unless a transaction is empty. -/
theorem streamed_accepted_iff (h : Streamed crt history hash point groups durable current)
    (hsame : SameTables crt.cfg rt.cfg) (hposition : replica.position = .stream)
    (hversion : replica.version = hash) :
    acceptAll rt (groups.flatMap MarkedGroup.values) replica = some last
      ↔ (∀ tx ∈ publishedBy history point durable, tx.changes ≠ [])
        ∧ ∃ tables, groupsEffect rt groups replica.tables = .ok tables
          ∧ last = { position := .stream, version := current, tables := tables } := by
  induction h generalizing last with
  | start =>
      have hreplica : replica = { position := .stream, version := hash, tables := replica.tables } := by
        rw [← hposition, ← hversion]
      rw [publishedBy_self]
      constructor
      · intro haccepted
        cases haccepted
        exact ⟨by simp, replica.tables, rfl, hreplica⟩
      · rintro ⟨-, tables, htables, rfl⟩
        cases htables
        exact congrArg some hreplica
  | transaction hgroups hnext hgroup ih =>
      rw [publishedBy_next hnext (streamed_ahead hgroups), List.flatMap_append, acceptAll_append,
        List.flatMap_singleton, Option.bind_eq_some_iff]
      constructor
      · rintro ⟨middle, hmiddle, hlast⟩
        obtain ⟨hrows, before, hbefore, rfl⟩ := ih.mp hmiddle
        obtain ⟨hchanges, tables, htables, rfl⟩ :=
          (transactionGroup_accepted_iff hgroup rfl rfl).mp hlast
        refine ⟨?_, tables, groupsEffect_snoc.mpr ⟨before, hbefore, htables⟩, rfl⟩
        intro tx hmem
        rcases List.mem_append.mp hmem with hmem | hmem
        · exact hrows tx hmem
        · exact List.mem_singleton.mp hmem ▸ hchanges
      · rintro ⟨hrows, tables, htables, rfl⟩
        obtain ⟨before, hbefore, hgroupTables⟩ := groupsEffect_snoc.mp htables
        have hearlier := fun tx hmem => hrows tx (List.mem_append_left _ hmem)
        refine ⟨_, ih.mpr ⟨hearlier, before, hbefore, rfl⟩, ?_⟩
        exact (transactionGroup_accepted_iff hgroup rfl rfl).mpr
          ⟨hrows _ (by simp), tables, hgroupTables, rfl⟩
  | refresh hgroups hgroup ih =>
      obtain ⟨-, hrefs, hcolumns, -⟩ := id hgroup
      have hnonempty := fun hempty => hsame.nonempty (hrefs ▸ List.map_eq_nil_iff.mpr hempty)
      have hstorable := hsame.storable hrefs hcolumns
      rw [List.flatMap_append, acceptAll_append, List.flatMap_singleton, Option.bind_eq_some_iff]
      constructor
      · rintro ⟨middle, hmiddle, hlast⟩
        obtain ⟨hrows, before, hbefore, rfl⟩ := ih.mp hmiddle
        obtain ⟨tables, htables, rfl⟩ :=
          (refreshGroup_accepted_iff hgroup hstorable hnonempty rfl).mp hlast
        exact ⟨hrows, tables, groupsEffect_snoc.mpr ⟨before, hbefore, htables⟩, rfl⟩
      · rintro ⟨hrows, tables, htables, rfl⟩
        obtain ⟨before, hbefore, hgroupTables⟩ := groupsEffect_snoc.mp htables
        refine ⟨_, ih.mpr ⟨hrows, before, hbefore, rfl⟩, ?_⟩
        exact (refreshGroup_accepted_iff hgroup hstorable hnonempty rfl).mpr
          ⟨tables, hgroupTables, rfl⟩

end Streams

end GoSync.Replication
