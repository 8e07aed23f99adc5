import GoSync.Server.Replica

/-!
# In-order delivery

`Holds` says that a database is in a state of the replica after so many messages of a generation.
From such a database `store` accepts the next message exactly if the replica does, and ends in the
replica's next state.
-/

namespace GoSync.Server

variable {Raw Value Hash : Type} {rt : Runtime Raw Value Hash}

section Positions

structure Chunks (generation : String) (count : Nat) (chunks : List Message) : Prop where
  generation : ∀ message ∈ chunks, message.generation = generation
  seq : chunks.Pairwise fun first second => first.seq < second.seq
  bound : ∀ message ∈ chunks, message.seq ≤ count

structure InSnapshot (generation version : String) (count : Nat) (scope : List TableRef)
    (schemas : List SchemaTable) (rows : List Row) (db : Db Raw Value Hash) : Prop where
  phase : db.syncState.phase = .snapshot
  openTransaction : db.syncState.openTransaction = ""
  pending : db.syncState.pendingSchemaVersion = ""
  inbox : db.inbox = []
  scope : db.snapshotScope = scopeRows scope
  stage : db.schemaStage = schemas.map (stageRow generation version)
  rows : ∃ chunks, Chunks generation count chunks ∧ db.snapshotRows = chunks.flatMap snapshotRowsOf
    ∧ rows = chunks.flatMap Message.rows

structure InStream (db : Db Raw Value Hash) : Prop where
  phase : db.syncState.phase = .stream
  openTransaction : db.syncState.openTransaction = ""
  pending : db.syncState.pendingSchemaVersion = ""
  inbox : db.inbox = []
  stage : db.schemaStage = []

structure Inbox (rt : Runtime Raw Value Hash) (generation : String) (count : Nat) (id : String)
    (chunks : List (Message × Raw)) (db : Db Raw Value Hash) : Prop where
  order : Chunks generation count (chunks.map Prod.fst)
  decode : ∀ entry ∈ chunks, rt.codec.unmarshal entry.2 = some entry.1
  transaction : ∀ entry ∈ chunks, entry.1.transaction = id
  inbox : db.inbox = chunks.map inboxRow

structure InTransaction (rt : Runtime Raw Value Hash) (generation : String) (count : Nat)
    (id : String) (rows : List Row) (db : Db Raw Value Hash) : Prop where
  phase : db.syncState.phase = .stream
  openTransaction : db.syncState.openTransaction = id
  id_ne_empty : id ≠ ""
  pending : db.syncState.pendingSchemaVersion = ""
  stage : db.schemaStage = []
  rows : ∃ chunks, Inbox rt generation count id chunks db
    ∧ rows = chunks.flatMap fun entry => entry.1.rows

structure InRefresh (generation version : String) (schemas : List SchemaTable)
    (db : Db Raw Value Hash) : Prop where
  phase : db.syncState.phase = .stream
  openTransaction : db.syncState.openTransaction = ""
  pending : db.syncState.pendingSchemaVersion = version
  version_ne_empty : version ≠ ""
  inbox : db.inbox = []
  stage : db.schemaStage = schemas.map (stageRow generation version)

def At (rt : Runtime Raw Value Hash) (generation version : String) (count : Nat)
    (db : Db Raw Value Hash) : Position → Prop
  | .snapshot scope schemas rows => InSnapshot generation version count scope schemas rows db
  | .stream => InStream db
  | .transaction id rows => InTransaction rt generation count id rows db
  | .refresh pending schemas => InRefresh generation pending schemas db

structure Holds (rt : Runtime Raw Value Hash) (generation : String) (count : Nat)
    (replica : Replica Value) (db : Db Raw Value Hash) : Prop where
  received : Received generation count db
  version : db.syncState.schemaVersion = replica.version
  version_ne_empty : replica.version ≠ ""
  tables : db.tables = replica.tables
  position : At rt generation replica.version count db replica.position

variable {generation : String} {count : Nat} {message : Message}

theorem Chunks.snoc {chunks : List Message} (h : Chunks generation count chunks)
    (hgeneration : message.generation = generation) (hseq : message.seq = count + 1) :
    Chunks generation (count + 1) (chunks ++ [message]) := by
  refine ⟨?_, ?_, ?_⟩
  · intro other hmem
    rcases List.mem_append.mp hmem with hmem | hmem
    · exact h.generation other hmem
    · rwa [List.mem_singleton.mp hmem]
  · rw [List.pairwise_append]
    refine ⟨h.seq, List.pairwise_singleton _ _, ?_⟩
    intro first hfirst second hsecond
    have := h.bound first hfirst
    rw [List.mem_singleton.mp hsecond]
    omega
  · intro other hmem
    rcases List.mem_append.mp hmem with hmem | hmem
    · exact (h.bound other hmem).trans (Nat.le_succ count)
    · rw [List.mem_singleton.mp hmem]
      exact hseq.le

theorem chunks_nil (generation : String) (count : Nat) : Chunks generation count [] :=
  ⟨by simp, .nil, by simp⟩

theorem Chunks.mono {chunks : List Message} {count' : Nat} (h : Chunks generation count chunks)
    (hle : count ≤ count') : Chunks generation count' chunks :=
  ⟨h.generation, h.seq, fun other hmem => (h.bound other hmem).trans hle⟩

end Positions

section Steps

variable {generation : String} {count : Nat} {message : Message} {raw : Raw}
  {replica next : Replica Value} {db db' : Db Raw Value Hash}

structure Next (rt : Runtime Raw Value Hash) (generation : String) (count : Nat) (message : Message)
    (raw : Raw) : Prop where
  generation : message.generation = generation
  seq : message.seq = count + 1
  decode : rt.codec.unmarshal raw = some message

def Passes (rt : Runtime Raw Value Hash) (message : Message) (raw : Raw) (db db' : Db Raw Value Hash) :
    Prop :=
  ∃ pending openTransaction middle phase,
    schemaBarrier message db.syncState = .ok pending
      ∧ checkTransaction message db.syncState = .ok openTransaction
      ∧ applyMessage rt .plain db.tables message raw db.syncState.phase db = .ok (middle, phase)
      ∧ db' = recorded rt message raw db.syncState pending openTransaction phase middle

/-- A message passes exactly if the replica accepts it, with the same outcome. -/
def Agrees (rt : Runtime Raw Value Hash) (generation : String) (count : Nat) (message : Message)
    (raw : Raw) (replica : Replica Value) (db : Db Raw Value Hash) : Prop :=
  (∀ db', Passes rt message raw db db' → count + 1 ≤ maxInt64 →
      ∃ next, replica.accept rt message = some next ∧ Holds rt generation (count + 1) next db')
    ∧ ∀ next, replica.accept rt message = some next → ∃ db', Passes rt message raw db db'

theorem Holds.barrier_iff {result : String} (h : Holds rt generation count replica db)
    (hpending : db.syncState.pendingSchemaVersion = "")
    (hschema : ¬ (message.kind = .schema ∧ db.syncState.phase = .stream))
    (hend : message.kind ≠ .schemaEnd) :
    schemaBarrier message db.syncState = .ok result
      ↔ message.schemaVersion = replica.version ∧ result = "" := by
  rw [schemaBarrier_rows_iff hschema hend, h.version, hpending]
  simp

theorem Holds.record {pending openTransaction : String} {phase : Phase} {middle : Db Raw Value Hash}
    (h : Holds rt generation count replica db) (hnext : Next rt generation count message raw)
    (hbound : count + 1 ≤ maxInt64) (hhash : middle.messageHash = db.messageHash)
    (hversion : (recorded rt message raw db.syncState pending openTransaction phase
      middle).syncState.schemaVersion = next.version)
    (hnonempty : next.version ≠ "") (htables : middle.tables = next.tables)
    (hat : At rt generation next.version (count + 1)
      (recorded rt message raw db.syncState pending openTransaction phase middle) next.position) :
    Holds rt generation (count + 1) next
      (recorded rt message raw db.syncState pending openTransaction phase middle) :=
  ⟨h.received.recorded hhash hnext.generation hnext.seq hbound, hversion, hnonempty, htables, hat⟩

/-- The checks come out as `checked` says; a message that is `ok` with some `a` leaves `middle a`, and the
replica accepts it with `after a`. -/
theorem agrees_of {α : Type} (checked : Prop) (ok : α → Prop) (middle : α → Db Raw Value Hash)
    (after : α → Replica Value) (pending openTransaction : String) (phase : Phase)
    (hchecked : ∀ p t, schemaBarrier message db.syncState = .ok p
      ∧ checkTransaction message db.syncState = .ok t ↔ checked ∧ p = pending ∧ t = openTransaction)
    (happly : checked → ∀ m ph,
      applyMessage rt .plain db.tables message raw db.syncState.phase db = .ok (m, ph)
        ↔ ph = phase ∧ ∃ a, ok a ∧ m = middle a)
    (haccept : ∀ next, replica.accept rt message = some next ↔ checked ∧ ∃ a, ok a ∧ next = after a)
    (hholds : checked → ∀ a, ok a → count + 1 ≤ maxInt64 → Holds rt generation (count + 1) (after a)
      (recorded rt message raw db.syncState pending openTransaction phase (middle a))) :
    Agrees rt generation count message raw replica db := by
  constructor
  · rintro _ ⟨p, t, m, ph, hbarrier, hcheck, hmiddle, rfl⟩ hbound
    obtain ⟨hc, rfl, rfl⟩ := (hchecked p t).mp ⟨hbarrier, hcheck⟩
    obtain ⟨rfl, a, ha, rfl⟩ := (happly hc _ _).mp hmiddle
    exact ⟨after a, (haccept _).mpr ⟨hc, a, ha, rfl⟩, hholds hc a ha hbound⟩
  · intro next hnext
    obtain ⟨hc, a, ha, -⟩ := (haccept next).mp hnext
    obtain ⟨hbarrier, hcheck⟩ := (hchecked pending openTransaction).mpr ⟨hc, rfl, rfl⟩
    exact ⟨_, _, _, _, _, hbarrier, hcheck, (happly hc _ _).mpr ⟨rfl, a, ha, rfl⟩, rfl⟩

theorem Inbox.snoc {chunks : List (Message × Raw)}
    (h : Inbox rt generation count message.transaction chunks db)
    (hnext : Next rt generation count message raw)
    (hinbox : db'.inbox = db.inbox ++ [inboxRow (message, raw)]) :
    Inbox rt generation (count + 1) message.transaction (chunks ++ [(message, raw)]) db' := by
  refine ⟨?_, ?_, ?_, ?_⟩
  · rw [List.map_append]
    exact h.order.snoc hnext.generation hnext.seq
  · intro entry hmem
    rcases List.mem_append.mp hmem with hmem | hmem
    · exact h.decode entry hmem
    · rw [List.mem_singleton.mp hmem]
      exact hnext.decode
  · intro entry hmem
    rcases List.mem_append.mp hmem with hmem | hmem
    · exact h.transaction entry hmem
    · rw [List.mem_singleton.mp hmem]
  · rw [hinbox, h.inbox, List.map_append]
    rfl

section Messages

variable (h : Holds rt generation count replica db) (hnext : Next rt generation count message raw)
include h hnext

section Snapshot

variable {scope : List TableRef} {schemas : List SchemaTable} {rows : List Row}
  (hposition : replica.position = .snapshot scope schemas rows)
include hposition

/-- A schema within the snapshot. -/
theorem agrees_snapshot_schema (hkind : message.kind = .schema) :
    Agrees rt generation count message raw replica db := by
  have hat := h.position
  rw [hposition] at hat
  obtain ⟨hphase, hopen, hpending, hinbox, hscope, hstage, chunks, hchunks, hrows, hpayload⟩ := hat
  refine agrees_of (message.schemaVersion = replica.version)
    (fun added => addSchema rt.cfg message schemas = some added)
    (fun added => { db with schemaStage := added.map (stageRow generation replica.version) })
    (fun added => { replica with position := .snapshot scope added rows }) "" "" .snapshot ?_ ?_ ?_ ?_
  · intro p t
    rw [h.barrier_iff hpending (by simp [hphase]) (by simp [hkind]), checkTransaction_schema_iff hkind]
    simp [hopen, and_assoc]
  · intro hversion m ph
    rw [hphase, applyMessage_schema_iff hkind (.inl rfl) (hversion ▸ h.version_ne_empty), hstage]
    simp [stageSchema_iff hnext.generation hversion]
  · intro next
    simp [Replica.accept, hposition, hkind, eq_comm]
  · intro _ added _ hbound
    refine h.record hnext hbound rfl ?_ h.version_ne_empty h.tables
      ⟨rfl, ?_, ?_, hinbox, hscope, rfl, chunks, hchunks.mono (Nat.le_succ _), hrows, hpayload⟩
    · simpa [recorded, advance, hkind] using h.version
    · simp [recorded, advance, hkind]
    · simp [recorded, advance, hkind]

/-- Rows within the snapshot. -/
theorem agrees_snapshot_rows (hkind : message.kind = .snapshotRows) :
    Agrees rt generation count message raw replica db := by
  have hat := h.position
  rw [hposition] at hat
  obtain ⟨hphase, hopen, hpending, hinbox, hscope, hstage, chunks, hchunks, hrows, hpayload⟩ := hat
  have hfresh : ∀ row ∈ db.snapshotRows, row.seq ≠ message.seq := by
    rw [hrows]
    intro row hrow
    obtain ⟨chunk, hchunk, hrow⟩ := List.mem_flatMap.mp hrow
    obtain ⟨_, -, rfl⟩ := List.mem_map.mp hrow
    have := hchunks.bound chunk hchunk
    have := hnext.seq
    change chunk.seq ≠ message.seq
    omega
  refine agrees_of (message.schemaVersion = replica.version) (fun _ : Unit => True)
    (fun _ => { db with snapshotRows := db.snapshotRows ++ snapshotRowsOf message })
    (fun _ => { replica with position := .snapshot scope schemas (rows ++ message.rows) }) "" "" .snapshot
    ?_ ?_ ?_ ?_
  · intro p t
    rw [h.barrier_iff hpending (by simp [hkind]) (by simp [hkind])]
    simp [checkTransaction, hkind, hopen, and_assoc, eq_comm]
  · intro _ m ph
    rw [hphase, applyMessage_snapshotRows_iff hkind hfresh]
    simp
  · intro next
    simp [Replica.accept, hposition, hkind, eq_comm]
  · intro _ _ _ hbound
    refine h.record hnext hbound rfl ?_ h.version_ne_empty h.tables
      ⟨rfl, ?_, ?_, hinbox, hscope, hstage, chunks ++ [message], hchunks.snoc hnext.generation hnext.seq,
        ?_, ?_⟩
    · simpa [recorded, advance, hkind] using h.version
    · simp [recorded, advance, hkind]
    · simp [recorded, advance, hkind]
    · simp [recorded, hrows]
    · simp [hpayload]

/-- The end of the snapshot. -/
theorem agrees_snapshot_end (hkind : message.kind = .snapshotEnd) :
    Agrees rt generation count message raw replica db := by
  have hat := h.position
  rw [hposition] at hat
  obtain ⟨hphase, hopen, hpending, hinbox, hscope, hstage, chunks, hchunks, hrows, rfl⟩ := hat
  refine agrees_of (message.schemaVersion = replica.version)
    (fun tables => schemas.length = rt.cfg.tables.length
      ∧ loadSnapshot rt scope schemas (chunks.flatMap Message.rows) replica.tables = .ok tables)
    (fun tables => { db with tables := tables, schemaStage := [], snapshotRows := [], snapshotScope := [] })
    (fun tables => { replica with position := .stream, tables := tables }) "" "" .stream ?_ ?_ ?_ ?_
  · intro p t
    rw [h.barrier_iff hpending (by simp [hkind]) (by simp [hkind])]
    simp [checkTransaction, hkind, hopen, and_assoc, eq_comm]
  · intro hversion m ph
    have hpublished (activated : Tables Value) :
        publishSnapshot rt [] db.tables generation { db with tables := activated, schemaStage := [] } = .ok m
          ↔ _ := publishSnapshot_iff _ hscope hrows hchunks.generation hchunks.seq
    rw [hphase, applyMessage_snapshotEnd_iff hkind, activateSnapshot,
      if_pos (hversion ▸ h.version_ne_empty), hnext.generation, hversion, ← h.tables]
    simp only [applyStagedSchemas_iff hstage, loadSnapshot, Except.bind_eq_ok]
    constructor
    · rintro ⟨rfl, _, ⟨hcount, activated, hactivated, rfl⟩, happlied⟩
      obtain ⟨cleared, tables, hcleared, htables, rfl⟩ := (hpublished activated).mp happlied
      exact ⟨rfl, tables, ⟨hcount, activated, hactivated, cleared, hcleared, htables⟩, rfl⟩
    · rintro ⟨rfl, tables, ⟨hcount, activated, hactivated, cleared, hcleared, htables⟩, rfl⟩
      exact ⟨rfl, _, ⟨hcount, activated, hactivated, rfl⟩,
        (hpublished activated).mpr ⟨cleared, tables, hcleared, htables, rfl⟩⟩
  · intro next
    simp [Replica.accept, hposition, hkind, Except.toOption_eq_some, and_assoc, eq_comm]
  · intro _ tables _ hbound
    refine h.record hnext hbound rfl ?_ h.version_ne_empty rfl ⟨rfl, ?_, ?_, hinbox, rfl⟩
    · simpa [recorded, advance, hkind] using h.version
    · simp [recorded, advance, hkind]
    · simp [recorded, advance, hkind]

end Snapshot

section Refresh

variable {version : String} {schemas : List SchemaTable}

/-- A schema on the stream starts a refresh or belongs to the one that is going on. -/
theorem agrees_schema {checked : Prop} (hkind : message.kind = .schema)
    (hphase : db.syncState.phase = .stream) (hopen : db.syncState.openTransaction = "")
    (hinbox : db.inbox = [])
    (hchecked : message.schemaVersion ≠ "" ∧ (db.syncState.pendingSchemaVersion = ""
      ∨ db.syncState.pendingSchemaVersion = message.schemaVersion) ↔ checked)
    (hstage : checked → db.schemaStage = schemas.map (stageRow generation message.schemaVersion))
    (haccept : ∀ next, replica.accept rt message = some next ↔ checked
      ∧ ∃ added, addSchema rt.cfg message schemas = some added
        ∧ next = { replica with position := .refresh message.schemaVersion added }) :
    Agrees rt generation count message raw replica db := by
  refine agrees_of checked (fun added => addSchema rt.cfg message schemas = some added)
    (fun added => { db with schemaStage := added.map (stageRow generation message.schemaVersion) })
    _ message.schemaVersion "" .stream ?_ ?_ haccept ?_
  · intro p t
    rw [schemaBarrier_schema_iff hkind hphase, checkTransaction_schema_iff hkind, ← hchecked]
    simp [hopen, and_assoc]
  · intro hc m ph
    rw [hphase, applyMessage_schema_iff hkind (.inr rfl) (hchecked.mpr hc).1, hstage hc]
    simp [stageSchema_iff hnext.generation rfl]
  · intro hc added _ hbound
    refine h.record hnext hbound rfl ?_ h.version_ne_empty h.tables
      ⟨rfl, ?_, ?_, (hchecked.mpr hc).1, hinbox, rfl⟩
    · simpa [recorded, advance, hkind] using h.version
    · simp [recorded, advance, hkind]
    · simp [recorded, advance, hkind]

theorem agrees_stream_schema (hposition : replica.position = .stream)
    (hkind : message.kind = .schema) : Agrees rt generation count message raw replica db := by
  have hat := h.position
  rw [hposition] at hat
  obtain ⟨hphase, hopen, hpending, hinbox, hstage⟩ := hat
  have hstaged : db.schemaStage
      = ([] : List SchemaTable).map (stageRow generation message.schemaVersion) := hstage
  refine agrees_schema h hnext hkind hphase hopen hinbox (by simp [hpending])
    (fun _ : message.schemaVersion ≠ "" => hstaged) ?_
  intro next
  simp [Replica.accept, hposition, hkind, @eq_comm _ next]

theorem agrees_refresh_schema (hposition : replica.position = .refresh version schemas)
    (hkind : message.kind = .schema) :
    Agrees rt generation count message raw replica db := by
  have hat := h.position
  rw [hposition] at hat
  obtain ⟨hphase, hopen, hpending, hnonempty, hinbox, hstage⟩ := hat
  refine agrees_schema h hnext hkind hphase hopen hinbox ?_
    (fun hversion : message.schemaVersion = version => hversion ▸ hstage) ?_
  · rw [hpending]
    constructor
    · rintro ⟨-, hempty | hsame⟩
      · exact absurd hempty hnonempty
      · exact hsame.symm
    · rintro rfl
      exact ⟨hnonempty, .inr rfl⟩
  · intro next
    simp only [Replica.accept, hposition, hkind]
    split_ifs with hversion
    · simp [hversion]
    · rw [not_not] at hversion
      simp [hversion, eq_comm]

/-- The end of a refresh. -/
theorem agrees_refresh_end (hposition : replica.position = .refresh version schemas)
    (hkind : message.kind = .schemaEnd) :
    Agrees rt generation count message raw replica db := by
  have hat := h.position
  rw [hposition] at hat
  obtain ⟨hphase, hopen, hpending, hnonempty, hinbox, hstage⟩ := hat
  refine agrees_of (message.schemaVersion = version)
    (fun tables => schemas.length = rt.cfg.tables.length
      ∧ refreshTables rt schemas replica.tables = .ok tables)
    (fun tables => { db with tables := tables, schemaStage := [] })
    (fun tables => { position := .stream, version := version, tables := tables }) version "" .stream
    ?_ ?_ ?_ ?_
  · intro p t
    rw [schemaBarrier_end_iff hkind, hpending]
    constructor
    · rintro ⟨⟨-, -, hversion, hp⟩, hcheck⟩
      rw [checkTransaction, hkind, hopen] at hcheck
      exact ⟨hversion, hp, (Except.ok.inj hcheck).symm⟩
    · rintro ⟨rfl, rfl, rfl⟩
      exact ⟨⟨hphase, hnonempty, rfl, rfl⟩, by rw [checkTransaction, hkind, hopen]⟩
  · intro hversion m ph
    rw [hphase, applyMessage_schemaEnd_iff hkind, hnext.generation, hversion,
      applyStagedSchemas_iff hstage, h.tables]
    simp [and_assoc]
  · intro next
    simp [Replica.accept, hposition, hkind, Except.toOption_eq_some, and_assoc, eq_comm]
  · intro _ tables _ hbound
    refine h.record hnext hbound rfl ?_ hnonempty rfl ⟨rfl, ?_, ?_, hinbox, rfl⟩
    · simp [recorded, advance, hkind]
    · simp [recorded, advance, hkind]
    · simp [recorded, advance, hkind]

end Refresh

section Transactions

variable {id : String} {rows : List Row}

/-- Rows on the stream open a transaction or belong to the open one. -/
theorem agrees_rows {named : Prop} {chunks : List (Message × Raw)}
    (hkind : message.kind = .transactionRows) (hphase : db.syncState.phase = .stream)
    (hpending : db.syncState.pendingSchemaVersion = "") (hstage : db.schemaStage = [])
    (hnamed : message.transaction ≠ "" ∧ (db.syncState.openTransaction = ""
      ∨ db.syncState.openTransaction = message.transaction) ↔ named)
    (hinbox : named → Inbox rt generation count message.transaction chunks db)
    (haccept : ∀ next, replica.accept rt message = some next
      ↔ (message.schemaVersion = replica.version ∧ named)
        ∧ next = { replica with
                   position := .transaction message.transaction
                    ((chunks.flatMap fun entry => entry.1.rows) ++ message.rows) }) :
    Agrees rt generation count message raw replica db := by
  refine agrees_of (message.schemaVersion = replica.version ∧ named) (fun _ : Unit => True)
    (fun _ => { db with inbox := db.inbox ++ [inboxRow (message, raw)] })
    (fun _ => { replica with
                position := .transaction message.transaction
                  ((chunks.flatMap fun entry => entry.1.rows) ++ message.rows) }) ""
    message.transaction .stream ?_ ?_ (fun next => (haccept next).trans (by simp)) ?_
  · intro p t
    rw [h.barrier_iff hpending (by simp [hkind]) (by simp [hkind]), checkTransaction_rows_iff hkind,
      ← hnamed]
    tauto
  · rintro ⟨-, hc⟩ m ph
    have hfresh : ∀ row ∈ db.inbox, row.seq ≠ message.seq := by
      rw [(hinbox hc).inbox]
      intro row hrow
      obtain ⟨entry, hentry, rfl⟩ := List.mem_map.mp hrow
      have := (hinbox hc).order.bound entry.1 (List.mem_map_of_mem hentry)
      have := hnext.seq
      change entry.1.seq ≠ message.seq
      omega
    rw [hphase, applyMessage_transactionRows_iff hkind hfresh]
    simp
  · rintro ⟨-, hc⟩ _ _ hbound
    refine h.record hnext hbound rfl ?_ h.version_ne_empty h.tables
      ⟨rfl, ?_, (hnamed.mpr hc).1, ?_, hstage, _, (hinbox hc).snoc hnext rfl, ?_⟩
    · simpa [recorded, advance, hkind] using h.version
    · simp [recorded, advance, hkind]
    · simp [recorded, advance, hkind]
    · simp

theorem agrees_stream_rows (hposition : replica.position = .stream)
    (hkind : message.kind = .transactionRows) : Agrees rt generation count message raw replica db := by
  have hat := h.position
  rw [hposition] at hat
  obtain ⟨hphase, hopen, hpending, hempty, hstage⟩ := hat
  have hinbox : Inbox rt generation count message.transaction [] db :=
    ⟨chunks_nil _ _, by simp, by simp, hempty⟩
  refine agrees_rows h hnext hkind hphase hpending hstage (by simp [hopen])
    (fun _ : message.transaction ≠ "" => hinbox) ?_
  intro next
  simp [Replica.accept, hposition, hkind, @eq_comm _ next]

theorem agrees_transaction_rows (hposition : replica.position = .transaction id rows)
    (hkind : message.kind = .transactionRows) :
    Agrees rt generation count message raw replica db := by
  have hat := h.position
  rw [hposition] at hat
  obtain ⟨hphase, hopen, hid, hpending, hstage, chunks, hinbox, rfl⟩ := hat
  refine agrees_rows h hnext hkind hphase hpending hstage ?_
    (fun hsame : message.transaction = id => hsame ▸ hinbox) ?_
  · rw [hopen]
    constructor
    · rintro ⟨-, hempty | hsame⟩
      · exact absurd hempty hid
      · exact hsame.symm
    · rintro rfl
      exact ⟨hid, .inr rfl⟩
  · intro next
    simp only [Replica.accept, hposition, hkind]
    split_ifs with hrefused
    · simp only [false_iff]
      tauto
    · simp only [not_or, not_not] at hrefused
      simp [hrefused, eq_comm]

/-- The end of a transaction. -/
theorem agrees_transaction_end (hposition : replica.position = .transaction id rows)
    (hkind : message.kind = .transactionEnd) :
    Agrees rt generation count message raw replica db := by
  have hat := h.position
  rw [hposition] at hat
  obtain ⟨hphase, hopen, hid, hpending, hstage, chunks, hinbox, rfl⟩ := hat
  refine agrees_of (message.schemaVersion = replica.version ∧ message.transaction = id)
    (fun tables => applyRows rt (chunks.flatMap fun entry => entry.1.rows) replica.tables = .ok tables)
    (fun tables => { db with inbox := [], tables := tables })
    (fun tables => { replica with position := .stream, tables := tables }) "" message.transaction .stream
    ?_ ?_ ?_ ?_
  · intro p t
    rw [h.barrier_iff hpending (by simp [hkind]) (by simp [hkind]), checkTransaction_end_iff hkind, hopen]
    constructor
    · rintro ⟨⟨hversion, hp⟩, -, hsame, ht⟩
      exact ⟨⟨hversion, hsame.symm⟩, hp, ht⟩
    · rintro ⟨⟨hversion, rfl⟩, hp, ht⟩
      exact ⟨⟨hversion, hp⟩, hid, rfl, ht⟩
  · rintro ⟨-, hsame⟩ m ph
    rw [hphase, applyMessage_transactionEnd_iff hkind, ← h.tables]
    refine and_congr_right fun _ => applyTransaction_iff hinbox.inbox ?_ ?_ hinbox.decode ?_
    · intro entry hmem
      rw [hinbox.order.generation entry.1 (List.mem_map_of_mem hmem), hnext.generation]
    · have hseq := hinbox.order.seq
      rwa [List.pairwise_map] at hseq
    · exact fun entry hmem => (hinbox.transaction entry hmem).trans hsame.symm
  · intro next
    simp [Replica.accept, hposition, hkind, Except.toOption_eq_some, eq_comm]
  · intro _ tables _ hbound
    refine h.record hnext hbound rfl ?_ h.version_ne_empty rfl ⟨rfl, ?_, ?_, rfl, hstage⟩
    · simpa [recorded, advance, hkind] using h.version
    · simp [recorded, advance, hkind]
    · simp [recorded, advance, hkind]

end Transactions

end Messages

section Refusals

section Passed

variable (h : Passes rt message raw db db')
include h

theorem Passes.snapshot_phase (hkind : message.kind = .snapshotRows ∨ message.kind = .snapshotEnd) :
    db.syncState.phase = .snapshot := by
  obtain ⟨_, _, _, _, -, -, happly, -⟩ := h
  have hcases := applyMessage_cases happly
  rcases hkind with hkind | hkind
  · simp only [hkind] at hcases
    exact hcases.2.1
  · simp only [hkind] at hcases
    exact hcases.2.1

theorem Passes.stream_phase (hkind : message.kind = .schemaEnd ∨ message.kind = .transactionRows
      ∨ message.kind = .transactionEnd) : db.syncState.phase = .stream := by
  obtain ⟨_, _, _, _, -, -, happly, -⟩ := h
  have hcases := applyMessage_cases happly
  rcases hkind with hkind | hkind | hkind
  · simp only [hkind] at hcases
    exact hcases.2.1
  · simp only [hkind] at hcases
    exact hcases.2.1
  · simp only [hkind] at hcases
    exact hcases.2.1

theorem Passes.not_pending (hschema : message.kind ≠ .schema)
    (hend : message.kind ≠ .schemaEnd) : db.syncState.pendingSchemaVersion = "" := by
  obtain ⟨_, _, _, _, hbarrier, -⟩ := h
  exact ((schemaBarrier_rows_iff (fun hstream => hschema hstream.1) hend).mp hbarrier).2.1

theorem Passes.pending (hkind : message.kind = .schemaEnd) :
    db.syncState.pendingSchemaVersion ≠ "" := by
  obtain ⟨_, _, _, _, hbarrier, -⟩ := h
  obtain ⟨-, hversion, hsame, -⟩ := (schemaBarrier_end_iff hkind).mp hbarrier
  exact hsame ▸ hversion

theorem Passes.opened (hkind : message.kind = .transactionEnd) :
    db.syncState.openTransaction ≠ "" := by
  obtain ⟨_, _, _, _, -, hcheck, -⟩ := h
  obtain ⟨htransaction, hsame, -⟩ := (checkTransaction_end_iff hkind).mp hcheck
  exact hsame ▸ htransaction

theorem Passes.not_opened (hkind : message.kind = .schema) :
    db.syncState.openTransaction = "" := by
  obtain ⟨_, _, _, _, -, hcheck, -⟩ := h
  exact ((checkTransaction_schema_iff hkind).mp hcheck).1

end Passed

theorem agrees_refused (haccept : replica.accept rt message = none)
    (hrefused : ∀ db', ¬ Passes rt message raw db db') :
    Agrees rt generation count message raw replica db := by
  refine ⟨fun db' hpassed => absurd hpassed (hrefused db'), ?_⟩
  intro next hsome
  rw [haccept] at hsome
  cases hsome

end Refusals

/-- **One message.** Wherever the server is, the next message passes exactly if the replica accepts
it. -/
theorem Holds.agrees (h : Holds rt generation count replica db)
    (hnext : Next rt generation count message raw) (hkind : ofSource message.kind = true) :
    Agrees rt generation count message raw replica db := by
  have hat := h.position
  cases hposition : replica.position with
  | snapshot scope schemas rows =>
      rw [hposition] at hat
      cases hsource : message.kind with
      | schema => exact agrees_snapshot_schema h hnext hposition hsource
      | snapshotRows => exact agrees_snapshot_rows h hnext hposition hsource
      | snapshotEnd => exact agrees_snapshot_end h hnext hposition hsource
      | schemaEnd | transactionRows | transactionEnd =>
          refine agrees_refused (by simp [Replica.accept, hposition, hsource]) fun _ hpassed => ?_
          have hphase := hpassed.stream_phase (by simp [hsource])
          cases hat.phase.symm.trans hphase
      | _ => simp [hsource, ofSource] at hkind
  | stream =>
      rw [hposition] at hat
      cases hsource : message.kind with
      | schema => exact agrees_stream_schema h hnext hposition hsource
      | transactionRows => exact agrees_stream_rows h hnext hposition hsource
      | snapshotRows | snapshotEnd =>
          refine agrees_refused (by simp [Replica.accept, hposition, hsource]) fun _ hpassed => ?_
          have hphase := hpassed.snapshot_phase (by simp [hsource])
          cases hat.phase.symm.trans hphase
      | schemaEnd =>
          refine agrees_refused (by simp [Replica.accept, hposition, hsource]) fun _ hpassed => ?_
          exact hpassed.pending hsource hat.pending
      | transactionEnd =>
          refine agrees_refused (by simp [Replica.accept, hposition, hsource]) fun _ hpassed => ?_
          exact hpassed.opened hsource hat.openTransaction
      | _ => simp [hsource, ofSource] at hkind
  | transaction id rows =>
      rw [hposition] at hat
      cases hsource : message.kind with
      | transactionRows => exact agrees_transaction_rows h hnext hposition hsource
      | transactionEnd => exact agrees_transaction_end h hnext hposition hsource
      | schema =>
          refine agrees_refused (by simp [Replica.accept, hposition, hsource]) fun _ hpassed => ?_
          exact hat.id_ne_empty (hat.openTransaction.symm.trans (hpassed.not_opened hsource))
      | snapshotRows | snapshotEnd =>
          refine agrees_refused (by simp [Replica.accept, hposition, hsource]) fun _ hpassed => ?_
          have hphase := hpassed.snapshot_phase (by simp [hsource])
          cases hat.phase.symm.trans hphase
      | schemaEnd =>
          refine agrees_refused (by simp [Replica.accept, hposition, hsource]) fun _ hpassed => ?_
          exact hpassed.pending hsource hat.pending
      | _ => simp [hsource, ofSource] at hkind
  | refresh version schemas =>
      rw [hposition] at hat
      cases hsource : message.kind with
      | schema => exact agrees_refresh_schema h hnext hposition hsource
      | schemaEnd => exact agrees_refresh_end h hnext hposition hsource
      | snapshotRows | snapshotEnd | transactionRows | transactionEnd =>
          refine agrees_refused (by simp [Replica.accept, hposition, hsource]) fun _ hpassed => ?_
          have hempty := hpassed.not_pending (by simp [hsource]) (by simp [hsource])
          exact hat.version_ne_empty (hat.pending.symm.trans hempty)
      | _ => simp [hsource, ofSource] at hkind

end Steps

section Lists

variable [DecidableEq Hash] {generation : String} {count : Nat} {replica last : Replica Value}
  {db db' : Db Raw Value Hash}

def InOrder (rt : Runtime Raw Value Hash) (generation : String) :
    Nat → List (Message × Raw) → Prop
  | _, [] => True
  | count, entry :: entries =>
      Next rt generation count entry.1 entry.2 ∧ ofSource entry.1.kind = true
        ∧ InOrder rt generation (count + 1) entries

def acceptAll (rt : Runtime Raw Value Hash) (messages : List Message) (replica : Replica Value) :
    Option (Replica Value) :=
  messages.foldlM (fun replica message => replica.accept rt message) replica

/-- Messages in order are stored only if the replica accepts them all. -/
theorem Holds.storeAll {entries : List (Message × Raw)} (h : Holds rt generation count replica db)
    (hentries : InOrder rt generation count entries)
    (hstored : Server.storeAll rt entries db = .ok db') :
    count + entries.length ≤ maxInt64
      ∧ ∃ last, acceptAll rt (entries.map Prod.fst) replica = some last
        ∧ Holds rt generation (count + entries.length) last db' := by
  induction entries generalizing count replica db with
  | nil =>
      cases hstored
      exact ⟨h.received.bounded, replica, rfl, h⟩
  | cons entry entries ih =>
      obtain ⟨hnext, hkind, hrest⟩ := hentries
      obtain ⟨middle, hstore, hstored⟩ := Except.foldlM_cons_eq_ok.mp hstored
      obtain ⟨hbound, hpassed⟩ :=
        (h.received.store_iff hnext.generation hnext.seq hkind).mp hstore
      obtain ⟨next, haccept, hholds⟩ := (h.agrees hnext hkind).1 middle hpassed hbound
      obtain ⟨hlength, last, hlast, hend⟩ := ih hholds hrest hstored
      rw [Nat.add_assoc, Nat.add_comm 1] at hlength hend
      refine ⟨hlength, last, ?_, hend⟩
      rw [acceptAll, List.map_cons, List.foldlM_cons, haccept]
      exact hlast

/-- Messages that the replica accepts are stored. -/
theorem Holds.accepted {entries : List (Message × Raw)} (h : Holds rt generation count replica db)
    (hentries : InOrder rt generation count entries) (hbound : count + entries.length ≤ maxInt64)
    (haccepted : acceptAll rt (entries.map Prod.fst) replica = some last) :
    ∃ db', Server.storeAll rt entries db = .ok db' := by
  induction entries generalizing count replica db with
  | nil => exact ⟨db, rfl⟩
  | cons entry entries ih =>
      obtain ⟨hnext, hkind, hrest⟩ := hentries
      rw [List.length_cons] at hbound
      obtain ⟨next, haccept, haccepted⟩ := Option.bind_eq_some_iff.mp haccepted
      obtain ⟨middle, hpassed⟩ := (h.agrees hnext hkind).2 next haccept
      have hone : count + 1 ≤ maxInt64 := by omega
      obtain ⟨next', haccept', hholds⟩ := (h.agrees hnext hkind).1 middle hpassed hone
      cases haccept.symm.trans haccept'
      have hstore := (h.received.store_iff hnext.generation hnext.seq hkind).mpr ⟨hone, hpassed⟩
      obtain ⟨db', hstored⟩ := ih hholds hrest (by omega) haccepted
      exact ⟨db', Except.foldlM_cons_eq_ok.mpr ⟨middle, hstore, hstored⟩⟩

/-- The first message of a generation is stored. -/
theorem store_snapshotBegin {message : Message} {raw : Raw} {start : Db Raw Value Hash}
    (hother : start.syncState.generation ≠ message.generation) (hkind : message.kind = .snapshotBegin)
    (hseq : message.seq = 1) (hversion : message.schemaVersion ≠ "")
    (hallowed : ∀ table ∈ message.tables, rt.cfg.allows table.schema table.name)
    (hnodup : message.tables.Nodup) :
    ∃ db, Server.store rt .plain message raw start = .ok db
      ∧ Holds rt message.generation 1
        { position := .snapshot message.tables [] [], version := message.schemaVersion
          tables := start.tables } db := by
  let current : SyncState :=
    { generation := message.generation, schemaVersion := message.schemaVersion
      repairAuthorized := start.syncState.repairAuthorized }
  let cleared : Db Raw Value Hash :=
    { start with inbox := [], snapshotRows := [], snapshotScope := [], messageHash := []
                 schemaStage := [] }
  let opened := { cleared with snapshotScope := scopeRows message.tables }
  have hswitch : switchGeneration message start = .ok (current, cleared) := by
    rw [switchGeneration, if_neg (Ne.symm hother), if_neg (by simp [hseq, hkind])]
  have hbarrier : schemaBarrier message current = .ok "" :=
    (schemaBarrier_rows_iff (by simp [hkind]) (by simp [hkind])).mpr ⟨rfl, rfl, rfl⟩
  have hcheck : checkTransaction message current = .ok "" := by
    simp only [checkTransaction, hkind]
    rfl
  have happly : applyMessage rt .plain start.tables message raw current.phase cleared
      = .ok (opened, .snapshot) := by
    simp only [applyMessage, hkind]
    rw [snapshotScope_ok hallowed hnodup 0 [] (by simp)]
    rfl
  have hstore : Server.store rt .plain message raw start
      = .ok (recorded rt message raw current "" "" .snapshot opened) :=
    (store_next_iff hswitch (by rw [hseq]) (by simp [cleared]) (by simp [hkind, isFileKind])).mpr
      ⟨by rw [hseq]; decide, _, _, _, _, hbarrier, hcheck, happly, rfl⟩
  refine ⟨_, hstore, ⟨rfl, hseq, by decide, ?_⟩, ?_, hversion, rfl, ?_⟩
  · intro row hrow
    rw [List.mem_singleton.mp hrow]
    exact hseq.le
  · simp [recorded, advance, hkind, current]
  · refine ⟨rfl, ?_, ?_, rfl, rfl, rfl, [], chunks_nil _ _, rfl, rfl⟩
    · simp [recorded, advance, hkind]
    · simp [recorded, advance, hkind]

end Lists

end GoSync.Server
