import GoSync.Server.InOrder

/-!
# What the server keeps staged

Between the messages of a transaction, a file or a schema refresh the server keeps what it has
received in its metadata tables. `Staged` says how these tables and the progress row fit together;
every call of `store` keeps it, whatever messages arrive and in which order.
-/

namespace GoSync.Server

variable {Raw Value Hash : Type} {rt : Runtime Raw Value Hash}

def waits : Kind → Bool
  | .transactionRows | .fileBegin | .fileChunk => true
  | _ => false

def stagedVersion (current : SyncState) : String :=
  if current.pendingSchemaVersion = "" then current.schemaVersion else current.pendingSchemaVersion

structure Staged (rt : Runtime Raw Value Hash) (current : SyncState) (db : Db Raw Value Hash) :
    Prop where
  applied_le : current.applied ≤ current.received
  open_iff : current.openTransaction = "" ↔ db.inbox = []
  inbox : ∃ chunks, Inbox rt current.generation current.received current.openTransaction chunks db
    ∧ ∀ entry ∈ chunks, entry.1.schemaVersion = current.schemaVersion ∧ waits entry.1.kind = true
  pending : current.pendingSchemaVersion ≠ "" → current.phase = .stream ∧ db.inbox = []
  stage : ∀ row ∈ db.schemaStage, row.generation = current.generation
    ∧ row.schemaVersion = stagedVersion current ∧ row.schemaVersion ≠ ""
    ∧ (current.phase = .snapshot ∨ current.pendingSchemaVersion ≠ "")
  hashes : db.messageHash.map (fun row => (row.generation, row.seq))
    = (List.range' 1 current.received).map fun seq => (current.generation, seq)

section Steps

variable {current : SyncState} {db middle db' : Db Raw Value Hash} {message : Message} {raw : Raw}
  {phase : Phase} {openTransaction pending : String}

theorem staged_empty (tables : Tables Value) :
    Staged rt {} ({ tables := tables } : Db Raw Value Hash) :=
  ⟨le_rfl, by simp, ⟨[], ⟨chunks_nil _ _, by simp, by simp, rfl⟩, by simp⟩, by simp, by simp, rfl⟩

theorem Staged.generation_eq (h : Staged rt current db) {row : InboxRow Raw} (hrow : row ∈ db.inbox) :
    row.generation = current.generation := by
  obtain ⟨chunks, hchunks, -⟩ := h.inbox
  rw [hchunks.inbox] at hrow
  obtain ⟨entry, hentry, rfl⟩ := List.mem_map.mp hrow
  exact hchunks.order.generation entry.1 (List.mem_map_of_mem hentry)

theorem Staged.seq_le (h : Staged rt current db) {row : InboxRow Raw} (hrow : row ∈ db.inbox) :
    row.seq ≤ current.received := by
  obtain ⟨chunks, hchunks, -⟩ := h.inbox
  rw [hchunks.inbox] at hrow
  obtain ⟨entry, hentry, rfl⟩ := List.mem_map.mp hrow
  exact hchunks.order.bound entry.1 (List.mem_map_of_mem hentry)

theorem Staged.switch {cleared : Db Raw Value Hash} (h : Staged rt db.syncState db)
    (hswitch : switchGeneration message db = .ok (current, cleared)) :
    Staged rt current cleared ∧ message.generation = current.generation := by
  rcases switchGeneration_cases hswitch with ⟨hsame, rfl, rfl⟩ | ⟨-, -, -, rfl, rfl⟩
  · exact ⟨h, hsame⟩
  · refine ⟨⟨le_rfl, by simp, ⟨[], ⟨chunks_nil _ _, by simp, by simp, rfl⟩, by simp⟩, by simp,
      by simp, rfl⟩, rfl⟩

theorem Staged.stage_eq_nil (h : Staged rt current db) (hphase : current.phase ≠ .snapshot)
    (hpending : current.pendingSchemaVersion = "") : db.schemaStage = [] := by
  rw [List.eq_nil_iff_forall_not_mem]
  intro row hrow
  obtain ⟨-, -, -, hsnapshot | hrefresh⟩ := h.stage row hrow
  · exact hphase hsnapshot
  · exact hrefresh hpending

theorem stageSchema_append {cfg : Syncer} {stage stage' : List StageRow}
    (h : stageSchema cfg message stage = .ok stage') :
    ∃ row, stage' = stage ++ [row] ∧ row.generation = message.generation
      ∧ row.schemaVersion = message.schemaVersion := by
  unfold stageSchema at h
  split at h
  · cases h
  · split_ifs at h
    cases h
    exact ⟨_, rfl, rfl, rfl⟩

theorem applyStagedSchemas_stage {generation version : String}
    (h : applyStagedSchemas rt generation version db = .ok db') :
    db'.schemaStage = db.schemaStage.filter fun row =>
      ¬ (row.generation = generation ∧ row.schemaVersion = version) := by
  unfold applyStagedSchemas at h
  dsimp only at h
  split_ifs at h
  obtain ⟨tables, -, h⟩ := Except.bind_eq_ok.mp h
  cases h
  rfl

theorem Staged.activated {version : String} (h : Staged rt current db)
    (hgeneration : message.generation = current.generation) (hversion : stagedVersion current = version)
    (hactivated : applyStagedSchemas rt message.generation version db = .ok middle) :
    middle.schemaStage = [] := by
  rw [applyStagedSchemas_stage hactivated, List.filter_eq_nil_iff]
  intro row hrow hleft
  obtain ⟨hrowGeneration, hrowVersion, -⟩ := h.stage row hrow
  exact of_decide_eq_true hleft
    ⟨hrowGeneration.trans hgeneration.symm, hrowVersion.trans hversion⟩

theorem checkTransaction_waits (hkind : waits message.kind = true)
    (h : checkTransaction message current = .ok openTransaction) :
    message.transaction ≠ ""
      ∧ (current.openTransaction = "" ∨ current.openTransaction = message.transaction)
      ∧ openTransaction = message.transaction := by
  cases hcase : message.kind with
  | transactionRows => exact (checkTransaction_rows_iff hcase).mp h
  | fileBegin | fileChunk =>
      simp only [checkTransaction, hcase] at h
      split_ifs at h with hinvalid hempty hother
      · exact ⟨fun hnone => hinvalid (.inl hnone), .inl hempty, (Except.ok.inj h).symm⟩
      · have hsame := not_not.mp hother
        exact ⟨fun hnone => hinvalid (.inl hnone), .inr hsame, (Except.ok.inj h).symm.trans hsame⟩
  | _ => simp [hcase, waits] at hkind

theorem checkTransaction_end {message : Message}
    (hkind : message.kind ∈ [Kind.transactionEnd, .fileEnd])
    (h : checkTransaction message current = .ok openTransaction) :
    current.openTransaction = message.transaction ∧ message.transaction ≠ "" := by
  rcases List.mem_cons.mp hkind with hcase | hcase
  · obtain ⟨htransaction, hsame, -⟩ := (checkTransaction_end_iff hcase).mp h
    exact ⟨hsame, htransaction⟩
  · rw [List.mem_singleton] at hcase
    simp only [checkTransaction, hcase] at h
    split_ifs at h with hinvalid
    simp only [not_or, not_not] at hinvalid
    exact ⟨hinvalid.2.2, hinvalid.1⟩

theorem Staged.transaction_end (h : Staged rt current db)
    (hgeneration : message.generation = current.generation)
    (hsame : current.openTransaction = message.transaction)
    (happly : applyTransaction rt [] db.tables message db = .ok middle) :
    ∃ chunks tables, Inbox rt current.generation current.received message.transaction chunks db
      ∧ applyRows rt (chunks.flatMap fun entry => entry.1.rows) db.tables = .ok tables
      ∧ middle = { db with inbox := [], tables := tables } := by
  obtain ⟨chunks, hchunks, -⟩ := h.inbox
  rw [hsame] at hchunks
  have hseq := hchunks.order.seq
  rw [List.pairwise_map] at hseq
  obtain ⟨tables, htables, hmiddle⟩ := (applyTransaction_iff hchunks.inbox (fun entry hmem =>
    (hchunks.order.generation entry.1 (List.mem_map_of_mem hmem)).trans hgeneration.symm) hseq
    hchunks.decode hchunks.transaction).mp happly
  exact ⟨chunks, tables, hchunks, htables, hmiddle⟩

section Message

variable (h : Staged rt current db) (hgeneration : message.generation = current.generation)
  (hseq : message.seq = current.received + 1)
include h hgeneration hseq

/-- What a message has to leave behind. -/
theorem Staged.recorded (hhash : middle.messageHash = db.messageHash)
    (hopen : (advance message current phase openTransaction pending).openTransaction = ""
      ↔ middle.inbox = [])
    (hinbox : ∃ chunks, Inbox rt message.generation message.seq
        (advance message current phase openTransaction pending).openTransaction chunks middle
      ∧ ∀ entry ∈ chunks, entry.1.schemaVersion
          = (advance message current phase openTransaction pending).schemaVersion
        ∧ waits entry.1.kind = true)
    (hpending : (advance message current phase openTransaction pending).pendingSchemaVersion ≠ "" →
      phase = .stream ∧ middle.inbox = [])
    (hstage : ∀ row ∈ middle.schemaStage, row.generation = message.generation
      ∧ row.schemaVersion = stagedVersion (advance message current phase openTransaction pending)
      ∧ row.schemaVersion ≠ ""
      ∧ (phase = .snapshot
        ∨ (advance message current phase openTransaction pending).pendingSchemaVersion ≠ "")) :
    Staged rt (advance message current phase openTransaction pending)
      (Server.recorded rt message raw current pending openTransaction phase middle) := by
  obtain ⟨chunks, hchunks, hentries⟩ := hinbox
  refine ⟨?_, hopen, ⟨chunks, ⟨hchunks.order, hchunks.decode, hchunks.transaction, hchunks.inbox⟩,
    hentries⟩, hpending, hstage, ?_⟩
  · have happlied := h.applied_le
    unfold advance
    dsimp only
    split_ifs
    · exact le_rfl
    · omega
  · unfold Server.recorded advance
    dsimp only
    rw [hhash, List.map_append, h.hashes, hgeneration, hseq, List.range'_concat, List.map_append]
    simp [Nat.add_comm]

theorem Staged.keep_inbox (hinbox : middle.inbox = db.inbox) :
    ∃ chunks, Inbox rt message.generation message.seq current.openTransaction chunks middle
      ∧ ∀ entry ∈ chunks, entry.1.schemaVersion = current.schemaVersion
        ∧ waits entry.1.kind = true := by
  obtain ⟨chunks, hchunks, hentries⟩ := h.inbox
  refine ⟨chunks, ⟨?_, hchunks.decode, hchunks.transaction, hinbox.trans hchunks.inbox⟩, hentries⟩
  rw [hgeneration]
  exact hchunks.order.mono (by omega)

theorem Staged.add_inbox (hdecode : rt.codec.unmarshal raw = some message)
    (hopen : current.openTransaction = "" ∨ current.openTransaction = message.transaction)
    (hversion : message.schemaVersion = current.schemaVersion) (hkind : waits message.kind = true)
    (hinbox : middle.inbox = db.inbox ++ [inboxRow (message, raw)]) :
    ∃ chunks, Inbox rt message.generation message.seq message.transaction chunks middle
      ∧ ∀ entry ∈ chunks, entry.1.schemaVersion = current.schemaVersion
        ∧ waits entry.1.kind = true := by
  obtain ⟨chunks, hchunks, hentries⟩ := h.inbox
  have hsame : ∀ entry ∈ chunks, entry.1.transaction = message.transaction := by
    rcases hopen with hempty | hsame
    · have hnone : chunks = [] := by
        have := hchunks.inbox.symm.trans (h.open_iff.mp hempty)
        exact List.map_eq_nil_iff.mp this
      simp [hnone]
    · exact fun entry hmem => (hchunks.transaction entry hmem).trans hsame
  refine ⟨chunks ++ [(message, raw)], ⟨?_, ?_, ?_, ?_⟩, ?_⟩
  · rw [List.map_append, hseq, hgeneration]
    exact hchunks.order.snoc hgeneration hseq
  · exact List.forall_mem_append.mpr ⟨hchunks.decode, by simpa using hdecode⟩
  · exact List.forall_mem_append.mpr ⟨hsame, by simp⟩
  · rw [hinbox, hchunks.inbox, List.map_append, List.map_singleton]
  · exact List.forall_mem_append.mpr ⟨hentries, by simpa using ⟨hversion, hkind⟩⟩

theorem Staged.pass (hhash : middle.messageHash = db.messageHash)
    (hinbox : middle.inbox = db.inbox)
    (hkind : message.kind ∉ [Kind.transactionEnd, .fileEnd]) (hend : message.kind ≠ .schemaEnd)
    (hstage : ∀ row ∈ middle.schemaStage, row.generation = message.generation
      ∧ row.schemaVersion = current.schemaVersion ∧ row.schemaVersion ≠ "" ∧ phase = .snapshot) :
    Staged rt (advance message current phase current.openTransaction "")
      (Server.recorded rt message raw current "" current.openTransaction phase middle) := by
  refine h.recorded hgeneration hseq hhash ?_ ?_ ?_ ?_
  · simp only [advance, if_neg hkind, hinbox]
    exact h.open_iff
  · simp only [advance, if_neg hkind, if_neg hend]
    exact h.keep_inbox hgeneration hseq hinbox
  · simp [advance]
  · intro row hrow
    obtain ⟨hrowGeneration, hversion, hnonempty, hphase⟩ := hstage row hrow
    refine ⟨hrowGeneration, ?_, hnonempty, .inl hphase⟩
    simpa [advance, stagedVersion, hend] using hversion

/-- A chunk joins the open transaction or opens one. -/
theorem Staged.join (hdecode : rt.codec.unmarshal raw = some message)
    (htransaction : message.transaction ≠ "")
    (hopen : current.openTransaction = "" ∨ current.openTransaction = message.transaction)
    (hversion : message.schemaVersion = current.schemaVersion) (hkind : waits message.kind = true)
    (hpending : current.pendingSchemaVersion = "") (hphase : current.phase = .stream)
    (hinserted : insertInbox message raw db = .ok middle) :
    Staged rt (advance message current .stream message.transaction "")
      (Server.recorded rt message raw current "" message.transaction .stream middle) := by
  have hmiddle := insertInbox_frame hinserted
  have hinbox : middle.inbox = db.inbox ++ [inboxRow (message, raw)] := by
    rw [hmiddle]
    rfl
  have hends : message.kind ∉ [Kind.transactionEnd, .fileEnd] ∧ message.kind ≠ .schemaEnd := by
    cases hcase : message.kind <;> simp_all [waits]
  refine h.recorded hgeneration hseq (by rw [hmiddle]) ?_ ?_ ?_ ?_
  · simp [advance, hends.1, hinbox, htransaction]
  · simp only [advance, if_neg hends.1, if_neg hends.2]
    exact h.add_inbox hgeneration hseq hdecode hopen hversion hkind hinbox
  · simp [advance]
  · rw [hmiddle]
    dsimp only
    rw [h.stage_eq_nil (by simp [hphase]) hpending]
    simp

theorem Staged.finish (hhash : middle.messageHash = db.messageHash)
    (hkind : message.kind ∈ [Kind.transactionEnd, .fileEnd])
    (hpending : current.pendingSchemaVersion = "") (hphase : current.phase = .stream)
    (hinbox : middle.inbox = []) (hstage : middle.schemaStage = db.schemaStage) :
    Staged rt (advance message current .stream openTransaction "")
      (Server.recorded rt message raw current "" openTransaction .stream middle) := by
  have hend : message.kind ≠ .schemaEnd := by
    intro hschema
    simp [hschema] at hkind
  refine h.recorded hgeneration hseq hhash ?_ ⟨[], ⟨chunks_nil _ _, by simp, by simp, hinbox⟩, by simp⟩
    ?_ ?_
  · simp only [advance, if_pos hkind, hinbox]
  · simp [advance]
  · rw [hstage, h.stage_eq_nil (by simp [hphase]) hpending]
    simp

/-- A schema document goes to the version that is being staged. -/
theorem Staged.document (hkind : message.kind = .schema)
    (hbarrier : schemaBarrier message current = .ok pending)
    (hcheck : checkTransaction message current = .ok openTransaction)
    (happly : applyMessage rt .plain db.tables message raw current.phase db = .ok (middle, phase)) :
    Staged rt (advance message current phase openTransaction pending)
      (Server.recorded rt message raw current pending openTransaction phase middle) := by
  obtain ⟨hopen, hresult⟩ := (checkTransaction_schema_iff hkind).mp hcheck
  obtain rfl : openTransaction = current.openTransaction := hresult.trans hopen.symm
  have hcases := applyMessage_cases happly
  simp only [hkind] at hcases
  obtain ⟨rfl, hphase, heffect⟩ := hcases
  by_cases hstream : current.phase = .stream
  · obtain ⟨hversion, hrefresh, rfl⟩ := (schemaBarrier_schema_iff hkind hstream).mp hbarrier
    obtain ⟨-, stage, hstage, rfl⟩ := heffect.resolve_left fun hempty => hversion hempty.1
    obtain ⟨added, rfl, haddedGeneration, haddedVersion⟩ := stageSchema_append hstage
    have hinbox := h.open_iff.mp hopen
    refine h.recorded hgeneration hseq rfl ?_ ?_ (fun _ => ⟨hstream, hinbox⟩) ?_
    · simp only [advance, hkind]
      exact h.open_iff
    · simp only [advance, hkind]
      exact h.keep_inbox hgeneration hseq rfl
    · intro row hrow
      have hstaged : row.generation = message.generation ∧ row.schemaVersion = message.schemaVersion := by
        rcases List.mem_append.mp hrow with hrow | hrow
        · obtain ⟨hrowGeneration, hrowVersion, -, hsnapshot | hpending⟩ := h.stage row hrow
          · cases hstream.symm.trans hsnapshot
          · rw [stagedVersion, if_neg hpending] at hrowVersion
            exact ⟨hrowGeneration.trans hgeneration.symm,
              hrowVersion.trans (hrefresh.resolve_left hpending)⟩
        · rw [List.mem_singleton.mp hrow]
          exact ⟨haddedGeneration, haddedVersion⟩
      refine ⟨hstaged.1, ?_, hstaged.2 ▸ hversion, .inr (by simpa [advance, hkind] using hversion)⟩
      simpa [advance, hkind, stagedVersion, hversion] using hstaged.2
  · obtain ⟨hversion, hpending, rfl⟩ :=
      (schemaBarrier_rows_iff (fun hboth => hstream hboth.2) (by simp [hkind])).mp hbarrier
    have hsnapshot := hphase.resolve_right hstream
    have hold : ∀ row ∈ db.schemaStage, row.generation = message.generation
        ∧ row.schemaVersion = current.schemaVersion ∧ row.schemaVersion ≠ ""
        ∧ current.phase = .snapshot := by
      intro row hrow
      obtain ⟨hrowGeneration, hrowVersion, hnonempty, -⟩ := h.stage row hrow
      rw [stagedVersion, if_pos hpending] at hrowVersion
      exact ⟨hrowGeneration.trans hgeneration.symm, hrowVersion, hnonempty, hsnapshot⟩
    rcases heffect with ⟨-, rfl⟩ | ⟨hnonempty, stage, hstage, rfl⟩
    · exact h.pass hgeneration hseq rfl rfl (by simp [hkind]) (by simp [hkind]) hold
    · obtain ⟨added, rfl, haddedGeneration, haddedVersion⟩ := stageSchema_append hstage
      refine h.pass hgeneration hseq rfl rfl (by simp [hkind]) (by simp [hkind]) ?_
      refine List.forall_mem_append.mpr ⟨hold, ?_⟩
      intro row hrow
      rw [List.mem_singleton.mp hrow]
      exact ⟨haddedGeneration, haddedVersion.trans hversion, haddedVersion ▸ hnonempty, hsnapshot⟩

/-- The end of a refresh empties the stage. -/
theorem Staged.refreshed (hkind : message.kind = .schemaEnd)
    (hbarrier : schemaBarrier message current = .ok pending)
    (happly : applyMessage rt .plain db.tables message raw current.phase db = .ok (middle, phase)) :
    Staged rt (advance message current phase current.openTransaction pending)
      (Server.recorded rt message raw current pending current.openTransaction phase middle) := by
  obtain ⟨hphase, hversion, hsame, rfl⟩ := (schemaBarrier_end_iff hkind).mp hbarrier
  have hpending : current.pendingSchemaVersion ≠ "" := hsame ▸ hversion
  have hcases := applyMessage_cases happly
  simp only [hkind] at hcases
  obtain ⟨rfl, -, hactivated⟩ := hcases
  have hmiddle := applyStagedSchemas_frame hactivated
  have hempty := (h.pending hpending).2
  have hinbox : middle.inbox = [] := by
    rw [hmiddle]
    exact hempty
  have hopen : current.openTransaction = "" := h.open_iff.mpr hempty
  have hstage : middle.schemaStage = [] :=
    h.activated hgeneration (by rw [stagedVersion, if_neg hpending, hsame]) hactivated
  refine h.recorded hgeneration hseq (by rw [hmiddle]) ?_ ?_ ?_ ?_
  · simp [advance, hkind, hopen, hinbox]
  · exact ⟨[], ⟨chunks_nil _ _, by simp, by simp, hinbox⟩, by simp⟩
  · simp [advance, hkind]
  · simp [hstage]

/-- The end of a snapshot empties the stage. -/
theorem Staged.loaded (hkind : message.kind = .snapshotEnd)
    (hbarrier : schemaBarrier message current = .ok pending)
    (happly : applyMessage rt .plain db.tables message raw current.phase db = .ok (middle, phase)) :
    Staged rt (advance message current phase current.openTransaction pending)
      (Server.recorded rt message raw current pending current.openTransaction phase middle) := by
  obtain ⟨hversion, hpending, rfl⟩ :=
    (schemaBarrier_rows_iff (by simp [hkind]) (by simp [hkind])).mp hbarrier
  have hcases := applyMessage_cases happly
  simp only [hkind] at hcases
  obtain ⟨rfl, -, activated, hactivated, hpublished⟩ := hcases
  have hmiddle := (publishSnapshot_frame hpublished).2
  have hframe := activateSnapshot_frame hactivated
  have hstage : activated.schemaStage = [] := by
    unfold activateSnapshot at hactivated
    split_ifs at hactivated with hnonempty
    · exact h.activated hgeneration (by rw [stagedVersion, if_pos hpending, hversion]) hactivated
    · -- Documents without a version are not staged at all.
      cases hactivated
      rw [List.eq_nil_iff_forall_not_mem]
      intro row hrow
      obtain ⟨-, hrowVersion, hrowNonempty, -⟩ := h.stage row hrow
      rw [stagedVersion, if_pos hpending, ← hversion] at hrowVersion
      exact hrowNonempty (hrowVersion.trans (not_not.mp hnonempty))
  refine h.pass hgeneration hseq ?_ ?_ (by simp [hkind]) (by simp [hkind]) ?_
  · rw [hmiddle, hframe]
  · rw [hmiddle, hframe]
  · rw [hmiddle]
    simp [hstage]

/-- Every message that is received leaves the staging area in order. -/
theorem Staged.receive (hdecode : rt.codec.unmarshal raw = some message)
    (hreceive : Server.receive rt .plain db.tables message raw current db = .ok db') :
    Staged rt db'.syncState db' := by
  obtain ⟨pending, openTransaction, middle, phase, -, hbarrier, hcheck, happly, -, hdb⟩ :=
    receive_cases hreceive
  have hhash := (applyMessage_frame happly).2.1
  have hrecorded : db' = Server.recorded rt message raw current pending openTransaction phase middle := by
    rw [hdb, Server.recorded, hhash]
  subst hrecorded
  change Staged rt (advance message current phase openTransaction pending) _
  have hrows (hschema : message.kind ≠ .schema) (hend : message.kind ≠ .schemaEnd) :=
    (schemaBarrier_rows_iff (fun hboth => hschema hboth.1) hend).mp hbarrier
  have hcases := applyMessage_cases happly
  have hold (hpending : current.pendingSchemaVersion = "") :
      ∀ row ∈ db.schemaStage, row.generation = message.generation
        ∧ row.schemaVersion = current.schemaVersion ∧ row.schemaVersion ≠ ""
        ∧ Phase.snapshot = .snapshot := by
    intro row hrow
    obtain ⟨hrowGeneration, hrowVersion, hnonempty, -⟩ := h.stage row hrow
    rw [stagedVersion, if_pos hpending] at hrowVersion
    exact ⟨hrowGeneration.trans hgeneration.symm, hrowVersion, hnonempty, rfl⟩
  cases hkind : message.kind with
  | snapshotBegin =>
      simp only [hkind] at hcases
      obtain ⟨rfl, scope, -, rfl⟩ := hcases
      obtain ⟨-, hpending, rfl⟩ := hrows (by simp [hkind]) (by simp [hkind])
      obtain rfl : current.openTransaction = openTransaction := by
        simpa [checkTransaction, hkind] using hcheck
      exact h.pass hgeneration hseq rfl rfl (by simp [hkind]) (by simp [hkind]) (hold hpending)
  | schema => exact h.document hgeneration hseq hkind hbarrier hcheck happly
  | snapshotRows =>
      simp only [hkind] at hcases
      obtain ⟨rfl, hphase, rfl⟩ := hcases
      obtain ⟨-, hpending, rfl⟩ := hrows (by simp [hkind]) (by simp [hkind])
      obtain rfl : current.openTransaction = openTransaction := by
        simpa [checkTransaction, hkind] using hcheck
      rw [hphase]
      exact h.pass hgeneration hseq rfl rfl (by simp [hkind]) (by simp [hkind]) (hold hpending)
  | snapshotEnd =>
      obtain rfl : current.openTransaction = openTransaction := by
        simpa [checkTransaction, hkind] using hcheck
      exact h.loaded hgeneration hseq hkind hbarrier happly
  | schemaEnd =>
      obtain rfl : current.openTransaction = openTransaction := by
        simpa [checkTransaction, hkind] using hcheck
      exact h.refreshed hgeneration hseq hkind hbarrier happly
  | transactionRows | fileBegin | fileChunk =>
      simp only [hkind] at hcases
      obtain ⟨rfl, hphase, hinserted⟩ := hcases
      have hwaits : waits message.kind = true := by rw [hkind]; rfl
      obtain ⟨hversion, hpending, rfl⟩ := hrows (by simp [hkind]) (by simp [hkind])
      obtain ⟨htransaction, hopen, rfl⟩ := checkTransaction_waits hwaits hcheck
      rw [hphase]
      exact h.join hgeneration hseq hdecode htransaction hopen hversion hwaits hpending hphase hinserted
  | transactionEnd =>
      simp only [hkind] at hcases
      obtain ⟨rfl, hphase, happlied⟩ := hcases
      obtain ⟨-, hpending, rfl⟩ := hrows (by simp [hkind]) (by simp [hkind])
      obtain ⟨hsame, -⟩ := checkTransaction_end (by simp [hkind]) hcheck
      obtain ⟨chunks, tables, -, -, rfl⟩ := h.transaction_end hgeneration hsame happlied
      rw [hphase]
      exact h.finish hgeneration hseq rfl (by simp [hkind]) hpending hphase rfl rfl
  | fileEnd =>
      simp only [hkind] at hcases
      obtain ⟨rfl, hphase, rfl⟩ := hcases
      obtain ⟨-, hpending, rfl⟩ := hrows (by simp [hkind]) (by simp [hkind])
      rw [hphase]
      refine h.finish hgeneration hseq rfl (by simp [hkind]) hpending hphase ?_ rfl
      rw [List.filter_eq_nil_iff]
      intro row hrow hleft
      exact of_decide_eq_true hleft ((h.generation_eq hrow).trans hgeneration.symm)
  | fileDelete =>
      simp only [hkind] at hcases
      obtain ⟨rfl, hphase, rfl⟩ := hcases
      obtain ⟨-, hpending, rfl⟩ := hrows (by simp [hkind]) (by simp [hkind])
      have hfile : checkTransaction message current = .ok current.openTransaction := by
        simp only [checkTransaction, hkind] at hcheck ⊢
        split_ifs at hcheck ⊢ with hinvalid
        rfl
      obtain rfl : current.openTransaction = openTransaction := Except.ok.inj (hfile.symm.trans hcheck)
      refine h.pass hgeneration hseq rfl rfl (by simp [hkind]) (by simp [hkind]) ?_
      rw [h.stage_eq_nil (by simp [hphase]) hpending]
      simp
  | other name =>
      simp only [hkind] at hcases

end Message

end Steps

section Runs

variable [DecidableEq Hash] {target : Target Raw Value Hash}

theorem Staged.store {db db' : Db Raw Value Hash} {message : Message} {raw : Raw}
    (h : Staged rt db.syncState db) (hdecode : rt.codec.unmarshal raw = some message)
    (hstore : Server.store rt .plain message raw db = .ok db') : Staged rt db'.syncState db' := by
  obtain ⟨-, ⟨-, -, rfl⟩ | ⟨current, cleared, hswitch, hseq, hreceive⟩⟩ := store_cases hstore
  · exact h
  · obtain ⟨hcleared, hgeneration⟩ := h.switch hswitch
    rw [← (switchGeneration_received hswitch).2.2] at hreceive
    exact hcleared.receive hgeneration hseq hdecode hreceive

def Delivery.Decoded (rt : Runtime Raw Value Hash) : Delivery Raw → Prop
  | .store _ message raw _ => rt.codec.unmarshal raw = some message
  | _ => True

structure Target.Sound (rt : Runtime Raw Value Hash) (target : Target Raw Value Hash) : Prop where
  coherent : Coherent target.types target.db.tables
  staged : Staged rt target.db.syncState target.db

theorem Target.Sound.deliver {delivery : Delivery Raw} (h : target.Sound rt)
    (hdecoded : delivery.Decoded rt) : (target.deliver rt delivery).Sound rt := by
  cases delivery with
  | store backend message raw reported =>
      cases hstore : Server.store rt { types := target.types, backend := backend } message raw
          target.db with
      | error err =>
          simp only [Target.deliver, hstore]
          exact h
      | ok db =>
          simp only [Target.deliver, hstore]
          exact ⟨h.coherent.store hstore reported,
            h.staged.store hdecoded (store_plain h.coherent hstore)⟩
  | failed => exact h
  | remember table => exact ⟨h.coherent.remember table, h.staged⟩
  | rememberFirst count table => exact ⟨h.coherent.rememberFirst count table, h.staged⟩
  | restart => exact ⟨.nil, h.staged⟩

theorem Target.Sound.deliveries {deliveries : List (Delivery Raw)} (h : target.Sound rt)
    (hdecoded : ∀ delivery ∈ deliveries, delivery.Decoded rt) :
    (deliveries.foldl (Target.deliver rt) target).Sound rt := by
  induction deliveries generalizing target with
  | nil => exact h
  | cons delivery rest ih =>
      exact ih (h.deliver (hdecoded delivery List.mem_cons_self))
        fun other hmem => hdecoded other (List.mem_cons_of_mem _ hmem)

/-- **Staging.** Whatever is delivered to a new server, its progress row and its metadata tables fit
together. -/
theorem staging_of_calls (rt : Runtime Raw Value Hash) (tables : Tables Value)
    (deliveries : List (Delivery Raw)) (hdecoded : ∀ delivery ∈ deliveries, delivery.Decoded rt) :
    let db := (deliveries.foldl (Target.deliver rt) { db := { tables := tables } }).db
    let progress := db.syncState
    progress.applied ≤ progress.received
      ∧ (progress.openTransaction = "" ↔ db.inbox = [])
      ∧ (∀ row ∈ db.inbox, row.generation = progress.generation ∧ row.seq ≤ progress.received
          ∧ ∃ message, rt.codec.unmarshal row.payload = some message
            ∧ message.transaction = progress.openTransaction
            ∧ message.schemaVersion = progress.schemaVersion)
      ∧ (progress.pendingSchemaVersion ≠ "" → progress.phase = .stream ∧ db.inbox = []
          ∧ ∀ row ∈ db.schemaStage, row.generation = progress.generation →
            row.schemaVersion = progress.pendingSchemaVersion)
      ∧ db.messageHash.map (fun row => (row.generation, row.seq))
        = (List.range' 1 progress.received).map fun seq => (progress.generation, seq) := by
  intro db progress
  have hstart : Target.Sound rt { db := { tables := tables } } := ⟨.nil, staged_empty tables⟩
  obtain ⟨-, h⟩ := hstart.deliveries hdecoded
  refine ⟨h.applied_le, h.open_iff, ?_, ?_, h.hashes⟩
  · intro row hrow
    obtain ⟨chunks, hchunks, hentries⟩ := h.inbox
    change row ∈ db.inbox at hrow
    rw [hchunks.inbox] at hrow
    obtain ⟨entry, hentry, rfl⟩ := List.mem_map.mp hrow
    have hmem : entry.1 ∈ chunks.map Prod.fst := List.mem_map_of_mem hentry
    exact ⟨hchunks.order.generation _ hmem, hchunks.order.bound _ hmem, entry.1,
      hchunks.decode entry hentry, hchunks.transaction entry hentry, (hentries entry hentry).1⟩
  · intro hpending
    obtain ⟨hphase, hinbox⟩ := h.pending hpending
    refine ⟨hphase, hinbox, ?_⟩
    intro row hrow _
    obtain ⟨-, hversion, -⟩ := h.stage row hrow
    rwa [stagedVersion, if_neg hpending] at hversion

/-- A snapshot, a first chunk and a document that is refused inside the transaction. -/
theorem staging_of_calls_open_transaction :
    let rt := Runtime.plain { id := "s", tables := [] }
    let send (message : Message) : Delivery Message :=
      .store (fun _ => true) { message with generation := "g" } { message with generation := "g" }
    let deliveries := [send { kind := .snapshotBegin, seq := 1 }, send { kind := .snapshotEnd, seq := 2 },
      send { kind := .transactionRows, transaction := "t", seq := 3 }, .restart,
      send { kind := .schema, schemaVersion := "v", seq := 4 }]
    let db := (deliveries.foldl (Target.deliver rt) { db := { tables := fun _ => none } }).db
    db.syncState.openTransaction = "t"
      ∧ db.messageHash.map (fun row => (row.generation, row.seq)) = [("g", 1), ("g", 2), ("g", 3)] := by
  intro rt send deliveries
  have hopen : ((deliveries.foldl (Target.deliver rt)
      { db := { tables := fun _ => none } }).db.syncState).openTransaction = "t" := by decide +revert
  have hreceived : ((deliveries.foldl (Target.deliver rt)
      { db := { tables := fun _ => none } }).db.syncState).received = 3 := by decide +revert
  have hgeneration : ((deliveries.foldl (Target.deliver rt)
      { db := { tables := fun _ => none } }).db.syncState).generation = "g" := by decide +revert
  have hdecoded : ∀ delivery ∈ deliveries, delivery.Decoded rt := by
    simp [deliveries, send, Delivery.Decoded, rt, Runtime.plain, Codec.plain]
  have hstaging := staging_of_calls rt (fun _ => none) deliveries hdecoded
  generalize (deliveries.foldl (Target.deliver rt) { db := { tables := fun _ => none } }).db = db
    at hopen hreceived hgeneration hstaging ⊢
  refine ⟨hopen, ?_⟩
  rw [hstaging.2.2.2.2, hreceived, hgeneration]
  rfl

end Runs

end GoSync.Server
