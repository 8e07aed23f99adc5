import GoSync.Lib.Run
import GoSync.Server.Staging

/-!
# What `applied_seq` says

A chunk leaves the inbox when the end of its transaction or file is stored. Two messages break this:
the end of a snapshot moves `applied_seq` past the chunks of a transaction that is still open, and the
end of a transaction also takes the chunks of a file out of the inbox if they share its identifier.
Runs without these two are exactly the runs in which `applied_seq` means what it says.
-/

namespace GoSync.Server

variable {Raw Value Hash : Type} {rt : Runtime Raw Value Hash}

section Files

variable {message : Message} {file : FileChange}

theorem applyFileChunk_kind {maxFileBytes : Int} {transaction : String} {batch batch' : FileBatch}
    (h : applyFileChunk maxFileBytes transaction file batch message = .ok batch') :
    message.kind = .fileBegin ∨ message.kind = .fileChunk := by
  unfold applyFileChunk at h
  cases hfile : message.file with
  | none => simp [hfile] at h
  | some chunk =>
      cases hkind : message.kind with
      | fileBegin => exact .inl rfl
      | fileChunk => exact .inr rfl
      | _ =>
          simp only [hfile, hkind] at h
          split_ifs at h

/-- A file is assembled of file chunks only. -/
theorem assembleFile_kinds {inbox : List (InboxRow Raw)} {content : List UInt8}
    (h : assembleFile rt message file inbox = .ok content) :
    ∀ row ∈ inbox, row.generation = message.generation →
      ∃ chunk, rt.codec.unmarshal row.payload = some chunk
        ∧ (chunk.kind = .fileBegin ∨ chunk.kind = .fileChunk) := by
  unfold assembleFile at h
  split_ifs at h
  obtain ⟨batch, hfold, -⟩ := Except.bind_eq_ok.mp h
  intro row hrow hgeneration
  have hmem : row ∈ Paging.ordered InboxRow.seq
      (inbox.filter fun row => row.generation = message.generation) := by
    rw [(Paging.ordered_perm _ _).mem_iff, List.mem_filter]
    exact ⟨hrow, decide_eq_true hgeneration⟩
  clear h hrow hgeneration
  generalize Paging.ordered InboxRow.seq
    (inbox.filter fun row => row.generation = message.generation) = rows at hfold hmem
  generalize ({} : FileBatch) = start at hfold
  induction rows generalizing start with
  | nil => cases hmem
  | cons first rest ih =>
      obtain ⟨next, hnext, hrest⟩ := Except.foldlM_cons_eq_ok.mp hfold
      rcases List.mem_cons.mp hmem with rfl | hmem
      · split at hnext
        · cases hnext
        · rename_i chunk hchunk
          exact ⟨chunk, hchunk, applyFileChunk_kind hnext⟩
      · exact ih hmem next hrest

def FileApplied (rt : Runtime Raw Value Hash) (backend : FileEffect → Bool) (message : Message)
    (inbox : List (InboxRow Raw)) : Prop :=
  ∃ file content, message.file = some file ∧ assembleFile rt message file inbox = .ok content
    ∧ (rt.cfg.allowsFileOperation file.operation = true →
      backend (.put file.path content file.mode file.modTimeUnixNano) = true)

theorem applyMessage_fileEnd {env : Surroundings} {committed : Tables Value} {raw : Raw}
    {phase phase' : Phase} {db db' : Db Raw Value Hash} (hkind : message.kind = .fileEnd)
    (h : applyMessage rt env committed message raw phase db = .ok (db', phase')) :
    FileApplied rt env.backend message db.inbox := by
  simp only [applyMessage, hkind] at h
  split at h
  · cases h
  rename_i file hfile
  split_ifs at h
  obtain ⟨_, happly, -⟩ := Except.bind_eq_ok.mp h
  obtain ⟨content, hcontent, hput⟩ := Except.bind_eq_ok.mp happly
  refine ⟨file, content, hfile, hcontent, ?_⟩
  split_ifs at hput with hrefused
  intro hallowed
  by_contra hfailed
  exact hrefused ⟨hallowed, hfailed⟩

end Files

/-- The chunk has taken effect: its end message, of its own kind, has applied it. -/
def AppliedBy (rt : Runtime Raw Value Hash) (backend : FileEffect → Bool) (message : Message)
    (before after : Db Raw Value Hash) (chunk : Message) : Prop :=
  match chunk.kind with
  | .transactionRows => message.kind = .transactionEnd ∧ ∃ chunks : List (Message × Raw),
      before.inbox = chunks.map inboxRow
        ∧ (∀ entry ∈ chunks, rt.codec.unmarshal entry.2 = some entry.1)
        ∧ applyRows rt (chunks.flatMap fun entry => entry.1.rows) before.tables = .ok after.tables
  | .fileBegin | .fileChunk => message.kind = .fileEnd ∧ FileApplied rt backend message before.inbox
  | _ => False

/-- No chunk up to `applied_seq` waits, and a chunk left the inbox only by taking effect. -/
structure Applied (rt : Runtime Raw Value Hash) (backend : FileEffect → Bool) (message : Message)
    (before after : Db Raw Value Hash) : Prop where
  waiting : ∀ row ∈ after.inbox, after.syncState.applied < row.seq
  removed : ∀ row ∈ before.inbox, row ∉ after.inbox → row.generation = message.generation →
    ∃ chunk, rt.codec.unmarshal row.payload = some chunk
      ∧ AppliedBy rt backend message before after chunk

/-- A snapshot ends while no transaction is open, and a transaction has no file chunks. -/
structure InTurn (rt : Runtime Raw Value Hash) (message : Message) (before : Db Raw Value Hash) :
    Prop where
  snapshot : message.kind = .snapshotEnd → before.syncState.openTransaction = ""
  transaction : message.kind = .transactionEnd → ∀ row ∈ before.inbox,
    ∀ chunk, rt.codec.unmarshal row.payload = some chunk → chunk.kind = .transactionRows

section Steps

variable {env : Surroundings} {current : SyncState} {db db' : Db Raw Value Hash}
  {message : Message} {raw : Raw}

/-- What a message does to the inbox. -/
theorem Staged.inbox_effect (h : Staged rt current db) (hcoherent : Coherent env.types db.tables)
    (hgeneration : message.generation = current.generation)
    (hreceive : Server.receive rt env db.tables message raw current db = .ok db') :
    match message.kind with
    | .transactionEnd => db'.inbox = [] ∧ ∃ chunks : List (Message × Raw),
        db.inbox = chunks.map inboxRow
          ∧ (∀ entry ∈ chunks, rt.codec.unmarshal entry.2 = some entry.1)
          ∧ applyRows rt (chunks.flatMap fun entry => entry.1.rows) db.tables = .ok db'.tables
    | .fileEnd => db'.inbox = [] ∧ FileApplied rt env.backend message db.inbox
    | .transactionRows | .fileBegin | .fileChunk => db'.inbox = db.inbox ++ [inboxRow (message, raw)]
    | .schemaEnd | .fileDelete => db.inbox = [] ∧ db'.inbox = []
    | _ => db'.inbox = db.inbox := by
  obtain ⟨pending, openTransaction, middle, phase, -, hbarrier, hcheck, happly, -, rfl⟩ :=
    receive_cases hreceive
  have hcases := applyMessage_cases happly
  cases hkind : message.kind with
  | snapshotBegin =>
      simp only [hkind] at hcases ⊢
      obtain ⟨-, scope, -, rfl⟩ := hcases
      rfl
  | schema =>
      simp only [hkind] at hcases ⊢
      obtain ⟨-, -, ⟨-, rfl⟩ | ⟨-, stage, -, rfl⟩⟩ := hcases <;> rfl
  | snapshotRows =>
      simp only [hkind] at hcases ⊢
      obtain ⟨-, -, rfl⟩ := hcases
      rfl
  | snapshotEnd =>
      simp only [hkind] at hcases ⊢
      obtain ⟨-, -, activated, hactivated, hpublished⟩ := hcases
      rw [(publishSnapshot_frame hpublished).2, activateSnapshot_frame hactivated]
  | schemaEnd =>
      simp only [hkind] at hcases ⊢
      obtain ⟨-, -, hactivated⟩ := hcases
      obtain ⟨-, hversion, hsame, -⟩ := (schemaBarrier_end_iff hkind).mp hbarrier
      have hempty := (h.pending (hsame ▸ hversion)).2
      rw [applyStagedSchemas_frame hactivated]
      exact ⟨hempty, hempty⟩
  | transactionRows | fileBegin | fileChunk =>
      simp only [hkind] at hcases ⊢
      obtain ⟨-, -, hinserted⟩ := hcases
      rw [insertInbox_frame hinserted]
      rfl
  | transactionEnd =>
      simp only [hkind] at hcases ⊢
      obtain ⟨-, -, happlied⟩ := hcases
      obtain ⟨hsame, -⟩ := checkTransaction_end (by simp [hkind]) hcheck
      obtain ⟨chunks, tables, hchunks, htables, rfl⟩ :=
        h.transaction_end hgeneration hsame (hcoherent.applyTransaction happlied)
      exact ⟨rfl, chunks, hchunks.inbox, hchunks.decode, htables⟩
  | fileEnd =>
      simp only [hkind] at hcases ⊢
      obtain ⟨-, -, rfl⟩ := hcases
      refine ⟨?_, applyMessage_fileEnd hkind happly⟩
      rw [List.filter_eq_nil_iff]
      intro row hrow hleft
      exact of_decide_eq_true hleft ((h.generation_eq hrow).trans hgeneration.symm)
  | fileDelete =>
      simp only [hkind] at hcases ⊢
      obtain ⟨-, -, rfl⟩ := hcases
      have hopen : current.openTransaction = "" := by
        simp only [checkTransaction, hkind] at hcheck
        split_ifs at hcheck with hinvalid
        exact not_not.mp (not_or.mp hinvalid).2
      have hempty := h.open_iff.mp hopen
      exact ⟨hempty, hempty⟩
  | other name =>
      simp only [hkind] at hcases

theorem receive_applied (hreceive : Server.receive rt env db.tables message raw current db = .ok db') :
    db'.syncState.applied
      = if message.kind ∈ [.snapshotEnd, .transactionEnd, .schemaEnd, .fileEnd, .fileDelete] then
          message.seq
        else current.applied := by
  obtain ⟨pending, openTransaction, middle, phase, -, -, -, -, -, rfl⟩ := receive_cases hreceive
  rfl

variable {backend : FileEffect → Bool}

theorem Applied.of_append {added : List (InboxRow Raw)}
    (hbound : ∀ row ∈ db.inbox, db.syncState.applied < row.seq)
    (hadded : ∀ row ∈ added, db.syncState.applied < row.seq)
    (hinbox : db'.inbox = db.inbox ++ added) (happlied : db'.syncState.applied = db.syncState.applied) :
    Applied rt backend message db db' := by
  constructor
  · rw [hinbox, happlied]
    exact List.forall_mem_append.mpr ⟨hbound, hadded⟩
  · intro row hrow hgone
    rw [hinbox] at hgone
    exact absurd (List.mem_append_left _ hrow) hgone

theorem Applied.of_empty (hbefore : db.inbox = [])
    (hafter : db'.inbox = []) : Applied rt backend message db db' := by
  constructor
  · simp [hafter]
  · simp [hbefore]

theorem InTurn.of_kind (hsnapshot : message.kind ≠ .snapshotEnd)
    (htransaction : message.kind ≠ .transactionEnd) : InTurn rt message db :=
  ⟨fun hkind => absurd hkind hsnapshot, fun hkind => absurd hkind htransaction⟩

/-- The end of a transaction is in turn exactly if no file chunk waits. -/
theorem inTurn_iff_transactionEnd {chunks : List (Message × Raw)}
    (hkind : message.kind = .transactionEnd)
    (hgeneration : ∀ row ∈ db.inbox, row.generation = message.generation)
    (hchunks : db.inbox = chunks.map inboxRow)
    (hdecode : ∀ entry ∈ chunks, rt.codec.unmarshal entry.2 = some entry.1)
    (happly : applyRows rt (chunks.flatMap fun entry => entry.1.rows) db.tables = .ok db'.tables)
    (hempty : db'.inbox = []) :
    InTurn rt message db ↔ Applied rt backend message db db' := by
  constructor
  · intro hturn
    refine ⟨by simp [hempty], ?_⟩
    intro row hrow _ _
    have hmem := hrow
    rw [hchunks] at hmem
    obtain ⟨entry, hentry, rfl⟩ := List.mem_map.mp hmem
    have hrows := hturn.transaction hkind _ hrow entry.1 (hdecode entry hentry)
    refine ⟨entry.1, hdecode entry hentry, ?_⟩
    simp only [AppliedBy, hrows]
    exact ⟨hkind, chunks, hchunks, hdecode, happly⟩
  · intro happlied
    refine ⟨by simp [hkind], ?_⟩
    intro _ row hrow chunk hchunk
    obtain ⟨other, hother, hby⟩ := happlied.removed row hrow (by simp [hempty]) (hgeneration row hrow)
    obtain rfl : chunk = other := Option.some.inj (hchunk.symm.trans hother)
    cases hcase : chunk.kind with
    | transactionRows => rfl
    | _ => simp [AppliedBy, hcase, hkind] at hby

theorem Applied.of_fileEnd (hkind : message.kind = .fileEnd)
    (hempty : db'.inbox = []) (hfile : FileApplied rt backend message db.inbox) :
    Applied rt backend message db db' := by
  refine ⟨by simp [hempty], ?_⟩
  intro row hrow _ hgeneration
  obtain ⟨file, content, -, hcontent, -⟩ := id hfile
  obtain ⟨chunk, hchunk, hcase⟩ := assembleFile_kinds hcontent row hrow hgeneration
  refine ⟨chunk, hchunk, ?_⟩
  rcases hcase with hcase | hcase
  · simp only [AppliedBy, hcase]
    exact ⟨hkind, hfile⟩
  · simp only [AppliedBy, hcase]
    exact ⟨hkind, hfile⟩

theorem Staged.inTurn_iff_snapshotEnd
    (h : Staged rt db.syncState db) (hkind : message.kind = .snapshotEnd)
    (hseq : message.seq = db.syncState.received + 1) (hinbox : db'.inbox = db.inbox)
    (happlied : db'.syncState.applied = message.seq) :
    InTurn rt message db ↔ Applied rt backend message db db' := by
  constructor
  · intro hturn
    have hempty := h.open_iff.mp (hturn.snapshot hkind)
    exact .of_empty hempty (hinbox.trans hempty)
  · intro hall
    refine ⟨fun _ => h.open_iff.mpr ?_, by simp [hkind]⟩
    rw [List.eq_nil_iff_forall_not_mem]
    intro row hrow
    have hlate := hall.waiting row (hinbox ▸ hrow)
    have hold := h.seq_le hrow
    omega

/-- No chunk is passed over exactly if the message comes in turn. -/
theorem Staged.inTurn_iff (h : Staged rt db.syncState db) (hcoherent : Coherent env.types db.tables)
    (hgeneration : message.generation = db.syncState.generation)
    (hseq : message.seq = db.syncState.received + 1)
    (hbound : ∀ row ∈ db.inbox, db.syncState.applied < row.seq)
    (hreceive : Server.receive rt env db.tables message raw db.syncState db = .ok db') :
    InTurn rt message db ↔ Applied rt env.backend message db db' := by
  have heffect := h.inbox_effect hcoherent hgeneration hreceive
  have happlied := receive_applied hreceive
  have hle := h.applied_le
  cases hkind : message.kind with
  | snapshotBegin | schema | snapshotRows =>
      simp only [hkind] at heffect
      refine iff_of_true (.of_kind (by simp [hkind]) (by simp [hkind])) ?_
      exact .of_append hbound (List.forall_mem_nil _) (by simpa using heffect)
        (by simpa [hkind] using happlied)
  | snapshotEnd =>
      simp only [hkind] at heffect
      exact h.inTurn_iff_snapshotEnd hkind hseq heffect (by simpa [hkind] using happlied)
  | schemaEnd | fileDelete =>
      simp only [hkind] at heffect
      exact iff_of_true (.of_kind (by simp [hkind]) (by simp [hkind])) (.of_empty heffect.1 heffect.2)
  | transactionRows | fileBegin | fileChunk =>
      simp only [hkind] at heffect
      refine iff_of_true (.of_kind (by simp [hkind]) (by simp [hkind])) ?_
      refine .of_append hbound ?_ heffect (by simpa [hkind] using happlied)
      intro row hrow
      rw [List.mem_singleton.mp hrow]
      change db.syncState.applied < message.seq
      omega
  | transactionEnd =>
      simp only [hkind] at heffect
      obtain ⟨hempty, chunks, hchunks, hdecode, happly⟩ := heffect
      exact inTurn_iff_transactionEnd hkind
        (fun row hrow => (h.generation_eq hrow).trans hgeneration.symm) hchunks hdecode happly hempty
  | fileEnd =>
      simp only [hkind] at heffect
      exact iff_of_true (.of_kind (by simp [hkind]) (by simp [hkind]))
        (.of_fileEnd hkind heffect.1 heffect.2)
  | other name =>
      obtain ⟨pending, openTransaction, middle, phase, -, -, -, happly, -, -⟩ := receive_cases hreceive
      have hcases := applyMessage_cases happly
      simp only [hkind] at hcases

end Steps

section Runs

variable [DecidableEq Hash] {target : Target Raw Value Hash}

def Delivery.InTurn (rt : Runtime Raw Value Hash) (target : Target Raw Value Hash) :
    Delivery Raw → Prop
  | .store backend message raw _ =>
      (Server.store rt { types := target.types, backend := backend } message raw target.db).isOk →
        message.generation = target.db.syncState.generation →
        target.db.syncState.received < message.seq → Server.InTurn rt message target.db
  | _ => True

def Delivery.Applied (rt : Runtime Raw Value Hash) (target : Target Raw Value Hash)
    (delivery : Delivery Raw) : Prop :=
  match delivery with
  | .store backend message _ _ =>
      Server.Applied rt backend message target.db (target.deliver rt delivery).db
  | _ => (target.deliver rt delivery).db = target.db

structure Target.Settled (rt : Runtime Raw Value Hash) (target : Target Raw Value Hash) : Prop where
  sound : target.Sound rt
  waiting : ∀ row ∈ target.db.inbox, target.db.syncState.applied < row.seq

/-- The same for a delivery. -/
theorem Target.Settled.inTurn_iff {delivery : Delivery Raw} (h : target.Settled rt) :
    delivery.InTurn rt target ↔ delivery.Applied rt target := by
  cases delivery with
  | failed | remember table | rememberFirst count table | restart => exact iff_of_true trivial rfl
  | store backend message raw reported =>
      have hsame : Server.Applied rt backend message target.db target.db :=
        ⟨h.waiting, fun row hrow hgone => absurd hrow hgone⟩
      cases hstore : Server.store rt { types := target.types, backend := backend } message raw
          target.db with
      | error err =>
          simp only [Delivery.InTurn, Delivery.Applied, Target.deliver, hstore]
          exact iff_of_true (fun hok => Bool.noConfusion hok) hsame
      | ok db =>
          simp only [Delivery.InTurn, Delivery.Applied, Target.deliver, hstore]
          obtain ⟨-, ⟨hgeneration, hold, rfl⟩ | ⟨current, cleared, hswitch, hseq, hreceive⟩⟩ :=
            store_cases hstore
          · exact iff_of_true (fun _ _ hnew => absurd hold (by omega)) hsame
          rcases switchGeneration_cases hswitch with ⟨hgeneration, rfl, rfl⟩ | ⟨hother, -, hkind, rfl, rfl⟩
          · have hiff := h.sound.staged.inTurn_iff h.sound.coherent hgeneration hseq h.waiting hreceive
            have hnew : target.db.syncState.received < message.seq := by omega
            exact ⟨fun hturn => hiff.mp (hturn rfl hgeneration hnew), fun hall _ _ _ => hiff.mpr hall⟩
          · refine iff_of_true (fun _ hgeneration => absurd hgeneration hother) ⟨?_, ?_⟩
            · obtain ⟨pending, openTransaction, middle, phase, -, -, -, happly, -, rfl⟩ :=
                receive_cases hreceive
              have hcases := applyMessage_cases happly
              simp only [hkind] at hcases
              obtain ⟨-, scope, -, rfl⟩ := hcases
              exact List.forall_mem_nil _
            · intro row hrow _ hgeneration
              exact absurd (hgeneration.symm.trans (h.sound.staged.generation_eq hrow)) hother

theorem Target.Settled.deliver {delivery : Delivery Raw} (h : target.Settled rt)
    (hdecoded : delivery.Decoded rt) (hturn : delivery.InTurn rt target) :
    (target.deliver rt delivery).Settled rt := by
  refine ⟨h.sound.deliver hdecoded, ?_⟩
  have happlied := h.inTurn_iff.mp hturn
  cases delivery with
  | store backend message raw reported => exact happlied.waiting
  | failed | remember table | rememberFirst count table | restart => exact h.waiting

/-- **What `applied_seq` says.** In exactly the runs in which every message comes in its turn, every
delivery leaves `applied_seq` below the chunks that wait and takes a chunk out of the inbox only by
applying it. -/
theorem applied_iff_inTurn (rt : Runtime Raw Value Hash) (tables : Tables Value)
    (deliveries : List (Delivery Raw)) (hdecoded : ∀ delivery ∈ deliveries, delivery.Decoded rt) :
    Run.Along (Target.deliver rt) (Delivery.InTurn rt) { db := { tables := tables } } deliveries
      ↔ Run.Along (Target.deliver rt) (Delivery.Applied rt) { db := { tables := tables } }
        deliveries := by
  have hstart : Target.Settled rt { db := { tables := tables } } :=
    ⟨⟨.nil, staged_empty tables⟩, by simp⟩
  refine Run.along_iff (Target.Settled rt) ?_ ?_ hstart
  · exact fun target delivery _ h => h.inTurn_iff
  · exact fun target delivery hmem h hturn => h.deliver (hdecoded delivery hmem) hturn

/-- A transaction that is received and applied. -/
theorem applied_iff_inTurn_transaction :
    let rt := Runtime.plain { id := "s", tables := [] }
    let send (message : Message) : Delivery Message :=
      .store (fun _ => true) { message with generation := "g" } { message with generation := "g" }
    let deliveries := [send { kind := .snapshotBegin, seq := 1 }, send { kind := .snapshotEnd, seq := 2 },
      send { kind := .transactionRows, transaction := "t", seq := 3 }, .restart,
      send { kind := .transactionEnd, transaction := "t", seq := 4 }]
    Run.Along (Target.deliver rt) (Delivery.Applied rt) { db := { tables := fun _ => none } }
      deliveries := by
  intro rt send deliveries
  have hdecoded : ∀ delivery ∈ deliveries, delivery.Decoded rt := by
    simp [deliveries, send, Delivery.Decoded, rt, Runtime.plain, Codec.plain]
  refine (applied_iff_inTurn rt _ deliveries hdecoded).mp ⟨?_, ?_, ?_, trivial, ?_, trivial⟩
  · exact fun _ _ _ => .of_kind (by simp) (by simp)
  · exact fun _ _ _ => ⟨fun _ => rfl, by simp⟩
  · exact fun _ _ _ => .of_kind (by simp) (by simp)
  · refine fun _ _ _ => ⟨by simp, fun _ row hrow chunk hchunk => ?_⟩
    obtain rfl : row.payload = chunk := Option.some.inj hchunk
    have hkinds : (((deliveries.take 4).foldl (Target.deliver rt)
        { db := { tables := fun _ => none } }).db.inbox).map (fun row => row.payload.kind)
          = [.transactionRows] := rfl
    exact List.mem_singleton.mp (hkinds ▸ List.mem_map_of_mem hrow)

/-- A snapshot that ends inside a transaction covers a chunk that still waits, and the end of a
transaction drops the start of a file. -/
theorem applied_past_waiting_chunk :
    let rt := Runtime.plain { id := "s", tables := [], fileStorage := { configured := true } }
    let send (message : Message) : Delivery Message :=
      .store (fun _ => false) { message with generation := "g" } { message with generation := "g" }
    let opening := [send { kind := .snapshotBegin, seq := 1 }, send { kind := .snapshotEnd, seq := 2 }]
    let rows := [send { kind := .transactionRows, transaction := "t", seq := 3 },
      send { kind := .snapshotBegin, seq := 4 }, send { kind := .snapshotEnd, seq := 5 }]
    let file : FileChange :=
      { path := "a", operation := .create, chunks := 1, sha256 := String.ofList (List.replicate 64 '0') }
    let files := [send { kind := .fileBegin, transaction := "t", seq := 3, file := some file },
      send { kind := .transactionEnd, transaction := "t", seq := 4 }]
    let run (deliveries : List (Delivery Message)) := (deliveries.foldl (Target.deliver rt)
      { db := { tables := fun _ => none } }).db
    ((run (opening ++ rows)).syncState.applied = 5
        ∧ (run (opening ++ rows)).inbox.map InboxRow.seq = [3])
      ∧ (run (opening ++ files.take 1)).inbox.map InboxRow.seq = [3]
      ∧ (run (opening ++ files)).syncState.applied = 4 ∧ (run (opening ++ files)).inbox = [] := by
  decide

end Runs

end GoSync.Server
