import GoSync.Server.Staging

/-!
# File events

What a sequence of messages says about the files of the source: a batch of chunks puts a file, a
`file_delete` removes one, and events that the configuration filters do nothing. The fold knows nothing of
the inbox; that `store` asks the file store for exactly these effects is proved here.
-/

namespace GoSync.Server

variable {Raw Value Hash : Type} {rt : Runtime Raw Value Hash}

structure StoredFile where
  content : List UInt8
  mode : Nat
  modTimeUnixNano : Int
  deriving DecidableEq, Repr

abbrev Contents := String → Option StoredFile

def Contents.apply (key : String → String) (files : Contents) : FileEffect → Contents
  | .put path content mode modTimeUnixNano =>
      Function.update files (key path) (some ⟨content, mode, modTimeUnixNano⟩)
  | .delete path => Function.update files (key path) none

def Contents.applyAll (key : String → String) (files : Contents) : Option FileEffect → Contents
  | none => files
  | some effect => files.apply key effect

theorem Contents.applyAll_applyAll (key : String → String) (files : Contents)
    (effect : Option FileEffect) :
    (files.applyAll key effect).applyAll key effect = files.applyAll key effect := by
  cases effect with
  | none => rfl
  | some effect =>
      cases effect with
      | put path content mode modified => exact Function.update_idem _ _ _
      | delete path => exact Function.update_idem _ _ _

def contentAfter (pending : List UInt8) (message : Message) : List UInt8 :=
  match message.kind, message.file with
  | .fileBegin, _ => []
  | .fileChunk, some file => pending ++ (base64Decode file.data).getD []
  | _, _ => pending

def eventOf (cfg : Syncer) (pending : List UInt8) (message : Message) : Option FileEffect :=
  match message.kind, message.file with
  | .fileEnd, some file =>
      if cfg.allowsFileOperation file.operation then
        some (.put file.path pending file.mode file.modTimeUnixNano)
      else
        none
  | .fileDelete, some file =>
      if cfg.allowsFileOperation .delete then some (.delete file.path) else none
  | _, _ => none

/-- The files after some messages, and the content of a batch that has not ended. -/
structure FileFold where
  pending : List UInt8 := []
  files : Contents

def FileFold.step (key : String → String) (cfg : Syncer) (fold : FileFold) (message : Message) :
    FileFold where
  pending := contentAfter fold.pending message
  files := fold.files.applyAll key (eventOf cfg fold.pending message)

def requested (rt : Runtime Raw Value Hash) (phase : Phase) (message : Message)
    (inbox : List (InboxRow Raw)) : Option FileEffect :=
  match message.kind, message.file with
  | .fileEnd, some file =>
      if phase ≠ .stream ∨ ¬ rt.cfg.fileStorage.configured
          ∨ ¬ rt.cfg.allowsFileOperation file.operation then
        none
      else
        match assembleFile rt message file inbox with
        | .ok content => some (.put file.path content file.mode file.modTimeUnixNano)
        | .error _ => none
  | .fileDelete, some file =>
      if phase ≠ .stream ∨ ¬ rt.cfg.fileStorage.configured ∨ file.operation ≠ .delete
          ∨ ¬ rt.cfg.allowsFileOperation .delete then
        none
      else
        some (.delete file.path)
  | _, _ => none

/-- The call of the file store that `store` comes to: only the next message can get that far. -/
def backendCall (rt : Runtime Raw Value Hash) (message : Message) (db : Db Raw Value Hash) :
    Option FileEffect :=
  if message.seq > maxInt64 then
    none
  else
    match switchGeneration message db with
    | .error _ => none
    | .ok (current, cleared) =>
        if message.seq ≠ current.received + 1 then
          none
        else
          match checkFile rt.cfg message, schemaBarrier message current,
              checkTransaction message current with
          | .ok _, .ok _, .ok _ => requested rt current.phase message cleared.inbox
          | _, _, _ => none

def inboxMessages (rt : Runtime Raw Value Hash) (inbox : List (InboxRow Raw)) : List Message :=
  inbox.filterMap fun row => rt.codec.unmarshal row.payload

section Batches

variable {message : Message} {file : FileChange} {content : List UInt8} {transaction : String}
  {limit : Int}

/-- A chunk that is accepted begins the file or is the next one. -/
theorem applyFileChunk_eq_ok {batch next : FileBatch}
    (h : applyFileChunk limit transaction file batch message = .ok next) :
    (message.kind = .fileBegin ∧ batch.seenBegin = false ∧ batch.expectedChunk = 0
        ∧ next = { batch with seenBegin := true })
      ∨ ∃ chunk decoded, message.kind = .fileChunk ∧ message.file = some chunk ∧ batch.seenBegin = true
        ∧ chunk.chunk = batch.expectedChunk ∧ base64Decode chunk.data = some decoded
        ∧ next = { batch with
                    expectedChunk := batch.expectedChunk + 1
                    content := batch.content ++ decoded } := by
  unfold applyFileChunk at h
  cases hfile : message.file with
  | none =>
      rw [hfile] at h
      cases h
  | some chunk =>
      rw [hfile] at h
      dsimp only at h
      split at h
      · cases h
      · cases hkind : message.kind with
        | fileBegin =>
            simp only [hkind] at h
            split_ifs at h with hseen
            cases h
            rw [not_or, not_not] at hseen
            exact .inl ⟨rfl, Bool.eq_false_iff.mpr hseen.1, hseen.2, rfl⟩
        | fileChunk =>
            simp only [hkind] at h
            split at h
            · cases h
            · rename_i hseen
              rw [not_or, not_or, not_not, not_not] at hseen
              cases hdecode : base64Decode chunk.data with
              | none =>
                  simp only [hdecode] at h
                  cases h
              | some decoded =>
                  simp only [hdecode] at h
                  split_ifs at h
                  cases h
                  exact .inr ⟨chunk, decoded, rfl, rfl, hseen.1, hseen.2.1, hdecode, rfl⟩
        | _ =>
            simp only [hkind] at h
            cases h

theorem applyFileChunk_cases {batch next : FileBatch}
    (h : applyFileChunk limit transaction file batch message = .ok next) :
    next.seenBegin = true
      ∧ ((batch.seenBegin = false ∧ next.content = batch.content
          ∧ ∀ pending, contentAfter pending message = [])
        ∨ (batch.seenBegin = true ∧ next.content = contentAfter batch.content message)) := by
  rcases applyFileChunk_eq_ok h with
    ⟨hkind, hunseen, -, rfl⟩ | ⟨chunk, decoded, hkind, hfile, hseen, -, hdecode, rfl⟩
  · refine ⟨rfl, .inl ⟨hunseen, rfl, fun pending => ?_⟩⟩
    simp only [contentAfter, hkind]
  · refine ⟨hseen, .inr ⟨hseen, ?_⟩⟩
    simp only [contentAfter, hkind, hfile, hdecode, Option.getD_some]

def partOf (message : Message) : Option (List UInt8) :=
  message.file.bind fun file => base64Decode file.data

variable {batch last : FileBatch}

/-- Chunks that are accepted are numbered without a gap. -/
theorem chunks_of_foldlM {chunks : List Message} (hbegun : batch.seenBegin = true)
    (h : chunks.foldlM (applyFileChunk limit transaction file) batch = .ok last) :
    (∀ chunk ∈ chunks, chunk.kind = .fileChunk)
      ∧ chunks.map (fun chunk => chunk.file.map FileChange.chunk)
        = (List.range' batch.expectedChunk chunks.length).map some
      ∧ last.expectedChunk = batch.expectedChunk + chunks.length
      ∧ ∃ parts, chunks.mapM partOf = some parts ∧ last.content = batch.content ++ parts.flatten := by
  induction chunks generalizing batch with
  | nil =>
      cases h
      refine ⟨fun chunk hchunk => absurd hchunk List.not_mem_nil, rfl, rfl, [], rfl, ?_⟩
      exact (List.append_nil _).symm
  | cons chunk chunks ih =>
      obtain ⟨next, hnext, h⟩ := Except.foldlM_cons_eq_ok.mp h
      rcases applyFileChunk_eq_ok hnext with
        ⟨-, hunseen, -⟩ | ⟨change, decoded, hkind, hfile, -, hchunk, hdecode, hstep⟩
      · exact absurd (hunseen.symm.trans hbegun) Bool.false_ne_true
      · have hseen : next.seenBegin = true := by rw [hstep, hbegun]
        have hexpected : next.expectedChunk = batch.expectedChunk + 1 := by rw [hstep]
        have hbytes : next.content = batch.content ++ decoded := by rw [hstep]
        obtain ⟨hkinds, hnumbers, hcount, parts, hparts, hcontent⟩ := ih hseen h
        rw [hexpected] at hnumbers hcount
        have hpart : partOf chunk = some decoded := by rw [partOf, hfile, Option.bind_some, hdecode]
        refine ⟨List.forall_mem_cons.mpr ⟨hkind, hkinds⟩, ?_, ?_, decoded :: parts, ?_, ?_⟩
        · rw [List.map_cons, hnumbers, hfile, List.length_cons, List.range'_succ, List.map_cons,
            Option.map_some, hchunk]
        · rw [hcount, List.length_cons]
          omega
        · rw [List.mapM_cons, hpart, hparts]
          rfl
        · rw [hcontent, hbytes, List.flatten_cons, List.append_assoc]

/-- The content is that of the chunks since the last beginning. -/
theorem foldlM_applyFileChunk {chunks : List Message}
    (h : chunks.foldlM (applyFileChunk limit transaction file) batch = .ok last) :
    (batch.seenBegin = true → last.content = chunks.foldl contentAfter batch.content)
      ∧ (batch.seenBegin = false → last.seenBegin = true → batch.content = [] →
        ∀ pending, last.content = chunks.foldl contentAfter pending) := by
  induction chunks generalizing batch with
  | nil =>
      cases h
      exact ⟨fun _ => rfl, fun hunseen hseen => absurd (hunseen.symm.trans hseen) Bool.false_ne_true⟩
  | cons chunk chunks ih =>
      obtain ⟨next, hnext, h⟩ := Except.foldlM_cons_eq_ok.mp h
      obtain ⟨hseen, hcases⟩ := applyFileChunk_cases hnext
      have hlast := (ih h).1 hseen
      rcases hcases with ⟨hunseen, hcontent, hreset⟩ | ⟨hbegun, hcontent⟩
      · refine ⟨fun hbegun => absurd (hunseen.symm.trans hbegun) Bool.false_ne_true, ?_⟩
        intro _ _ hempty pending
        rw [hlast, hcontent, hempty, List.foldl_cons, hreset]
      · refine ⟨fun _ => ?_, fun hunseen => absurd (hunseen.symm.trans hbegun) Bool.false_ne_true⟩
        rw [hlast, hcontent, List.foldl_cons]

variable {generation id : String} {count : Nat} {chunks : List (Message × Raw)}
  {db : Db Raw Value Hash}

theorem Inbox.messages (h : Inbox rt generation count id chunks db) :
    inboxMessages rt db.inbox = chunks.map Prod.fst := by
  unfold inboxMessages
  rw [h.inbox, List.filterMap_map]
  have hdecode := h.decode
  clear h
  induction chunks with
  | nil => rfl
  | cons entry chunks ih =>
      have hentry : rt.codec.unmarshal entry.2 = some entry.1 := hdecode entry List.mem_cons_self
      rw [List.map_cons, ← ih fun other hother => hdecode other (List.mem_cons_of_mem _ hother)]
      exact List.filterMap_cons_some hentry

theorem Inbox.rows (h : Inbox rt generation count id chunks db)
    (hgeneration : message.generation = generation) :
    Paging.ordered InboxRow.seq (db.inbox.filter fun row => row.generation = message.generation)
      = db.inbox := by
  have hall : db.inbox.filter (fun row => row.generation = message.generation) = db.inbox := by
    rw [List.filter_eq_self]
    intro row hrow
    rw [h.inbox] at hrow
    obtain ⟨entry, hentry, rfl⟩ := List.mem_map.mp hrow
    refine decide_eq_true ?_
    exact (h.order.generation entry.1 (List.mem_map_of_mem hentry)).trans hgeneration.symm
  rw [hall]
  apply Paging.ordered_of_pairwise
  rw [h.inbox, List.pairwise_map]
  have hseq := h.order.seq
  rw [List.pairwise_map] at hseq
  exact hseq.imp fun hlt => le_of_lt hlt

def RowsDecode (rt : Runtime Raw Value Hash) : List (InboxRow Raw) → List Message → Prop :=
  List.Forall₂ fun row chunk => rt.codec.unmarshal row.payload = some chunk

theorem RowsDecode.foldlM_eq {rows : List (InboxRow Raw)}
    {messages : List Message} (h : RowsDecode rt rows messages) (batch : FileBatch) :
    rows.foldlM (fun batch row =>
        match rt.codec.unmarshal row.payload with
        | none => .error .json
        | some chunk => applyFileChunk limit transaction file batch chunk) batch
      = messages.foldlM (applyFileChunk limit transaction file) batch := by
  induction h generalizing batch with
  | nil => rfl
  | cons hrow _ ih => simp only [List.foldlM_cons, hrow, ih]

theorem rowsDecode_of_foldlM {rows : List (InboxRow Raw)} (h : rows.foldlM (fun batch row =>
        match rt.codec.unmarshal row.payload with
        | none => Except.error StoreError.json
        | some chunk => applyFileChunk limit transaction file batch chunk) batch = .ok last) :
    ∃ messages, RowsDecode rt rows messages := by
  induction rows generalizing batch with
  | nil => exact ⟨[], .nil⟩
  | cons row rows ih =>
      obtain ⟨next, hnext, h⟩ := Except.foldlM_cons_eq_ok.mp h
      obtain ⟨messages, hmessages⟩ := ih h
      cases hdecode : rt.codec.unmarshal row.payload with
      | none =>
          simp only [hdecode] at hnext
          cases hnext
      | some chunk => exact ⟨chunk :: messages, .cons hdecode hmessages⟩

def batchRows (generation : String) (inbox : List (InboxRow Raw)) : List (InboxRow Raw) :=
  Paging.ordered InboxRow.seq (inbox.filter fun row => row.generation = generation)

structure WholeFile (rt : Runtime Raw Value Hash) (rows : List (InboxRow Raw)) (file : FileChange)
    (content : List UInt8) (first : Message) (chunks : List Message) (parts : List (List UInt8)) : Prop where
  decoded : RowsDecode rt rows (first :: chunks)
  begins : first.kind = .fileBegin
  rest : ∀ chunk ∈ chunks, chunk.kind = .fileChunk
  numbers : chunks.map (fun chunk => chunk.file.map FileChange.chunk) = (List.range file.chunks).map some
  split : chunks.mapM partOf = some parts
  joined : content = parts.flatten
  size : (content.length : Int) = file.size
  digest : hexEncode (rt.contentHash content) = file.sha256

/-- A file that is assembled is whole. -/
theorem assembleFile_eq_ok {inbox : List (InboxRow Raw)}
    (h : assembleFile rt message file inbox = .ok content) :
    ∃ first chunks parts,
      WholeFile rt (batchRows message.generation inbox) file content first chunks parts := by
  unfold assembleFile at h
  split_ifs at h
  obtain ⟨batch, hbatch, h⟩ := Except.bind_eq_ok.mp h
  split_ifs at h with hcomplete
  cases h
  rw [not_or, not_or, not_or, not_not, not_not, not_not, not_not] at hcomplete
  obtain ⟨hseen, hcount, hsize, hdigest⟩ := hcomplete
  obtain ⟨messages, hmessages⟩ := rowsDecode_of_foldlM hbatch
  have hloop := (hmessages.foldlM_eq {}).symm.trans hbatch
  cases messages with
  | nil =>
      cases hloop
      exact absurd hseen Bool.false_ne_true
  | cons first chunks =>
      obtain ⟨next, hnext, hloop⟩ := Except.foldlM_cons_eq_ok.mp hloop
      rcases applyFileChunk_eq_ok hnext with ⟨hkind, -, -, rfl⟩ | ⟨_, _, -, -, hbegun, -⟩
      · obtain ⟨hkinds, hnumbers, hlast, parts, hparts, hcontent⟩ := chunks_of_foldlM rfl hloop
        have hlength : chunks.length = file.chunks := by
          rw [← hcount, hlast]
          exact (Nat.zero_add _).symm
        rw [hlength, ← List.range_eq_range'] at hnumbers
        exact ⟨first, chunks, parts, hmessages, hkind, hkinds, hnumbers, hparts, hcontent, hsize, hdigest⟩
      · exact absurd hbegun Bool.false_ne_true

theorem requested_eq_put {phase : Phase} {inbox : List (InboxRow Raw)} {path : String} {mode : Nat}
    {modTimeUnixNano : Int}
    (h : requested rt phase message inbox = some (.put path content mode modTimeUnixNano)) :
    ∃ file, message.file = some file ∧ assembleFile rt message file inbox = .ok content := by
  unfold requested at h
  split at h
  · rename_i file _ hfile
    split_ifs at h
    split at h
    · rename_i assembled hassemble
      cases h
      exact ⟨file, hfile, hassemble⟩
    · cases h
  · split_ifs at h
    cases h
  · cases h

theorem Inbox.content_eq (h : Inbox rt generation count id chunks db)
    (hgeneration : message.generation = generation)
    (hassemble : assembleFile rt message file db.inbox = .ok content) (pending : List UInt8) :
    content = (inboxMessages rt db.inbox).foldl contentAfter pending := by
  unfold assembleFile at hassemble
  split_ifs at hassemble
  rw [h.rows hgeneration] at hassemble
  obtain ⟨batch, hbatch, hassemble⟩ := Except.bind_eq_ok.mp hassemble
  split_ifs at hassemble with hcomplete
  cases hassemble
  rw [h.inbox] at hbatch
  have hrows : RowsDecode rt (chunks.map inboxRow) (chunks.map Prod.fst) :=
    List.forall₂_map_left_iff.mpr (List.forall₂_map_right_iff.mpr (List.forall₂_same.mpr h.decode))
  have hloop := (hrows.foldlM_eq {}).symm.trans hbatch
  rw [h.messages]
  rw [not_or, not_not] at hcomplete
  exact (foldlM_applyFileChunk hloop).2 rfl hcomplete.1 rfl pending

end Batches

section Effects

variable {env : Surroundings} {committed : Tables Value} {message : Message} {raw : Raw}
  {phase phase' : Phase} {current : SyncState} {db db' : Db Raw Value Hash}

/-- The end of a file is accepted only if the store takes it. -/
theorem fileEnd_taken (hkind : message.kind = .fileEnd)
    (h : applyMessage rt env committed message raw phase db = .ok (db', phase')) :
    ∃ file content, message.file = some file ∧ phase = .stream
      ∧ rt.cfg.fileStorage.configured = true
      ∧ assembleFile rt message file db.inbox = .ok content
      ∧ (rt.cfg.allowsFileOperation file.operation = true →
        env.backend (.put file.path content file.mode file.modTimeUnixNano) = true) := by
  simp only [applyMessage, hkind] at h
  cases hfile : message.file with
  | none =>
      rw [hfile] at h
      cases h
  | some file =>
      rw [hfile] at h
      dsimp only at h
      split at h
      · cases h
      · rename_i hready
        rw [not_or, not_not, not_not] at hready
        obtain ⟨_, happlied, -⟩ := Except.bind_eq_ok.mp h
        unfold applyFile at happlied
        obtain ⟨content, hcontent, happlied⟩ := Except.bind_eq_ok.mp happlied
        refine ⟨file, content, rfl, hready.1, hready.2, hcontent, ?_⟩
        intro hallowed
        split_ifs at happlied with hrefused
        exact not_not.mp fun hno => hrefused ⟨hallowed, hno⟩

theorem fileDelete_taken (hkind : message.kind = .fileDelete)
    (h : applyMessage rt env committed message raw phase db = .ok (db', phase')) :
    ∃ file, message.file = some file ∧ phase = .stream ∧ rt.cfg.fileStorage.configured = true
      ∧ file.operation = .delete
      ∧ (rt.cfg.allowsFileOperation .delete = true → env.backend (.delete file.path) = true) := by
  simp only [applyMessage, hkind] at h
  cases hfile : message.file with
  | none =>
      rw [hfile] at h
      cases h
  | some file =>
      rw [hfile] at h
      dsimp only at h
      split_ifs at h with hinvalid hrefused
      rw [not_or, not_or, not_not, not_not, not_not] at hinvalid
      exact ⟨file, rfl, hinvalid.1, hinvalid.2.1, hinvalid.2.2,
        fun hallowed => not_not.mp fun hno => hrefused ⟨hallowed, hno⟩⟩

/-- The effect that is requested is that of the file event. -/
theorem Staged.requested_eq {pending before : List UInt8} (h : Staged rt current db)
    (hgeneration : message.generation = current.generation)
    (hpending : pending = (inboxMessages rt db.inbox).foldl contentAfter before)
    (happly : applyMessage rt env committed message raw phase db = .ok (db', phase')) :
    requested rt phase message db.inbox = eventOf rt.cfg pending message
      ∧ ∀ effect, requested rt phase message db.inbox = some effect → env.backend effect = true := by
  obtain ⟨chunks, hchunks, -⟩ := h.inbox
  cases hkind : message.kind with
  | fileEnd =>
      obtain ⟨file, content, hfile, hphase, hready, hcontent, htaken⟩ :=
        fileEnd_taken hkind happly
      have hsame : content = pending := (hchunks.content_eq hgeneration hcontent before).trans hpending.symm
      subst hsame
      by_cases hallowed : rt.cfg.allowsFileOperation file.operation = true
      · simp only [requested, eventOf, hkind, hfile, hcontent, hphase, hready, hallowed]
        exact ⟨rfl, fun effect heffect => Option.some.inj heffect ▸ htaken hallowed⟩
      · simp [requested, eventOf, hkind, hfile, hallowed]
  | fileDelete =>
      obtain ⟨file, hfile, hphase, hready, hdelete, htaken⟩ := fileDelete_taken hkind happly
      by_cases hallowed : rt.cfg.allowsFileOperation .delete = true
      · simp only [requested, eventOf, hkind, hfile, hphase, hready, hdelete, hallowed]
        exact ⟨rfl, fun effect heffect => Option.some.inj heffect ▸ htaken hallowed⟩
      · simp [requested, eventOf, hkind, hfile, hallowed]
  | _ =>
      simp only [requested, eventOf, hkind]
      exact ⟨trivial, fun _ hnone => (nomatch hnone)⟩

theorem Staged.eventOf_of_requested {pending before : List UInt8} {effect : FileEffect}
    (h : Staged rt current db) (hgeneration : message.generation = current.generation)
    (hpending : pending = (inboxMessages rt db.inbox).foldl contentAfter before)
    (hrequested : requested rt phase message db.inbox = some effect) :
    eventOf rt.cfg pending message = some effect := by
  obtain ⟨chunks, hchunks, -⟩ := h.inbox
  unfold requested at hrequested
  unfold eventOf
  split at hrequested
  · rename_i file hkind hfile
    split_ifs at hrequested with hready
    simp only [not_or, not_not] at hready
    rw [if_pos hready.2.2]
    split at hrequested
    · rename_i content hcontent
      rw [hpending, ← hchunks.content_eq hgeneration hcontent before]
      exact hrequested
    · cases hrequested
  · rename_i file hkind hfile
    split_ifs at hrequested with hready
    simp only [not_or, not_not] at hready
    rw [if_pos hready.2.2.2]
    exact hrequested
  · cases hrequested

end Effects

end GoSync.Server
