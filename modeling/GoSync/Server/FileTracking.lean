import GoSync.Server.FileEvents

/-!
# The file store and the checkpoint

`store` writes to the file store inside a transaction of the database that may still be rolled back, so
the two are out of step at every failure. Redelivering the message repeats the same effect, and the
effects are idempotent: the store is never more than the one next event ahead of the checkpoint.
-/

namespace GoSync.Server

variable {Raw Value Hash : Type}

def appliedOf (generation : String) (db : Db Raw Value Hash) : Nat :=
  if db.syncState.generation = generation then db.syncState.applied else 0

def inboxOf (generation : String) (db : Db Raw Value Hash) : List (InboxRow Raw) :=
  if db.syncState.generation = generation then db.inbox else []

structure Site (Raw Value Hash : Type) where
  target : Target Raw Value Hash
  files : Contents

inductive Fault where
  | never
  /-- Before the file store is called. -/
  | early
  /-- In the file store, without an effect. -/
  | refused
  /-- After the effect, at the commit or before it: the transaction is rolled back. -/
  | late
  /-- The commit goes through and is reported as failed. -/
  | reported
  deriving DecidableEq, Repr

inductive Happening (Raw : Type) where
  | call (fault : Fault) (message : Message) (raw : Raw)
  | remember (table : String)
  | rememberFirst (count : Nat) (table : String)
  | restart

section System

variable [DecidableEq Hash]

/-- A call; `key` is the name that the store gives to a path. -/
def Site.call (rt : Runtime Raw Value Hash) (key : String → String) (site : Site Raw Value Hash)
    (fault : Fault) (message : Message) (raw : Raw) : Site Raw Value Hash :=
  let written := site.files.applyAll key (backendCall rt message site.target.db)
  match fault with
  | .never =>
      { target := site.target.deliver rt (.store (fun _ => true) message raw), files := written }
  | .reported =>
      { target := site.target.deliver rt (.store (fun _ => true) message raw false), files := written }
  | .early => { site with target := site.target.deliver rt .failed }
  | .refused => { site with target := site.target.deliver rt (.store (fun _ => false) message raw) }
  | .late => { target := site.target.deliver rt .failed, files := written }

def Site.happen (rt : Runtime Raw Value Hash) (key : String → String) (site : Site Raw Value Hash) :
    Happening Raw → Site Raw Value Hash
  | .call fault message raw => site.call rt key fault message raw
  | .remember table => { site with target := site.target.deliver rt (.remember table) }
  | .rememberFirst count table =>
      { site with target := site.target.deliver rt (.rememberFirst count table) }
  | .restart => { site with target := site.target.deliver rt .restart }

def Site.accepts (rt : Runtime Raw Value Hash) (site : Site Raw Value Hash) (message : Message)
    (raw : Raw) : Bool :=
  (store rt { types := site.target.types, backend := fun _ => true } message raw
    site.target.db).isOk

def Happening.Within (entries : List (Message × Raw)) : Happening Raw → Prop
  | .call _ message raw => (message, raw) ∈ entries
  | _ => True

end System

def filesAfter (cfg : Syncer) (key : String → String) (messages : List (Message × Raw))
    (files : Contents) (count : Nat) : FileFold :=
  ((messages.take count).map Prod.fst).foldl (FileFold.step key cfg) { files := files }

theorem filesAfter_succ {cfg : Syncer} {key : String → String} {messages : List (Message × Raw)}
    {files : Contents} {count : Nat} {entry : Message × Raw} (h : messages[count]? = some entry) :
    filesAfter cfg key messages files (count + 1)
      = (filesAfter cfg key messages files count).step key cfg entry.1 := by
  unfold filesAfter
  rw [List.take_add_one, h, Option.toList_some, List.map_append, List.foldl_append]
  rfl

section Steps

variable {rt : Runtime Raw Value Hash} {env : Surroundings} {committed : Tables Value}
  {message : Message} {raw : Raw} {phase phase' : Phase} {current : SyncState}
  {db cleared db' : Db Raw Value Hash}

/-- What a message does to the file that is being received. -/
theorem applyMessage_inbox
    (h : applyMessage rt env committed message raw phase db = .ok (db', phase')) :
    db'.inbox = db.inbox ++ [inboxRow (message, raw)]
      ∨ message.kind ∈ [Kind.transactionEnd, .fileEnd]
      ∨ (db'.inbox = db.inbox ∧ ∀ pending, contentAfter pending message = pending) := by
  have hcases := applyMessage_cases h
  cases hkind : message.kind with
  | transactionRows | fileBegin | fileChunk =>
      simp only [hkind] at hcases
      rw [insertInbox_frame hcases.2.2]
      exact .inl rfl
  | transactionEnd | fileEnd => exact .inr (.inl (by simp))
  | snapshotBegin =>
      simp only [hkind] at hcases
      obtain ⟨-, scope, -, rfl⟩ := hcases
      exact .inr (.inr ⟨rfl, fun pending => by simp only [contentAfter, hkind]⟩)
  | schema =>
      simp only [hkind] at hcases
      refine .inr (.inr ⟨?_, fun pending => by simp only [contentAfter, hkind]⟩)
      obtain ⟨-, -, ⟨-, rfl⟩ | ⟨-, stage, -, rfl⟩⟩ := hcases <;> rfl
  | snapshotRows | fileDelete =>
      simp only [hkind] at hcases
      obtain ⟨-, -, rfl⟩ := hcases
      exact .inr (.inr ⟨rfl, fun pending => by simp only [contentAfter, hkind]⟩)
  | snapshotEnd =>
      simp only [hkind] at hcases
      obtain ⟨-, -, activated, hactivated, hpublished⟩ := hcases
      rw [(publishSnapshot_frame hpublished).2, activateSnapshot_frame hactivated]
      exact .inr (.inr ⟨rfl, fun pending => by simp only [contentAfter, hkind]⟩)
  | schemaEnd =>
      simp only [hkind] at hcases
      rw [applyStagedSchemas_frame hcases.2.2]
      exact .inr (.inr ⟨rfl, fun pending => by simp only [contentAfter, hkind]⟩)
  | other name => simp only [hkind] at hcases

theorem switchGeneration_progress (h : switchGeneration message db = .ok (current, cleared)) :
    current.applied = appliedOf message.generation db
      ∧ cleared.inbox = inboxOf message.generation db := by
  unfold appliedOf inboxOf
  rcases switchGeneration_cases h with ⟨hsame, rfl, rfl⟩ | ⟨hother, -, -, rfl, rfl⟩
  · rw [if_pos hsame.symm, if_pos hsame.symm]
    exact ⟨rfl, rfl⟩
  · rw [if_neg (Ne.symm hother), if_neg (Ne.symm hother)]
    exact ⟨rfl, rfl⟩

theorem Staged.pending_next {pending before : List UInt8} (h : Staged rt current cleared)
    (hgeneration : message.generation = current.generation)
    (hseq : message.seq = current.received + 1) (hdecode : rt.codec.unmarshal raw = some message)
    (hpending : pending = (inboxMessages rt cleared.inbox).foldl contentAfter before)
    (hreceive : Server.receive rt .plain cleared.tables message raw current cleared = .ok db') :
    ∃ before, contentAfter pending message
      = (inboxMessages rt db'.inbox).foldl contentAfter before := by
  have hstaged := h.receive hgeneration hseq hdecode hreceive
  obtain ⟨refresh, openTransaction, middle, phase, -, -, -, happly, -, rfl⟩ := receive_cases hreceive
  rcases applyMessage_inbox happly with hjoined | hend | ⟨hkept, hsame⟩
  · refine ⟨before, ?_⟩
    change _ = (inboxMessages rt middle.inbox).foldl contentAfter before
    have hmessages : inboxMessages rt middle.inbox = inboxMessages rt cleared.inbox ++ [message] := by
      unfold inboxMessages
      rw [hjoined, List.filterMap_append]
      exact congrArg _ (List.filterMap_cons_some hdecode)
    rw [hmessages, List.foldl_append, ← hpending]
    rfl
  · refine ⟨contentAfter pending message, ?_⟩
    have hclosed : (advance message current phase openTransaction refresh).openTransaction = "" := by
      simp only [advance, if_pos hend]
    rw [hstaged.open_iff.mp hclosed]
    rfl
  · refine ⟨before, ?_⟩
    change _ = (inboxMessages rt middle.inbox).foldl contentAfter before
    rw [hsame, hkept, hpending]

theorem eventOf_eq_none {cfg : Syncer} {pending : List UInt8}
    (h : message.kind ∉ [Kind.snapshotEnd, .transactionEnd, .schemaEnd, .fileEnd, .fileDelete]) :
    eventOf cfg pending message = none := by
  unfold eventOf
  split
  · rename_i file hkind _
    simp [hkind] at h
  · rename_i file hkind _
    simp [hkind] at h
  · rfl

end Steps

variable {db : Db Raw Value Hash}

section Contents

variable {rt : Runtime Raw Value Hash} {key : String → String} {messages : List (Message × Raw)}
  {message : Message} {raw : Raw}

/-- A content that a `file_end` of the list vouches for with its size and its digest. -/
def Vouched (rt : Runtime Raw Value Hash) (key : String → String) (messages : List (Message × Raw))
    (name : String) (content : List UInt8) : Prop :=
  ∃ entry ∈ messages, ∃ file, entry.1.kind = .fileEnd ∧ entry.1.file = some file ∧ key file.path = name
    ∧ (content.length : Int) = file.size ∧ hexEncode (rt.contentHash content) = file.sha256

theorem assembleFile_checked {file : FileChange} {inbox : List (InboxRow Raw)} {content : List UInt8}
    (h : assembleFile rt message file inbox = .ok content) :
    (content.length : Int) = file.size ∧ hexEncode (rt.contentHash content) = file.sha256 := by
  unfold assembleFile at h
  split_ifs at h
  obtain ⟨batch, -, h⟩ := Except.bind_eq_ok.mp h
  split_ifs at h with hchecked
  cases h
  simp only [not_or, not_not] at hchecked
  exact hchecked.2.2

theorem backendCall_put {path : String} {content : List UInt8} {mode : Nat}
    {modified : Int} (hmem : (message, raw) ∈ messages)
    (h : backendCall rt message db = some (.put path content mode modified)) :
    Vouched rt key messages (key path) content := by
  unfold backendCall at h
  split_ifs at h
  split at h
  · cases h
  · split_ifs at h
    split at h
    · unfold requested at h
      split at h
      · rename_i file hkind hfile
        split_ifs at h
        split at h
        · rename_i assembled hassembled
          cases h
          exact ⟨_, hmem, file, hkind, hfile, rfl, assembleFile_checked hassembled⟩
        · cases h
      · split_ifs at h
        cases h
      · cases h
    · cases h

def Whole (rt : Runtime Raw Value Hash) (key : String → String) (messages : List (Message × Raw))
    (before files : Contents) : Prop :=
  ∀ name stored, files name = some stored →
    before name = some stored ∨ Vouched rt key messages name stored.content

/-- The store only ever holds whole files. -/
theorem Whole.applyAll {before files : Contents}
    (h : Whole rt key messages before files) (hmem : (message, raw) ∈ messages) :
    Whole rt key messages before (files.applyAll key (backendCall rt message db)) := by
  intro name stored hstored
  cases hcall : backendCall rt message db with
  | none =>
      rw [hcall] at hstored
      exact h name stored hstored
  | some effect =>
      rw [hcall] at hstored
      cases effect with
      | put path content mode modified =>
          by_cases hname : name = key path
          · subst hname
            change Function.update files (key path) _ (key path) = some stored at hstored
            rw [Function.update_self] at hstored
            cases hstored
            exact .inr (backendCall_put hmem hcall)
          · exact h name stored ((Function.update_of_ne hname _ _).symm.trans hstored)
      | delete path =>
          by_cases hname : name = key path
          · subst hname
            change Function.update files (key path) _ (key path) = some stored at hstored
            rw [Function.update_self] at hstored
            cases hstored
          · exact h name stored ((Function.update_of_ne hname _ _).symm.trans hstored)

end Contents

section Tracking

variable [DecidableEq Hash] {rt : Runtime Raw Value Hash} {key : String → String} {generation : String}
  {messages : List (Message × Raw)} {start : Site Raw Value Hash} {target : Target Raw Value Hash}
  {message : Message} {raw : Raw}

theorem Numbered.getElem?_of_seq (h : Numbered generation messages) (hmem : (message, raw) ∈ messages)
    {count : Nat} (hseq : message.seq = count + 1) : messages[count]? = some (message, raw) := by
  obtain ⟨index, hindex⟩ := List.getElem?_of_mem hmem
  have hposition : message.seq = index + 1 := h.seq index _ hindex
  obtain rfl : index = count := by omega
  exact hindex

structure Follows (rt : Runtime Raw Value Hash) (key : String → String) (generation : String)
    (messages : List (Message × Raw)) (start : Site Raw Value Hash)
    (target : Target Raw Value Hash) : Prop where
  onTrack : OnTrack rt generation messages start.target.db target
  sound : target.Sound rt
  pending : ∃ before,
    (filesAfter rt.cfg key messages start.files (receivedOf generation target.db)).pending
      = (inboxMessages rt (inboxOf generation target.db)).foldl contentAfter before
  applied : (filesAfter rt.cfg key messages start.files (appliedOf generation target.db)).files
    = (filesAfter rt.cfg key messages start.files (receivedOf generation target.db)).files

theorem Follows.backendCall_eq (h : Follows rt key generation messages start target)
    {effect : FileEffect} (hgeneration : message.generation = generation)
    (hcall : backendCall rt message target.db = some effect) :
    message.seq = receivedOf generation target.db + 1
      ∧ eventOf rt.cfg
          (filesAfter rt.cfg key messages start.files (receivedOf generation target.db)).pending message
        = some effect := by
  subst hgeneration
  obtain ⟨before, hpending⟩ := h.pending
  unfold backendCall at hcall
  split_ifs at hcall with hsize
  split at hcall
  · cases hcall
  · rename_i current cleared hswitch
    split_ifs at hcall with hseq
    split at hcall
    · obtain ⟨hstaged, hsame⟩ := h.sound.staged.switch hswitch
      rw [← (switchGeneration_progress hswitch).2] at hpending
      rw [not_not, (switchGeneration_received hswitch).1] at hseq
      exact ⟨hseq, hstaged.eventOf_of_requested hsame hpending hcall⟩
    · cases hcall

/-- The store has the files of the checkpoint, or is one event ahead. -/
structure Tracked (rt : Runtime Raw Value Hash) (key : String → String) (generation : String)
    (messages : List (Message × Raw)) (start site : Site Raw Value Hash) : Prop where
  follows : Follows rt key generation messages start site.target
  files : site.files
      = (filesAfter rt.cfg key messages start.files (receivedOf generation site.target.db)).files
    ∨ site.files
      = (filesAfter rt.cfg key messages start.files (receivedOf generation site.target.db + 1)).files

structure Called (rt : Runtime Raw Value Hash) (key : String → String) (generation : String)
    (messages : List (Message × Raw)) (start site : Site Raw Value Hash) (message : Message)
    (next : Site Raw Value Hash) : Prop where
  tracked : Tracked rt key generation messages start next
  step : (receivedOf generation next.target.db = receivedOf generation site.target.db
      ∧ (message.seq ≠ receivedOf generation site.target.db + 1 → next.files = site.files))
    ∨ (message.seq = receivedOf generation site.target.db + 1
      ∧ receivedOf generation next.target.db = message.seq
      ∧ next.files = (filesAfter rt.cfg key messages start.files message.seq).files)

variable {site : Site Raw Value Hash}

section Messages

variable (hnumbered : Numbered generation messages) (hmem : (message, raw) ∈ messages)
include hnumbered hmem

/-- The next message asks the file store for what the history says. -/
theorem Follows.next (h : Follows rt key generation messages start target)
    (hdecode : rt.codec.unmarshal raw = some message) {backend : FileEffect → Bool}
    (hstore : Server.store rt { types := target.types, backend := backend } message raw target.db
      = .ok db) (hnext : message.seq = receivedOf generation target.db + 1) (reported : Bool) :
    Follows rt key generation messages start
        { types := typesAfter reported message target.db.syncState target.types, db := db }
      ∧ receivedOf generation db = receivedOf generation target.db + 1
      ∧ backendCall rt message target.db
        = eventOf rt.cfg
          (filesAfter rt.cfg key messages start.files (receivedOf generation target.db)).pending message
      ∧ ∀ effect, backendCall rt message target.db = some effect → backend effect = true := by
  have hgeneration : message.generation = generation := hnumbered.generation _ hmem
  subst hgeneration
  have honTrack := h.onTrack.store hnumbered (.inl hmem) hstore reported
  have hplain := store_plain h.sound.coherent hstore
  have hsound : Target.Sound rt
      { types := typesAfter reported message target.db.syncState target.types, db := db } :=
    ⟨h.sound.coherent.store hstore reported, h.sound.staged.store hdecode hplain⟩
  have hstep : filesAfter rt.cfg key messages start.files
        (receivedOf message.generation target.db + 1)
      = (filesAfter rt.cfg key messages start.files (receivedOf message.generation target.db)).step key
        rt.cfg message := filesAfter_succ (hnumbered.getElem?_of_seq hmem hnext)
  obtain ⟨before, hpending⟩ := h.pending
  obtain ⟨hsize, ⟨hsame, hold, -⟩ | ⟨current, cleared, hswitch, hseq, hreceive⟩⟩ := store_cases hstore
  · rw [receivedOf, if_pos hsame.symm] at hnext
    omega
  · obtain ⟨hstaged, hsame⟩ := h.sound.staged.switch hswitch
    obtain ⟨happlied, hinbox⟩ := switchGeneration_progress hswitch
    obtain ⟨hnewGeneration, hnewReceived, -⟩ := receive_effect hswitch hreceive
    have hreceived : receivedOf message.generation db
        = receivedOf message.generation target.db + 1 := by
      rw [receivedOf, if_pos hnewGeneration, hnewReceived, hnext]
    rw [← hinbox] at hpending
    have hplainReceive := receive_plain h.sound.coherent hreceive
    rw [← (switchGeneration_received hswitch).2.2] at hplainReceive
    obtain ⟨after, hafter⟩ := hstaged.pending_next hsame hseq hdecode hpending hplainReceive
    obtain ⟨refresh, openTransaction, middle, phase, hfile, hbarrier, hcheck, happly, -, hdb⟩ :=
      receive_cases hreceive
    obtain ⟨hevent, htaken⟩ := hstaged.requested_eq hsame hpending happly
    have hcall : backendCall rt message target.db = requested rt current.phase message cleared.inbox := by
      unfold backendCall
      rw [if_neg (not_lt.mpr hsize), hswitch]
      dsimp only
      rw [if_neg (not_not.mpr hseq), hfile, hbarrier, hcheck]
    refine ⟨⟨honTrack, hsound, ⟨after, ?_⟩, ?_⟩, hreceived, hcall.trans hevent, ?_⟩
    · change (filesAfter rt.cfg key messages start.files (receivedOf message.generation db)).pending
        = (inboxMessages rt (inboxOf message.generation db)).foldl contentAfter after
      rw [hreceived, hstep, inboxOf, if_pos hnewGeneration]
      exact hafter
    · change (filesAfter rt.cfg key messages start.files (appliedOf message.generation db)).files
        = (filesAfter rt.cfg key messages start.files (receivedOf message.generation db)).files
      rw [appliedOf, if_pos hnewGeneration, hreceived]
      by_cases hend : message.kind ∈ [Kind.snapshotEnd, .transactionEnd, .schemaEnd, .fileEnd, .fileDelete]
      · have hat : db.syncState.applied = message.seq := by
          rw [hdb]
          exact if_pos hend
        rw [hat, hnext]
      · have hat : db.syncState.applied = appliedOf message.generation target.db := by
          rw [hdb, ← happlied]
          exact if_neg hend
        rw [hat, h.applied, hstep]
        change _ = Contents.applyAll key _ (eventOf rt.cfg _ message)
        rw [eventOf_eq_none hend]
        rfl
    · intro effect heffect
      exact htaken effect (hcall.symm.trans heffect)

/-- A delivery stores nothing new or the next message. -/
theorem Follows.deliver_store (h : Follows rt key generation messages start target)
    (hdecode : rt.codec.unmarshal raw = some message) (backend : FileEffect → Bool) (reported : Bool) :
    let next := target.deliver rt (.store backend message raw reported)
    Follows rt key generation messages start next
      ∧ ((receivedOf generation next.db = receivedOf generation target.db
          ∧ (message.seq = receivedOf generation target.db + 1 →
            (store rt { types := target.types, backend := backend } message raw target.db).isOk = false))
        ∨ (message.seq = receivedOf generation target.db + 1
          ∧ receivedOf generation next.db = receivedOf generation target.db + 1
          ∧ backendCall rt message target.db
            = eventOf rt.cfg
              (filesAfter rt.cfg key messages start.files (receivedOf generation target.db)).pending
              message
          ∧ ∀ effect, backendCall rt message target.db = some effect → backend effect = true)) := by
  cases hstore : Server.store rt { types := target.types, backend := backend } message raw
      target.db with
  | error err =>
      simp only [Target.deliver, hstore]
      exact ⟨h, .inl ⟨trivial, fun _ => rfl⟩⟩
  | ok db =>
      simp only [Target.deliver, hstore]
      by_cases hnext : message.seq = receivedOf generation target.db + 1
      · obtain ⟨hfollows, hreceived, hcall, htaken⟩ := h.next hnumbered hmem hdecode hstore hnext reported
        exact ⟨hfollows, .inr ⟨hnext, hreceived, hcall, htaken⟩⟩
      · have honTrack := h.onTrack.store hnumbered (.inl hmem) hstore reported
        have hcoherent := h.sound.coherent.store hstore reported
        obtain ⟨-, ⟨-, -, rfl⟩ | ⟨current, cleared, hswitch, hseq, -⟩⟩ := store_cases hstore
        · exact ⟨⟨honTrack, ⟨hcoherent, h.sound.staged⟩, h.pending, h.applied⟩,
            .inl ⟨rfl, fun hseq => absurd hseq hnext⟩⟩
        · rw [(switchGeneration_received hswitch).1, hnumbered.generation _ hmem] at hseq
          exact absurd hseq hnext

/-- Writing the files of a message twice is writing them once. -/
theorem Tracked.written_next (h : Tracked rt key generation messages start site)
    (hnext : message.seq = receivedOf generation site.target.db + 1)
    (hcall : backendCall rt message site.target.db
      = eventOf rt.cfg (filesAfter rt.cfg key messages start.files
          (receivedOf generation site.target.db)).pending message) :
    site.files.applyAll key (backendCall rt message site.target.db)
      = (filesAfter rt.cfg key messages start.files
          (receivedOf generation site.target.db + 1)).files := by
  have hstep : filesAfter rt.cfg key messages start.files
        (receivedOf generation site.target.db + 1)
      = (filesAfter rt.cfg key messages start.files (receivedOf generation site.target.db)).step key
        rt.cfg message := filesAfter_succ (hnumbered.getElem?_of_seq hmem hnext)
  have hfiles : (filesAfter rt.cfg key messages start.files
        (receivedOf generation site.target.db + 1)).files
      = (filesAfter rt.cfg key messages start.files
          (receivedOf generation site.target.db)).files.applyAll key
        (backendCall rt message site.target.db) := by
    rw [hstep, hcall]
    rfl
  rcases h.files with hsame | hahead
  · rw [hsame, hfiles]
  · rw [hahead, hfiles, Contents.applyAll_applyAll]

theorem Tracked.written (h : Tracked rt key generation messages start site) :
    site.files.applyAll key (backendCall rt message site.target.db) = site.files
      ∨ (message.seq = receivedOf generation site.target.db + 1
        ∧ site.files.applyAll key (backendCall rt message site.target.db)
          = (filesAfter rt.cfg key messages start.files
              (receivedOf generation site.target.db + 1)).files) := by
  cases hcall : backendCall rt message site.target.db with
  | none => exact .inl rfl
  | some effect =>
      obtain ⟨hnext, hevent⟩ := h.follows.backendCall_eq (hnumbered.generation _ hmem) hcall
      rw [← hcall]
      exact .inr ⟨hnext, h.written_next hnumbered hmem hnext (hcall.trans hevent.symm)⟩

theorem Tracked.late (h : Tracked rt key generation messages start site)
    (hfollows : Follows rt key generation messages start target)
    (hreceived : receivedOf generation target.db = receivedOf generation site.target.db) :
    Called rt key generation messages start site message
      { target := target,
        files := site.files.applyAll key (backendCall rt message site.target.db) } := by
  rcases h.written hnumbered hmem with hsame | ⟨hnext, hwritten⟩
  · exact ⟨⟨hfollows, by simpa only [hreceived, hsame] using h.files⟩, .inl ⟨hreceived, fun _ => hsame⟩⟩
  · refine ⟨⟨hfollows, .inr ?_⟩, .inl ⟨hreceived, fun hother => absurd hnext hother⟩⟩
    simpa only [hreceived] using hwritten

/-- One call, wherever it fails. -/
theorem Tracked.call (h : Tracked rt key generation messages start site)
    (hdecode : rt.codec.unmarshal raw = some message) (fault : Fault) :
    Called rt key generation messages start site message (site.call rt key fault message raw) := by
  have hstored (backend : FileEffect → Bool) (reported : Bool) :=
    h.follows.deliver_store hnumbered hmem hdecode backend reported
  have hcommitted (reported : Bool) : Called rt key generation messages start site message
      { target := site.target.deliver rt (.store (fun _ => true) message raw reported),
        files := site.files.applyAll key (backendCall rt message site.target.db) } := by
    obtain ⟨hfollows, ⟨hreceived, -⟩ | ⟨hnext, hreceived, hcall, -⟩⟩ := hstored (fun _ => true) reported
    · exact h.late hnumbered hmem hfollows hreceived
    · have hwritten := h.written_next hnumbered hmem hnext hcall
      rw [← hnext] at hreceived hwritten
      refine ⟨⟨hfollows, .inl ?_⟩, .inr ⟨hnext, hreceived, hwritten⟩⟩
      exact hwritten.trans (congrArg (fun count => (filesAfter _ _ _ _ count).files) hreceived.symm)
  cases fault with
  | early => exact ⟨h, .inl ⟨rfl, fun _ => rfl⟩⟩
  | late => exact h.late hnumbered hmem h.follows rfl
  | never => exact hcommitted true
  | reported => exact hcommitted false
  | refused =>
      obtain ⟨hfollows, ⟨hreceived, -⟩ | ⟨hnext, hreceived, hcall, htaken⟩⟩ :=
        hstored (fun _ => false) true
      · refine ⟨⟨hfollows, ?_⟩, .inl ⟨hreceived, fun _ => rfl⟩⟩
        have hfiles := h.files
        rw [← hreceived] at hfiles
        exact hfiles
      · -- The message needed nothing from the store, so the store has its files already.
        have hwritten := h.written_next hnumbered hmem hnext hcall
        have hnone : backendCall rt message site.target.db = none := by
          cases heffect : backendCall rt message site.target.db with
          | none => rfl
          | some effect => cases htaken effect heffect
        rw [hnone, ← hnext] at hwritten
        rw [← hnext] at hreceived
        refine ⟨⟨hfollows, .inl ?_⟩, .inr ⟨hnext, hreceived, hwritten⟩⟩
        exact hwritten.trans (congrArg (fun count => (filesAfter _ _ _ _ count).files) hreceived.symm)

theorem Tracked.accepted (h : Tracked rt key generation messages start site)
    (hdecode : rt.codec.unmarshal raw = some message)
    (hnext : message.seq = receivedOf generation site.target.db + 1)
    (haccepts : site.accepts rt message raw = true) :
    receivedOf generation (site.call rt key .never message raw).target.db = message.seq := by
  obtain ⟨-, ⟨-, hrefused⟩ | ⟨-, hreceived, -⟩⟩ :=
    h.follows.deliver_store hnumbered hmem hdecode (fun _ => true) true
  · exact absurd (hrefused hnext) (by rw [Site.accepts] at haccepts; simp [haccepts])
  · exact hreceived.trans hnext.symm

end Messages

variable {happening : Happening Raw}

theorem Tracked.happen (h : Tracked rt key generation messages start site)
    (hnumbered : Numbered generation messages)
    (hdecode : ∀ entry ∈ messages, rt.codec.unmarshal entry.2 = some entry.1)
    (hwithin : happening.Within messages) :
    Tracked rt key generation messages start (site.happen rt key happening) := by
  have hkept {types : TypeCache} (hcoherent : Coherent types site.target.db.tables) :
      Tracked rt key generation messages start
        { site with target := { site.target with types := types } } :=
    ⟨⟨⟨hcoherent, h.follows.onTrack.received_le, h.follows.onTrack.stored, h.follows.onTrack.bounded,
      h.follows.onTrack.hashed⟩, ⟨hcoherent, h.follows.sound.staged⟩, h.follows.pending,
      h.follows.applied⟩, h.files⟩
  cases happening with
  | call fault message raw => exact (h.call hnumbered hwithin (hdecode _ hwithin) fault).tracked
  | remember table => exact hkept (h.follows.sound.coherent.remember table)
  | rememberFirst count table => exact hkept (h.follows.sound.coherent.rememberFirst count table)
  | restart => exact hkept .nil

theorem Tracked.run (h : Tracked rt key generation messages start site)
    (hnumbered : Numbered generation messages)
    (hdecode : ∀ entry ∈ messages, rt.codec.unmarshal entry.2 = some entry.1)
    {happenings : List (Happening Raw)}
    (hwithin : ∀ happening ∈ happenings, happening.Within messages) :
    Tracked rt key generation messages start (happenings.foldl (Site.happen rt key) site) := by
  refine List.foldlRecOn happenings (Site.happen rt key) h ?_
  intro site h happening hmem
  exact h.happen hnumbered hdecode (hwithin happening hmem)

theorem tracked_start (hsound : start.target.Sound rt)
    (hstart : receivedOf generation start.target.db = 0)
    (hinbox : inboxOf generation start.target.db = []) :
    Tracked rt key generation messages start start := by
  have happlied : appliedOf generation start.target.db = 0 := by
    have hle := hsound.staged.applied_le
    unfold receivedOf at hstart
    unfold appliedOf
    split_ifs at hstart ⊢
    · omega
    · rfl
  refine ⟨⟨onTrack_start hsound.coherent hstart, hsound, ⟨[], ?_⟩, ?_⟩, .inl ?_⟩
  · rw [hstart, hinbox]
    rfl
  · rw [hstart, happlied]
  · rw [hstart]
    rfl

/-- While one message is delivered again and again, it is either still the next one or the last one
received, and then the store has its files. -/
structure Retried (rt : Runtime Raw Value Hash) (key : String → String) (generation : String)
    (messages : List (Message × Raw)) (start : Site Raw Value Hash) (message : Message)
    (site : Site Raw Value Hash) : Prop where
  tracked : Tracked rt key generation messages start site
  place : message.seq = receivedOf generation site.target.db + 1
    ∨ (message.seq = receivedOf generation site.target.db
      ∧ site.files = (filesAfter rt.cfg key messages start.files message.seq).files)

theorem Retried.call (h : Retried rt key generation messages start message site)
    (hnumbered : Numbered generation messages) (hmem : (message, raw) ∈ messages)
    (hdecode : rt.codec.unmarshal raw = some message) (fault : Fault) :
    Retried rt key generation messages start message (site.call rt key fault message raw) := by
  obtain ⟨htracked, hstep⟩ := h.tracked.call hnumbered hmem hdecode fault
  refine ⟨htracked, ?_⟩
  rcases hstep with ⟨hreceived, hfiles⟩ | ⟨-, hreceived, hfiles⟩
  · rw [hreceived]
    rcases h.place with hnext | ⟨hlast, hexact⟩
    · exact .inl hnext
    · exact .inr ⟨hlast, (hfiles (by omega)).trans hexact⟩
  · exact .inr ⟨hreceived.symm, hfiles⟩

theorem Retried.happen (h : Retried rt key generation messages start message site)
    (hnumbered : Numbered generation messages) (hmem : (message, raw) ∈ messages)
    (hdecode : ∀ entry ∈ messages, rt.codec.unmarshal entry.2 = some entry.1)
    (hretry : happening.Within [(message, raw)]) :
    Retried rt key generation messages start message (site.happen rt key happening) := by
  cases happening with
  | call fault again rawAgain =>
      cases List.mem_singleton.mp hretry
      exact h.call hnumbered hmem (hdecode _ hmem) fault
  | remember table => exact ⟨h.tracked.happen hnumbered hdecode trivial, h.place⟩
  | rememberFirst count table => exact ⟨h.tracked.happen hnumbered hdecode trivial, h.place⟩
  | restart => exact ⟨h.tracked.happen hnumbered hdecode trivial, h.place⟩

theorem Whole.happen {before : Contents} (h : Whole rt key messages before site.files)
    (hwithin : happening.Within messages) :
    Whole rt key messages before (site.happen rt key happening).files := by
  cases happening with
  | call fault message raw =>
      cases fault with
      | never | reported | late => exact h.applyAll hwithin
      | early | refused => exact h
  | remember table => exact h
  | rememberFirst count table => exact h
  | restart => exact h

/-- **The file store tracks the checkpoint.** Whatever calls fail and are repeated, the store has the files
of the messages applied, or those of one more message; once a message that was the next one is accepted,
it has the files of the messages applied. No content is seen that a `file_end` does not vouch for. -/
theorem files_track_checkpoint (rt : Runtime Raw Value Hash) (key : String → String)
    (generation : String) (messages : List (Message × Raw)) (hnumbered : Numbered generation messages)
    (hdecode : ∀ entry ∈ messages, rt.codec.unmarshal entry.2 = some entry.1)
    (start : Site Raw Value Hash) (hsound : start.target.Sound rt)
    (hstart : receivedOf generation start.target.db = 0)
    (hinbox : inboxOf generation start.target.db = []) (happenings : List (Happening Raw))
    (hwithin : ∀ happening ∈ happenings, happening.Within messages) :
    let files count := (filesAfter rt.cfg key messages start.files count).files
    let site := happenings.foldl (Site.happen rt key) start
    let received := receivedOf generation site.target.db
    let applied := appliedOf generation site.target.db
    (files received = files applied ∧ (site.files = files applied ∨ site.files = files (received + 1)))
      ∧ (∀ message raw (retries : List (Happening Raw)), (message, raw) ∈ messages → message.seq = received + 1 →
          (∀ happening ∈ retries, happening.Within [(message, raw)]) →
          let retried := retries.foldl (Site.happen rt key) site
          retried.accepts rt message raw = true →
            let accepted := retried.happen rt key (.call .never message raw)
            accepted.files = files (appliedOf generation accepted.target.db))
      ∧ (∀ name stored, site.files name = some stored →
          start.files name = some stored ∨ Vouched rt key messages name stored.content) := by
  intro files site received applied
  have htracked : Tracked rt key generation messages start site :=
    (tracked_start hsound hstart hinbox).run hnumbered hdecode hwithin
  refine ⟨⟨htracked.follows.applied.symm, ?_⟩, ?_, ?_⟩
  · rw [show files applied = files received from htracked.follows.applied]
    exact htracked.files
  · intro message raw retries hmem hnext hretries retried haccepts accepted
    have hretried : Retried rt key generation messages start message retried := by
      refine List.foldlRecOn retries (Site.happen rt key) ⟨htracked, .inl hnext⟩ ?_
      intro site h happening hhappening
      exact h.happen hnumbered hmem hdecode (hretries happening hhappening)
    have haccepted := hretried.call hnumbered hmem (hdecode _ hmem) .never
    have hplace : receivedOf generation accepted.target.db = message.seq
        ∧ accepted.files = files message.seq := by
      rcases haccepted.place with hstill | ⟨hlast, hexact⟩
      · exfalso
        rcases hretried.place with hnext | ⟨hlast, -⟩
        · have hreceived : receivedOf generation accepted.target.db = message.seq :=
            hretried.tracked.accepted hnumbered hmem (hdecode _ hmem) hnext haccepts
          have hstill : message.seq = receivedOf generation accepted.target.db + 1 := hstill
          omega
        · rcases (hretried.tracked.call hnumbered hmem (hdecode _ hmem) .never).step with
            ⟨hsame, -⟩ | ⟨hnext, -⟩ <;> omega
      · exact ⟨hlast.symm, hexact⟩
    rw [hplace.2, ← hplace.1]
    exact haccepted.tracked.follows.applied.symm
  · refine List.foldlRecOn happenings (Site.happen rt key)
      (motive := fun site => Whole rt key messages start.files site.files) (fun _ _ => .inl) ?_
    intro site h happening hmem
    exact h.happen (hwithin happening hmem)

/-- A deletion whose transaction is rolled back after the file is gone, and then delivered again. -/
theorem files_track_checkpoint_rollback :
    let first : Message := { kind := .snapshotBegin, generation := "g", seq := 1 }
    let last : Message := { kind := .snapshotEnd, generation := "g", seq := 2 }
    let removal : Message :=
      { kind := .fileDelete, generation := "g", seq := 3, file := some { path := "a", operation := .delete } }
    let rt := Runtime.plain { id := "s", tables := [], fileStorage := { configured := true } }
    let messages := [(first, first), (last, last), (removal, removal)]
    let start : Site Message String Message :=
      { target := { db := { tables := fun _ => none } }
        files := fun name => if name = "a" then some ⟨[1], 0, 0⟩ else none }
    let site := [.call .never first first, .call .never last last].foldl (Site.happen rt id) start
    let failed := site.happen rt id (.call .late removal removal)
    let accepted := failed.happen rt id (.call .never removal removal)
    receivedOf "g" failed.target.db = 2 ∧ failed.files "a" = none
      ∧ accepted.files
        = (filesAfter rt.cfg id messages start.files (appliedOf "g" accepted.target.db)).files := by
  intro first last removal rt messages start site failed accepted
  have hnumbered : Numbered "g" messages := by
    refine ⟨by simp [messages, first, last, removal], ?_⟩
    intro index entry hentry
    match index with
    | 0 => cases hentry; rfl
    | 1 => cases hentry; rfl
    | 2 => cases hentry; rfl
    | index + 3 => simp [messages] at hentry
  have hwithin : ∀ happening ∈ [.call .never first first, .call .never last last],
      Happening.Within messages happening := by
    simp [Happening.Within, messages]
  have hmem : (removal, removal) ∈ messages := by simp [messages]
  have hdecode : ∀ entry ∈ messages, rt.codec.unmarshal entry.2 = some entry.1 := by
    simp only [messages, List.forall_mem_cons]
    exact ⟨rfl, rfl, rfl, List.forall_mem_nil _⟩
  have htrack := files_track_checkpoint rt id "g" messages hnumbered hdecode start
    ⟨.nil, staged_empty _⟩ rfl rfl _ hwithin
  refine ⟨by decide, by decide, ?_⟩
  refine htrack.2.1 removal removal [.call .late removal removal] hmem (by decide) ?_ (by decide)
  simp [Happening.Within]

end Tracking

end GoSync.Server
