import GoSync.FileWatch.Collector
import GoSync.FileWatch.Mirror
import GoSync.Lib.Sha256
import GoSync.Server.FileEvents

/-!
# Files in chunks

What `publishFile` makes of a file that does not change while it is read, and what `applyFile` makes of any
batch in the inbox. The chunks are windows of the content, as many as it takes to cover it and at least one.
-/

namespace GoSync.FileWatch

open Capture (Backlog Call Grants)
open Server (FileBatch FileEffect InboxRow RowsDecode WholeFile applyFile applyFileChunk assembleFile batchRows
  requested validateFileMessage)

section Windows

variable (width : Nat) (content : List UInt8)

def window (chunk : Nat) : List UInt8 :=
  (content.drop (chunk * width)).take width

theorem flatMap_window (count : Nat) :
    (List.range count).flatMap (window width content) = content.take (count * width) := by
  induction count with
  | zero => rw [Nat.zero_mul, List.take_zero, List.range_zero, List.flatMap_nil]
  | succ count ih =>
      rw [List.range_succ, List.flatMap_append, ih, List.flatMap_singleton, window, Nat.succ_mul,
        List.take_add]

theorem length_window_add_le (chunk : Nat) :
    (window width content chunk).length + (content.take (chunk * width)).length ≤ content.length := by
  rw [window, List.length_take, List.length_drop, List.length_take]
  omega

theorem take_append_window (chunk : Nat) :
    content.take (chunk * width) ++ window width content chunk = content.take ((chunk + 1) * width) := by
  rw [window, Nat.succ_mul, List.take_add]

end Windows

section Source

def unchanged (cfg : Settings) (content : List UInt8) (state : FileState) : Reading where
  parts := fun chunk => .ok (window cfg.chunkBytes content chunk)
  stat := some (state.size, state.modTimeUnixNano)

def chunkMessage (cfg : Settings) (transaction : String) (change : FileChange) (content : List UInt8)
    (chunk : Nat) : Message where
  kind := .fileChunk
  transaction := transaction
  file := some { change with chunk := chunk, data := base64Encode (window cfg.chunkBytes content chunk) }

def beginMessage (transaction : String) (change : FileChange) : Message where
  kind := .fileBegin
  transaction := transaction
  file := some change

def endMessage (transaction : String) (change : FileChange) : Message where
  kind := .fileEnd
  transaction := transaction
  file := some change

def openMessages (cfg : Settings) (transaction : String) (change : FileChange) (content : List UInt8) :
    List Message :=
  beginMessage transaction change
    :: (List.range change.chunks).map (chunkMessage cfg transaction change content)

variable {rt : Runtime} {transaction lsn name : String} {operation : FileOperation} {state : FileState}
  {content : List UInt8}

/-- Each chunk is one message, and all of them are the content. -/
theorem foldlM_publishChunk (cfg : Settings) (change : FileChange) (chunks : List Nat)
    (front : List UInt8) :
    chunks.foldlM (publishChunk cfg transaction change (unchanged cfg content state)) front
      = ⟨(chunks.map (chunkMessage cfg transaction change content)).map Call.appendOnce,
          .ok (front ++ chunks.flatMap (window cfg.chunkBytes content))⟩ := by
  induction chunks generalizing front with
  | nil => exact congrArg (Plan.mk []) (congrArg Except.ok (List.append_nil front).symm)
  | cons chunk chunks ih =>
      have htake : (window cfg.chunkBytes content chunk).take cfg.chunkBytes
          = window cfg.chunkBytes content chunk := by
        rw [window, List.take_take, Nat.min_self]
      have hchunk : publishChunk cfg transaction change (unchanged cfg content state) front chunk
          = ⟨[.appendOnce (chunkMessage cfg transaction change content chunk)],
              .ok (front ++ window cfg.chunkBytes content chunk)⟩ := by
        calc publishChunk cfg transaction change (unchanged cfg content state) front chunk
            = ⟨[.appendOnce
                  { kind := .fileChunk, transaction := transaction
                    file := some { change with
                                    chunk := chunk
                                    data := base64Encode
                                      ((window cfg.chunkBytes content chunk).take cfg.chunkBytes) } }],
                .ok (front ++ (window cfg.chunkBytes content chunk).take cfg.chunkBytes)⟩ := rfl
          _ = _ := by
              rw [htake]
              rfl
      rw [List.foldlM_cons, hchunk, Plan.bind_of_ok rfl, ih, List.flatMap_cons, ← List.append_assoc]
      rfl

theorem kinds_openMessages (cfg : Settings) (change : FileChange) :
    (openMessages cfg transaction change content).map Message.kind
      = .fileBegin :: List.replicate change.chunks .fileChunk := by
  rw [openMessages, List.map_cons, List.map_map]
  exact congrArg (Kind.fileBegin :: ·) ((List.map_const' ..).trans (by rw [List.length_range]))

/-- The chunks of `publishFile` cover a file of at most 1 TiB, and there is at least one: the number of
chunks fits into 32 bits. -/
theorem chunkCount_covers {cfg : Settings} (hchunk : 64 * 2 ^ 10 ≤ cfg.chunkBytes)
    (hsize : state.size = content.length) (hlimit : content.length ≤ 2 ^ 40) :
    chunkCount cfg state ≠ 0 ∧ content.length ≤ chunkCount cfg state * cfg.chunkBytes := by
  have hpos : 0 < cfg.chunkBytes := Nat.lt_of_lt_of_le (by decide) hchunk
  have hround : ((state.size + cfg.chunkBytes - 1).tdiv cfg.chunkBytes).toNat
      = (content.length + cfg.chunkBytes - 1) / cfg.chunkBytes := by
    have hcast : state.size + cfg.chunkBytes - 1 = ((content.length + cfg.chunkBytes - 1 : Nat) : Int) := by
      omega
    rw [hcast, ← Int.ofNat_tdiv, Int.toNat_natCast]
  have hsmall : (content.length + cfg.chunkBytes - 1) / cfg.chunkBytes < 2 ^ 32 := by
    rw [Nat.div_lt_iff_lt_mul hpos]
    calc content.length + cfg.chunkBytes - 1
        < 2 ^ 40 + cfg.chunkBytes := by omega
      _ ≤ 2 ^ 24 * cfg.chunkBytes + cfg.chunkBytes := by
          have hmul : 2 ^ 24 * (64 * 2 ^ 10) ≤ 2 ^ 24 * cfg.chunkBytes := Nat.mul_le_mul_left _ hchunk
          omega
      _ ≤ 2 ^ 32 * cfg.chunkBytes := by omega
  rw [chunkCount, hround, Nat.mod_eq_of_lt hsmall]
  have hcover : content.length ≤ (content.length + cfg.chunkBytes - 1) / cfg.chunkBytes * cfg.chunkBytes := by
    have hdiv := Nat.div_add_mod (content.length + cfg.chunkBytes - 1) cfg.chunkBytes
    have hmod := Nat.mod_lt (content.length + cfg.chunkBytes - 1) hpos
    rw [Nat.mul_comm]
    omega
  split_ifs with hzero
  · rw [hzero, Nat.zero_mul] at hcover
    exact ⟨Nat.one_ne_zero, hcover.trans (Nat.zero_le _)⟩
  · exact ⟨hzero, hcover⟩

/-- A file that does not change while it is read is published whole. -/
theorem publishFile_unchanged (hchunk : 64 * 2 ^ 10 ≤ rt.cfg.chunkBytes)
    (hsize : state.size = content.length) (hlimit : content.length ≤ 2 ^ 40)
    (hdigest : state.sha256 = hexEncode (rt.digest content)) :
    publishFile rt transaction lsn name operation state (unchanged rt.cfg content state)
      = ⟨(openMessages rt.cfg transaction (fileChange rt.cfg name operation state) content
            ++ [endMessage transaction (fileChange rt.cfg name operation state)]).map Call.appendOnce
            ++ [.publish lsn false], .ok true⟩ := by
  have hcover := (chunkCount_covers hchunk hsize hlimit).2
  have hcontent : (List.range (chunkCount rt.cfg state)).flatMap (window rt.cfg.chunkBytes content)
      = content := by
    rw [flatMap_window, List.take_of_length_le hcover]
  have hloop : (List.range (chunkCount rt.cfg state)).foldlM
        (publishChunk rt.cfg transaction (fileChange rt.cfg name operation state)
          (unchanged rt.cfg content state)) []
      = ⟨((List.range (chunkCount rt.cfg state)).map
            (chunkMessage rt.cfg transaction (fileChange rt.cfg name operation state) content)).map
            Call.appendOnce, .ok content⟩ := by
    rw [foldlM_publishChunk, List.nil_append, hcontent]
  have hsame : ¬ ((unchanged rt.cfg content state).stat ≠ some (state.size, state.modTimeUnixNano)
      ∨ hexEncode (rt.digest content) ≠ state.sha256) := by
    rw [not_or, not_not, not_not]
    exact ⟨rfl, hdigest.symm⟩
  simp only [publishFile, fileChange] at hloop ⊢
  rw [hloop, Plan.bind_of_ok rfl, Plan.bind_of_ok rfl, Plan.bind_of_ok rfl, if_neg hsame,
    Plan.bind_of_ok rfl, Plan.bind_of_ok rfl]
  simp [openMessages, beginMessage, endMessage, Plan.request, Plan.lift, unchanged, Pure.pure]

end Source

section Queued

/-- The queue stamps a message and leaves what it says about a file. -/
structure Carries (message stamped : Message) : Prop where
  kind : stamped.kind = message.kind
  transaction : stamped.transaction = message.transaction
  file : stamped.file = message.file

theorem carries_stamp (b : Backlog) (now : String) (message : Message) :
    Carries message (b.stamp now message) :=
  ⟨rfl, rfl, rfl⟩

theorem kinds_of_carries {messages stamped : List Message} (h : List.Forall₂ Carries messages stamped) :
    stamped.map Message.kind = messages.map Message.kind := by
  induction h with
  | nil => rfl
  | cons hcarries _ ih => rw [List.map_cons, List.map_cons, hcarries.kind, ih]

theorem safely_appendOnce {post : Backlog → Prop} {rest : List Call} (messages : List Message) {b : Backlog}
    (h : ∀ stamped, List.Forall₂ Carries messages stamped →
      Plan.Safely Grants (fun _ => True) post rest { b with staged := b.staged ++ stamped }) :
    Plan.Safely Grants (fun _ => True) post (messages.map Call.appendOnce ++ rest) b := by
  induction messages generalizing b with
  | nil =>
      have hnow := h [] .nil
      rw [List.append_nil] at hnow
      exact hnow
  | cons message messages ih =>
      refine ⟨trivial, ?_⟩
      rintro b' ⟨now, rfl⟩
      apply ih
      intro stamped hstamped
      have hnow := h (b.stamp now message :: stamped) (.cons (carries_stamp b now message) hstamped)
      rw [← List.singleton_append, ← List.append_assoc] at hnow
      exact hnow

end Queued

section Target

variable {Raw Value Hash : Type} {srv : Server.Runtime Raw Value Hash} {transaction name : String}
  {operation : FileOperation} {state : FileState} {content : List UInt8} {cfg : Settings}

theorem Carries.validateFileMessage {message stamped : Message} (h : Carries message stamped)
    (target : Server.Syncer) :
    validateFileMessage target stamped = validateFileMessage target message := by
  simp only [Server.validateFileMessage, h.kind, h.transaction, h.file]

variable {change : FileChange} {limit : Int}

theorem Carries.applyFileChunk {message stamped : Message} (h : Carries message stamped)
    (batch : FileBatch) :
    applyFileChunk limit transaction change batch stamped
      = applyFileChunk limit transaction change batch message := by
  simp only [Server.applyFileChunk, h.kind, h.transaction, h.file]

theorem foldlM_carries {messages stamped : List Message}
    (h : List.Forall₂ Carries messages stamped) (batch : FileBatch) :
    stamped.foldlM (applyFileChunk limit transaction change) batch
      = messages.foldlM (applyFileChunk limit transaction change) batch := by
  induction h generalizing batch with
  | nil => rfl
  | cons hcarries _ ih =>
      rw [List.foldlM_cons, List.foldlM_cons, hcarries.applyFileChunk]
      exact congrArg _ (funext ih)

def batchOf (width : Nat) (content : List UInt8) (count : Nat) : FileBatch where
  seenBegin := true
  expectedChunk := count
  content := content.take (count * width)

theorem applyFileChunk_chunkMessage {count : Nat}
    (hcount : count < change.chunks) (hlimit : (content.length : Int) ≤ limit) :
    applyFileChunk limit transaction change (batchOf cfg.chunkBytes content count)
        (chunkMessage cfg transaction change content count)
      = .ok (batchOf cfg.chunkBytes content (count + 1)) := by
  have hsize := length_window_add_le cfg.chunkBytes content count
  have hfits : ¬ (((window cfg.chunkBytes content count).length
      + (content.take (count * cfg.chunkBytes)).length : Nat) : Int) > limit := by
    omega
  simp only [applyFileChunk, chunkMessage, batchOf, base64Decode_encode, ne_eq, not_true_eq_false,
    or_self, if_false, ge_iff_le, Nat.not_le.mpr hcount]
  rw [take_append_window]
  exact if_neg hfits

theorem foldlM_chunkMessage {count : Nat}
    (hcount : count ≤ change.chunks) (hlimit : (content.length : Int) ≤ limit) :
    ((List.range count).map (chunkMessage cfg transaction change content)).foldlM
        (applyFileChunk limit transaction change) (batchOf cfg.chunkBytes content 0)
      = .ok (batchOf cfg.chunkBytes content count) := by
  induction count with
  | zero => rfl
  | succ count ih =>
      rw [List.range_succ, List.map_append]
      refine Except.foldlM_append_eq_ok.mpr ⟨_, ih (Nat.le_of_succ_le hcount), ?_⟩
      exact Except.foldlM_cons_eq_ok.mpr ⟨_, applyFileChunk_chunkMessage hcount hlimit, rfl⟩

theorem foldlM_openMessages (hlimit : (content.length : Int) ≤ limit) :
    (openMessages cfg transaction change content).foldlM (applyFileChunk limit transaction change) {}
      = .ok (batchOf cfg.chunkBytes content change.chunks) := by
  have hbegin : applyFileChunk limit transaction change {} (beginMessage transaction change)
      = .ok (batchOf cfg.chunkBytes content 0) := by
    simp [applyFileChunk, beginMessage, batchOf]
  rw [openMessages, List.foldlM_cons, hbegin]
  exact foldlM_chunkMessage le_rfl hlimit

structure Acceptable (srv : Server.Runtime Raw Value Hash) (transaction name : String)
    (operation : FileOperation) (content : List UInt8) : Prop where
  configured : srv.cfg.fileStorage.configured = true
  regular : Regular name
  operation : operation = .create ∨ operation = .update
  transaction : transaction ≠ ""
  limit : (content.length : Int) ≤ srv.cfg.fileStorage.maxFileBytes

structure Recorded (content : List UInt8) (state : FileState) : Prop where
  size : state.size = content.length
  digest : state.sha256 = hexEncode (sha256 content).val

/-- The messages of a file and its end pass the checks of the server, and once they are in the inbox the file
store gets the content. -/
structure Arrives (srv : Server.Runtime Raw Value Hash) (name : String) (operation : FileOperation)
    (state : FileState) (content : List UInt8) (front : List Message) (last : Message) : Prop where
  valid : ∀ message ∈ front ++ [last], validateFileMessage srv.cfg message = .ok ()
  requested : ∀ inbox, RowsDecode srv (batchRows last.generation inbox) front →
    requested srv .stream last inbox
      = if srv.cfg.allowsFileOperation operation then
          some (.put name content state.mode state.modTimeUnixNano)
        else
          none
  applied : ∀ inbox backend, RowsDecode srv (batchRows last.generation inbox) front →
    ∃ file, last.file = some file
      ∧ (applyFile srv backend last file inbox = .ok ()
        ↔ (srv.cfg.allowsFileOperation operation = true →
            backend (.put name content state.mode state.modTimeUnixNano) = true))

theorem Recorded.sha256_ne (h : Recorded content state) : state.sha256 ≠ "" := by
  intro hempty
  have hdecode := hexDecode_hexEncode (sha256 content).val
  rw [← h.digest, hempty] at hdecode
  have hnil : [] = (sha256 content).val := Option.some.inj hdecode
  exact absurd ((congrArg List.length hnil).trans (sha256 content).2) (by decide)

section Parts

variable (hfile : Acceptable srv transaction name operation content) (hstate : Recorded content state)
include hfile hstate

/-- Every message of an accepted file passes the checks of the server. -/
theorem validateFileMessage_part (hchunks : chunkCount cfg state ≠ 0) {kind : Kind} {chunk : Nat}
    {data : String} (hkind : kind ∈ [Kind.fileBegin, .fileChunk, .fileEnd])
    (hdata : kind ≠ .fileChunk → data = "") :
    validateFileMessage srv.cfg
        { kind := kind, transaction := transaction
          file := some { fileChange cfg name operation state with chunk := chunk, data := data } }
      = .ok () := by
  have hpath : ¬ (¬ srv.cfg.fileStorage.configured ∨ name = "" ∨ ¬ isLocal name
      ∨ name.toList.contains '\x00') := by
    simp only [hfile.configured, hfile.regular.isLocal, List.contains_iff_mem, hfile.regular.nul_free,
      not_true_eq_false, false_or, or_false]
    exact (FileStore.isLocal_iff.mp hfile.regular.isLocal).1
  have hoperation : ¬ (operation ≠ .create ∧ operation ≠ .update) := by
    rw [not_and_or, not_not, not_not]
    exact hfile.operation
  have hlimits : ¬ (transaction = "" ∨ state.size < 0 ∨ state.size > srv.cfg.fileStorage.maxFileBytes
      ∨ chunkCount cfg state = 0) := by
    have hlimit := hfile.limit
    simp only [hfile.transaction, hchunks, hstate.size, false_or, or_false]
    omega
  have hdigest : ¬ (hexDecode state.sha256).map List.length ≠ some 32 := by
    rw [hstate.digest, hexDecode_hexEncode, not_not]
    exact congrArg some (sha256 content).2
  have hcontent : ¬ (kind ≠ .fileChunk ∧ data ≠ "") := fun h => h.2 (hdata h.1)
  simp only [Server.validateFileMessage, fileChange, if_neg hpath, if_neg hoperation, if_neg hlimits,
    if_neg hdigest, if_neg hcontent]
  rcases List.mem_cons.mp hkind with rfl | hkind
  · rfl
  rcases List.mem_cons.mp hkind with rfl | hkind
  · rfl
  rw [List.mem_singleton.mp hkind]

theorem validateFileMessage_batch (hchunks : chunkCount cfg state ≠ 0) {message : Message}
    (hmem : message ∈ openMessages cfg transaction (fileChange cfg name operation state) content
      ++ [endMessage transaction (fileChange cfg name operation state)]) :
    validateFileMessage srv.cfg message = .ok () := by
  rw [List.mem_append, openMessages, List.mem_cons, List.mem_map, List.mem_singleton] at hmem
  rcases hmem with (rfl | ⟨chunk, -, rfl⟩) | rfl
  · exact validateFileMessage_part hfile hstate hchunks (by decide) fun _ => rfl
  · exact validateFileMessage_part hfile hstate hchunks (by decide) fun hno => absurd rfl hno
  · exact validateFileMessage_part hfile hstate hchunks (by decide) fun _ => rfl

/-- The chunks of an unchanged file give its content. -/
theorem assembleFile_openMessages (hcontent : srv.contentHash = fun bytes => (sha256 bytes).val)
    (hcover : chunkCount cfg state ≠ 0 ∧ content.length ≤ chunkCount cfg state * cfg.chunkBytes)
    {front : List Message} {last : Message} {inbox : List (InboxRow Raw)}
    (hfront : List.Forall₂ Carries
      (openMessages cfg transaction (fileChange cfg name operation state) content) front)
    (hlast : last.transaction = transaction)
    (hrows : RowsDecode srv (batchRows last.generation inbox) front) :
    assembleFile srv last (fileChange cfg name operation state) inbox = .ok content := by
  have hoperation : ¬ (operation ≠ .create ∧ operation ≠ .update) := by
    rw [not_and_or, not_not, not_not]
    exact hfile.operation
  have hlimit := hfile.limit
  have hmetadata : ¬ (state.size < 0 ∨ state.size > srv.cfg.fileStorage.maxFileBytes ∨ state.sha256 = ""
      ∨ chunkCount cfg state = 0) := by
    simp only [hstate.sha256_ne, hcover.1, hstate.size, or_false]
    omega
  have hloop : front.foldlM
      (applyFileChunk srv.cfg.fileStorage.maxFileBytes last.transaction
        (fileChange cfg name operation state)) {}
      = .ok (batchOf cfg.chunkBytes content (chunkCount cfg state)) := by
    rw [hlast, foldlM_carries hfront, foldlM_openMessages hlimit]
    rfl
  have hall : content.take (chunkCount cfg state * cfg.chunkBytes) = content :=
    List.take_of_length_le hcover.2
  have hcomplete : ¬ (¬ (batchOf cfg.chunkBytes content (chunkCount cfg state)).seenBegin = true
      ∨ chunkCount cfg state ≠ chunkCount cfg state ∨ (content.length : Int) ≠ state.size
      ∨ hexEncode (srv.contentHash content) ≠ state.sha256) := by
    rw [hcontent, ← hstate.digest, ← hstate.size]
    simp [batchOf]
  rw [assembleFile]
  refine (if_neg hoperation).trans ((if_neg hmetadata).trans ?_)
  refine Except.bind_eq_ok.mpr ⟨_, (hrows.foldlM_eq {}).trans hloop, ?_⟩
  rw [batchOf] at hcomplete ⊢
  dsimp only at hcomplete ⊢
  rw [hall]
  exact if_neg hcomplete

/-- The batch that arrives gives the file back. -/
theorem arrives_openMessages (hcontent : srv.contentHash = fun bytes => (sha256 bytes).val)
    (hcover : chunkCount cfg state ≠ 0 ∧ content.length ≤ chunkCount cfg state * cfg.chunkBytes)
    {front : List Message} {last : Message}
    (hfront : List.Forall₂ Carries
      (openMessages cfg transaction (fileChange cfg name operation state) content) front)
    (hlast : Carries (endMessage transaction (fileChange cfg name operation state)) last) :
    Arrives srv name operation state content front last where
  valid := by
    intro message hmem
    have hbatch := List.rel_append hfront (List.Forall₂.cons hlast .nil)
    obtain ⟨original, horiginal, hcarries⟩ := Capture.forall₂_mem_right hbatch hmem
    rw [hcarries.validateFileMessage, validateFileMessage_batch hfile hstate hcover.1 horiginal]
  requested := by
    intro inbox hrows
    have hassemble := assembleFile_openMessages hfile hstate hcontent hcover hfront hlast.transaction hrows
    have hkind : last.kind = .fileEnd := hlast.kind
    have hchange : last.file = some (fileChange cfg name operation state) := hlast.file
    simp only [Server.requested, hkind, hchange, hassemble, hfile.configured]
    cases hallowed : srv.cfg.allowsFileOperation operation with
    | true => simp [fileChange, hallowed]
    | false => simp [fileChange, hallowed]
  applied := by
    intro inbox backend hrows
    have hassemble := assembleFile_openMessages hfile hstate hcontent hcover hfront hlast.transaction hrows
    refine ⟨_, hlast.file, ?_⟩
    rw [applyFile, hassemble, Except.ok_bind]
    simp [fileChange]

end Parts

end Target

variable {Raw Value Hash : Type}

/-- An unchanged file is published whole and arrives whole; and whatever is in the inbox, the file store gets
only what was whole. -/
theorem file_round_trips (rt : Runtime) (srv : Server.Runtime Raw Value Hash)
    (hsource : rt.digest = fun bytes => (sha256 bytes).val)
    (htarget : srv.contentHash = fun bytes => (sha256 bytes).val) :
    (∀ (transaction lsn name : String) (operation : FileOperation) (state : FileState)
        (content : List UInt8) (b : Backlog),
      64 * 2 ^ 10 ≤ rt.cfg.chunkBytes → srv.cfg.fileStorage.maxFileBytes ≤ 2 ^ 40 →
      Recorded content state → Acceptable srv transaction name operation content → b.staged = [] →
      Plan.Triple Grants (fun _ => True) b
        (publishFile rt transaction lsn name operation state (unchanged rt.cfg content state))
        (fun complete b' => complete = true ∧ b'.staged = []
          ∧ ∃ front last, b'.groups = b.groups ++ [⟨front ++ [last], { lsn := lsn }⟩]
            ∧ (front ++ [last]).map Message.kind
              = .fileBegin :: List.replicate (chunkCount rt.cfg state) .fileChunk ++ [.fileEnd]
            ∧ Arrives srv name operation state content front last)
        (fun _ _ => False))
      ∧ ∀ phase message inbox path content mode modified,
        requested srv phase message inbox = some (.put path content mode modified) →
        ∃ file first chunks parts, message.file = some file
          ∧ WholeFile srv (batchRows message.generation inbox) file content first chunks parts := by
  constructor
  · intro transaction lsn name operation state content b hchunk hlimit hstate hfile hstaged
    have hsmall : content.length ≤ 2 ^ 40 := by
      have hsize := hfile.limit
      omega
    have hcover := chunkCount_covers hchunk hstate.size hsmall
    have hdigest : state.sha256 = hexEncode (rt.digest content) := by rw [hsource, hstate.digest]
    rw [publishFile_unchanged hchunk hstate.size hsmall hdigest, List.map_append, List.append_assoc]
    apply safely_appendOnce
    intro front hfront
    apply safely_appendOnce
    intro ends hends
    obtain ⟨last, _, hlast, hnone, rfl⟩ := List.forall₂_cons_left_iff.mp hends
    obtain rfl := List.forall₂_nil_left_iff.mp hnone
    refine ⟨trivial, ?_⟩
    rintro b' ⟨now, rfl⟩
    refine ⟨trivial, rfl, rfl, front, last, ?_, ?_,
      arrives_openMessages hfile hstate htarget hcover hfront hlast⟩
    · change b.groups ++ [⟨b.staged ++ front ++ [last], { lsn := lsn }⟩] = _
      rw [hstaged, List.nil_append]
    · rw [List.map_append, kinds_of_carries hfront, kinds_openMessages, List.map_singleton, hlast.kind]
      rfl
  · intro phase message inbox path content mode modified hrequested
    obtain ⟨file, hfile, hassemble⟩ := Server.requested_eq_put hrequested
    obtain ⟨first, chunks, parts, hwhole⟩ := Server.assembleFile_eq_ok hassemble
    exact ⟨file, first, chunks, parts, hfile, hwhole⟩

/-- A full chunk and three more bytes. -/
theorem file_round_trips_two_chunks :
    let rt : Runtime :=
      { cfg := { chunkBytes := 65536 }, sourceId := "s", fingerprint := "f"
        digest := fun bytes => (sha256 bytes).val }
    let srv : Server.Runtime Message String Message :=
      { Server.Runtime.plain { id := "s", tables := [], fileStorage := { configured := true } } with
        contentHash := fun bytes => (sha256 bytes).val }
    let content := List.replicate 65539 7
    let state : FileState := ⟨65539, 0, 420, hexEncode (sha256 content).val⟩
    let change := fileChange rt.cfg "a" .create state
    let b : Backlog := { origin := {}, phase := .stream }
    let inbox : List (InboxRow Message) :=
      [⟨"", 1, "t", beginMessage "t" change⟩, ⟨"", 3, "t", chunkMessage rt.cfg "t" change content 1⟩,
        ⟨"", 2, "t", chunkMessage rt.cfg "t" change content 0⟩]
    Recorded content state ∧ Acceptable srv "t" "a" .create content
      ∧ Plan.Triple Grants (fun _ => True) b
        (publishFile rt "t" "l" "a" .create state (unchanged rt.cfg content state))
        (fun complete b' => complete = true ∧ b'.staged = []
          ∧ ∃ front last, b'.groups = b.groups ++ [⟨front ++ [last], { lsn := "l" }⟩]
            ∧ (front ++ [last]).map Message.kind = [.fileBegin, .fileChunk, .fileChunk, .fileEnd]
            ∧ Arrives srv "a" .create state content front last)
        (fun _ _ => False)
      ∧ requested srv .stream (endMessage "t" change) inbox = some (.put "a" content 420 0)
      ∧ ∃ file first chunks parts, (endMessage "t" change).file = some file
        ∧ WholeFile srv (batchRows "" inbox) file content first chunks parts := by
  intro rt srv content state change b inbox
  have hlength : content.length = 65539 := List.length_replicate
  have hstate : Recorded content state := ⟨by rw [hlength]; rfl, rfl⟩
  have hfile : Acceptable srv "t" "a" .create content :=
    ⟨rfl, by decide, .inl rfl, by decide, by rw [hlength]; decide⟩
  clear_value content
  have hcount : chunkCount rt.cfg state = 2 := by simp [chunkCount, rt, state]
  have hrows : RowsDecode srv (batchRows "" inbox) (openMessages rt.cfg "t" change content) := by
    rw [openMessages, show change.chunks = 2 from hcount]
    exact .cons rfl (.cons rfl (.cons rfl .nil))
  have hchunk : 64 * 2 ^ 10 ≤ rt.cfg.chunkBytes := by decide
  have harrives := arrives_openMessages hfile hstate rfl (chunkCount_covers hchunk hstate.size (by omega))
    (List.forall₂_same.mpr fun _ _ => ⟨rfl, rfl, rfl⟩) ⟨rfl, rfl, rfl⟩
  have hrequested : requested srv .stream (endMessage "t" change) inbox = some (.put "a" content 420 0) :=
    harrives.requested inbox hrows
  have htheorem := file_round_trips rt srv rfl rfl
  have hpublished := htheorem.1 "t" "l" "a" .create state content b hchunk (by decide) hstate hfile rfl
  rw [hcount] at hpublished
  exact ⟨hstate, hfile, hpublished, hrequested,
    htheorem.2 .stream (endMessage "t" change) inbox "a" content 420 0 hrequested⟩

end GoSync.FileWatch
