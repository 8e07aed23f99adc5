import GoSync.Event
import GoSync.Lib.Bucket

/-!
# The collector's durable queue

`queue.Store` keeps one state record and one bucket of marshalled messages in a bbolt database.
Every mutation is one `db.Update`, so an operation either returns the new database or fails and
leaves the old one; the error values carry no database. Sequence numbers and byte counters are
unbounded here, where the source has 64-bit ones.
-/

namespace GoSync.Queue

structure State where
  protocolVersion : String := ""
  sourceId : String := ""
  generation : String := ""
  fingerprint : String := ""
  systemId : String := ""
  timeline : Int := 0
  database : String := ""
  schemaHash : String := ""
  slot : String := ""
  phase : Phase := .unset
  snapshotLsn : String := ""
  durableLsn : String := ""
  sourceCleanup : String := ""
  nextSeq : Nat := 0
  readySeq : Nat := 0
  deliveredSeq : Nat := 0
  bytes : Int := 0
  earliestSeq : Nat := 0
  archiveBytes : Int := 0
  deriving DecidableEq, Repr

structure Db (Raw : Type) where
  state : State := {}
  items : Bucket Raw := []

/-- The limits `Open` and `ConfigureReplay` keep in memory. `Config.Validate` makes the queue
capacity positive; the replay limits may be anything. -/
structure Limits where
  maxBytes : Nat
  reserve : Nat
  replayAge : Int := 7 * 24 * 3600 * 1000000000
  replayBytes : Int := 20 * 2 ^ 30
  deriving DecidableEq, Repr

inductive Error where
  | full
  | empty
  | notDrained
  | gap
  | sealedReset
  | notFinalizable
  | snapshotSealed
  | schemaArguments
  | notStreaming
  | cleanupChanged
  | notSealed
  | nonContiguousAck
  | ackMissing
  | ackIdMismatch
  | json
  | storage
  deriving DecidableEq, Repr

def Error.message : Error → String
  | .full => "queue capacity reached"
  | .empty => "queue empty"
  | .notDrained => "queue is not fully delivered"
  | .gap => "queue gap"
  | .sealedReset => "cannot reset a sealed capture"
  | .notFinalizable => "snapshot boundary cannot be finalized"
  | .snapshotSealed => "snapshot already sealed"
  | .schemaArguments => "schema checkpoint and hash are required"
  | .notStreaming => "schema can only be published while streaming"
  | .cleanupChanged => "source cleanup token changed"
  | .notSealed => "only a sealed stream can be repaired"
  | .nonContiguousAck => "non-contiguous ack"
  | .ackMissing => "ack references missing message"
  | .ackIdMismatch => "ack id mismatch"
  | .json => "invalid json"
  | .storage => "storage error"

variable {Raw : Type}

/-- The first retained sequence: `EarliestSeq`, or the next undelivered one in a database that
predates the archive. -/
def State.earliest (st : State) : Nat :=
  if st.earliestSeq = 0 then st.deliveredSeq + 1 else st.earliestSeq

def initializeQueue (st : State) (db : Db Raw) : Except Error (Db Raw) :=
  if db.state.phase ≠ .unset ∧ db.state.phase ≠ .snapshot then
    .error .sealedReset
  else
    .ok { state :=
            { st with
              phase := .snapshot, bytes := 0, nextSeq := 0, readySeq := 0, deliveredSeq := 0,
              earliestSeq := 1, archiveBytes := 0 }
          items := [] }

def snapshotPoint (lsn : String) (db : Db Raw) : Except Error (Db Raw) :=
  .ok { db with state := { db.state with snapshotLsn := lsn } }

/-- The loop of `FinalizeSnapshotLSN`, `count` messages from `seq` on. -/
def finalizeFrom (codec : Codec Raw) (limits : Limits) (lsn : String) :
    Nat → Nat → Nat → Bucket Raw → Except Error (Nat × Bucket Raw)
  | 0, _, bytes, items => .ok (bytes, items)
  | count + 1, seq, bytes, items =>
      match items.get seq with
      | none => .error .gap
      | some value =>
          match codec.unmarshal value with
          | none => .error .json
          | some message =>
              match codec.marshal { message with lsn := lsn } with
              | none => .error .json
              | some updated =>
                  if bytes + codec.size updated > limits.maxBytes then
                    .error .full
                  else
                    finalizeFrom codec limits lsn count (seq + 1) (bytes + codec.size updated)
                      (items.put seq updated)

def finalizeSnapshotLsn (codec : Codec Raw) (limits : Limits) (lsn : String) (db : Db Raw) :
    Except Error (Db Raw) :=
  if db.state.phase ≠ .snapshot ∨ db.state.readySeq ≠ 0 then
    .error .notFinalizable
  else
    match finalizeFrom codec limits lsn db.state.nextSeq 1 0 db.items with
    | .error err => .error err
    | .ok (bytes, items) =>
        .ok { state := { db.state with bytes := bytes, snapshotLsn := lsn }, items := items }

/-- The fields `Append` fills in: identity, the schema version in force, the next number and the
time of the call. -/
def stamp (st : State) (now : String) (message : Message) : Message :=
  { message with
    version := if st.protocolVersion = "" then "v1" else st.protocolVersion
    sourceId := st.sourceId
    generation := st.generation
    schemaVersion := if message.schemaVersion = "" then st.schemaHash else message.schemaVersion
    seq := st.nextSeq + 1
    id := messageId st.sourceId st.generation (st.nextSeq + 1)
    createdAt := now }

structure Surroundings where
  free : Option Nat
  now : String

def append (codec : Codec Raw) (limits : Limits) (env : Surroundings) (message : Message)
    (db : Db Raw) : Except Error (Db Raw) :=
  match env.free with
  | none => .error .storage
  | some free =>
      if free < limits.reserve + message.rows.length * 1024 then
        .error .full
      else
        match codec.marshal (stamp db.state env.now message) with
        | none => .error .json
        | some raw =>
            if db.state.bytes + codec.size raw > limits.maxBytes
                ∨ free < limits.reserve + codec.size raw * 4 then
              .error .full
            else
              .ok { state :=
                      { db.state with
                        nextSeq := db.state.nextSeq + 1
                        bytes := db.state.bytes + codec.size raw }
                    items := db.items.put (db.state.nextSeq + 1) raw }

def publishSource (lsn : String) (sealSnapshot : Bool) (cleanup : String) (db : Db Raw) :
    Except Error (Db Raw) :=
  if sealSnapshot = true ∧ db.state.phase ≠ .snapshot then
    .error .snapshotSealed
  else
    .ok { db with
          state :=
            { db.state with
              phase := if sealSnapshot then .stream else db.state.phase
              readySeq := db.state.nextSeq
              durableLsn := lsn
              sourceCleanup := cleanup } }

def publish (lsn : String) (sealSnapshot : Bool) (db : Db Raw) : Except Error (Db Raw) :=
  publishSource lsn sealSnapshot "" db

def publishSchema (lsn schemaHash : String) (db : Db Raw) : Except Error (Db Raw) :=
  if lsn = "" ∨ schemaHash = "" then
    .error .schemaArguments
  else if db.state.phase ≠ .stream then
    .error .notStreaming
  else
    .ok { db with
          state :=
            { db.state with
              readySeq := db.state.nextSeq, durableLsn := lsn, schemaHash := schemaHash } }

def clearSourceCleanup (expected : String) (db : Db Raw) : Except Error (Db Raw) :=
  if db.state.sourceCleanup ≠ expected then
    .error .cleanupChanged
  else
    .ok { db with state := { db.state with sourceCleanup := "" } }

def recover (codec : Codec Raw) (db : Db Raw) : Except Error (Db Raw) :=
  let visited := db.items.seek (db.state.readySeq + 1)
  .ok { state :=
          { db.state with
            bytes := visited.foldl (fun bytes entry => bytes - codec.size entry.2) db.state.bytes
            nextSeq := db.state.readySeq }
        items := visited.foldl (fun items entry => items.delete entry.1) db.items }

def resetForSnapshot (db : Db Raw) : Except Error (Db Raw) :=
  if db.state.phase ≠ .stream then
    .error .notSealed
  else if db.state.nextSeq ≠ db.state.readySeq ∨ db.state.deliveredSeq ≠ db.state.readySeq then
    .error .notDrained
  else
    .ok { state :=
            { db.state with
              phase := .snapshot, generation := "", schemaHash := "", snapshotLsn := "",
              durableLsn := "", sourceCleanup := "", nextSeq := 0, readySeq := 0,
              deliveredSeq := 0, bytes := 0, earliestSeq := 1, archiveBytes := 0 }
          items := [] }

def peek (codec : Codec Raw) (db : Db Raw) : Except Error (Message × Raw) :=
  if db.state.deliveredSeq ≥ db.state.readySeq then
    .error .empty
  else
    match db.items.get (db.state.deliveredSeq + 1) with
    | none => .error .gap
    | some raw =>
        match codec.unmarshal raw with
        | none => .error .json
        | some message => .ok (message, raw)

def get (codec : Codec Raw) (seq : Nat) (db : Db Raw) : Except Error (Message × Raw) :=
  if seq < db.state.earliest ∨ seq > db.state.readySeq then
    .error .empty
  else
    match db.items.get seq with
    | none => .error .gap
    | some raw =>
        match codec.unmarshal raw with
        | none => .error .json
        | some message => .ok (message, raw)

def bounds (db : Db Raw) : String × Nat × Nat :=
  (db.state.generation, db.state.earliest, db.state.readySeq)

/-- Whether an archived message is past the replay age. `since` is `time.Since` of a timestamp that
parses, at the time of the call; a header that does not decode never expires. -/
def expired (codec : Codec Raw) (limits : Limits) (since : String → Option Int) (raw : Raw) : Bool :=
  match codec.unmarshal raw with
  | none => false
  | some message =>
      match since message.createdAt with
      | none => false
      | some age => age > limits.replayAge

/-- The eviction loop of `Ack`. The loop raises `EarliestSeq` in every round and stops above
`DeliveredSeq`, so the distance between them is fuel enough. -/
def evict (codec : Codec Raw) (limits : Limits) (since : String → Option Int) :
    Nat → State → Bucket Raw → State × Bucket Raw
  | 0, st, items => (st, items)
  | fuel + 1, st, items =>
      if st.earliestSeq ≤ st.deliveredSeq then
        match items.get st.earliestSeq with
        | none =>
            evict codec limits since fuel { st with earliestSeq := st.earliestSeq + 1 } items
        | some old =>
            if expired codec limits since old = false ∧ st.archiveBytes ≤ limits.replayBytes then
              (st, items)
            else
              evict codec limits since fuel
                { st with
                  archiveBytes := st.archiveBytes - codec.size old
                  earliestSeq := st.earliestSeq + 1 }
                (items.delete st.earliestSeq)
      else
        (st, items)

def acknowledged (codec : Codec Raw) (st : State) (raw : Raw) : State :=
  { st with
    bytes := st.bytes - codec.size raw
    archiveBytes := st.archiveBytes + codec.size raw
    deliveredSeq := st.deliveredSeq + 1
    earliestSeq := if st.earliestSeq = 0 then 1 else st.earliestSeq }

def ack (codec : Codec Raw) (limits : Limits) (since : String → Option Int) (seq : Nat)
    (id : String) (db : Db Raw) : Except Error (Db Raw) :=
  if seq ≠ db.state.deliveredSeq + 1 ∨ seq > db.state.readySeq then
    .error .nonContiguousAck
  else
    match db.items.get seq with
    | none => .error .ackMissing
    | some raw =>
        match codec.unmarshal raw with
        | none => .error .json
        | some message =>
            if message.id ≠ id then
              .error .ackIdMismatch
            else
              let st := acknowledged codec db.state raw
              let (st, items) :=
                evict codec limits since (st.deliveredSeq + 1 - st.earliestSeq) st db.items
              .ok { state := st, items := items }

/-- A mutation of the queue with its arguments. `failed` is a call whose bbolt transaction fails. -/
inductive Op where
  | initializeQueue (st : State)
  | snapshotPoint (lsn : String)
  | finalizeSnapshotLsn (lsn : String)
  | append (env : Surroundings) (message : Message)
  | publish (lsn : String) (sealSnapshot : Bool)
  | publishSource (lsn : String) (sealSnapshot : Bool) (cleanup : String)
  | publishSchema (lsn schemaHash : String)
  | clearSourceCleanup (expected : String)
  | recover
  | resetForSnapshot
  | ack (since : String → Option Int) (seq : Nat) (id : String)
  | failed

def exec (codec : Codec Raw) (limits : Limits) (op : Op) (db : Db Raw) : Except Error (Db Raw) :=
  match op with
  | .initializeQueue st => initializeQueue st db
  | .snapshotPoint lsn => snapshotPoint lsn db
  | .finalizeSnapshotLsn lsn => finalizeSnapshotLsn codec limits lsn db
  | .append env message => append codec limits env message db
  | .publish lsn sealSnapshot => publish lsn sealSnapshot db
  | .publishSource lsn sealSnapshot cleanup => publishSource lsn sealSnapshot cleanup db
  | .publishSchema lsn schemaHash => publishSchema lsn schemaHash db
  | .clearSourceCleanup expected => clearSourceCleanup expected db
  | .recover => recover codec db
  | .resetForSnapshot => resetForSnapshot db
  | .ack since seq id => ack codec limits since seq id db
  | .failed => .error .storage

end GoSync.Queue
