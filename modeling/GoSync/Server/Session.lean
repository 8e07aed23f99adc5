import GoSync.Rpc.Frames
import GoSync.Server.ExactlyOnce

/-!
# The server's side of the stream

`Service.Connect` admits a collector by its hello and then reacts to its frames one at a time. A
reconciliation round runs inside the same loop: while it waits for an answer, no other frame is accepted.
The syncer's credentials and the lease of its target are checked before anything here and change nothing. A
database that cannot be reached ends the stream; so does a stream that breaks.
-/

namespace GoSync.Server

open Rpc

variable {Raw Value Hash : Type} [DecidableEq Hash]

structure ServiceSettings where
  buckets : Nat := 1
  timeoutSeconds : Nat := 0
  autoRepair : Bool := false
  dryRun : Bool := false
  maxMessageBytes : Nat := 0
  deriving DecidableEq, Repr

inductive StreamError where
  | notHello
  | unauthorizedGeneration
  | metricsTooLarge
  | reconciliation (err : String)
  | replayUnavailable
  | unexpectedFrame
  | invalidJson
  | envelope
  | messageId
  | apply (err : StoreError)
  deriving DecidableEq, Repr

def StreamError.message : StreamError → String
  | .notHello => "first frame must be hello"
  | .unauthorizedGeneration =>
      "collector generation differs from target without an authorized repair"
  | .metricsTooLarge => "metrics snapshot too large"
  | .reconciliation _ => "reconciliation failed"
  | .replayUnavailable => "collector replay history is insufficient; a new snapshot is required"
  | .unexpectedFrame => "unexpected collector frame"
  | .invalidJson => "event JSON is invalid"
  | .envelope => "event envelope does not match requested sequence"
  | .messageId => "event message_id is not canonical"
  | .apply _ => "target apply failed"

inductive Round where
  | result (requestId : String) (table : TableRef) (rest : List TableRef) (mismatches : Nat)
  | repair (requestId : String)
  | resume (requestId : String)
  deriving DecidableEq, Repr

structure Session where
  syncerId : String
  generation : String
  next : Nat
  openBatch : Bool := false
  reconcileSupported : Bool := false
  round : Option Round := none
  deriving DecidableEq, Repr

/-- What reacting to one frame meets: the file store, the state of the service, the digests of the target
table, and whether the last repair is long enough ago. -/
structure SessionEnv where
  backend : FileEffect → Bool := fun _ => true
  retiring : Bool := false
  reconcileDue : Bool := false
  requestId : String := ""
  digests : ReconcileResult → List BucketDigest := fun _ => []
  repairAllowed : Bool := true

/-- The reaction to a frame; without a session the stream has ended, with an error or without. -/
structure Turn (Raw Value Hash : Type) where
  target : Target Raw Value Hash
  session : Option Session
  frames : List ServerFrame := []
  error : Option StreamError := none

section Repairs

def authorizeRepair (target : Target Raw Value Hash) : Target Raw Value Hash :=
  { target with
    db := { target.db with syncState := { target.db.syncState with repairAuthorized := true } } }

def consumeRepairAuthorization (target : Target Raw Value Hash) : Target Raw Value Hash × Bool :=
  if target.db.syncState.repairAuthorized then
    ({ target with
       db := { target.db with syncState := { target.db.syncState with repairAuthorized := false } } },
      true)
  else
    (target, false)

end Repairs

def Session.pull (session : Session) : ServerFrame :=
  .pull { generation := session.generation, seq := session.next }

/-- `Connect` up to its first pull. -/
def admission (target : Target Raw Value Hash) (hello : Hello) :
    Target Raw Value Hash × Except StreamError Session :=
  let session : Session :=
    { syncerId := hello.syncerId, generation := hello.generation
      next := target.db.syncState.received + 1, reconcileSupported := hello.reconcileSupported }
  if target.db.syncState.generation ≠ "" ∧ target.db.syncState.generation ≠ hello.generation then
    match consumeRepairAuthorization target with
    | (target, false) => (target, .error .unauthorizedGeneration)
    | (target, true) => (target, .ok { session with next := 1 })
  else
    (target, .ok session)

def greet (target : Target Raw Value Hash) (frame : CollectorFrame Raw) : Turn Raw Value Hash :=
  match frame with
  | .hello hello =>
      match admission target hello with
      | (target, .error err) => { target := target, session := none, error := some err }
      | (target, .ok session) =>
          { target := target, session := some session, frames := [session.pull] }
  | _ => { target := target, session := none, error := some .notHello }

section Rounds

def reconcileDigests {δ : Type} (cfg : Syncer) (build : ReconcileResult → Except String δ)
    (source : ReconcileResult) : Except String δ :=
  if source.sourceSchema = "" ∨ source.table = "" ∨ source.columns = [] then
    .error "source reconciliation schema is incomplete"
  else if source.columnTypes.length ≠ source.columns.length then
    .error "source reconciliation column types are incomplete"
  else if ¬ cfg.allows source.sourceSchema source.table then
    .error "source reconciliation table is not configured"
  else
    build source

def SessionEnv.build (env : SessionEnv) (buckets : Nat) (source : ReconcileResult) :
    Except String (List BucketDigest) :=
  if buckets = 0 then .error "reconcile bucket count must be positive" else .ok (env.digests source)

def sameDigests (source target : List BucketDigest) : Nat :=
  if source.length ≠ target.length then
    max source.length target.length
  else
    (source.zip target).countP fun (left, right) => left ≠ right

/-- What a round does after the tables it is done with: it asks for the next one or decides. A repair is
authorized before it is requested. -/
def proceedRound (settings : ServiceSettings) (env : SessionEnv) (target : Target Raw Value Hash)
    (session : Session) (requestId : String) (mismatches : Nat) : List TableRef → Turn Raw Value Hash
  | table :: rest =>
      { target := target
        session := some { session with round := some (.result requestId table rest mismatches) }
        frames := [.reconcile
          { requestId := requestId, sourceSchema := table.schema, table := table.name
            buckets := settings.buckets, timeoutSeconds := settings.timeoutSeconds }] }
  | [] =>
      if mismatches > 0 ∧ settings.autoRepair ∧ ¬ settings.dryRun ∧ env.repairAllowed then
        { target := authorizeRepair target
          session := some { session with round := some (.repair requestId) }
          frames := [.repair requestId s!"{mismatches} mismatched hash buckets"] }
      else
        { target := target
          session := some { session with round := some (.resume requestId) }
          frames := [.resume requestId] }

def roundFailed (target : Target Raw Value Hash) (err : String) : Turn Raw Value Hash :=
  { target := target, session := none, error := some (.reconciliation err) }

def reactRound (rt : Runtime Raw Value Hash) (settings : ServiceSettings) (env : SessionEnv)
    (target : Target Raw Value Hash) (session : Session) (frame : CollectorFrame Raw) :
    Round → Turn Raw Value Hash
  | .result requestId table rest mismatches =>
      match frame with
      | .reconcileResult result =>
          if result.requestId ≠ requestId ∨ result.sourceSchema ≠ table.schema
              ∨ result.table ≠ table.name then
            roundFailed target "invalid reconciliation response"
          else if result.error ≠ "" then
            roundFailed target "collector reconciliation failed"
          else
            match reconcileDigests rt.cfg (env.build settings.buckets) result with
            | .error err => roundFailed target err
            | .ok digests =>
                proceedRound settings env target session requestId
                  (mismatches + sameDigests result.digests digests) rest
      | _ => roundFailed target "invalid reconciliation response"
  | .repair requestId =>
      match frame with
      | .repairAccepted accepted =>
          if accepted = requestId then
            { target := target, session := none }
          else
            roundFailed target "invalid repair acknowledgement"
      | _ => roundFailed target "invalid repair acknowledgement"
  | .resume requestId =>
      match frame with
      | .resumeAccepted accepted =>
          if accepted = requestId then
            { target := target, session := some { session with round := none }
              frames := [session.pull] }
          else
            roundFailed target "invalid resume acknowledgement"
      | _ => roundFailed target "invalid resume acknowledgement"

end Rounds

def openBatchAfter (kind : Kind) (openBatch : Bool) : Bool :=
  match kind with
  | .snapshotBegin | .transactionRows | .fileBegin | .fileChunk => true
  | .snapshotEnd | .transactionEnd | .fileEnd => false
  | _ => openBatch

def reactEvent (rt : Runtime Raw Value Hash) (env : SessionEnv) (target : Target Raw Value Hash)
    (session : Session) (incoming : Event Raw) : Turn Raw Value Hash :=
  match rt.codec.unmarshal incoming.json with
  | none => { target := target, session := none, error := some .invalidJson }
  | some message =>
      if incoming.seq ≠ session.next ∨ message.seq ≠ incoming.seq ∨ message.id ≠ incoming.messageId
          ∨ message.sourceId ≠ session.syncerId ∨ message.generation ≠ session.generation then
        { target := target, session := none, error := some .envelope }
      else if message.id ≠ messageId session.syncerId session.generation session.next then
        { target := target, session := none, error := some .messageId }
      else
        match store rt { types := target.types, backend := env.backend } message incoming.json
            target.db with
        | .error err => { target := target, session := none, error := some (.apply err) }
        | .ok _ =>
            let target := target.deliver rt (.store env.backend message incoming.json)
            let openBatch := openBatchAfter message.kind session.openBatch
            let acked : ServerFrame :=
              .ack { generation := session.generation, seq := session.next, messageId := message.id }
            let session := { session with openBatch := openBatch, next := session.next + 1 }
            if env.retiring ∧ ¬ openBatch then
              { target := target, session := none, frames := [acked] }
            else
              { target := target, session := some session, frames := [acked, session.pull] }

def reactIdle (rt : Runtime Raw Value Hash) (settings : ServiceSettings) (env : SessionEnv)
    (target : Target Raw Value Hash) (session : Session) : Turn Raw Value Hash :=
  if env.retiring ∧ ¬ session.openBatch then
    { target := target, session := none }
  else if session.reconcileSupported ∧ ¬ session.openBatch ∧ env.reconcileDue then
    proceedRound settings env target session env.requestId 0 rt.cfg.tables
  else
    { target := target, session := some session, frames := [session.pull] }

def react (rt : Runtime Raw Value Hash) (settings : ServiceSettings) (env : SessionEnv)
    (target : Target Raw Value Hash) (session : Session) (frame : CollectorFrame Raw) :
    Turn Raw Value Hash :=
  match session.round with
  | some round => reactRound rt settings env target session frame round
  | none =>
      match frame with
      | .metrics text =>
          if text.length > settings.maxMessageBytes then
            { target := target, session := none, error := some .metricsTooLarge }
          else
            { target := target, session := some session }
      | .idle _ => reactIdle rt settings env target session
      | .replayUnavailable _ _ =>
          { target := target, session := none, error := some .replayUnavailable }
      | .event incoming => reactEvent rt env target session incoming
      | _ => { target := target, session := none, error := some .unexpectedFrame }

end GoSync.Server
