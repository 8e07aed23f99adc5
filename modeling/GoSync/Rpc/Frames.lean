/-!
# Frames of the replication stream

The messages of `proto/sync/v1/sync.proto` that the collector and the server exchange on one stream. A
frame has one of the bodies of its `oneof`, or none. `Raw` is the JSON of a message.
-/

namespace GoSync.Rpc

structure Hello where
  syncerId : String
  generation : String
  earliestSeq : Nat := 0
  readySeq : Nat := 0
  protocolVersion : String := "v2"
  reconcileSupported : Bool := false
  deriving DecidableEq, Repr

structure Event (Raw : Type) where
  seq : Nat
  messageId : String
  json : Raw
  deriving DecidableEq, Repr

structure Pull where
  generation : String
  seq : Nat
  deriving DecidableEq, Repr

structure Ack where
  generation : String
  seq : Nat
  messageId : String
  deriving DecidableEq, Repr

structure ReconcileRequest where
  requestId : String
  sourceSchema : String
  table : String
  buckets : Nat
  timeoutSeconds : Nat := 0
  deriving DecidableEq, Repr

structure BucketDigest where
  bucket : Nat
  rows : Nat
  digest : String
  deriving DecidableEq, Repr

structure ReconcileResult where
  requestId : String
  sourceSchema : String
  table : String
  columns : List String := []
  primaryKeys : List String := []
  digests : List BucketDigest := []
  error : String := ""
  columnTypes : List String := []
  deriving DecidableEq, Repr

inductive CollectorFrame (Raw : Type) where
  | hello (hello : Hello)
  | event (event : Event Raw)
  | replayUnavailable (requestedSeq earliestSeq : Nat)
  | metrics (prometheusText : List UInt8)
  | idle (readySeq : Nat)
  | reconcileResult (result : ReconcileResult)
  | repairAccepted (requestId : String)
  | resumeAccepted (requestId : String)
  | empty
  deriving DecidableEq, Repr

inductive ServerFrame where
  | pull (pull : Pull)
  | ack (ack : Ack)
  | reconcile (request : ReconcileRequest)
  | repair (requestId reason : String)
  | resume (requestId : String)
  | empty
  deriving DecidableEq, Repr

end GoSync.Rpc
