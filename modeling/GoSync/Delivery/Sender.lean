import GoSync.App.Controller

/-!
# The collector's side of the stream

`GRPCSender.connect` says hello and then answers the frames of the server one at a time. Each answer is a
function of the collector's queue and controller; what else it depends on is in `Surroundings`. Sending never
fails here: a stream that breaks is one whose frames do not arrive.
-/

namespace GoSync.Delivery

open Queue Rpc App

variable {Raw : Type}

structure Collector (Raw : Type) where
  controller : Controller
  queue : Traced Raw

inductive SenderError where
  | generationNotReady
  | resumeUnsupported
  | repairUnsupported
  | controller (err : ControllerError)
  | nonContiguousAck
  | emptyFrame
  | unknownGeneration
  | queue (err : Queue.Error)
  | metrics
  | repairRestart
  deriving DecidableEq, Repr

def SenderError.message : SenderError → String
  | .generationNotReady => "capture generation is not ready"
  | .resumeUnsupported => "grpc server requested reconciliation resume from an unsupported collector"
  | .repairUnsupported => "grpc server requested repair from an unsupported collector"
  | .controller err => err.message
  | .nonContiguousAck => "grpc server returned a non-contiguous acknowledgement"
  | .emptyFrame => "grpc server sent an empty frame"
  | .unknownGeneration => "grpc server requested an unknown generation"
  | .queue err => err.message
  | .metrics => "metrics error"
  | .repairRestart => "reconciliation repair requested a new snapshot"

/-- What is fixed for a sender: `Config.SourceID`, and the scanner of its controller, if it has one
attached. -/
structure Settings where
  sourceId : String
  reconcile : Option Controller.Scanner

inductive MetricsCall where
  | notDue
  | gathered (prometheusText : List UInt8)
  | failed
  deriving DecidableEq, Repr

structure Surroundings where
  controller : Controller.Surroundings := {}
  /-- Whether the transactions of the queue go through. -/
  storage : Bool := true
  since : String → Option Int := fun _ => none
  metrics : MetricsCall := .notDue

structure Sender where
  activeReconcile : String := ""
  deriving DecidableEq, Repr

structure Answer (Raw : Type) where
  collector : Collector Raw
  sender : Sender
  frames : List (CollectorFrame Raw) := []
  error : Option SenderError := none

def hello (settings : Settings) (collector : Collector Raw) : Except SenderError Hello :=
  let (generation, earliest, ready) := bounds collector.queue.db
  if generation = "" then
    .error .generationNotReady
  else
    .ok { syncerId := settings.sourceId, generation := generation, earliestSeq := earliest
          readySeq := ready, reconcileSupported := settings.reconcile.isSome }

def sendMetrics (env : Surroundings) (collector : Collector Raw) (sender : Sender)
    (frames : List (CollectorFrame Raw)) : Answer Raw :=
  match env.metrics with
  | .notDue => { collector := collector, sender := sender, frames := frames }
  | .gathered text => { collector := collector, sender := sender, frames := .metrics text :: frames }
  | .failed => { collector := collector, sender := sender, error := some .metrics }

def resultFrame (request : ReconcileRequest) :
    Except ControllerError ReconcileResult → ReconcileResult
  | .error _ =>
      { requestId := request.requestId, sourceSchema := request.sourceSchema, table := request.table
        error := "source reconciliation failed" }
  | .ok computed =>
      if computed.requestId ≠ request.requestId then
        { requestId := request.requestId, sourceSchema := request.sourceSchema, table := request.table
          error := "collector returned an invalid reconciliation result" }
      else
        computed

def answerReconcile (settings : Settings) (env : Surroundings) (collector : Collector Raw)
    (request : ReconcileRequest) : Answer Raw :=
  let sender : Sender := { activeReconcile := request.requestId }
  match settings.reconcile with
  | none =>
      { collector := collector, sender := sender
        frames := [.reconcileResult
          { requestId := request.requestId, sourceSchema := request.sourceSchema
            table := request.table, error := "collector does not support reconciliation" }] }
  | some scan =>
      let (controller, result) :=
        collector.controller.reconcile scan env.controller collector.queue.db.state request
      { collector := { collector with controller := controller }, sender := sender
        frames := [.reconcileResult (resultFrame request result)] }

def answerResume (settings : Settings) (collector : Collector Raw) (sender : Sender)
    (requestId : String) : Answer Raw :=
  if settings.reconcile = none then
    { collector := collector, sender := sender, error := some .resumeUnsupported }
  else
    match collector.controller.resume requestId with
    | (controller, .error err) =>
        { collector := { collector with controller := controller }, sender := sender
          error := some (.controller err) }
    | (controller, .ok ()) =>
        { collector := { collector with controller := controller }, sender := {}
          frames := [.resumeAccepted requestId] }

def answerRepair (codec : Codec Raw) (settings : Settings) (env : Surroundings)
    (collector : Collector Raw) (sender : Sender) (requestId : String) : Answer Raw :=
  if settings.reconcile = none then
    { collector := collector, sender := sender, error := some .repairUnsupported }
  else
    match collector.controller.repair codec env.storage collector.queue requestId with
    | (controller, .error err) =>
        { collector := { collector with controller := controller }, sender := sender
          error := some (.controller err) }
    | (controller, .ok queue) =>
        { collector := { controller := controller, queue := queue }, sender := {}
          frames := [.repairAccepted requestId], error := some .repairRestart }

def answerAck (codec : Codec Raw) (env : Surroundings) (collector : Collector Raw) (sender : Sender)
    (ack : Ack) : Answer Raw :=
  let st := collector.queue.db.state
  if ack.generation ≠ st.generation ∨ ack.seq > st.deliveredSeq + 1 then
    { collector := collector, sender := sender, error := some .nonContiguousAck }
  else if ack.seq = st.deliveredSeq + 1 then
    match collector.queue.exec codec
        (if env.storage then .ack env.since ack.seq ack.messageId else .failed) with
    | .error err => { collector := collector, sender := sender, error := some (.queue err) }
    | .ok queue => sendMetrics env { collector with queue := queue } sender []
  else
    sendMetrics env collector sender []

def answerPull (codec : Codec Raw) (env : Surroundings) (collector : Collector Raw) (sender : Sender)
    (pull : Pull) : Answer Raw :=
  let (generation, earliest, ready) := bounds collector.queue.db
  if pull.generation ≠ "" ∧ pull.generation ≠ generation then
    { collector := collector, sender := sender, error := some .unknownGeneration }
  else if pull.seq < earliest then
    { collector := collector, sender := sender, frames := [.replayUnavailable pull.seq earliest] }
  else if pull.seq > ready then
    sendMetrics env collector sender [.idle ready]
  else
    match get codec pull.seq collector.queue.db with
    | .error err => { collector := collector, sender := sender, error := some (.queue err) }
    | .ok (message, raw) =>
        { collector := collector, sender := sender
          frames := [.event { seq := message.seq, messageId := message.id, json := raw }] }

def answer (codec : Codec Raw) (settings : Settings) (env : Surroundings) (collector : Collector Raw)
    (sender : Sender) : ServerFrame → Answer Raw
  | .reconcile request => answerReconcile settings env collector request
  | .resume requestId => answerResume settings collector sender requestId
  | .repair requestId _ => answerRepair codec settings env collector sender requestId
  | .ack received => answerAck codec env collector sender received
  | .pull pull => answerPull codec env collector sender pull
  | .empty => { collector := collector, sender := sender, error := some .emptyFrame }

end GoSync.Delivery
