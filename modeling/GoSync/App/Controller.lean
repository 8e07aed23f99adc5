import GoSync.Queue.Traced
import GoSync.Rpc.Frames

/-!
# The capture controller

`captureController` starts and stops the capture of a collector around a reconciliation. The executions of
`run` are numbered in the order of their start; `live` are those that have not returned. Stopping only asks
an execution to return, and the wait for it may run out before it does.
-/

namespace GoSync.App

open Queue Rpc

inductive ControllerError where
  | unsupported
  | anotherActive
  | notActive
  | notPaused
  | deadline
  | queue (err : Queue.Error)
  | scan (text : String)
  deriving DecidableEq, Repr

def ControllerError.message : ControllerError → String
  | .unsupported => "source engine does not support reconciliation"
  | .anotherActive => "another reconciliation is active"
  | .notActive => "reconciliation request is no longer active"
  | .notPaused => "repair requires the matching paused reconciliation"
  | .deadline => "context deadline exceeded"
  | .queue err => err.message
  | .scan text => text

inductive Task where
  | scan
  | reset
  deriving DecidableEq, Repr

/-- The fields `cancel`, `done` and `pausedFor`, and the executions of `run`. `cancel` is the execution
that the two fields belong to; `cancelled` are the ones that were asked to return; `log` has the tasks that
were executed, each with the executions that were live then. -/
structure Controller where
  cancel : Option Nat := none
  pausedFor : String := ""
  parentAlive : Bool := true
  started : Nat := 0
  live : List Nat := []
  cancelled : List Nat := []
  log : List (Task × List Nat) := []
  deriving DecidableEq, Repr

namespace Controller

def startLocked (c : Controller) : Controller :=
  { c with cancel := some c.started, started := c.started + 1, live := c.started :: c.live }

/-- `newCaptureController`. -/
def new : Controller :=
  startLocked {}

inductive Wait where
  | returned
  | expired
  deriving DecidableEq, Repr

def stop (wait : Wait) (c : Controller) : Controller × Except ControllerError Unit :=
  match c.cancel with
  | none => (c, .ok ())
  | some execution =>
      let c := { c with cancel := none, cancelled := execution :: c.cancelled }
      match wait with
      | .expired => (c, .error .deadline)
      | .returned => ({ c with live := c.live.erase execution }, .ok ())

def resume (requestId : String) (c : Controller) : Controller × Except ControllerError Unit :=
  if c.pausedFor ≠ requestId then
    (c, .error .notActive)
  else
    let c := { c with pausedFor := "" }
    if c.parentAlive ∧ c.cancel = none then (c.startLocked, .ok ()) else (c, .ok ())

structure Surroundings where
  wait : Wait := .returned
  readable : Bool := true
  deriving DecidableEq, Repr

def drained (st : State) : Bool :=
  st.nextSeq = st.readySeq ∧ st.deliveredSeq = st.readySeq

/-- `reconcileScanner`, nil for an engine that has none. -/
abbrev Scanner := Option (ReconcileRequest → Except String ReconcileResult)

def inspect (scan : ReconcileRequest → Except String ReconcileResult) (readable : Bool) (st : State)
    (request : ReconcileRequest) (c : Controller) : Controller × Except ControllerError ReconcileResult :=
  if ¬ readable then
    (c, .error (.queue .storage))
  else if ¬ drained st then
    ((c.resume request.requestId).1, .error (.queue .notDrained))
  else
    ({ c with log := (.scan, c.live) :: c.log }, (scan request).mapError .scan)

def reconcile (scan : Scanner) (env : Surroundings) (st : State) (request : ReconcileRequest)
    (c : Controller) : Controller × Except ControllerError ReconcileResult :=
  match scan with
  | none => (c, .error .unsupported)
  | some scan =>
      if c.pausedFor ≠ "" ∧ c.pausedFor ≠ request.requestId then
        (c, .error .anotherActive)
      else
        match stop env.wait { c with pausedFor := request.requestId } with
        | (c, .error err) => (c, .error err)
        | (c, .ok ()) => inspect scan env.readable st request c

variable {Raw : Type}

def repair (codec : Codec Raw) (storage : Bool) (queue : Traced Raw) (requestId : String)
    (c : Controller) : Controller × Except ControllerError (Traced Raw) :=
  if c.pausedFor ≠ requestId ∨ c.cancel ≠ none then
    (c, .error .notPaused)
  else
    let c := { c with log := (.reset, c.live) :: c.log }
    match queue.exec codec (if storage then .resetForSnapshot else .failed) with
    | .error err => (c, .error (.queue err))
    | .ok queue =>
        let c := { c with pausedFor := "" }
        (if c.parentAlive then c.startLocked else c, .ok queue)

end Controller

end GoSync.App
