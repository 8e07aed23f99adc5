import GoSync.Lib.Run
import GoSync.Queue.Traced

/-!
# Delivery over HTTP

`Sender.Run` posts the head of the queue until the receiver acknowledges it. The loop is cut where others can
act in between: after it has looked at the head, after a post, and after an `Ack` of the queue. The log has
what the sender did, latest first; no step reads it.
-/

namespace GoSync.Http

open Queue

variable {Raw : Type}

structure Ack where
  id : String
  seq : Nat
  deriving DecidableEq, Repr

inductive Reply where
  | invalidRequest
  | transportFailed
  | response (status : Nat) (body : Option (List UInt8))
  deriving DecidableEq, Repr

inductive SendError where
  | invalidRequest
  | transport
  | status (code : Nat)
  | readAck
  | ackSize
  | ackJson
  | ackMismatch
  deriving DecidableEq, Repr

def SendError.message : SendError → String
  | .invalidRequest => "invalid http request"
  | .transport => "http transport failed"
  | .status code => s!"receiver returned http {code}"
  | .readAck => "read ack failed"
  | .ackSize => "ack exceeds size limit"
  | .ackJson => "invalid ack json"
  | .ackMismatch => "ack does not match message"

def checkAck (decode : List UInt8 → Option Ack) (message : Message) (body : List UInt8) :
    Option SendError :=
  if body.length > 65536 then
    some .ackSize
  else
    match decode body with
    | none => some .ackJson
    | some decoded =>
        if decoded.id ≠ message.id ∨ decoded.seq ≠ message.seq then some .ackMismatch else none

/-- `Send`: whether the request can be retried, and the error. -/
def send (decode : List UInt8 → Option Ack) (message : Message) : Reply → Bool × Option SendError
  | .invalidRequest => (false, some .invalidRequest)
  | .transportFailed => (true, some .transport)
  | .response status body =>
      if status ≠ 200 then
        (decide (status = 408 ∨ status = 429 ∨ status ≥ 500), some (.status status))
      else
        match body with
        | none => (true, some .readAck)
        | some body => (false, checkAck decode message body)

def Matches (decode : List UInt8 → Option Ack) (id : String) (seq : Nat) (reply : Reply) : Prop :=
  ∃ body, reply = .response 200 (some body) ∧ decode body = some ⟨id, seq⟩

def Retryable : Reply → Prop
  | .invalidRequest => False
  | .transportFailed => True
  | .response status body =>
      status = 408 ∨ status = 429 ∨ status ≥ 500 ∨ (status = 200 ∧ body = none)

inductive RunError where
  | canceled
  | queue (err : Queue.Error)
  | send (err : SendError)
  deriving DecidableEq, Repr

/-- Where the loop of `Run` is: before it looks at the queue, with a message to post, or with one that the
receiver has acknowledged. -/
inductive Phase (Raw : Type) where
  | looking
  | posting (message : Message) (raw : Raw)
  | acking (message : Message)
  | stopped (err : RunError)

structure Post (Raw : Type) where
  seq : Nat
  id : String
  body : Raw
  reply : Reply

/-- A post, or a call of `Ack` and whether it went through. -/
inductive Entry (Raw : Type) where
  | posted (post : Post Raw)
  | acked (seq : Nat) (done : Bool)

structure System (Raw : Type) where
  queue : Traced Raw
  phase : Phase Raw := .looking
  log : List (Entry Raw) := []

inductive Action where
  | look
  | post (reply : Reply)
  | ack (storage : Bool) (since : String → Option Int)
  | cancel
  | restart
  | produce (op : Op)

def look (codec : Codec Raw) (sys : System Raw) : System Raw :=
  match sys.phase with
  | .looking =>
      match peek codec sys.queue.db with
      | .error .empty => sys
      | .error err => { sys with phase := .stopped (.queue err) }
      | .ok (message, raw) => { sys with phase := .posting message raw }
  | _ => sys

def post (decode : List UInt8 → Option Ack) (reply : Reply) (sys : System Raw) : System Raw :=
  match sys.phase with
  | .posting message raw =>
      let log :=
        if reply = .invalidRequest then sys.log
        else .posted { seq := message.seq, id := message.id, body := raw, reply := reply } :: sys.log
      match send decode message reply with
      | (_, none) => { sys with phase := .acking message, log := log }
      | (true, some _) => { sys with phase := .looking, log := log }
      | (false, some err) => { sys with phase := .stopped (.send err), log := log }
  | _ => sys

def ack (codec : Codec Raw) (storage : Bool) (since : String → Option Int) (sys : System Raw) :
    System Raw :=
  match sys.phase with
  | .acking message =>
      match sys.queue.exec codec (if storage then .ack since message.seq message.id else .failed) with
      | .error err =>
          { sys with phase := .stopped (.queue err), log := .acked message.seq false :: sys.log }
      | .ok queue => { queue := queue, phase := .looking, log := .acked message.seq true :: sys.log }
  | _ => sys

def produce (codec : Codec Raw) (op : Op) (sys : System Raw) : System Raw :=
  match sys.queue.exec codec op with
  | .error _ => sys
  | .ok queue => { sys with queue := queue }

def System.step (codec : Codec Raw) (decode : List UInt8 → Option Ack) (sys : System Raw) :
    Action → System Raw
  | .look => look codec sys
  | .post reply => post decode reply sys
  | .ack storage since => ack codec storage since sys
  | .cancel => { sys with phase := .stopped .canceled }
  | .restart => { sys with phase := .looking }
  | .produce op => produce codec op sys

/-- What the capture does to the queue: it acknowledges nothing, and it starts over only while nothing is
published. -/
def Produces (sys : System Raw) : Action → Prop
  | .produce (.ack ..) | .produce .resetForSnapshot => False
  | .produce (.initializeQueue _) => sys.queue.db.state.readySeq = 0
  | _ => True

section Sending

variable {decode : List UInt8 → Option Ack} {message : Message} {reply : Reply}

theorem checkAck_eq_none {body : List UInt8} (h : checkAck decode message body = none) :
    decode body = some ⟨message.id, message.seq⟩ := by
  unfold checkAck at h
  split_ifs at h
  cases hdecode : decode body with
  | none =>
      rw [hdecode] at h
      cases h
  | some ack =>
      rw [hdecode] at h
      obtain ⟨id, seq⟩ := ack
      dsimp only at h
      split_ifs at h with hdiffers
      rw [not_or, not_not, not_not] at hdiffers
      rw [hdiffers.1, hdiffers.2]

theorem matches_of_send {retry : Bool} (h : send decode message reply = (retry, none)) :
    Matches decode message.id message.seq reply := by
  cases reply with
  | invalidRequest => cases h
  | transportFailed => cases h
  | response status body =>
      simp only [send] at h
      by_cases hstatus : status = 200
      · rw [if_neg (not_not.mpr hstatus)] at h
        cases body with
        | none => cases h
        | some body => exact ⟨body, by rw [hstatus], checkAck_eq_none (Prod.mk.inj h).2⟩
      · rw [if_pos hstatus] at h
        cases h

theorem send_retry : (send decode message reply).1 = true ↔ Retryable reply := by
  cases reply with
  | invalidRequest => simp [send, Retryable]
  | transportFailed => simp [send, Retryable]
  | response status body =>
      simp only [send, Retryable]
      by_cases hstatus : status = 200
      · subst hstatus
        cases body with
        | none => simp
        | some body => simp
      · rw [if_pos hstatus]
        simp [hstatus]

end Sending

end GoSync.Http
