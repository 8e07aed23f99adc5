import GoSync.Encoding
import GoSync.FileWatch.Changes
import GoSync.Lib.Utf8
import GoSync.Producer.Process

/-!
# The file collector

A scan reads the whole directory, publishes one group of messages for each file that differs from the last
complete scan, and then replaces the manifest. A file that changes while it is read ends the scan early:
what is published by then stays published, and the manifest stays as it was.

The results of scans and reads come from outside, so the directory may change at any time. A scan finds names
that are any bytes; the messages and the manifest are JSON, and `json.Marshal` makes them UTF-8.
-/

namespace GoSync.FileWatch

open Capture (Call)
open Producer (Process)

variable {Raw : Type}

structure Runtime where
  cfg : Settings
  sourceId : String
  fingerprint : String
  digest : List UInt8 → List UInt8

inductive Error where
  | source (text : String)
  deriving DecidableEq, Repr

section Names

structure Name where
  bytes : List UInt8
  deriving Repr

instance : LinearOrder Name :=
  LinearOrder.lift' (fun name => name.bytes.map UInt8.toNat) fun first second hsame => by
    cases first
    cases second
    exact congrArg Name.mk (List.map_injective_iff.mpr (fun _ _ => UInt8.toNat_inj.mp) hsame)

def Name.text (name : Name) : String :=
  Utf8.decode name.bytes

def Name.ofText (text : String) : Name :=
  ⟨Utf8.encode text⟩

/-- The name after a way through JSON. -/
def Name.coerced (name : Name) : Name :=
  .ofText name.text

@[simp]
theorem Name.text_ofText (text : String) : (Name.ofText text).text = text :=
  Utf8.decode_encode text

@[simp]
theorem Name.coerced_ofText (text : String) : (Name.ofText text).coerced = .ofText text := by
  rw [coerced, text_ofText]

def marshalFiles (files : Files Name) : List (String × FileState) :=
  (paths [] files).filterMap fun name => (files.lookup name).map fun state => (name.text, state)

def unmarshalFiles (entries : List (String × FileState)) : Files Name :=
  entries.reverse.map fun entry => (.ofText entry.1, entry.2)

end Names

section Publishing

/-- What `publishFile` finds: whether the file can be opened, what `io.ReadFull` gets for each chunk, and
size and modification time at the end, if they can be read. -/
structure Reading where
  opened : Except String Unit := .ok ()
  parts : Nat → Except String (List UInt8)
  stat : Option (Int × Int)

def chunkCount (cfg : Settings) (state : FileState) : Nat :=
  let chunks := ((state.size + cfg.chunkBytes - 1).tdiv cfg.chunkBytes).toNat % 2 ^ 32
  if chunks = 0 then 1 else chunks

def fileChange (cfg : Settings) (name : String) (operation : FileOperation) (state : FileState) :
    FileChange where
  path := name
  operation := operation
  size := state.size
  modTimeUnixNano := state.modTimeUnixNano
  mode := state.mode
  sha256 := state.sha256
  chunks := chunkCount cfg state

def publishChunk (cfg : Settings) (transaction : String) (change : FileChange) (reading : Reading)
    (content : List UInt8) (chunk : Nat) : Plan Call Error (List UInt8) := do
  let part ← Plan.lift ((reading.parts chunk).mapError .source)
  let part := part.take cfg.chunkBytes
  Plan.request (.appendOnce
    { kind := .fileChunk, transaction := transaction
      file := some { change with chunk := chunk, data := base64Encode part } })
  pure (content ++ part)

/-- `publishFile`, with the name as it is marshalled. The answer is false where it returns
`errFileChanged`. -/
def publishFile (rt : Runtime) (transaction lsn name : String) (operation : FileOperation)
    (state : FileState) (reading : Reading) : Plan Call Error Bool := do
  let change := fileChange rt.cfg name operation state
  Plan.request (.appendOnce
    { kind := .fileBegin, transaction := transaction, file := some change })
  Plan.lift (reading.opened.mapError .source)
  let content ← (List.range change.chunks).foldlM
    (publishChunk rt.cfg transaction change reading) []
  if reading.stat ≠ some (state.size, state.modTimeUnixNano)
      ∨ hexEncode (rt.digest content) ≠ state.sha256 then
    pure false
  else do
    Plan.request (.appendOnce
      { kind := .fileEnd, transaction := transaction, file := some change })
    Plan.request (.publish lsn false)
    pure true

def publishChange (rt : Runtime) (transaction lsn : String) (reading : Reading) :
    Change Name → Plan Call Error Bool
  | .put name operation state => publishFile rt transaction lsn name.text operation state reading
  | .delete name => do
      Plan.request (.appendOnce
        { kind := .fileDelete, file := some { path := name.text, operation := .delete } })
      Plan.request (.publish lsn false)
      pure true

end Publishing

section Attempts

inductive Local where
  | started
  | opened
  | ready (known : Files Name)
  | publishing (known current : Files Name) (rest : List (Change Name))
  /-- `publishChanges` has returned `errFileChanged`; its call of `Recover` is still to come. -/
  | changed (known : Files Name)
  /-- `publishChanges` has gone through all changes; the manifest is still to be saved. -/
  | published (current : Files Name)

def initialState (rt : Runtime) (generation : String) : Queue.State where
  protocolVersion := "v2"
  sourceId := rt.sourceId
  generation := generation
  fingerprint := rt.fingerprint

def openQueue (rt : Runtime) (generation lsn : String) (st : Queue.State) :
    Local → Option (Plan Call Error Local)
  | .started =>
      some (
        if st.phase = .unset ∨ st.phase = .snapshot then do
          Plan.request (.initializeQueue (initialState rt generation))
          Plan.request (.appendOnce { kind := .snapshotBegin })
          Plan.request (.appendOnce { kind := .snapshotEnd })
          Plan.request (.publish lsn true)
          pure .opened
        else
          pure .opened)
  | _ => none

def loadManifest (manifest : List (String × FileState)) (_ : Queue.State) :
    Local → Option (Plan Call Error Local)
  | .opened => some (pure (.ready (unmarshalFiles manifest)))
  | _ => none

def takeScan (rt : Runtime) (current : Files Name) (_ : Queue.State) :
    Local → Option (Plan Call Error Local)
  | .ready known => some (pure (.publishing known current (changes rt.cfg known current)))
  | _ => none

def publishNext (rt : Runtime) (transaction lsn : String) (reading : Reading) (_ : Queue.State) :
    Local → Option (Plan Call Error Local)
  | .publishing known current (change :: rest) =>
      some (do
        let complete ← publishChange rt transaction lsn reading change
        pure (if complete then .publishing known current rest else .changed known))
  | .publishing _ current [] => some (pure (.published current))
  | _ => none

structure System (Raw : Type) where
  manifest : List (String × FileState) := []
  collector : Process Raw Local Error

/-- The call of `Recover` before `errFileChanged` is returned. The next scan comes also if it fails. -/
def System.recover (codec : Codec Raw) (s : System Raw) : System Raw :=
  match s.collector.plan with
  | some ⟨[], .ok (.changed known)⟩ =>
      let queue := match s.collector.queue.exec codec .recover with
        | .error _ => s.collector.queue
        | .ok queue => queue
      { s with collector := { queue := queue, plan := some (pure (.ready known)) } }
  | _ => s

def System.saveManifest (s : System Raw) : System Raw :=
  match s.collector.plan with
  | some ⟨[], .ok (.published current)⟩ =>
      { manifest := marshalFiles current
        collector := { s.collector with plan := some (pure (.ready current)) } }
  | _ => s

inductive Action where
  | attempt
  | openQueue (generation lsn : String)
  | loadManifest
  | scan (current : Files Name)
  | publish (transaction lsn : String) (reading : Reading)
  | recover
  | saveManifest
  | event (event : Process.Event)

/-- One action; an action that is not possible here changes nothing. -/
def System.act (rt : Runtime) (codec : Codec Raw) (s : System Raw) : Action → System Raw
  | .attempt => { s with collector := s.collector.attempt codec fun _ => .ok .started }
  | .openQueue generation lsn =>
      { s with collector := s.collector.proceed (FileWatch.openQueue rt generation lsn) }
  | .loadManifest => { s with collector := s.collector.proceed (FileWatch.loadManifest s.manifest) }
  | .scan current => { s with collector := s.collector.proceed (takeScan rt current) }
  | .publish transaction lsn reading =>
      { s with collector := s.collector.proceed (publishNext rt transaction lsn reading) }
  | .recover => s.recover codec
  | .saveManifest => s.saveManifest
  | .event event => { s with collector := s.collector.happen codec event }

def System.opened (limits : Queue.Limits) : System Raw where
  collector := Process.opened limits

end Attempts

end GoSync.FileWatch
