import GoSync.Lib.Paging
import GoSync.Producer.Batch
import GoSync.Producer.Process
import GoSync.SqlServerLegacy.Rows
import Mathlib.Data.List.Sort
import Mathlib.Data.String.Basic

/-!
# The legacy SQL Server collector

A poll publishes the statement with the smallest change in the outbox, then deletes its events, and a note
in the queue state keeps the two together: an attempt that finds one deletes the statement it names before
it polls. A snapshot covers every event up to its boundary, and each attempt deletes those first.

The source is given by the list of the statements that commit one after the other. Between two queue calls
of a plan other statements may commit; only the collector deletes events, and only between two plans.
-/

namespace GoSync.SqlServerLegacy

open Capture (Batch Call ReadFile Sizing)
open Producer (Process TableLoad)

structure Runtime where
  sizing : Sizing
  schemaHash : List Table → String
  print : Printing
  allowSnapshotLocks : Bool := true
  autoInstall : Bool := true

abbrev Runtime.refs (rt : Runtime) : List TableRef :=
  rt.sizing.cfg.tables

structure Inspection (refs : List TableRef) where
  systemId : String := ""
  database : String := ""
  installed : Bool := true
  tables : List Table
  covers : (tables.map Table.ref).Perm refs

section Inspecting

def wanted (refs : List TableRef) : List TableRef :=
  Paging.ordered (fun ref => ref.schema ++ "." ++ ref.name) refs

def readTable (query : TableRef → Except Error Table) (ref : TableRef) : Except Error Table := do
  let table ← query ref
  .ok { table with schema := ref.schema, name := ref.name }

def inspectTables (query : TableRef → Except Error Table) (refs : List TableRef) :
    Except Error (List Table) :=
  Producer.inspectTables (readTable query) Table.objectId
    (fun ref err => .source (s!"inspect legacy table {ref.schema}.{ref.name}: " ++ err.message))
    (.source "duplicate sqlserver legacy source object") [] (wanted refs)

theorem refs_of_inspectTables {query : TableRef → Except Error Table} {refs : List TableRef}
    {tables : List Table} (h : inspectTables query refs = .ok tables) :
    tables.map Table.ref = wanted refs := by
  refine Producer.refs_of_inspectTables ?_ h
  intro ref table htable
  obtain ⟨found, -, h⟩ := Except.bind_eq_ok.mp htable
  cases h
  rfl

end Inspecting

section Source

/-- A committed statement with the events its triggers have written. -/
structure Statement where
  id : String
  events : List OutboxEvent
  deriving DecidableEq, Repr

structure Outbox where
  committed : Nat := 0
  events : List OutboxEvent := []

def Outbox.commit (history : List Statement) (outbox : Outbox) : Outbox :=
  match history[outbox.committed]? with
  | none => outbox
  | some statement =>
      { committed := outbox.committed + 1, events := outbox.events ++ statement.events }

def byChange (events : List OutboxEvent) : List OutboxEvent :=
  events.insertionSort fun a b => a.changeId ≤ b.changeId

def Outbox.nextStatement (outbox : Outbox) : Option (String × List OutboxEvent) :=
  match (byChange outbox.events).head? with
  | none => none
  | some first =>
      some (first.statement, byChange (outbox.events.filter fun event => event.statement = first.statement))

def Outbox.deleteStatement (outbox : Outbox) (statement : String) (allowMissing : Bool) :
    Except Error Outbox :=
  if ¬ (outbox.events.any fun event => event.statement = statement) ∧ ¬ allowMissing then
    .error .nothingToDelete
  else
    .ok { outbox with events := outbox.events.filter fun event => event.statement ≠ statement }

def Outbox.nextCovered (outbox : Outbox) (boundary : ChangeId) : Option ChangeId :=
  ((byChange (outbox.events.filter fun event => event.changeId ≤ boundary)).head?).map
    OutboxEvent.changeId

def Outbox.deleteEvent (outbox : Outbox) (id : ChangeId) : Outbox :=
  { outbox with events := outbox.events.filter fun event => event.changeId ≠ id }

end Source

section Polling

variable {refs : List TableRef}

def sameSource (rt : Runtime) (expected current : Inspection refs) : Except Error Unit :=
  if current.systemId ≠ expected.systemId ∨ current.database ≠ expected.database then
    .error .sourceIdentity
  else if rt.schemaHash current.tables ≠ rt.schemaHash expected.tables then
    .error .schemaChanged
  else
    .ok ()

def transactionText (statement : String) : String :=
  "legacy-statement:" ++ statement

def template (statement lsn : String) : Message :=
  { kind := .transactionRows, transaction := transactionText statement, lsn := lsn }

def eventRows (rt : Runtime) (tables : List Table) (events : List OutboxEvent) :
    List (Except Error Row) :=
  (events.zipIdx 1).map fun (event, ordinal) =>
    (readEventValues rt.print tables event).map fun row => { row with ordinal := ordinal }

def maximum (events : List OutboxEvent) : ChangeId :=
  events.foldl (fun maximum event => max maximum event.changeId) 0

def pollStatement (rt : Runtime) (read : ReadFile) (tables : List Table) (durable : ChangeId)
    (statement : String) (events : List OutboxEvent) : Plan Call Error Unit :=
  if events = [] then
    Plan.fail .statementDisappeared
  else do
    let checkpoint := position (max durable (maximum events))
    let b ← Producer.addRows rt.sizing read .capture (eventRows rt tables events)
      { message := template statement checkpoint }
    let b ← b.flush.mapError .capture
    Plan.request (.append { kind := .transactionEnd, transaction := transactionText statement,
                            lsn := checkpoint, chunk := b.message.chunk })
    Plan.request (.publishSource checkpoint statement)

def poll (rt : Runtime) (read : ReadFile) (expected : Inspection refs)
    (current : Except Error (Inspection refs)) (outbox : Outbox) (st : Queue.State) :
    Plan Call Error (Option String) := do
  let current ← Plan.lift current
  Plan.lift (sameSource rt expected current)
  match parsePosition st.durableLsn with
  | none => Plan.fail .position
  | some durable =>
      match outbox.nextStatement with
      | none => pure none
      | some (statement, events) => do
          pollStatement rt read expected.tables durable statement events
          pure (some statement)

end Polling

section Attempts

variable {Raw : Type} {refs : List TableRef}

structure SnapshotInput where
  token : String
  contents : TableRef → List (List (Option (List UInt8)))

def initialState (rt : Runtime) (info : Inspection refs) (token : String) : Queue.State where
  sourceId := rt.sizing.cfg.sourceId
  generation := token
  fingerprint := rt.sizing.cfg.fingerprint
  systemId := info.systemId
  database := info.database
  schemaHash := rt.schemaHash info.tables
  protocolVersion := if info.tables.any fun table => table.rowIdentity = .fullRow then "v2" else ""

def snapshotLoads (rt : Runtime) (info : Inspection refs)
    (contents : TableRef → List (List (Option (List UInt8)))) : List (TableLoad Error) :=
  info.tables.zipIdx.map fun (table, index) =>
    { schema := table.document
      rows := (contents table.ref).map fun values =>
        (snapshotRow rt.print table values).mapError (.snapshotTable (index + 1))
      wrap := fun err => .snapshotTable (index + 1) (.capture err) }

def snapshot (rt : Runtime) (read : ReadFile) (info : Inspection refs) (input : SnapshotInput)
    (boundary : ChangeId) : Plan Call Error Unit :=
  if ¬ rt.allowSnapshotLocks then
    Plan.fail .snapshotLocks
  else
    Producer.snapshot rt.sizing read (initialState rt info input.token) (.ok ())
      (info.tables.map Table.ref) (snapshotLoads rt info input.contents) (position boundary)

inductive Local (refs : List TableRef) where
  | checked (info : Inspection refs)
  | discarding (info : Inspection refs) (checkpoint : String)
  | deleting (info : Inspection refs) (statement : String) (allowMissing : Bool)
  | polling (info : Inspection refs)

def checkAttempt (rt : Runtime) (info : Inspection refs) (st : Queue.State) : Except Error Unit :=
  if st.phase = .unset then
    .ok ()
  else if ¬ info.installed ∨ st.fingerprint ≠ rt.sizing.cfg.fingerprint ∨ st.systemId ≠ info.systemId
      ∨ st.database ≠ info.database then
    .error .scopeChanged
  else if st.phase = .stream ∧ st.schemaHash ≠ rt.schemaHash info.tables then
    .error .offlineSchema
  else
    .ok ()

/-- The installation of the outbox where there is none; `again` is the inspection after it. -/
def ensureInstalled (rt : Runtime) (info : Inspection refs) (again : Except Error (Inspection refs)) :
    Except Error (Inspection refs) :=
  if info.installed then
    .ok info
  else if ¬ rt.autoInstall then
    .error .notInstalled
  else do
    let info ← again
    if info.installed then .ok info else .error .installFailed

def start (rt : Runtime) (inspected again : Except Error (Inspection refs)) (st : Queue.State) :
    Except Error (Local refs) := do
  let info ← inspected
  checkAttempt rt info st
  let info ← ensureInstalled rt info again
  pure (.checked info)

def Outbox.boundary (outbox : Outbox) : ChangeId :=
  maximum outbox.events

def takeSnapshot (rt : Runtime) (read : ReadFile) (input : SnapshotInput) (boundary : ChangeId)
    (st : Queue.State) : Local refs → Option (Plan Call Error (Local refs))
  | .checked info =>
      if st.phase = .stream then none
      else some (do
        snapshot rt read info input boundary
        pure (.discarding info (position boundary)))
  | _ => none

def resume (st : Queue.State) : Local refs → Option (Plan Call Error (Local refs))
  | .checked info =>
      if st.phase = .stream then some (pure (.discarding info st.snapshotLsn)) else none
  | _ => none

def takePoll (rt : Runtime) (read : ReadFile) (current : Except Error (Inspection refs))
    (outbox : Outbox) (st : Queue.State) : Local refs → Option (Plan Call Error (Local refs))
  | .polling info =>
      some (do
        let published ← poll rt read info current outbox st
        pure (match published with
          | none => .polling info
          | some statement => .deleting info statement false))
  | _ => none

structure System (Raw : Type) (refs : List TableRef) where
  outbox : Outbox := {}
  collector : Process Raw (Local refs) Error

/-- A round of `discardSnapshotEvents`, or `finishSourceCleanup` once there is nothing left. -/
def System.discard (s : System Raw refs) (info : Inspection refs) (checkpoint : String) :
    System Raw refs :=
  match parsePosition checkpoint with
  | none => { s with collector := { s.collector with plan := none } }
  | some boundary =>
      match s.outbox.nextCovered boundary with
      | some id => { s with outbox := s.outbox.deleteEvent id }
      | none =>
          let cleanup := s.collector.queue.db.state.sourceCleanup
          let here := if cleanup = "" then .polling info else .deleting info cleanup true
          { s with collector := { s.collector with plan := some (pure here) } }

def System.delete (s : System Raw refs) (info : Inspection refs) (statement : String)
    (allowMissing : Bool) : System Raw refs :=
  match s.outbox.deleteStatement statement allowMissing with
  | .error _ => { s with collector := { s.collector with plan := none } }
  | .ok outbox =>
      { outbox := outbox
        collector := { s.collector with
          plan := some (do
            Plan.request (.clearSourceCleanup statement)
            pure (.polling info)) } }

def System.tidy (s : System Raw refs) : System Raw refs :=
  match s.collector.plan with
  | some ⟨[], .ok (.discarding info checkpoint)⟩ => s.discard info checkpoint
  | some ⟨[], .ok (.deleting info statement allowMissing)⟩ => s.delete info statement allowMissing
  | _ => s

inductive Action (refs : List TableRef) where
  | commit
  | attempt (inspected again : Except Error (Inspection refs))
  | snapshot (input : SnapshotInput) (read : ReadFile)
  | resume
  | tidy
  | poll (current : Except Error (Inspection refs)) (read : ReadFile)
  | event (event : Process.Event)

def System.act (rt : Runtime) (codec : Codec Raw) (history : List Statement) (s : System Raw refs) :
    Action refs → System Raw refs
  | .commit => { s with outbox := s.outbox.commit history }
  | .attempt inspected again =>
      { s with collector := s.collector.attempt codec (start rt inspected again) }
  | .snapshot input read =>
      { s with collector := s.collector.proceed (takeSnapshot rt read input s.outbox.boundary) }
  | .resume => { s with collector := s.collector.proceed resume }
  | .tidy => s.tidy
  | .poll current read =>
      { s with collector := s.collector.proceed (takePoll rt read current s.outbox) }
  | .event event => { s with collector := s.collector.happen codec event }

def System.run (rt : Runtime) (codec : Codec Raw) (history : List Statement) (s : System Raw refs)
    (actions : List (Action refs)) : System Raw refs :=
  actions.foldl (System.act rt codec history) s

def System.opened (refs : List TableRef) (limits : Queue.Limits) : System Raw refs where
  collector := Process.opened limits

end Attempts

end GoSync.SqlServerLegacy
