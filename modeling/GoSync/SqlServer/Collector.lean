import GoSync.Lib.Paging
import GoSync.Producer.Batch
import GoSync.Producer.Process
import GoSync.SqlServer.Rows
import Mathlib.Data.List.Sort
import Mathlib.Data.Prod.Lex
import Mathlib.Data.String.Basic

/-!
# The SQL Server collector

An attempt takes a snapshot where none has been sealed and then polls the change tables. A poll reads them
in one `SNAPSHOT` transaction and publishes the first commit after the durable position, or only a new
position if there is none.

The source is given by the list of its commits. The capture job copies them one by one into the change
tables and raises the high watermark; cleanup raises the low watermark of a table and may delete what is
below. Queries of the catalog are inputs.
-/

namespace GoSync.SqlServer

open Capture (Backlog Batch Call ReadFile Sizing transactionTemplate)
open Producer (Process TableLoad)

structure Runtime where
  sizing : Sizing
  schemaHash : List Table → String
  formatFloat : FormatFloat
  allowSnapshotLocks : Bool := true

abbrev Runtime.refs (rt : Runtime) : List TableRef :=
  rt.sizing.cfg.tables

structure Inspection (refs : List TableRef) where
  systemId : String := ""
  database : String := ""
  tables : List Table
  covers : (tables.map Table.ref).Perm refs
  fence : Table

section Inspecting

def wanted (refs : List TableRef) : List TableRef :=
  Paging.ordered (fun ref => toLex (ref.schema, ref.name)) refs

def readTable (query : TableRef → Except Error Table) (ref : TableRef) : Except Error Table := do
  let table ← query ref
  .ok { table with schema := ref.schema, name := ref.name }

def inspectTables (query : TableRef → Except Error Table) (refs : List TableRef) :
    Except Error (List Table) :=
  Producer.inspectTables (readTable query) Table.objectId
    (fun ref err => .source (s!"inspect table {ref.schema}.{ref.name}: " ++ err.message))
    (.source "duplicate sqlserver source object") [] (wanted refs)

theorem refs_of_inspectTables {query : TableRef → Except Error Table} {refs : List TableRef}
    {tables : List Table} (h : inspectTables query refs = .ok tables) :
    tables.map Table.ref = wanted refs := by
  refine Producer.refs_of_inspectTables ?_ h
  intro ref table htable
  obtain ⟨found, -, h⟩ := Except.bind_eq_ok.mp htable
  cases h
  rfl

end Inspecting

section Source

structure ChangeRow where
  sequence : Lsn
  command : Int := 0
  operation : Int
  mask : List UInt8 := []
  values : List (Option String)
  deriving DecidableEq, Repr

structure Commit where
  lsn : Lsn
  rows : TableRef → List ChangeRow

def Commit.touches (refs : List TableRef) (commit : Commit) : Bool :=
  refs.any fun ref => commit.rows ref ≠ []

def recorded (commits : List Commit) (ref : TableRef) : List (Lsn × ChangeRow) :=
  commits.flatMap fun commit => (commit.rows ref).map fun row => (commit.lsn, row)

/-- The state of CDC: how many commits have been captured, and the watermarks. -/
structure Cdc where
  captured : Nat := 0
  high : Lsn := 0
  low : TableRef → Lsn := fun _ => 0

inductive CdcStep where
  | capture
  | raise (high : Lsn)
  | cleanup (ref : TableRef) (low : Lsn)

def Cdc.step (history : List Commit) (cdc : Cdc) : CdcStep → Cdc
  | .capture => if cdc.captured < history.length then { cdc with captured := cdc.captured + 1 } else cdc
  | .raise high =>
      if cdc.high ≤ high ∧ (history.drop cdc.captured).all fun commit => high < commit.lsn then
        { cdc with high := high }
      else
        cdc
  | .cleanup ref low =>
      { cdc with low := fun other => if other = ref then max (cdc.low ref) low else cdc.low other }

end Source

section Polling

structure View (refs : List TableRef) where
  current : Except Error (Inspection refs)
  maximum : Option Lsn
  minimum : TableRef → Option Lsn
  changes : TableRef → List (Lsn × ChangeRow)
  again : Except Error (Inspection refs)

def Cdc.retains (cdc : Cdc) (ref : TableRef) (entry : Lsn × ChangeRow) : Bool :=
  cdc.low ref ≤ entry.1 ∧ entry.1 ≤ cdc.high

/-- Whether a view is one of this state: it may still have rows below the low watermark, and rows beyond
the high watermark already. -/
def View.shows {refs : List TableRef} (view : View refs) (history : List Commit) (cdc : Cdc) : Bool :=
  view.maximum.all (fun high => high = cdc.high)
    && refs.all fun ref =>
      (view.minimum ref).all (fun low => low = cdc.low ref)
        && ((view.changes ref).filter (cdc.retains ref)).isPerm
          ((recorded (history.take cdc.captured) ref).filter (cdc.retains ref))

variable {refs : List TableRef}

def sameSource (rt : Runtime) (expected current : Inspection refs) : Except Error Unit :=
  if expected.systemId ≠ current.systemId ∨ expected.database ≠ current.database then
    .error .sourceIdentity
  else if rt.schemaHash expected.tables ≠ rt.schemaHash current.tables then
    .error .schemaChanged
  else
    .ok ()

def getLsn : Option Lsn → Except Error Lsn
  | none => .error .missingLsn
  | some lsn => .ok lsn

def validateRange (fromLsn minimum : Lsn) : Except Error Unit :=
  if minimum = 0 then .error .minimumUnavailable
  else if fromLsn < minimum then .error .retentionGap
  else .ok ()

/-- The checks of `poll` up to its query for the next commit: the range it asks for, if any. -/
def pollRange (rt : Runtime) (expected : Inspection refs) (view : View refs) (last : Lsn) :
    Except Error (Option (Lsn × Lsn)) := do
  let current ← view.current
  sameSource rt expected current
  let upper ← getLsn view.maximum
  if upper < last then
    .error .highWatermark
  else if upper = last then
    .ok none
  else do
    expected.tables.forM fun table => do
      let minimum ← getLsn (view.minimum table.ref)
      validateRange (last + 1) minimum
    .ok (some (last + 1, upper))

def nextLsn (view : View refs) (tables : List Table) (fromLsn upper : Lsn) : Option Lsn :=
  (((tables.flatMap fun table => view.changes table.ref).map Prod.fst).filter fun lsn =>
    fromLsn ≤ lsn ∧ lsn ≤ upper).min?

def ChangeRow.change (table : Table) (index : Nat) (row : ChangeRow) : Change where
  table := index
  sequence := row.sequence
  command := if table.hasCommandId then row.command else 0
  operation := row.operation
  mask := row.mask
  values := row.values

/-- `ORDER BY command_id,seqval,table_number,operation`. -/
def Change.sortKey (change : Change) : Int ×ₗ Lsn ×ₗ Nat ×ₗ Int :=
  toLex (change.command, toLex (change.sequence, toLex (change.table, change.operation)))

def Change.upTo (a b : Change) : Prop :=
  a.sortKey ≤ b.sortKey

instance : DecidableRel Change.upTo := fun a b => inferInstanceAs (Decidable (a.sortKey ≤ b.sortKey))

def changesQuery (tables : List Table) (changes : TableRef → List (Lsn × ChangeRow)) (lsn : Lsn) :
    List Change :=
  (tables.zipIdx.flatMap fun (table, index) =>
    ((changes table.ref).filter fun entry => entry.1 = lsn).map fun entry =>
      entry.2.change table index).insertionSort Change.upTo

def addRow (rt : Runtime) (read : ReadFile) (row : Option Row) (b : Batch) :
    Plan Call Error Batch :=
  match row with
  | none => pure b
  | some row => (b.add rt.sizing read row).mapError .capture

def readChange (rt : Runtime) (read : ReadFile) (tables : List Table) (state : Reading × Batch)
    (change : Change) : Plan Call Error (Reading × Batch) := do
  let (r, row) ← Plan.lift (state.1.next rt.formatFloat tables change)
  let b ← addRow rt read row state.2
  pure (r, b)

def readChanges (rt : Runtime) (read : ReadFile) (tables : List Table) (changes : List Change)
    (b : Batch) : Plan Call Error (Reading × Batch) := do
  let (r, b) ← changes.foldlM (readChange rt read tables) ({}, b)
  if r.before.isSome then Plan.fail .endedWithoutAfter else pure (r, b)

def pollCommit (rt : Runtime) (read : ReadFile) (expected : Inspection refs) (view : View refs)
    (next : Lsn) : Plan Call Error Unit := do
  let (r, b) ← readChanges rt read expected.tables (changesQuery expected.tables view.changes next)
    { message := transactionTemplate next.render }
  if r.count = 0 then
    Plan.fail .disappeared
  else do
    let current ← Plan.lift view.again
    Plan.lift (sameSource rt expected current)
    let b ← b.flush.mapError .capture
    Plan.request (.append { kind := .transactionEnd, transaction := next.render, lsn := next.render,
                            chunk := b.message.chunk })
    Plan.request (.publish next.render false)

def pollFrom (rt : Runtime) (read : ReadFile) (expected : Inspection refs) (view : View refs)
    (fromLsn upper : Lsn) : Plan Call Error Bool :=
  match nextLsn view expected.tables fromLsn upper with
  | none => do
      Plan.request (.publish upper.render false)
      pure false
  | some next =>
      if next < fromLsn ∨ next > upper then
        Plan.fail .outsideRange
      else do
        pollCommit rt read expected view next
        pure true

def poll (rt : Runtime) (read : ReadFile) (expected : Inspection refs) (view : View refs)
    (st : Queue.State) : Plan Call Error Bool :=
  match parseLsn st.durableLsn with
  | none => Plan.fail .invalidLsn
  | some last =>
      match pollRange rt expected view last with
      | .error err => Plan.fail err
      | .ok none => pure false
      | .ok (some (fromLsn, upper)) => pollFrom rt read expected view fromLsn upper

end Polling

section Attempts

variable {Raw : Type}

/-- What a snapshot gets from its surroundings: a token, the catalog under its locks, the rows of each
table in text form, and the position at which CDC has recorded its fence. -/
structure SnapshotInput (refs : List TableRef) where
  token : String
  current : Except Error (Inspection refs)
  contents : TableRef → List (List (Option String))
  boundary : Lsn

def initialState {refs : List TableRef} (rt : Runtime) (info : Inspection refs) (token : String) :
    Queue.State where
  sourceId := rt.sizing.cfg.sourceId
  generation := token
  fingerprint := rt.sizing.cfg.fingerprint
  systemId := info.systemId
  database := info.database
  schemaHash := rt.schemaHash info.tables
  protocolVersion := if info.tables.any fun table => table.rowIdentity = .fullRow then "v2" else ""

def snapshotRow (rt : Runtime) (table : Table) (values : List (Option String)) : Except Error Row := do
  let columns ← toColumns rt.formatFloat table values
  let key ← rowKey table columns
  pure { schema := table.schema, table := table.name, identity := table.rowIdentity,
         operation := .read, key := key, columns := columns }

def checkSnapshot {refs : List TableRef} (rt : Runtime) (info : Inspection refs)
    (current : Except Error (Inspection refs)) : Except Error Unit := do
  let current ← current
  sameSource rt info current
  if rt.schemaHash [info.fence] ≠ rt.schemaHash [current.fence] then .error .fenceChanged else .ok ()

def snapshotLoads {refs : List TableRef} (rt : Runtime) (info : Inspection refs)
    (contents : TableRef → List (List (Option String))) : List (TableLoad Error) :=
  info.tables.zipIdx.map fun (table, index) =>
    { schema := table.document
      rows := (contents table.ref).map fun values =>
        (snapshotRow rt table values).mapError (.snapshotTable (index + 1))
      wrap := fun err => .snapshotTable (index + 1) (.capture err) }

def snapshot {refs : List TableRef} (rt : Runtime) (read : ReadFile) (info : Inspection refs)
    (input : SnapshotInput refs) : Plan Call Error Unit :=
  if ¬ rt.allowSnapshotLocks then
    Plan.fail .snapshotLocks
  else
    Producer.snapshot rt.sizing read (initialState rt info input.token)
      (checkSnapshot rt info input.current) (info.tables.map Table.ref)
      (snapshotLoads rt info input.contents) input.boundary.render

inductive Local (refs : List TableRef) where
  | checked (info : Inspection refs)
  | polling (info : Inspection refs)

def checkAttempt {refs : List TableRef} (rt : Runtime) (info : Inspection refs) (st : Queue.State) :
    Except Error Unit :=
  if st.phase = .unset then
    .ok ()
  else if st.fingerprint ≠ rt.sizing.cfg.fingerprint ∨ st.systemId ≠ info.systemId
      ∨ st.database ≠ info.database then
    .error .scopeChanged
  else if st.phase = .stream ∧ st.schemaHash ≠ rt.schemaHash info.tables then
    .error .schemaChanged
  else
    .ok ()

def start {refs : List TableRef} (rt : Runtime) (inspected : Except Error (Inspection refs))
    (st : Queue.State) : Except Error (Local refs) := do
  let info ← inspected
  checkAttempt rt info st
  pure (.checked info)

def takeSnapshot {refs : List TableRef} (rt : Runtime) (read : ReadFile) (input : SnapshotInput refs)
    (st : Queue.State) : Local refs → Option (Plan Call Error (Local refs))
  | .checked info =>
      if st.phase = .stream then none
      else some (do snapshot rt read info input; pure (.polling info))
  | .polling _ => none

def takePoll {refs : List TableRef} (rt : Runtime) (read : ReadFile) (view : View refs)
    (st : Queue.State) : Local refs → Option (Plan Call Error (Local refs))
  | .checked info =>
      if st.phase = .stream then some (do let _ ← poll rt read info view st; pure (.polling info))
      else none
  | .polling info => some (do let _ ← poll rt read info view st; pure (.polling info))

structure System (Raw : Type) (refs : List TableRef) where
  cdc : Cdc := {}
  collector : Process Raw (Local refs) Error

inductive Action (refs : List TableRef) where
  | source (step : CdcStep)
  | attempt (inspected : Except Error (Inspection refs))
  | snapshot (input : SnapshotInput refs) (read : ReadFile)
  | poll (view : View refs) (read : ReadFile)
  | event (event : Process.Event)

def System.act {refs : List TableRef} (rt : Runtime) (codec : Codec Raw) (history : List Commit)
    (s : System Raw refs) : Action refs → System Raw refs
  | .source step => { s with cdc := s.cdc.step history step }
  | .attempt inspected =>
      { s with collector := s.collector.attempt codec (start rt inspected) }
  | .snapshot input read =>
      { s with collector := s.collector.proceed (takeSnapshot rt read input) }
  | .poll view read =>
      if view.shows history s.cdc then
        { s with collector := s.collector.proceed (takePoll rt read view) }
      else
        s
  | .event event => { s with collector := s.collector.happen codec event }

def System.run {refs : List TableRef} (rt : Runtime) (codec : Codec Raw) (history : List Commit)
    (s : System Raw refs) (actions : List (Action refs)) : System Raw refs :=
  actions.foldl (System.act rt codec history) s

def System.opened (refs : List TableRef) (limits : Queue.Limits) : System Raw refs where
  collector := Process.opened limits

end Attempts

end GoSync.SqlServer
