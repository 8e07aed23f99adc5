import GoSync.Capture.Backlog
import Mathlib.Order.Fin.Basic

/-!
# What capture publishes

The groups of a sealed queue: the snapshot, then for each source transaction in order one group of
row chunks with its end, and between them the schema refreshes. `Captured` says that a backlog is of
this form. It says nothing about staged messages beyond their numbering, so it holds at every point
where an attempt can end.
-/

namespace GoSync.Capture

open Queue (Checkpoint)

def Stamped (hash : String) (body message : Message) : Prop :=
  ∃ st now, st.schemaHash = hash ∧ message = Queue.stamp st now body

def chunkMessages (template : Message) (chunks : List (List Row)) : List Message :=
  chunks.zipIdx.map fun (rows, index) => { template with chunk := index, rows := rows }

def transactionTemplate (text : String) : Message :=
  { kind := .transactionRows, transaction := text, lsn := text }

def transactionMessages (text : String) (chunks : List (List Row)) : List Message :=
  chunkMessages (transactionTemplate text) chunks
    ++ [{ kind := .transactionEnd, transaction := text, lsn := text, chunk := chunks.length }]

def snapshotHeader (rt : Runtime) (point : String) (current : List Table) : List Message :=
  { kind := .snapshotBegin, tables := rt.cfg.tables, lsn := point }
    :: current.map fun t => { kind := .schema, schema := some t.document }

def snapshotMessages (rt : Runtime) (point : String) (current : List Table)
    (chunks : List (List Row)) : List Message :=
  snapshotHeader rt point current ++ chunkMessages { kind := .snapshotRows } chunks
    ++ [{ kind := .snapshotEnd, lsn := point }]

def refreshMessages (hash : String) (current : List Table) : List Message :=
  current.map (fun t => { kind := .schema, schemaVersion := hash, schema := some t.document })
    ++ [{ kind := .schemaEnd, schemaVersion := hash }]

def ConvertedRow (rt : Runtime) (tables : List Table) (change : Change) (ordinal : Nat) (row : Row) :
    Prop :=
  ∃ table converted read, findTable tables change.schema change.table = some table
    ∧ convert change.kind (change.record 0) table = .ok converted
    ∧ embedFiles rt.cfg read { converted with ordinal := ordinal } = .ok row

def Converted (rt : Runtime) (tables : List Table) (changes : List Change) (rows : List Row) : Prop :=
  List.Forall₂ (fun entry row => ConvertedRow rt tables entry.1 entry.2 row) (changes.zipIdx 1) rows

def Embedded (sizing : Sizing) (source rows : List Row) : Prop :=
  List.Forall₂ (fun row embedded => ∃ read, embedFiles sizing.cfg read row = .ok embedded) source rows

/-- The group of one source transaction, captured under a catalog with the hash in force. -/
def TransactionGroup (rt : Runtime) (hash : String) (tx : Transaction)
    (group : PublishedGroup) : Prop :=
  ∃ tables chunks, rt.schemaHash tables = hash ∧ (∀ rows ∈ chunks, rows ≠ [])
    ∧ Converted rt tables tx.changes chunks.flatten
    ∧ group.mark = { lsn := rt.lsn.render tx.end }
    ∧ List.Forall₂ (Stamped hash) (transactionMessages (rt.lsn.render tx.end) chunks) group.values

/-- The group of a snapshot at `point` under the catalog `current` of the configured tables. -/
def SnapshotGroup (rt : Runtime) (hash point : String) (group : PublishedGroup) :
    Prop :=
  ∃ current contents chunks, rt.schemaHash current = hash ∧ current.map Table.ref = rt.cfg.tables
    ∧ (∀ table ∈ current, table.columns ≠ []) ∧ (∀ rows ∈ chunks, rows ≠ [])
    ∧ Embedded rt.toSizing (snapshotRows current contents) chunks.flatten
    ∧ group.mark = { lsn := point }
    ∧ List.Forall₂ (Stamped hash) (snapshotMessages rt point current chunks) group.values

def RefreshGroup (rt : Runtime) (hash : String) (durable : Lsn) (current : List Table)
    (group : PublishedGroup) : Prop :=
  rt.schemaHash current ≠ hash ∧ current.map Table.ref = rt.cfg.tables
    ∧ (∀ table ∈ current, table.columns ≠ [])
    ∧ group.mark = { lsn := rt.lsn.render durable, schemaHash := some (rt.schemaHash current) }
    ∧ List.Forall₂ (Stamped hash) (refreshMessages (rt.schemaHash current) current) group.values

def NextTransaction (history : List Transaction) (durable : Lsn) (tx : Transaction) : Prop :=
  ∃ earlier later, history = earlier ++ tx :: later ∧ (∀ t ∈ earlier, t.end ≤ durable)
    ∧ durable < tx.end

/-- The groups after a snapshot at `point` under `hash`, with the position and hash they lead to. -/
inductive Streamed (rt : Runtime) (history : List Transaction) (hash : String) (point : Lsn) :
    List PublishedGroup → Lsn → String → Prop where
  | start : Streamed rt history hash point [] point hash
  | transaction {groups : List PublishedGroup} {durable : Lsn} {current : String}
      {tx : Transaction} {group : PublishedGroup}
      (hgroups : Streamed rt history hash point groups durable current)
      (hnext : NextTransaction history durable tx) (hgroup : TransactionGroup rt current tx group) :
      Streamed rt history hash point (groups ++ [group]) tx.end current
  | refresh {groups : List PublishedGroup} {durable : Lsn} {current : String}
      {tables : List Table} {group : PublishedGroup}
      (hgroups : Streamed rt history hash point groups durable current)
      (hgroup : RefreshGroup rt current durable tables group) :
      Streamed rt history hash point (groups ++ [group]) durable (rt.schemaHash tables)

/-- The position a text stands for; a text that is none, from which no stream starts, counts as
zero. -/
def Runtime.position (rt : Runtime) (text : String) : Lsn :=
  (rt.lsn.parse text).getD 0

def Sealed (rt : Runtime) (history : List Transaction) (b : Backlog) : Prop :=
  ∃ first rest point, b.groups = first :: rest
    ∧ SnapshotGroup rt b.origin.schemaHash point first
    ∧ Streamed rt history b.origin.schemaHash (rt.position point) rest (rt.position b.durableLsn)
      b.hash

def Numbered (b : Backlog) : Prop :=
  ∀ index message, (b.published ++ b.staged)[index]? = some message →
    message.sourceId = b.origin.sourceId ∧ message.generation = b.origin.generation
      ∧ message.seq = index + 1
      ∧ message.id = messageId b.origin.sourceId b.origin.generation (index + 1)

/-- A backlog at any point of any attempt; `seals` says what a sealed queue holds. -/
structure Captured (seals : Backlog → Prop) (b : Backlog) : Prop where
  numbered : Numbered b
  groups : (b.phase ≠ .stream ∧ b.groups = []) ∨ (b.phase = .stream ∧ seals b.settled)

end GoSync.Capture
