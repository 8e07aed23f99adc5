import GoSync.Capture.Replay
import GoSync.MySql.Collector
import GoSync.Replication.Acceptance
import GoSync.Server.Publication
import GoSync.SqlServer.Collector
import GoSync.SqlServerLegacy.Collector

/-!
# The order of a snapshot

The tables of a snapshot are listed by the inspection of the source, announced in `snapshot_begin`, scanned
one after the other and numbered by the server, which deletes and inserts by these numbers. PostgreSQL and
MySQL keep the configured order on the whole way; both SQL Server packages sort the tables first.
-/

namespace GoSync

namespace Engine

def order (refs : List TableRef) : Engine → List TableRef
  | .postgres | .mysql => refs
  | .sqlserver => SqlServer.wanted refs
  | .sqlserverLegacy => SqlServerLegacy.wanted refs
  | .files => []

def Keeps (refs : List TableRef) : Engine → Prop
  | .postgres | .mysql => True
  | .sqlserver => refs.Pairwise fun first second =>
      toLex (first.schema, first.name) ≤ toLex (second.schema, second.name)
  | .sqlserverLegacy => refs.Pairwise fun first second =>
      first.schema ++ "." ++ first.name ≤ second.schema ++ "." ++ second.name
  | .files => refs = []

theorem order_eq_iff (engine : Engine) (refs : List TableRef) :
    engine.order refs = refs ↔ engine.Keeps refs := by
  cases engine with
  | postgres | mysql => exact iff_of_true rfl trivial
  | sqlserver | sqlserverLegacy => exact Paging.ordered_eq_self_iff
  | files => exact eq_comm

end Engine

namespace Replication

open Capture (Backlog embedFiles forall₂_mem_right ReadFile Sizing Stamped)
open Producer (TableLoad)
open Server (RowsOf)

section Published

def InOrder (order : List TableRef) (messages : List Message) : Prop :=
  ∃ opening middle last parts, messages = opening :: middle ++ [last]
    ∧ opening.kind = .snapshotBegin ∧ opening.tables = order
    ∧ (∀ message ∈ middle, message.kind = .schema ∨ message.kind = .snapshotRows)
    ∧ (middle.filter fun message => message.kind = .snapshotRows).flatMap Message.rows = parts.flatten
    ∧ RowsOf order parts

structure Fresh (b : Backlog) : Prop where
  phase : b.phase ≠ .stream
  groups : b.groups = []
  staged : b.staged = []

/-- The group that a completed snapshot of each engine publishes. -/
inductive Published (refs : List TableRef) : Engine → List Message → Prop where
  | postgres {rt : Capture.Runtime} {read : ReadFile} {info : Capture.Inspection}
      {input : Capture.SnapshotInput} {b b' : Backlog} {group : Capture.PublishedGroup}
      (hrefs : rt.cfg.tables = refs) (hfresh : Fresh b)
      (hresult : (Capture.snapshot rt read info input).result = .ok ())
      (hrun : Plan.Granted Capture.Grants (Capture.snapshot rt read info input).requests b b')
      (hgroup : b'.groups.head? = some group) : Published refs .postgres group.values
  | sqlServer {rt : SqlServer.Runtime} {query : TableRef → Except SqlServer.Error SqlServer.Table}
      {read : ReadFile} {info : SqlServer.Inspection refs} {input : SqlServer.SnapshotInput refs}
      {b b' : Backlog} {group : Capture.PublishedGroup}
      (hinfo : SqlServer.inspectTables query refs = .ok info.tables) (hfresh : Fresh b)
      (hresult : (SqlServer.snapshot rt read info input).result = .ok ())
      (hrun : Plan.Granted Capture.Grants (SqlServer.snapshot rt read info input).requests b b')
      (hgroup : b'.groups.head? = some group) : Published refs .sqlserver group.values
  | sqlServerLegacy {rt : SqlServerLegacy.Runtime}
      {query : TableRef → Except SqlServerLegacy.Error SqlServerLegacy.Table} {read : ReadFile}
      {info : SqlServerLegacy.Inspection refs} {input : SqlServerLegacy.SnapshotInput}
      {boundary : SqlServerLegacy.ChangeId} {b b' : Backlog} {group : Capture.PublishedGroup}
      (hinfo : SqlServerLegacy.inspectTables query refs = .ok info.tables)
      (hfresh : Fresh b)
      (hresult : (SqlServerLegacy.snapshot rt read info input boundary).result = .ok ())
      (hrun : Plan.Granted Capture.Grants
        (SqlServerLegacy.snapshot rt read info input boundary).requests b b')
      (hgroup : b'.groups.head? = some group) : Published refs .sqlserverLegacy group.values
  | mysql {rt : MySql.Runtime} {read : ReadFile} {info : MySql.Inspection refs}
      {input : MySql.SnapshotInput refs} {b b' : Backlog} {group : Capture.PublishedGroup}
      (hfresh : Fresh b) (hresult : (MySql.snapshot rt read info input).result = .ok ())
      (hrun : Plan.Granted Capture.Grants (MySql.snapshot rt read info input).requests b b')
      (hgroup : b'.groups.head? = some group) : Published refs .mysql group.values

variable {refs order : List TableRef}

theorem flatMap_filter_rows {middle : List Message}
    (h : ∀ message ∈ middle, message.kind = .snapshotRows ∨ message.rows = []) :
    (middle.filter fun message => message.kind = .snapshotRows).flatMap Message.rows
      = middle.flatMap Message.rows := by
  induction middle with
  | nil => rfl
  | cons message rest ih =>
      rw [List.forall_mem_cons] at h
      rw [List.flatMap_cons, ← ih h.2, List.filter_cons]
      split_ifs with hkind
      · rw [List.flatMap_cons]
      · have hempty := h.1.resolve_left fun hsame => hkind (decide_eq_true hsame)
        rw [hempty, List.nil_append]

theorem inOrder_of_stamped {hash : String} {opening last : Message} {bodies messages : List Message}
    {parts : List (List Row)}
    (h : List.Forall₂ (Stamped hash) (opening :: bodies ++ [last]) messages)
    (hopening : opening.kind = .snapshotBegin)
    (hbodies : ∀ body ∈ bodies, body.kind = .schema ∧ body.rows = [] ∨ body.kind = .snapshotRows)
    (hrows : bodies.flatMap Message.rows = parts.flatten) (hparts : RowsOf opening.tables parts) :
    InOrder opening.tables messages := by
  obtain ⟨front, final, rfl, hfront, -⟩ := forall₂_snoc_left h
  obtain ⟨first, middle, hfirst, hmiddle, rfl⟩ := List.forall₂_cons_left_iff.mp hfront
  obtain ⟨hkind, -, htables, -⟩ := stamped_same hfirst
  have hshape (message : Message) (hmem : message ∈ middle) :
      message.kind = .schema ∧ message.rows = [] ∨ message.kind = .snapshotRows := by
    obtain ⟨body, hbody, hstamped⟩ := forall₂_mem_right hmiddle hmem
    obtain ⟨hkind, -, -, -, hrows, -⟩ := stamped_same hstamped
    rw [hkind, hrows]
    exact hbodies body hbody
  refine ⟨first, middle, final, parts, rfl, hkind.trans hopening, htables, ?_, ?_, hparts⟩
  · exact fun message hmem => (hshape message hmem).imp And.left id
  · rw [flatMap_filter_rows fun message hmem => (hshape message hmem).symm.imp id And.right,
      Capture.rows_stamped hmiddle, hrows]

theorem embedFiles_table {cfg : Capture.Config} {read : ReadFile} {row embedded : Row} {ref : TableRef}
    (h : embedFiles cfg read row = .ok embedded) (hrow : row.schema = ref.schema ∧ row.table = ref.name) :
    embedded.schema = ref.schema ∧ embedded.table = ref.name := by
  rw [Capture.embedFiles_frame h]
  exact hrow

section Loads

variable {ε : Type} {sizing : Sizing} {read : ReadFile} {hash lsn : String} {loads : List (TableLoad ε)}
  {group : Capture.PublishedGroup}

def LoadOf (ref : TableRef) (load : TableLoad ε) : Prop :=
  ∀ row, .ok row ∈ load.rows → row.schema = ref.schema ∧ row.table = ref.name

theorem rowsOf_loaded {loaded : List (SchemaTable × List (List Row))}
    (hloads : List.Forall₂ LoadOf order loads) (h : List.Forall₂ (Producer.Loaded sizing) loads loaded) :
    RowsOf order (loaded.map fun table => table.2.flatten) := by
  induction hloads generalizing loaded with
  | nil =>
      cases h
      exact .nil
  | cons hload _ ih =>
      obtain ⟨table, rest, hloaded, hrest, rfl⟩ := List.forall₂_cons_left_iff.mp h
      refine .cons ?_ (ih hrest)
      intro row hrow
      obtain ⟨_, hread, original, file, rfl, hembed⟩ := forall₂_mem_right hloaded.2.2 hrow
      exact embedFiles_table hembed (hload original hread)

theorem inOrder_of_snapshotGroup (hloads : List.Forall₂ LoadOf order loads)
    (h : Producer.SnapshotGroup sizing hash lsn order loads group) : InOrder order group.values := by
  obtain ⟨loaded, hloaded, -, hstamped⟩ := h
  rw [Producer.snapshotBodies, List.map_append, List.map_cons] at hstamped
  refine inOrder_of_stamped hstamped rfl ?_ ?_ (rowsOf_loaded hloads hloaded)
  · intro body hbody
    obtain ⟨message, hmessage, rfl⟩ := List.mem_map.mp hbody
    obtain ⟨table, -, hmessage⟩ := List.mem_flatMap.mp hmessage
    rcases List.mem_cons.mp hmessage with rfl | hmessage
    · exact .inl ⟨rfl, rfl⟩
    · obtain ⟨entry, -, rfl⟩ := List.mem_map.mp hmessage
      exact .inr rfl
  · rw [List.flatMap_map, List.flatten_eq_flatMap, List.flatMap_map, List.flatMap_assoc]
    apply List.flatMap_congr
    intro table _
    exact Capture.rows_chunkMessages { kind := .snapshotRows } table.2

def SealedInOrder (order : List TableRef) (b : Backlog) : Prop :=
  ∃ sealed, b.groups = [sealed] ∧ InOrder order sealed.values

/-- What a snapshot that succeeds has published. -/
theorem inOrder_of_snapshot {st : Queue.State} {check : Except ε Unit} {b b' : Backlog}
    (hloads : List.Forall₂ LoadOf order loads) (hfresh : Fresh b)
    (hresult : (Producer.snapshot sizing read st check order loads lsn).result = .ok ())
    (hrun : Plan.Granted Capture.Grants
      (Producer.snapshot sizing read st check order loads lsn).requests b b')
    (hgroup : b'.groups.head? = some group) : InOrder order group.values := by
  have hb : Capture.Captured (SealedInOrder order) b :=
    .initial b hfresh.phase hfresh.groups hfresh.staged
  have hkeeps : Capture.Keeps (SealedInOrder order) b
      (Producer.snapshot sizing read st check order loads lsn) (fun _ => Producer.Snapped st lsn)
      fun _ _ => True :=
    Producer.keeps_snapshot hb
      (fun sealed hsealed => ⟨sealed, rfl, inOrder_of_snapshotGroup hloads hsealed⟩) fun _ _ => trivial
  obtain ⟨hcaptured, hsnapped⟩ := hkeeps.completed hresult hrun
  obtain ⟨sealed, hgroups, hinOrder⟩ := hcaptured.sealed hsnapped.phase
  have hgroups : b'.groups = [sealed] := hgroups
  rw [hgroups] at hgroup
  cases hgroup
  exact hinOrder

theorem loadOf_zipIdx {Table : Type} {ref : Table → TableRef} {load : Table × Nat → TableLoad ε}
    (h : ∀ entry, LoadOf (ref entry.1) (load entry)) (tables : List Table) :
    List.Forall₂ LoadOf (tables.map ref) (tables.zipIdx.map load) := by
  have hrefs : tables.map ref = tables.zipIdx.map fun entry => ref entry.1 := by
    conv_lhs => rw [← List.zipIdx_map_fst 0 tables, List.map_map]
    rfl
  rw [hrefs, List.forall₂_map_left_iff, List.forall₂_map_right_iff, List.forall₂_same]
  exact fun entry _ => h entry

end Loads

theorem sqlServer_loads {rt : SqlServer.Runtime} (info : SqlServer.Inspection refs)
    (contents : TableRef → List (List (Option String))) :
    List.Forall₂ LoadOf (info.tables.map SqlServer.Table.ref) (SqlServer.snapshotLoads rt info contents) := by
  apply loadOf_zipIdx
  intro entry row hrow
  obtain ⟨values, -, hvalues⟩ := List.mem_map.mp hrow
  obtain ⟨columns, -, h⟩ := Except.bind_eq_ok.mp (Except.mapError_eq_ok.mp hvalues)
  obtain ⟨key, -, h⟩ := Except.bind_eq_ok.mp h
  cases h
  exact ⟨rfl, rfl⟩

theorem sqlServerLegacy_loads {rt : SqlServerLegacy.Runtime} (info : SqlServerLegacy.Inspection refs)
    (contents : TableRef → List (List (Option (List UInt8)))) :
    List.Forall₂ LoadOf (info.tables.map SqlServerLegacy.Table.ref)
      (SqlServerLegacy.snapshotLoads rt info contents) := by
  apply loadOf_zipIdx
  intro entry row hrow
  obtain ⟨values, -, hvalues⟩ := List.mem_map.mp hrow
  obtain ⟨columns, -, h⟩ := Except.bind_eq_ok.mp (Except.mapError_eq_ok.mp hvalues)
  obtain ⟨key, -, h⟩ := Except.bind_eq_ok.mp h
  cases h
  exact ⟨rfl, rfl⟩

theorem mysql_loads {rt : MySql.Runtime} (contents : TableRef → List (List (Option String)))
    (total : Nat) (tables : List MySql.Table) :
    List.Forall₂ LoadOf (tables.map MySql.Table.ref) (MySql.snapshotLoads rt contents total tables) := by
  induction tables generalizing total with
  | nil => exact .nil
  | cons table tables ih =>
      refine .cons ?_ (ih _)
      intro row hrow
      obtain ⟨entry, -, hentry⟩ := List.mem_map.mp hrow
      have hrow := Except.mapError_eq_ok.mp hentry
      unfold MySql.makeRow at hrow
      split_ifs at hrow
      obtain ⟨old, -, hrow⟩ := Except.bind_eq_ok.mp hrow
      obtain ⟨current, -, hrow⟩ := Except.bind_eq_ok.mp hrow
      cases hrow
      exact ⟨rfl, rfl⟩

theorem forall₂_flatMap_left {α β γ : Type} {r : β → γ → Prop} {f : α → List β} {items : List α}
    {whole : List γ} (h : List.Forall₂ r (items.flatMap f) whole) :
    ∃ parts, whole = parts.flatten ∧ List.Forall₂ (fun item part => List.Forall₂ r (f item) part) items parts := by
  induction items generalizing whole with
  | nil =>
      cases h
      exact ⟨[], rfl, .nil⟩
  | cons item items ih =>
      rw [List.flatMap_cons] at h
      obtain ⟨first, second, rfl, hfirst, hsecond⟩ := forall₂_append_left h
      obtain ⟨parts, rfl, hparts⟩ := ih hsecond
      exact ⟨first :: parts, rfl, .cons hfirst hparts⟩

theorem postgres_inOrder {rt : Capture.Runtime} {hash point : String} {group : Capture.PublishedGroup}
    (h : Capture.SnapshotGroup rt hash point group) : InOrder rt.cfg.tables group.values := by
  obtain ⟨current, contents, chunks, -, hrefs, -, -, hembedded, -, hstamped⟩ := h
  obtain ⟨parts, hflatten, hparts⟩ := forall₂_flatMap_left hembedded
  have hrowsOf : RowsOf rt.cfg.tables parts := by
    rw [← hrefs, RowsOf, List.forall₂_map_left_iff]
    refine hparts.imp ?_
    intro table part hpart row hrow
    obtain ⟨original, horiginal, read, hembed⟩ := forall₂_mem_right hpart hrow
    obtain ⟨entry, -, rfl⟩ := List.mem_map.mp horiginal
    exact embedFiles_table hembed ⟨rfl, rfl⟩
  rw [Capture.snapshotMessages, Capture.snapshotHeader, List.cons_append] at hstamped
  refine inOrder_of_stamped hstamped rfl ?_ ?_ hrowsOf
  · intro body hbody
    rcases List.mem_append.mp hbody with hbody | hbody
    · obtain ⟨table, -, rfl⟩ := List.mem_map.mp hbody
      exact .inl ⟨rfl, rfl⟩
    · obtain ⟨entry, -, rfl⟩ := List.mem_map.mp hbody
      exact .inr rfl
  · rw [List.flatMap_append, Capture.rows_chunkMessages, List.flatMap_map, hflatten]
    simp

/-- Every engine publishes the rows table by table, in its order. -/
theorem Published.inOrder {engine : Engine} {messages : List Message}
    (h : Published refs engine messages) : InOrder (engine.order refs) messages := by
  cases h with
  | @postgres rt read info input b b' group hrefs hfresh hresult hrun hgroup =>
      have hb : Capture.Captured (Capture.Sealed rt []) b := .initial b hfresh.phase hfresh.groups hfresh.staged
      obtain ⟨hcaptured, hsnapped⟩ := (Capture.keeps_snapshot hb).completed hresult hrun
      obtain ⟨first, rest, point, hgroups, hfirst, -⟩ : Capture.Sealed rt [] b' :=
        hcaptured.sealed hsnapped.phase
      rw [hgroups] at hgroup
      cases hgroup
      rw [Engine.order, ← hrefs]
      exact postgres_inOrder hfirst
  | @sqlServer rt query read info input b b' group hinfo hfresh hresult hrun hgroup =>
      unfold SqlServer.snapshot at hresult hrun
      split_ifs at hresult hrun
      · have horder := inOrder_of_snapshot (sqlServer_loads info _) hfresh hresult hrun hgroup
        rwa [SqlServer.refs_of_inspectTables hinfo] at horder
      · cases hresult
  | @sqlServerLegacy rt query read info input boundary b b' group hinfo hfresh hresult hrun hgroup =>
      unfold SqlServerLegacy.snapshot at hresult hrun
      split_ifs at hresult hrun
      · have horder := inOrder_of_snapshot (sqlServerLegacy_loads info _) hfresh hresult hrun hgroup
        rwa [SqlServerLegacy.refs_of_inspectTables hinfo] at horder
      · cases hresult
  | @mysql rt read info input b b' group hfresh hresult hrun hgroup =>
      unfold MySql.snapshot at hresult hrun
      split_ifs at hresult hrun
      · cases hcurrent : input.current with
        | error err =>
            rw [hcurrent] at hresult
            cases hresult
        | ok current =>
            rw [hcurrent, Plan.bind_of_ok rfl] at hresult hrun
            split_ifs at hresult hrun
            · cases hresult
            · have horder := inOrder_of_snapshot (mysql_loads _ 0 current.tables) hfresh hresult hrun hgroup
              rwa [current.covers] at horder
      · cases hresult

end Published

section Publication

variable {Raw Value Hash : Type} [DecidableEq Hash] {refs order : List TableRef}

def FollowsOrder (refs : List TableRef) (target : Server.Target Raw Value Hash) : Prop :=
  let steps := Server.publicationSteps target.db.syncState.generation target.db
  Server.PublicationStep.deletes steps = refs.reverse
    ∧ ∃ parts, RowsOf refs parts ∧ Server.PublicationStep.inserts steps = parts.flatten

/-- The end of a snapshot that leaves foreign keys intact, with the parents first in this order, leaves
them intact after every statement, and is not refused because of them. -/
def KeepsReferences (rt : Server.Runtime Raw Value Hash) (refs : List TableRef)
    (target : Server.Target Raw Value Hash) : Prop :=
  let generation := target.db.syncState.generation
  let steps := Server.publicationSteps generation target.db
  let execute (pg : Server.Postgres Value) :=
    Server.PublicationStep.execute pg rt.cfg (Server.columnTypes target.types target.db.tables)
  ∀ (references : List (Server.Reference Value)) (last : Message) (activated : Server.Db Raw Value Hash)
    (after : Server.Tables Value), Server.ParentsFirst references refs →
    Server.activateSnapshot rt last target.db = .ok activated →
    (∀ reference ∈ references, reference.Holds activated.tables) →
    steps.foldlM (execute rt.pg.unconstrained) activated.tables = .ok after →
    (∀ reference ∈ references, reference.Holds after) →
    (∀ front back state, steps = front ++ back →
      front.foldlM (execute rt.pg.unconstrained) activated.tables = .ok state →
      ∀ reference ∈ references, reference.Holds state)
    ∧ ((∀ tables, (∀ reference ∈ references, reference.Holds tables) → rt.pg.admits tables = true) →
      Server.publishSnapshot rt target.types target.db.tables generation activated
        = .ok { activated with tables := after, snapshotRows := [], snapshotScope := [] })

theorem InOrder.loading {rt : Server.Runtime Raw Value Hash} {start : Server.Target Raw Value Hash}
    {deliveries : List (Server.Delivery Raw)} {messages : List Message} (h : InOrder order messages)
    (hsound : start.Sound rt) (hdecoded : ∀ delivery ∈ deliveries, delivery.Decoded rt)
    (haccepted : Server.acceptedOf rt start deliveries = messages.dropLast) :
    ∃ generation chunks tables parts,
      Server.Loading rt generation order chunks tables (deliveries.foldl (Server.Target.deliver rt) start)
        ∧ chunks.flatMap Message.rows = parts.flatten ∧ RowsOf order parts := by
  obtain ⟨opening, middle, last, parts, rfl, hopening, rfl, hmiddle, hrows, hparts⟩ := h
  rw [List.dropLast_concat] at haccepted
  exact ⟨_, _, _, parts, Server.loading_of_acceptedOf hsound hdecoded haccepted hopening hmiddle, hrows,
    hparts⟩

/-- **The order of a snapshot publication.** The end of a snapshot follows the configured order, and keeps
the foreign keys that go with it, exactly if the engine keeps this order. -/
theorem snapshot_order_iff {engine : Engine} {messages : List Message}
    (hpublished : Published refs engine messages) (rt : Server.Runtime Raw Value Hash)
    (start : Server.Target Raw Value Hash) (hsound : start.Sound rt)
    (deliveries : List (Server.Delivery Raw)) (hdecoded : ∀ delivery ∈ deliveries, delivery.Decoded rt)
    (haccepted : Server.acceptedOf rt start deliveries = messages.dropLast) :
    (FollowsOrder refs (deliveries.foldl (Server.Target.deliver rt) start)
      ∧ KeepsReferences rt refs (deliveries.foldl (Server.Target.deliver rt) start))
      ↔ engine.Keeps refs := by
  obtain ⟨generation, chunks, tables, parts, hloading, hrows, hparts⟩ :=
    hpublished.inOrder.loading hsound hdecoded haccepted
  generalize deliveries.foldl (Server.Target.deliver rt) start = target at hloading ⊢
  obtain rfl := hloading.current
  obtain rfl := hloading.tables
  have hsteps := hloading.publicationSteps_eq
  rw [hrows] at hsteps
  rw [← Engine.order_eq_iff]
  constructor
  · rintro ⟨⟨hdeletes, -⟩, -⟩
    rw [hsteps, Server.deletes_stepsOf] at hdeletes
    exact List.reverse_injective hdeletes
  · intro horder
    rw [horder] at hsteps hparts
    refine ⟨?_, ?_⟩
    · rw [FollowsOrder, hsteps]
      exact ⟨Server.deletes_stepsOf refs _, parts, hparts, Server.inserts_stepsOf refs _⟩
    · rw [KeepsReferences, hsteps]
      intro references last activated after hparents hactivated hbefore hrun hafter
      have hpublish := hloading.publishSnapshot_eq_steps hactivated
      rw [hsteps] at hpublish
      refine ⟨?_, fun hadmits => ?_⟩
      · intro front back state hsplit hstate reference hreference
        exact Server.publication_references_hold hparents hparts hbefore hafter hrun hsplit hstate hreference
      · have hadmitted := Server.publication_admitted hadmits hparents hparts hbefore hafter hrun
        rw [hpublish, hadmitted]
        rfl

end Publication

section Family

variable (parent child : String)

def family : List TableRef :=
  [⟨"dbo", parent⟩, ⟨"dbo", child⟩]

def familyTable (ref : TableRef) : SqlServer.Table where
  schema := ref.schema
  name := ref.name
  columns := { name := "id", type := "int", baseType := "int", primary := true }
    :: if ref.name = child then [{ name := "parent", type := "int", baseType := "int" }] else []
  objectId := if ref.name = child then 2 else 1

def familySource : SqlServer.Runtime where
  sizing := { cfg := { sourceId := "s", tables := family parent child }, rowSize := fun _ => 1 }
  schemaHash := fun _ => "h"
  formatFloat := fun _ => ""

theorem refs_familyTable (refs : List TableRef) :
    (refs.map (familyTable child)).map SqlServer.Table.ref = refs := by
  rw [List.map_map]
  exact List.map_id refs

def familyInspection : SqlServer.Inspection (family parent child) where
  tables := (SqlServer.wanted (family parent child)).map (familyTable child)
  covers := by
    rw [refs_familyTable]
    exact Paging.ordered_perm _ _
  fence := familyTable child ⟨"dbo", "fence"⟩

def familySnapshot : Plan Capture.Call SqlServer.Error Unit :=
  SqlServer.snapshot (familySource parent child) (fun _ _ _ => .error "") (familyInspection parent child)
    { token := "g", current := .ok (familyInspection parent child), boundary := 1
      contents := fun ref => if ref.name = child then [[some "1", some "1"]] else [[some "1"]] }

def familyLedger : Backlog :=
  (familySnapshot parent child).requests.foldl (Backlog.grant "now") { origin := {}, phase := .snapshot }

def familyMessages : List Message :=
  familyLedger parent child |>.published

def familyTarget : Server.Runtime Message String Message :=
  { Server.Runtime.plain { id := "s", tables := family parent child } with
    pg := { Server.Postgres.plain with
      admits := fun tables => (tables child).all fun children => children.rows.all fun row =>
        (tables parent).any fun parents => parents.rows.any fun other =>
          row.lookup "parent" = other.lookup "id" } }

def emptyFamily : Server.Target Message String Message where
  db := { tables := fun name =>
    if name = parent then some { columns := [("id", "int")] }
    else if name = child then some { columns := [("id", "int"), ("parent", "int")] }
    else none }

def stored (messages : List Message) : List (Server.Delivery Message) :=
  messages.map fun message => .store (fun _ => true) message message

theorem family_published
    (hinspect : SqlServer.inspectTables (fun ref => .ok (familyTable child ref)) (family parent child)
      = .ok (familyInspection parent child).tables)
    (hresult : (familySnapshot parent child).result = .ok ())
    (hlength : (familyLedger parent child).groups.length = 1) :
    Published (family parent child) .sqlserver (familyMessages parent child) := by
  obtain ⟨group, hgroups⟩ := List.length_eq_one_iff.mp hlength
  have hmessages : familyMessages parent child = group.values := by
    rw [familyMessages, Backlog.published, hgroups, List.flatMap_singleton]
  have hfresh : Fresh { origin := {}, phase := .snapshot } := ⟨Phase.noConfusion, rfl, rfl⟩
  have hrun : Plan.Granted Capture.Grants (familySnapshot parent child).requests
      { origin := {}, phase := .snapshot } (familyLedger parent child) := Capture.granted_grant _ "now" _
  rw [hmessages]
  unfold familySnapshot at hresult hrun
  exact .sqlServer hinspect hfresh hresult hrun (by rw [hgroups]; rfl)

/-- In alphabetical order the parent comes first. -/
theorem snapshot_order_alphabetical :
    let rt := familyTarget "a" "b"
    let loading := (stored (familyMessages "a" "b").dropLast).foldl (Server.Target.deliver rt)
      (emptyFamily "a" "b")
    FollowsOrder (family "a" "b") loading ∧ KeepsReferences rt (family "a" "b") loading := by
  intro rt loading
  have hpublished : Published (family "a" "b") .sqlserver (familyMessages "a" "b") :=
    family_published "a" "b" (by decide +kernel)
      (by decide +kernel) (by decide +kernel)
  have hdecoded : ∀ delivery ∈ stored (familyMessages "a" "b").dropLast, delivery.Decoded rt := by
    intro delivery hmem
    obtain ⟨message, -, rfl⟩ := List.mem_map.mp hmem
    exact rfl
  refine (snapshot_order_iff hpublished rt _ ⟨.nil, Server.staged_empty _⟩ _ hdecoded
    (by decide +kernel)).mpr ?_
  change (family "a" "b").Pairwise _
  decide +kernel

/-- The child comes first in alphabetical order: a target that checks the references refuses the end of
the snapshot, which it would accept without this check. -/
theorem sqlServer_snapshot_reordered :
    let messages := familyMessages "z" "a"
    let rt := familyTarget "z" "a"
    let unchecked := { rt with pg := rt.pg.unconstrained }
    let start := emptyFamily "z" "a"
    let loading := (stored messages.dropLast).foldl (Server.Target.deliver rt) start
    let after := (stored messages).foldl (Server.Target.deliver unchecked) start
    let steps := Server.publicationSteps loading.db.syncState.generation loading.db
    Published (family "z" "a") .sqlserver messages
      ∧ Server.acceptedOf rt start (stored messages) = messages.dropLast
      ∧ Server.PublicationStep.deletes steps = family "z" "a"
      ∧ (Server.PublicationStep.inserts steps).map Row.table = ["a", "z"]
      ∧ ¬ FollowsOrder (family "z" "a") loading
      ∧ Server.acceptedOf unchecked start (stored messages) = messages
      ∧ rt.pg.admits after.db.tables = true := by
  intro messages rt unchecked start loading after steps
  have hdeletes : Server.PublicationStep.deletes steps = family "z" "a" := by decide +kernel
  refine ⟨family_published "z" "a" (by decide +kernel)
    (by decide +kernel) (by decide +kernel), by decide +kernel, hdeletes, by decide +kernel, ?_,
    by decide +kernel, by decide +kernel⟩
  rintro ⟨hreverse, -⟩
  exact absurd (hdeletes.symm.trans hreverse) (by decide)

end Family

end Replication

end GoSync
