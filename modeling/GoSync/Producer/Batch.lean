import GoSync.Capture.Plans

/-!
# Batches and snapshots of the other collectors

The batch and the order of the snapshot messages are the same in the MySQL and in both SQL Server
packages. The triples below have one crash condition, `Captured`: nothing is visible before the snapshot
is sealed, and afterwards the published groups satisfy what the source at hand says about them.
-/

namespace GoSync.Producer

open Capture (Backlog Batch Batched Call Captured CaptureError Grants Keeps PublishedGroup ReadFile Sizing Staging Stamped
  Views batched_start chunkMessages embedFiles keeps_append)
open Queue (Checkpoint)

def addRows {ε : Type} (sizing : Sizing) (read : ReadFile) (wrap : CaptureError → ε)
    (rows : List (Except ε Row)) (b : Batch) : Plan Call ε Batch :=
  rows.foldlM
    (fun b row => do
      let row ← Plan.lift row
      (Batch.add sizing read row b).mapError wrap)
    b

def Added {ε : Type} (sizing : Sizing) (source : List (Except ε Row)) (rows : List Row) : Prop :=
  List.Forall₂ (fun read embedded => ∃ row file, read = .ok row
    ∧ embedFiles sizing.cfg file row = .ok embedded) source rows

section Rows

variable {seals : Backlog → Prop} {b base : Backlog} {template : Message} {front : List Message}
  {batch : Batch} {sizing : Sizing}

/-- The rows of a source are embedded and batched. -/
theorem keeps_addRows {ε : Type} {errs : ε → Backlog → Prop} {read : ReadFile}
    {wrap : CaptureError → ε} (source : List (Except ε Row))
    (h : Batched template front base [] batch b) (hb : Captured seals b)
    (herrs : ∀ err b, errs err b) :
    Keeps seals b (addRows sizing read wrap source batch)
      (fun batch' b' => ∃ rows, Added sizing source rows ∧ Batched template front base rows batch' b')
      errs := by
  refine Plan.Triple.mono (Plan.Triple.foldlM
    (fun rest batch' b' => ∃ done rows, source = done ++ rest ∧ Added sizing done rows
      ∧ Batched template front base rows batch' b') ?_ source hb ⟨[], [], rfl, .nil, h⟩) ?_
    fun _ _ _ herr => herr
  · rintro next rest batch b hb ⟨done, rows, hdone, hrows, hbatched⟩
    refine Plan.Triple.bind (fun row b' => b' = b ∧ next = .ok row)
      (Plan.Triple.lift hb (fun _ hok => ⟨rfl, hok⟩) fun _ _ => herrs _ _) ?_
    rintro row _ - - ⟨rfl, hnext⟩
    refine Plan.Triple.mapError ((hbatched.add hb fun _ => herrs _ _).mono ?_ fun _ _ _ herr => herr)
    rintro batch' b' - ⟨embedded, hembed, hadded⟩
    exact ⟨done ++ [next], rows ++ [embedded], by rw [hdone, List.append_assoc]; rfl,
      Views.forall₂_snoc hrows ⟨row, read, hnext, hembed⟩, hadded⟩
  · rintro batch' b' - ⟨done, rows, hdone, hrows, hbatched⟩
    rw [List.append_nil] at hdone
    exact ⟨rows, hdone ▸ hrows, hbatched⟩

theorem addRows_requests {ε : Type} {call : Call} {read : ReadFile} {wrap : CaptureError → ε} {rows : List (Except ε Row)}
    (h : call ∈ (addRows sizing read wrap rows batch).requests) : ∃ message, call = .append message := by
  unfold addRows at h
  induction rows generalizing batch with
  | nil => cases h
  | cons row rest ih =>
      rw [List.foldlM_cons] at h
      rcases Plan.mem_bind h with h | ⟨batch', -, h⟩
      · rcases Plan.mem_bind h with h | ⟨_, -, h⟩
        · cases h
        · exact Capture.Batch.add_requests h
      · exact ih h

end Rows

section Snapshots

/-- The rows a snapshot reads of a table; one that cannot be converted or batched ends it. -/
structure TableLoad (ε : Type) where
  schema : SchemaTable
  rows : List (Except ε Row)
  wrap : CaptureError → ε

variable {ε : Type} {seals : Backlog → Prop} {b base : Backlog}

def loadTable (sizing : Sizing) (read : ReadFile) (load : TableLoad ε) : Plan Call ε Unit := do
  Plan.request (.append { kind := .schema, schema := some load.schema })
  let b ← addRows sizing read load.wrap load.rows { message := { kind := .snapshotRows } }
  let _ ← b.flush.mapError load.wrap
  pure ()

def snapshot (sizing : Sizing) (read : ReadFile) (st : Queue.State) (check : Except ε Unit)
    (refs : List TableRef) (loads : List (TableLoad ε)) (lsn : String) : Plan Call ε Unit := do
  Plan.request (.initializeQueue st)
  Plan.lift check
  Plan.request (.append { kind := .snapshotBegin, tables := refs })
  loads.forM (loadTable sizing read)
  Plan.request (.append { kind := .snapshotEnd })
  Plan.request (.finalizeSnapshotLsn lsn)
  Plan.request (.publish lsn true)

def tableMessages (loaded : SchemaTable × List (List Row)) : List Message :=
  { kind := .schema, schema := some loaded.1 } :: chunkMessages { kind := .snapshotRows } loaded.2

def snapshotBodies (refs : List TableRef) (loaded : List (SchemaTable × List (List Row))) :
    List Message :=
  { kind := .snapshotBegin, tables := refs } :: loaded.flatMap tableMessages
    ++ [{ kind := .snapshotEnd }]

def Loaded (sizing : Sizing) (load : TableLoad ε) (loaded : SchemaTable × List (List Row)) : Prop :=
  loaded.1 = load.schema ∧ (∀ rows ∈ loaded.2, rows ≠ []) ∧ Added sizing load.rows loaded.2.flatten

def SnapshotGroup (sizing : Sizing) (hash lsn : String) (refs : List TableRef)
    (loads : List (TableLoad ε)) (group : PublishedGroup) : Prop :=
  ∃ loaded, List.Forall₂ (Loaded sizing) loads loaded ∧ group.mark = { lsn := lsn }
    ∧ List.Forall₂ (Stamped hash)
      ((snapshotBodies refs loaded).map fun message => { message with lsn := lsn }) group.values

variable {sizing : Sizing} {read : ReadFile} {front : List Message}
  {errs : ε → Backlog → Prop}

theorem keeps_loadTable (load : TableLoad ε) (hb : Captured seals b) (hstaging : Staging base front b)
    (herrs : ∀ err b, errs err b) :
    Keeps seals b (loadTable sizing read load)
      (fun _ b' => ∃ loaded, Loaded sizing load loaded
        ∧ Staging base (front ++ tableMessages loaded) b') errs := by
  unfold loadTable
  apply Plan.Triple.bind (fun _ => Staging base (front ++ [{ kind := .schema, schema := some load.schema }]))
  · exact keeps_append hb fun now => hstaging.stage now _
  rintro - b₁ - hb₁ hschema
  refine Plan.Triple.bind _
    (keeps_addRows load.rows (batched_start hschema rfl rfl 0) hb₁ herrs) ?_
  rintro batch b₂ - hb₂ ⟨rows, hrows, hbatched⟩
  refine Plan.Triple.bind _ (Plan.Triple.mapError (hbatched.flush hb₂)) ?_
  rintro batch' b₃ - hb₃ ⟨⟨chunks, hfull, -, hconcat, hstaged⟩, hempty⟩
  rw [hempty, List.append_nil] at hconcat
  refine Plan.Triple.pure hb₃ ⟨(load.schema, chunks), ⟨rfl, hfull, hconcat ▸ hrows⟩, ?_⟩
  rw [List.append_assoc] at hstaged
  exact hstaged

theorem stamped_repositioned {hash lsn : String} {bodies messages : List Message}
    (h : List.Forall₂ (Stamped hash) bodies messages) :
    List.Forall₂ (Stamped hash) (bodies.map fun message => { message with lsn := lsn })
      (messages.map fun message => { message with lsn := lsn }) := by
  rw [List.forall₂_map_left_iff, List.forall₂_map_right_iff]
  refine h.imp ?_
  rintro body message ⟨st, now, hhash, rfl⟩
  exact ⟨st, now, hhash, rfl⟩

structure Snapped (st : Queue.State) (lsn : String) (b : Backlog) : Prop where
  phase : b.phase = .stream
  staged : b.staged = []
  hash : b.hash = st.schemaHash
  durable : b.durableLsn = lsn
  snapshotLsn : b.snapshotLsn = lsn
  sourceCleanup : b.sourceCleanup = ""

/-- A snapshot is published as one group or not at all. -/
theorem keeps_snapshot {st : Queue.State} {check : Except ε Unit} {refs : List TableRef}
    {loads : List (TableLoad ε)} {lsn : String} (hb : Captured seals b)
    (hseals : ∀ group, SnapshotGroup sizing st.schemaHash lsn refs loads group →
      seals { origin := st, phase := .stream, groups := [group], snapshotLsn := lsn })
    (herrs : ∀ err b, errs err b) :
    Keeps seals b (snapshot sizing read st check refs loads lsn) (fun _ => Snapped st lsn) errs := by
  unfold snapshot
  set base : Backlog := b.grant "" (.initializeQueue st)
  have hbase : Captured seals base := Captured.initial base Phase.noConfusion rfl rfl
  have hstart : Staging base [] base := ⟨rfl, .nil⟩
  apply Plan.Triple.bind (fun _ b' => base = b')
  · refine Plan.Triple.request hb ?_
    rintro _ ⟨now, rfl⟩
    exact ⟨hbase, rfl⟩
  rintro - _ - - rfl
  apply Plan.Triple.bind (fun _ b' => base = b')
  · exact Plan.Triple.lift hbase (fun _ _ => rfl) fun err _ => herrs err base
  rintro - _ - - rfl
  apply Plan.Triple.bind (fun _ => Staging base [{ kind := .snapshotBegin, tables := refs }])
  · exact keeps_append hbase fun now => hstart.stage now _
  rintro - b₁ - hb₁ hstaging₁
  apply Plan.Triple.bind (fun _ b' => ∃ loaded, List.Forall₂ (Loaded sizing) loads loaded
    ∧ Staging base ({ kind := .snapshotBegin, tables := refs } :: loaded.flatMap tableMessages) b')
  · refine Plan.Triple.mono (Plan.Triple.forM
      (fun rest b' => ∃ done loaded, loads = done ++ rest ∧ List.Forall₂ (Loaded sizing) done loaded
        ∧ Staging base ({ kind := .snapshotBegin, tables := refs } :: loaded.flatMap tableMessages) b')
      ?_ loads hb₁ ⟨[], [], rfl, .nil, hstaging₁⟩) ?_ fun _ _ _ herr => herr
    · rintro load rest b hb ⟨done, loaded, hdone, hloaded, hstaging⟩
      refine (keeps_loadTable load hb hstaging herrs).mono ?_ fun _ _ _ herr => herr
      rintro - b' - ⟨table, htable, hstaged⟩
      refine ⟨done ++ [load], loaded ++ [table], by rw [hdone, List.append_assoc]; rfl,
        Views.forall₂_snoc hloaded htable, ?_⟩
      simpa using hstaged
    · rintro - b' - ⟨done, loaded, hdone, hloaded, hstaging⟩
      rw [List.append_nil] at hdone
      exact ⟨loaded, hdone ▸ hloaded, hstaging⟩
  rintro - b₂ - hb₂ ⟨loaded, hloaded, hstaging₂⟩
  apply Plan.Triple.bind (fun _ => Staging base (snapshotBodies refs loaded))
  · exact keeps_append hb₂ fun now => hstaging₂.stage now _
  rintro - b₃ - hb₃ hstaging₃
  have hphase : b₃.phase = .snapshot := by rw [hstaging₃.same]; rfl
  have hgroups : b₃.groups = [] := by rw [hstaging₃.same]; rfl
  have horigin : b₃.origin = st := by rw [hstaging₃.same]; rfl
  apply Plan.Triple.bind (fun _ b' => b' = b₃.grant "" (.finalizeSnapshotLsn lsn))
  · refine Plan.Triple.request hb₃ ?_
    rintro _ ⟨now, rfl⟩
    exact ⟨hb₃.finalize (by rw [hphase]; exact Phase.noConfusion), rfl⟩
  rintro - b₄ - hb₄ hmoved
  refine Plan.Triple.request hb₄ ?_
  rintro _ ⟨now, rfl⟩
  refine ⟨⟨hb₄.numbered.expose _, .inr ⟨rfl, ?_⟩⟩, rfl, rfl, ?_, ?_, ?_, rfl⟩
  · have hgroup := hseals ⟨b₄.staged, { lsn := lsn }⟩ ⟨loaded, hloaded, rfl, by
      rw [hmoved]
      exact stamped_repositioned hstaging₃.staged⟩
    obtain ⟨origin, phase, groups, staged, point, cleanup⟩ := b₃
    cases hgroups
    cases horigin
    cases hmoved
    exact hgroup
  · have hhash : (b₄.expose { lsn := lsn }).hash = b₄.hash := b₄.hash_expose _
    exact hhash.trans (by rw [hmoved]; exact hstaging₃.hash_eq)
  · exact b₄.durableLsn_expose { lsn := lsn }
  · rw [hmoved]
    rfl

theorem snapshot_stores {st : Queue.State} {check : Except ε Unit} {refs : List TableRef}
    {loads : List (TableLoad ε)} {lsn : String} {last : Backlog}
    (hresult : (snapshot sizing read st check refs loads lsn).result = .ok ())
    (hrun : Plan.Granted Grants (snapshot sizing read st check refs loads lsn).requests b last) :
    last.durableLsn = lsn ∧ last.snapshotLsn = lsn := by
  have hstores : (snapshot sizing read st check refs loads lsn).Triple Grants (fun _ => True) b
      (fun _ b' => b'.durableLsn = lsn ∧ b'.snapshotLsn = lsn) fun _ _ => True := by
    unfold snapshot
    iterate 5 refine Plan.Triple.bind _ (Plan.Triple.any _) fun _ _ _ _ _ => ?_
    apply Plan.Triple.bind (fun _ b' => b'.snapshotLsn = lsn)
    · refine Plan.Triple.request trivial ?_
      rintro _ ⟨now, rfl⟩
      exact ⟨trivial, rfl⟩
    · intro _ b' _ _ hpoint
      refine Plan.Triple.request trivial ?_
      rintro _ ⟨now, rfl⟩
      exact ⟨trivial, b'.durableLsn_expose { lsn := lsn }, hpoint⟩
  exact (hstores.completed hresult hrun).2

end Snapshots

end GoSync.Producer
