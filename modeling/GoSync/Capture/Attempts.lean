import GoSync.Capture.Plans

/-!
# Attempts of the collector

The remaining plans of an attempt, the snapshot and the schema refresh, and the invariant of the
collector: whatever its capture goroutine is doing, the queue holds a captured backlog and the plan
in hand keeps it so.
-/

namespace GoSync.Capture

open Queue (Traced Checkpoint Surroundings)

variable {rt : Runtime} {history : List Transaction} {seals : Backlog → Prop} {b base : Backlog}
  {hash : String}

theorem readCatalog_ok {query : TableRef → List CatalogRow} {tables : List Table}
    (h : readCatalog rt query = .ok tables) :
    tables.map Table.ref = rt.cfg.tables ∧ ∀ table ∈ tables, table.columns ≠ [] :=
  catalog_ok (Except.mapError_eq_ok.mp h)

theorem keeps_stage {α ε : Type} {errs : ε → Backlog → Prop} (ask : Message → Call)
    (hask : ∀ message b now, Backlog.grant now b (ask message) = b.stage (b.stamp now message))
    (body : α → Message) {front : List Message} (items : List α) (hb : Captured seals b)
    (hstaging : Staging base front b) :
    Keeps seals b (items.forM fun item => Plan.request (ask (body item)))
      (fun _ => Staging base (front ++ items.map body)) errs := by
  refine Plan.Triple.mono (Plan.Triple.forM
    (fun rest b => ∃ done, items = done ++ rest ∧ Staging base (front ++ done.map body) b) ?_ items hb
    ⟨[], rfl, by simpa using hstaging⟩) ?_ fun _ _ _ herr => herr
  · rintro item rest b hb ⟨done, hdone, hstaging⟩
    refine Plan.Triple.request hb ?_
    rintro _ ⟨now, rfl⟩
    rw [hask]
    refine ⟨hb.stage now _, done ++ [item], by rw [hdone, List.append_assoc]; rfl, ?_⟩
    rw [List.map_append, ← List.append_assoc]
    exact hstaging.stage now _
  · rintro - b' - ⟨done, hdone, hstaging⟩
    rw [List.append_nil] at hdone
    exact hdone ▸ hstaging

/-- A refresh publishes the documents of all tables or nothing. -/
theorem keeps_refreshSchema {durable : Lsn} {query : TableRef → List CatalogRow}
    (hb : Captured (Sealed rt history) b) (hstands : Stands rt hash durable b) :
    Keeps (Sealed rt history) b (refreshSchema rt durable hash query) (fun _ _ => True) fun _ _ => True := by
  unfold refreshSchema
  split
  · exact Plan.Triple.fail hb trivial
  refine Plan.Triple.bind (fun current b' => b = b' ∧ readCatalog rt query = .ok current)
    (Plan.Triple.lift hb (fun _ hok => ⟨rfl, hok⟩) fun _ _ => trivial) ?_
  rintro current _ - - ⟨rfl, hcatalog⟩
  obtain ⟨htables, hcolumns⟩ := readCatalog_ok hcatalog
  split
  · exact Plan.Triple.fail hb trivial
  rename_i hchanged
  have hdiscard := hb.discard
  have hrecovered : Stands rt hash durable b.settled :=
    ⟨hstands.phase, hstands.durable, hstands.hash⟩
  refine Plan.Triple.bind (fun _ b' => Staging b.settled [] b')
    (Plan.Triple.request hb ?_) ?_
  · rintro _ ⟨now, rfl⟩
    exact ⟨hdiscard, rfl, .nil⟩
  rintro - b₁ - hb₁ hstaging₁
  refine Plan.Triple.bind _ (keeps_stage .appendOnce (fun _ _ _ => rfl) _ current hb₁ hstaging₁) ?_
  rintro - b₂ - hb₂ hstaging₂
  refine Plan.Triple.bind (fun _ b' => Staging b.settled
      (refreshMessages (rt.schemaHash current) current) b') (Plan.Triple.request hb₂ ?_) ?_
  · rintro _ ⟨now, rfl⟩
    exact ⟨hb₂.stage now _, hstaging₂.stage now _⟩
  rintro - b₃ - hb₃ hstaging₃
  have hstands₃ : Stands rt hash durable b₃ := hrecovered.of_staging hstaging₃
  refine Plan.Triple.request hb₃ ?_
  rintro _ ⟨now, rfl⟩
  refine ⟨hb₃.refresh hstands₃ ⟨hchanged, htables, hcolumns, rfl, ?_⟩, trivial⟩
  exact hstands.hash ▸ hstaging₃.staged

theorem Captured.seal {point : String} (h : Captured (Sealed rt history) b) (hgroups : b.groups = [])
    (hgroup : SnapshotGroup rt b.origin.schemaHash point ⟨b.staged, { lsn := point }⟩) :
    Captured (Sealed rt history)
      { b.expose { lsn := point } with phase := .stream, sourceCleanup := "" } := by
  refine ⟨h.numbered.expose _, .inr ⟨rfl, ⟨b.staged, { lsn := point }⟩, [], point, ?_, hgroup, ?_⟩⟩
  · rw [Backlog.expose, hgroups]
    rfl
  · have hdurable : (b.expose { lsn := point }).durableLsn = point := Backlog.durableLsn_expose _ _
    have hhash : (b.expose { lsn := point }).hash = b.origin.schemaHash := by
      rw [Backlog.hash_expose, Backlog.hash, hgroups]
      rfl
    change Streamed rt history _ _ _ (rt.position (b.expose _).durableLsn) (b.expose _).hash
    rw [hdurable, hhash]
    exact .start

/-- The rows of a table are embedded and batched. -/
theorem keeps_rows {read : ReadFile} {template : Message} {front : List Message} (source : List Row)
    (hrows : template.rows = []) (hchunk : template.chunk = 0) (hb : Captured seals b)
    (hstaging : Staging base front b) :
    Keeps seals b
      (source.foldlM (fun batch row => Batcher.add rt read row batch) { message := template })
      (fun batch b' => ∃ rows, Embedded rt.toSizing source rows ∧ Batched template front base rows batch b')
      fun _ _ => True := by
  refine Plan.Triple.mono (Plan.Triple.foldlM
    (fun rest batch b' => ∃ done rows, source = done ++ rest ∧ Embedded rt.toSizing done rows
      ∧ Batched template front base rows batch b') ?_ source hb
    ⟨[], [], rfl, .nil, batched_start hstaging hrows hchunk 0⟩) ?_ fun _ _ _ herr => herr
  · rintro row rest batch b hb ⟨done, rows, hdone, hembedded, hbatched⟩
    refine (hbatched.add hb fun _ => trivial).mono ?_ fun _ _ _ herr => herr
    rintro batch' b' - ⟨embedded, hembed, hadded⟩
    exact ⟨done ++ [row], rows ++ [embedded], by rw [hdone, List.append_assoc]; rfl,
      Views.forall₂_snoc hembedded ⟨read, hembed⟩, hadded⟩
  · rintro batch b' - ⟨done, rows, hdone, hembedded, hbatched⟩
    rw [List.append_nil] at hdone
    exact ⟨rows, hdone ▸ hembedded, hbatched⟩

structure Snapped (rt : Runtime) (info : Inspection) (b : Backlog) : Prop where
  phase : b.phase = .stream
  staged : b.staged = []
  hash : b.hash = rt.schemaHash info.tables

variable {info : Inspection}

/-- A snapshot is sealed whole. -/
theorem keeps_snapshot {read : ReadFile} {input : SnapshotInput} (hb : Captured (Sealed rt history) b) :
    Keeps (Sealed rt history) b (snapshot rt read info input) (fun _ => Snapped rt info) fun _ _ => True := by
  unfold snapshot
  set empty : Backlog := b.grant "" (.initializeQueue (initialState rt info input.token))
  set base : Backlog := empty.grant "" (.snapshotPoint input.consistentPoint)
  have hempty : Captured (Sealed rt history) empty := Captured.initial empty Phase.noConfusion rfl rfl
  have hbase : Captured (Sealed rt history) base := Captured.initial base Phase.noConfusion rfl rfl
  have hstart : Staging base [] base := ⟨rfl, .nil⟩
  refine Plan.Triple.bind (fun _ b' => empty = b') (Plan.Triple.request hb ?_) ?_
  · rintro _ ⟨now, rfl⟩
    exact ⟨hempty, rfl⟩
  rintro - _ - - rfl
  refine Plan.Triple.bind (fun _ b' => base = b') (Plan.Triple.request hempty ?_) ?_
  · rintro _ ⟨now, rfl⟩
    exact ⟨hbase, rfl⟩
  rintro - _ - - rfl
  refine Plan.Triple.bind (fun current b' => base = b' ∧ readCatalog rt input.query = .ok current)
    (Plan.Triple.lift hbase (fun _ hok => ⟨rfl, hok⟩) fun _ _ => trivial) ?_
  rintro current _ - - ⟨rfl, hcatalog⟩
  obtain ⟨htables, hcolumns⟩ := readCatalog_ok hcatalog
  split
  · exact Plan.Triple.fail hbase trivial
  rename_i hhash
  rw [not_not] at hhash
  refine Plan.Triple.bind
    (fun _ => Staging base [{ kind := .snapshotBegin, tables := rt.cfg.tables,
                              lsn := input.consistentPoint }])
    (keeps_append hbase fun now => hstart.stage now _) ?_
  rintro - b₁ - hb₁ hstaging₁
  refine Plan.Triple.bind _ (keeps_stage .append (fun _ _ _ => rfl) _ current hb₁ hstaging₁) ?_
  rintro - b₂ - hb₂ hheader
  refine Plan.Triple.bind _ (keeps_rows _ rfl rfl hb₂ hheader) ?_
  rintro batch b₃ - hb₃ ⟨rows, hembedded, hbatched⟩
  refine Plan.Triple.bind _ (hbatched.flush hb₃) ?_
  rintro batch b₄ - hb₄ ⟨⟨chunks, hfull, -, hconcat, hstaging₄⟩, hflushed⟩
  rw [hflushed, List.append_nil] at hconcat
  refine Plan.Triple.bind
    (fun _ => Staging base (snapshotMessages rt input.consistentPoint current chunks))
    (keeps_append hb₄ fun now => hstaging₄.stage now _) ?_
  rintro - b₅ - hb₅ hstaging₅
  refine Plan.Triple.request hb₅ ?_
  rintro _ ⟨now, rfl⟩
  have horigin : b₅.origin = base.origin := by rw [hstaging₅.same]
  have hgroups : b₅.groups = [] := by rw [hstaging₅.same]; rfl
  refine ⟨hb₅.seal hgroups ?_, rfl, rfl, ?_⟩
  · rw [horigin]
    exact ⟨current, input.contents, chunks, hhash, htables, hcolumns, hfull, hconcat ▸ hembedded, rfl,
      hstaging₅.staged⟩
  · change (b₅.expose { lsn := input.consistentPoint }).hash = _
    rw [Backlog.hash_expose]
    exact hstaging₅.hash_eq

section Processes

variable {Raw : Type} {codec : Codec Raw} {c : Collector Raw}

/-- The capture goroutine is in step with the backlog: the plan in hand keeps it captured, up to a
point from which the next part can start. -/
def Running (rt : Runtime) (history : List Transaction) (b : Backlog) : Process → Prop
  | .stopped => Captured (Sealed rt history) b
  | .checked info =>
      Captured (Sealed rt history) b ∧ b.staged = [] ∧ (b.phase = .stream → b.hash = rt.schemaHash info.tables)
  | .snapshotting info plan => Keeps (Sealed rt history) b plan (fun _ => Snapped rt info) fun _ _ => True
  | .streaming oldHash remaining plan =>
      Keeps (Sealed rt history) b plan (InStream rt history oldHash remaining) (Stranded rt oldHash)
  | .refreshing plan => Keeps (Sealed rt history) b plan (fun _ _ => True) fun _ _ => True

theorem Running.captured {process : Process} (h : Running rt history b process) :
    Captured (Sealed rt history) b := by
  cases process with
  | stopped => exact h
  | checked info => exact h.1
  | snapshotting info plan => exact Plan.Triple.crash_now h
  | streaming oldHash remaining plan => exact Plan.Triple.crash_now h
  | refreshing plan => exact Plan.Triple.crash_now h

theorem Running.granted {process next : Process} {request : Call} {b' : Backlog}
    (h : Running rt history b process) (hnext : process.next = some (request, next))
    (hgrant : Grants b request b') : Running rt history b' next := by
  unfold Process.next at hnext
  split at hnext
  · cases hnext
    exact Plan.Triple.granted h hgrant
  · cases hnext
    exact Plan.Triple.granted h hgrant
  · cases hnext
    exact Plan.Triple.granted h hgrant
  · cases hnext

structure Extends (b b' : Backlog) : Prop where
  phase : b'.phase = .stream
  origin : b'.origin = b.origin
  groups : b'.groups = b.groups ∨ ∃ group, b'.groups = b.groups ++ [group]

theorem Extends.refl (hphase : b.phase = .stream) : Extends b b :=
  ⟨hphase, rfl, .inl rfl⟩

/-- On the stream a call adds at most one group. -/
theorem Views.extends {queue next : Traced Raw} {env : Surroundings} {request : Call}
    (h : Views codec queue b) (hexec : queue.exec codec (request.op env) = .ok next)
    (hphase : b.phase = .stream) : Extends b (b.grant env.now request) := by
  cases request with
  | initializeQueue st =>
      -- A sealed queue refuses to be initialized.
      have hdb : Queue.initializeQueue st queue.db = .ok next.db := (Traced.exec_eq_ok hexec).1
      rw [Queue.initializeQueue, h.phase, hphase] at hdb
      cases hdb
  | finalizeSnapshotLsn lsn =>
      -- A sealed queue keeps the position of its snapshot.
      have hdb : Queue.finalizeSnapshotLsn codec queue.limits lsn queue.db = .ok next.db :=
        (Traced.exec_eq_ok hexec).1
      rw [Queue.finalizeSnapshotLsn, h.phase, hphase] at hdb
      cases hdb
  | snapshotPoint _ | append _ | appendOnce _ | clearSourceCleanup _ | recover =>
      exact ⟨hphase, rfl, .inl rfl⟩
  | publish lsn sealSnapshot =>
      refine ⟨?_, rfl, .inr ⟨_, rfl⟩⟩
      change (if sealSnapshot = true then Phase.stream else b.phase) = .stream
      rw [hphase, ite_self]
  | publishSource _ _ | publishSchema _ _ => exact ⟨hphase, rfl, .inr ⟨_, rfl⟩⟩

theorem inspect_ok {source : Source} {st : Queue.State}
    (h : inspect rt source st = .ok info) (hphase : st.phase = .stream) :
    st.schemaHash = rt.schemaHash info.tables := by
  obtain ⟨tables, -, h⟩ := Except.bind_eq_ok.mp h
  obtain ⟨_, hcheck, hinfo⟩ := Except.bind_eq_ok.mp h
  cases hinfo
  unfold checkAttempt at hcheck
  rw [if_neg (by rw [hphase]; exact Phase.noConfusion)] at hcheck
  split_ifs at hcheck with _ _ hhash
  exact not_not.mp fun hne => hhash ⟨hphase, hne⟩

def Consistent (rt : Runtime) (codec : Codec Raw) (history : List Transaction) (c : Collector Raw)
    (b : Backlog) : Prop :=
  Views codec c.queue b ∧ Running rt history b c.process

def Preserves (rt : Runtime) (codec : Codec Raw) (history : List Transaction) (b : Backlog)
    (c' : Collector Raw) : Prop :=
  ∃ b', Consistent rt codec history c' b' ∧ (b.phase = .stream → Extends b b')

theorem Consistent.same {process : Process} (h : Consistent rt codec history c b)
    (hrunning : Running rt history b process) :
    Preserves rt codec history b { c with process := process } :=
  ⟨b, ⟨h.1, hrunning⟩, .refl⟩

theorem Consistent.attempt {source : Source} (h : Consistent rt codec history c b)
    (hstopped : c.process = .stopped) :
    Preserves rt codec history b (c.attempt rt codec source) := by
  unfold Collector.attempt
  split
  · exact ⟨b, h, .refl⟩
  rename_i queue hexec
  have hviews := h.1.recover hexec
  have hcaptured := h.2.captured.discard
  have hextends : b.phase = .stream → Extends b b.settled :=
    fun hphase => ⟨hphase, rfl, .inl rfl⟩
  split
  · refine ⟨_, ⟨hviews, ?_⟩, hextends⟩
    rw [hstopped]
    exact hcaptured
  · rename_i info hinspect
    refine ⟨_, ⟨hviews, hcaptured, rfl, fun hphase => ?_⟩, hextends⟩
    rw [← hviews.schemaHash]
    exact inspect_ok hinspect (hviews.phase.trans hphase)

theorem Consistent.stream {skipped : Nat} (h : Consistent rt codec history c b)
    (hsnapped : Snapped rt info b) :
    Preserves rt codec history b (c.stream rt history skipped info) := by
  unfold Collector.stream
  split
  · exact h.same h.2.captured
  rename_i start hstart
  split
  · rename_i hpast
    have hstream : InStream rt history c.queue.db.state.schemaHash
        ((history.drop skipped).flatMap (Transaction.records rt.lsn))
        (newDecoder info.tables start) b := by
      refine ⟨⟨hsnapped.phase, h.1.durableLsn ▸ hstart, h.1.schemaHash.symm⟩, ?_, ?_⟩
      · rw [h.1.schemaHash, hsnapped.hash]
        rfl
      · refine .between (history.take skipped) (history.drop skipped)
          (List.take_append_drop _ _).symm ?_ rfl hsnapped.staged rfl
        intro tx hmem
        exact of_decide_eq_true (List.all_eq_true.mp hpast tx hmem)
    have hplan : Keeps (Sealed rt history) b (pure (newDecoder info.tables start)) _
        (Stranded rt c.queue.db.state.schemaHash) := Plan.Triple.pure h.2.captured hstream
    exact h.same hplan
  · exact ⟨b, h, .refl⟩

theorem Consistent.perform {env : Surroundings} (h : Consistent rt codec history c b) :
    Preserves rt codec history b (c.perform codec env) := by
  unfold Collector.perform
  split
  · exact ⟨b, h, .refl⟩
  rename_i request process hnext
  split
  · rename_i queue hexec
    exact ⟨_, ⟨h.1.granted hexec, h.2.granted hnext ⟨_, rfl⟩⟩, h.1.extends hexec⟩
  · split
    · exact ⟨b, h, .refl⟩
    · exact h.same h.2.captured

/-- One step of the source or the collector. -/
theorem Consistent.step (h : Consistent rt codec history c b) (step : Step) :
    Preserves rt codec history b (c.step rt codec history step) := by
  have hsame : Preserves rt codec history b c := ⟨b, h, .refl⟩
  have hrunning := h.2
  cases step with
  | attempt source =>
      simp only [Collector.step]
      split
      · exact h.attempt ‹_›
      · exact hsame
  | snapshot input read =>
      simp only [Collector.step]
      split
      · split
        · exact hsame
        · exact h.same (keeps_snapshot h.2.captured)
      · exact hsame
  | stream skipped =>
      simp only [Collector.step]
      split
      · rename_i info hprocess
        split
        · rename_i hphase
          rw [hprocess] at hrunning
          have hstream : b.phase = .stream := h.1.phase.symm.trans hphase
          exact h.stream ⟨hstream, hrunning.2.1, hrunning.2.2 hstream⟩
        · exact hsame
      · rename_i info hprocess
        rw [hprocess] at hrunning
        exact h.stream hrunning.2
      · exact hsame
  | receive frame read =>
      simp only [Collector.step]
      split
      · rename_i oldHash remaining d hprocess
        rw [hprocess] at hrunning
        split
        · rename_i hfollows
          exact h.same (hrunning.2.consume h.2.captured hfollows)
        · exact hsame
      · exact hsame
  | refresh query =>
      simp only [Collector.step]
      split
      · rename_i oldHash remaining err durable hprocess
        rw [hprocess] at hrunning
        split
        · exact h.same (keeps_refreshSchema h.2.captured hrunning.2)
        · exact hsame
      · exact hsame
  | perform env => exact h.perform
  | stop => exact h.same h.2.captured

end Processes

end GoSync.Capture
