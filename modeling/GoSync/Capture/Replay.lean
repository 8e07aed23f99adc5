import GoSync.Capture.Attempts

/-!
# Each transaction is published exactly once

Runs of the collector from an empty queue on: capture steps in any order, acknowledgements of the
sender and restarts with other limits come between any two queue calls. Once the snapshot is sealed,
the groups after it are those of the transactions between the snapshot and the durable position, each
once and in order, with schema refreshes in between.
-/

namespace GoSync.Capture

open Queue (Traced Checkpoint Limits lastLsn)

variable {Raw : Type} {codec : Codec Raw} {rt : Runtime} {history : List Transaction}
  {hash current : String} {point durable : Lsn} {groups : List PublishedGroup}
  {group : PublishedGroup}

section Order

def within (history : List Transaction) (point durable : Lsn) : List Transaction :=
  history.filter fun tx => point < tx.end ∧ tx.end ≤ durable

theorem within_self (history : List Transaction) (point : Lsn) : within history point point = [] := by
  rw [within, List.filter_eq_nil_iff]
  intro tx _ hmem
  obtain ⟨hafter, hbefore⟩ := of_decide_eq_true hmem
  exact absurd hafter hbefore.not_gt

/-- The next transaction is the only one that is passed. -/
theorem within_next {tx : Transaction}
    (hends : history.Pairwise fun earlier later => earlier.end < later.end)
    (hnext : NextTransaction history durable tx) (hpoint : point ≤ durable) :
    within history point tx.end = within history point durable ++ [tx] := by
  obtain ⟨earlier, later, rfl, hpast, hend⟩ := hnext
  have hlater : ∀ t ∈ later, tx.end < t.end := fun _ hmem =>
    List.rel_of_pairwise_cons (List.pairwise_append.mp hends).2.1 hmem
  have hold : ∀ t ∈ earlier, decide (point < t.end ∧ t.end ≤ tx.end)
      = decide (point < t.end ∧ t.end ≤ durable) := by
    intro t hmem
    have hdurable := hpast t hmem
    simp [hdurable, hdurable.trans hend.le]
  have hnew : ∀ bound, bound ≤ tx.end →
      later.filter (fun t => point < t.end ∧ t.end ≤ bound) = [] := by
    intro bound hbound
    rw [List.filter_eq_nil_iff]
    intro t hmem hin
    exact absurd ((of_decide_eq_true hin).2.trans hbound) (hlater t hmem).not_ge
  unfold within
  rw [List.filter_append, List.filter_append, List.filter_cons_of_pos (by simp [hpoint.trans_lt hend]),
    List.filter_cons_of_neg (by simp [hend.not_ge]), List.filter_congr hold, hnew _ le_rfl,
    hnew _ hend.le, List.append_nil]

end Order

section Groups

theorem embedFiles_frame {cfg : Config} {read : ReadFile} {row embedded : Row}
    (h : embedFiles cfg read row = .ok embedded) : embedded = { row with columns := embedded.columns } := by
  refine Except.foldlM_invariant (fun r => r = { row with columns := r.columns }) ?_ rfl h
  intro rule _ r next hr hnext
  split_ifs at hnext
  · cases hnext
    exact hr
  · obtain ⟨columns, -, hcolumns⟩ := Except.bind_eq_ok.mp hnext
    cases hcolumns
    rw [hr]

theorem Converted.ordinals {tables : List Table} {changes : List Change} {rows : List Row}
    (h : Converted rt tables changes rows) :
    rows.map Row.ordinal = List.range' 1 changes.length := by
  have hordinals : List.Forall₂ (· = ·) ((changes.zipIdx 1).map Prod.snd) (rows.map Row.ordinal) := by
    rw [List.forall₂_map_left_iff, List.forall₂_map_right_iff]
    refine h.imp ?_
    rintro entry row ⟨table, converted, read, -, -, hembed⟩
    exact (congrArg Row.ordinal (embedFiles_frame hembed)).symm
  rw [List.forall₂_eq_eq_eq, List.zipIdx_map_snd] at hordinals
  exact hordinals.symm

/-- The group of a transaction: full chunks of its rows, which together are its changes numbered from
one, and one end. -/
def PublishedOnce (rt : Runtime) (tx : Transaction) (group : PublishedGroup) : Prop :=
  ∃ hash, TransactionGroup rt hash tx group
    ∧ (group.values.flatMap Message.rows).map Row.ordinal = List.range' 1 tx.changes.length

theorem rows_stamped {bodies messages : List Message}
    (h : List.Forall₂ (Stamped hash) bodies messages) :
    messages.flatMap Message.rows = bodies.flatMap Message.rows := by
  induction h with
  | nil => rfl
  | cons hstamped _ ih =>
      obtain ⟨st, now, -, rfl⟩ := hstamped
      rw [List.flatMap_cons, List.flatMap_cons, ih]
      rfl

theorem rows_chunkMessages (template : Message) (chunks : List (List Row)) :
    (chunkMessages template chunks).flatMap Message.rows = chunks.flatten := by
  rw [chunkMessages, List.flatMap_map]
  change chunks.zipIdx.flatMap Prod.fst = chunks.flatten
  rw [List.flatMap_def, List.zipIdx_map_fst]

theorem rows_transactionMessages (text : String) (chunks : List (List Row)) :
    (transactionMessages text chunks).flatMap Message.rows = chunks.flatten := by
  rw [transactionMessages, List.flatMap_append, rows_chunkMessages]
  exact List.append_nil _

theorem TransactionGroup.publishedOnce {tx : Transaction} (h : TransactionGroup rt hash tx group) :
    PublishedOnce rt tx group := by
  refine ⟨hash, h, ?_⟩
  obtain ⟨tables, chunks, -, -, hrows, -, hstamped⟩ := h
  rw [rows_stamped hstamped, rows_transactionMessages]
  exact hrows.ordinals

theorem RefreshGroup.kinds {tables : List Table} (h : RefreshGroup rt hash durable tables group) :
    ∀ message ∈ group.values, message.kind = .schema ∨ message.kind = .schemaEnd := by
  obtain ⟨-, -, -, -, hstamped⟩ := h
  have hkinds : ∀ body ∈ refreshMessages (rt.schemaHash tables) tables,
      body.kind = .schema ∨ body.kind = .schemaEnd := by
    simp only [refreshMessages, List.mem_append, List.mem_map, List.mem_singleton]
    rintro body (⟨table, -, rfl⟩ | rfl)
    · exact .inl rfl
    · exact .inr rfl
  intro message hmem
  obtain ⟨body, hbody, st, now, -, rfl⟩ := forall₂_mem_right hstamped hmem
  exact hkinds body hbody

end Groups

section Streams

theorem Streamed.point_le (h : Streamed rt history hash point groups durable current) :
    point ≤ durable := by
  induction h with
  | start => exact le_rfl
  | transaction _ hnext _ ih =>
      obtain ⟨_, _, -, -, hend⟩ := hnext
      exact ih.trans hend.le
  | refresh _ _ ih => exact ih

theorem Streamed.transactions (h : Streamed rt history hash point groups durable current)
    (hends : history.Pairwise fun earlier later => earlier.end < later.end) :
    List.Forall₂ (PublishedOnce rt) (within history point durable)
      (groups.filter fun group => group.mark.schemaHash = none) := by
  induction h with
  | start =>
      rw [within_self]
      exact .nil
  | transaction hgroups hnext hgroup ih =>
      rw [within_next hends hnext hgroups.point_le, List.filter_append]
      refine List.rel_append ih ?_
      have hmark := hgroup
      obtain ⟨_, _, -, -, -, hmark, -⟩ := hmark
      rw [List.filter_cons_of_pos (by rw [hmark]; rfl)]
      exact .cons hgroup.publishedOnce .nil
  | refresh hgroups hgroup ih =>
      obtain ⟨-, -, -, hmark, -⟩ := hgroup
      rw [List.filter_append, List.filter_cons_of_neg (by simp [hmark])]
      simpa using ih

theorem Streamed.refreshes (h : Streamed rt history hash point groups durable current) :
    ∀ group ∈ groups, group.mark.schemaHash ≠ none →
      ∀ message ∈ group.values, message.kind = .schema ∨ message.kind = .schemaEnd := by
  induction h with
  | start => simp
  | transaction _ _ hgroup ih =>
      obtain ⟨_, _, -, -, -, hmark, -⟩ := hgroup
      intro group hmem hrefresh
      rcases List.mem_append.mp hmem with hmem | hmem
      · exact ih group hmem hrefresh
      · rw [List.mem_singleton.mp hmem, hmark] at hrefresh
        exact absurd rfl hrefresh
  | refresh _ hgroup ih =>
      intro group hmem hrefresh
      rcases List.mem_append.mp hmem with hmem | hmem
      · exact ih group hmem hrefresh
      · rw [List.mem_singleton.mp hmem]
        exact hgroup.kinds

theorem Streamed.position {start : String}
    (h : Streamed rt history hash (rt.position start) groups durable current) :
    durable = rt.position (lastLsn start groups) := by
  cases h with
  | start => rfl
  | transaction _ _ hgroup =>
      obtain ⟨_, _, -, -, -, hmark, -⟩ := hgroup
      simp [lastLsn, hmark, rt.position_render]
  | refresh _ hgroup =>
      obtain ⟨-, -, -, hmark, -⟩ := hgroup
      simp [lastLsn, hmark, rt.position_render]

theorem Streamed.last (h : Streamed rt history hash point (groups ++ [group]) durable current) :
    ∃ before earlier, Streamed rt history hash point groups before earlier
      ∧ (durable = before
        ∨ ∃ tx, NextTransaction history before tx ∧ PublishedOnce rt tx group ∧ durable = tx.end) := by
  generalize hall : groups ++ [group] = all at h
  cases h with
  | start => simp at hall
  | transaction hgroups hnext hgroup =>
      obtain ⟨rfl, hlast⟩ := List.append_inj' hall rfl
      cases hlast
      exact ⟨_, _, hgroups, .inr ⟨_, hnext, hgroup.publishedOnce, rfl⟩⟩
  | refresh hgroups hgroup =>
      obtain ⟨rfl, -⟩ := List.append_inj' hall rfl
      exact ⟨_, _, hgroups, .inl rfl⟩

end Streams

section Requests

variable {request : Call} {read : ReadFile}

theorem Decoder.record_publishes {d : Decoder} {r : Record} {lsn : String} {sealSnapshot : Bool}
    (h : Call.publish lsn sealSnapshot ∈ (d.record rt read r).requests) :
    r.action = .commit ∧ d.active = true ∧ r.xid = d.xid ∧ rt.lsn.parse r.nextLsn = some d.end := by
  unfold Decoder.record at h
  split at h
  · cases h
  · rename_i haction
    unfold Decoder.commit at h
    split_ifs at h with houtside hmismatch
    · cases h
    · cases h
    · cases h
    · rw [not_or, not_not, not_not] at houtside
      exact ⟨haction, houtside.1, houtside.2, not_not.mp hmismatch⟩
  · unfold Decoder.change at h
    split_ifs at h
    · cases h
    · cases h
    · split at h
      · cases h
      rcases Plan.mem_bind h with h | ⟨row, -, h⟩
      · cases h
      rcases Plan.mem_bind h with h | ⟨batch, -, h⟩
      · obtain ⟨message, hmessage⟩ := Batch.add_requests h
        cases hmessage
      · cases h
  · cases h
  · cases h
  · cases h

theorem Decoder.consume_garbled (d : Decoder) (frame : Frame) :
    (d.consume rt read { frame with garbled := true }).requests
      = (d.consume rt read { frame with garbled := false }).requests := by
  unfold Decoder.consume
  split
  · rfl
  · cases hrecords : (frame.records.foldlM (Decoder.recordAt rt read) d).result with
    | error err => rw [Plan.bind_of_error hrecords, Plan.bind_of_error hrecords]
    | ok next =>
        rw [Plan.bind_of_ok hrecords, Plan.bind_of_ok hrecords]
        rfl

end Requests

section Runs

/-- What happens to a collector: a step of its capture goroutine, an acknowledgement its sender has
received, or a restart with other limits. -/
inductive Collector.Action where
  | capture (step : Step)
  | ack (since : String → Option Int) (seq : Nat) (id : String)
  | reopen (limits : Limits)

def Collector.act (rt : Runtime) (codec : Codec Raw) (history : List Transaction)
    (c : Collector Raw) : Collector.Action → Collector Raw
  | .capture step => c.step rt codec history step
  | .ack since seq id =>
      match c.queue.exec codec (.ack since seq id) with
      | .error _ => c
      | .ok queue => { c with queue := queue }
  | .reopen limits => { queue := { c.queue with limits := limits } }

def Collector.run (rt : Runtime) (codec : Codec Raw) (history : List Transaction)
    (c : Collector Raw) (actions : List Collector.Action) : Collector Raw :=
  actions.foldl (Collector.act rt codec history) c

variable {c : Collector Raw} {b b' : Backlog}

theorem Consistent.act (h : Consistent rt codec history c b) (action : Collector.Action) :
    Preserves rt codec history b (c.act rt codec history action) := by
  cases action with
  | capture step => exact h.step step
  | ack since seq id =>
      simp only [Collector.act]
      split
      · exact ⟨b, h, .refl⟩
      · rename_i queue hexec
        exact ⟨b, ⟨h.1.ack hexec, h.2⟩, .refl⟩
  | reopen limits =>
      exact ⟨b, ⟨{ h.1 with sim := h.1.sim }, h.2.captured⟩, .refl⟩

def openCollector (limits : Limits) : Collector Raw where
  queue := { limits := limits, db := {} }

theorem consistent_open (limits : Limits) :
    Consistent rt codec history (openCollector limits) { origin := {}, phase := .unset } := by
  refine ⟨⟨⟨⟨[], [], [], Queue.rep_empty, rfl, rfl⟩, rfl, rfl, rfl, rfl, rfl, rfl⟩, .nil, .nil, rfl,
    rfl, rfl⟩, ?_⟩
  exact Captured.initial _ Phase.noConfusion rfl rfl

theorem Consistent.run (actions : List Collector.Action) (h : Consistent rt codec history c b) :
    ∃ b', Consistent rt codec history (c.run rt codec history actions) b' := by
  induction actions generalizing c b with
  | nil => exact ⟨b, h⟩
  | cons action actions ih =>
      obtain ⟨b', h', -⟩ := h.act action
      exact ih h'

/-- A step publishes nothing, or the next transaction with its position. -/
theorem Captured.advance (h : Captured (Sealed rt history) b) (h' : Captured (Sealed rt history) b')
    (hphase : b.phase = .stream) (hextends : Extends b b') :
    ∃ more, b'.groups = b.groups ++ more
      ∧ rt.position b.durableLsn ≤ rt.position b'.durableLsn
      ∧ (rt.position b'.durableLsn ≠ rt.position b.durableLsn →
        ∃ tx ∈ history, ∃ group, more = [group] ∧ PublishedOnce rt tx group
          ∧ rt.position b'.durableLsn = tx.end) := by
  rcases hextends.groups with hsame | ⟨group, hgroup⟩
  · have hdurable : b'.durableLsn = b.durableLsn := by
      rw [Backlog.durableLsn, Backlog.durableLsn, hsame, hextends.origin]
    refine ⟨[], by rw [hsame, List.append_nil], by rw [hdurable], ?_⟩
    rw [hdurable]
    exact fun hne => absurd rfl hne
  obtain ⟨first, rest, point, hgroups, hfirst, hstreamed⟩ : Sealed rt history b := h.sealed hphase
  obtain ⟨first', rest', point', hgroups', hfirst', hstreamed'⟩ : Sealed rt history b' :=
    h'.sealed hextends.phase
  rw [hgroup, hgroups] at hgroups'
  obtain ⟨rfl, rfl⟩ := List.cons.inj hgroups'
  obtain ⟨before, earlier, hbefore, hlast⟩ := hstreamed'.last
  -- Both runs of groups start at the position of the snapshot.
  obtain ⟨_, _, _, -, -, -, -, -, hmark', -⟩ := hfirst'
  have hposition : before = rt.position b.durableLsn := by
    rw [hbefore.position, Backlog.durableLsn, hgroups]
    change _ = rt.position (lastLsn first.mark.lsn rest)
    rw [hmark']
  refine ⟨[group], hgroup, ?_⟩
  rcases hlast with hsame | ⟨tx, hnext, honce, hend⟩
  · rw [hsame, hposition]
    exact ⟨le_rfl, fun hne => absurd rfl hne⟩
  · obtain ⟨past, later, hhistory, -, hafter⟩ := hnext
    refine ⟨?_, fun _ => ⟨tx, by simp [hhistory], group, rfl, honce, hend⟩⟩
    rw [hend, ← hposition]
    exact hafter.le

/-- **Capture publishes each transaction exactly once.** However often the collector starts over, a
sealed queue holds the snapshot and then, once each and in order, the transactions that end between
the snapshot and the durable position; what else it holds are schema refreshes. From there every
action moves the durable position forward or not at all, and moves it only to the end of the
transaction it publishes. Records that are refused, garbled or not the commit of the open transaction
publish nothing. -/
theorem captured_exactly_once (rt : Runtime) (codec : Codec Raw) (history : List Transaction)
    (hends : history.Pairwise fun earlier later => earlier.end < later.end) (limits : Limits)
    (actions : List Collector.Action) :
    (let c := (openCollector limits).run rt codec history actions
      let durable := rt.position c.queue.db.state.durableLsn
      c.queue.db.state.phase = .stream →
        ∃ snap groups, List.Forall₂ (DecodesGroup codec) c.queue.groups (snap :: groups)
          ∧ (∃ hash, SnapshotGroup rt hash snap.mark.lsn snap)
          ∧ List.Forall₂ (PublishedOnce rt) (within history (rt.position snap.mark.lsn) durable)
              (groups.filter fun group => group.mark.schemaHash = none)
          ∧ (∀ group ∈ groups, group.mark.schemaHash ≠ none →
              ∀ message ∈ group.values, message.kind = .schema ∨ message.kind = .schemaEnd)
          ∧ ∀ action, let c' := c.act rt codec history action
              let durable' := rt.position c'.queue.db.state.durableLsn
              ∃ more, List.Forall₂ (DecodesGroup codec) c'.queue.groups (snap :: (groups ++ more))
                ∧ durable ≤ durable'
                ∧ (durable' ≠ durable → ∃ tx ∈ history, ∃ group, more = [group]
                  ∧ PublishedOnce rt tx group ∧ durable' = tx.end))
      ∧ (∀ (d : Decoder) read r err, (d.record rt read r).result = .error err →
          (d.record rt read r).requests = [])
      ∧ (∀ (d : Decoder) read r lsn sealSnapshot,
          Call.publish lsn sealSnapshot ∈ (d.record rt read r).requests →
          r.action = .commit ∧ d.active = true ∧ r.xid = d.xid
            ∧ rt.lsn.parse r.nextLsn = some d.end)
      ∧ ∀ (d : Decoder) read (frame : Frame),
          (d.consume rt read { frame with garbled := true }).requests
            = (d.consume rt read { frame with garbled := false }).requests := by
  refine ⟨?_, fun _ _ _ _ => Decoder.record_refused, fun _ _ _ _ _ => Decoder.record_publishes,
    fun d _ => d.consume_garbled⟩
  intro c durable hphase
  have hopen : Consistent rt codec history (openCollector limits) _ := consistent_open limits
  obtain ⟨b, h⟩ := hopen.run actions
  have hstream : b.phase = .stream := h.1.phase.symm.trans hphase
  have hdurable : durable = rt.position b.durableLsn := congrArg rt.position h.1.durableLsn
  obtain ⟨first, rest, point, hgroups, hfirst, hrest⟩ : Sealed rt history b :=
    h.2.captured.sealed hstream
  have hpoint : first.mark.lsn = point := by
    obtain ⟨_, _, _, -, -, -, -, -, hmark, -⟩ := hfirst
    rw [hmark]
  subst hpoint
  refine ⟨first, rest, hgroups ▸ h.1.groups, ⟨_, hfirst⟩, hdurable ▸ hrest.transactions hends,
    hrest.refreshes, ?_⟩
  intro action c' durable'
  obtain ⟨b', h', hextends⟩ := h.act action
  obtain ⟨more, hmore, hle, hmoved⟩ :=
    h.2.captured.advance h'.2.captured hstream (hextends hstream)
  have hdurable' : durable' = rt.position b'.durableLsn := congrArg rt.position h'.1.durableLsn
  have hgroups' : b'.groups = first :: (rest ++ more) := by
    rw [hmore, hgroups]
    rfl
  rw [hdurable, hdurable']
  exact ⟨more, hgroups' ▸ h'.1.groups, hle, hmoved⟩

section OneTable

def idCatalog : TableRef → List CatalogRow :=
  fun _ => [{ column := { name := "id", type := "integer", oid := 23, primary := true } }]

def insertSeven : Change where
  kind := .insert
  schema := "public"
  table := "t"
  columns := [{ name := "id", type := "integer", oid := 23, value := .literal "7" }]

def noFile : ReadFile :=
  fun _ _ _ => .error ""

def performed : Collector.Action :=
  .capture (.perform { free := some 1000000, now := "now" })

def snapshotTaken (rt : Runtime) : List Collector.Action :=
  [.capture (.attempt { query := idCatalog }),
    .capture (.snapshot { token := "g", consistentPoint := rt.lsn.render 1, query := idCatalog,
                          contents := fun _ => [] } noFile)]
  ++ List.replicate 6 performed

end OneTable

/-- A collector that crashes within a transaction publishes it once it has read it again. -/
theorem captured_exactly_once_after_crash :
    let rt := Runtime.plain { sourceId := "s", tables := [⟨"public", "t"⟩], batchRows := 1 }
    let history : List Transaction :=
      [{ xid := 1, «end» := 2, changes := [insertSeven] }, { xid := 2, «end» := 3, changes := [] }]
    let records := history.flatMap (Transaction.records rt.lsn)
    let limits : Limits := { maxBytes := 100, reserve := 0 }
    let actions : List Collector.Action :=
      snapshotTaken rt
      ++ [.capture (.stream 0), .capture (.receive { records := records.take 2 } noFile), performed,
        .reopen limits, .capture (.attempt { query := idCatalog }), .capture (.stream 0),
        .capture (.receive { records := records } noFile)]
      ++ List.replicate 5 performed
    let c := (openCollector limits).run rt .plain history actions
    ∃ snap groups, List.Forall₂ (DecodesGroup .plain) c.queue.groups (snap :: groups)
      ∧ List.Forall₂ (PublishedOnce rt) (within history (rt.position snap.mark.lsn) 3)
        (groups.filter fun group => group.mark.schemaHash = none) := by
  intro rt history records limits actions
  have hphase : ((openCollector limits).run rt .plain history actions).queue.db.state.phase
      = .stream := by decide +revert
  have hdurable : rt.position
      ((openCollector limits).run rt .plain history actions).queue.db.state.durableLsn = 3 := by
    decide +revert
  have hrun := (captured_exactly_once rt .plain history (by decide +revert) limits actions).1
  generalize (openCollector limits).run rt .plain history actions = c at hphase hdurable hrun ⊢
  obtain ⟨snap, groups, hdecodes, -, honce, -⟩ := hrun hphase
  exact ⟨snap, groups, hdecodes, hdurable ▸ honce⟩

end Runs

end GoSync.Capture
