import GoSync.Lib.GroupFifo
import GoSync.Queue.Invariant

/-!
# The queue as a FIFO of published groups

What the queue is for: a producer stages messages and publishes all staged ones at once under a
checkpoint, a consumer reads and acknowledges them one at a time in the order of publication. That
is the machine of `GroupFifo`, with the marshalled messages as values and the replay position, with
the schema hash where a publish sets one, as the mark.

`Sim` relates a database to a state of that machine. The acknowledged messages an `Ack` evicted are
remembered by the machine only, so the archive is what remains of them. Sequence numbers of staged
messages that `Recover` drops are used again; the relation never mentions them.
-/

namespace GoSync.Queue

variable {Raw : Type} {codec : Codec Raw} {limits : Limits}

structure Checkpoint where
  lsn : String
  schemaHash : Option String := none
  deriving DecidableEq, Repr

def lastLsn (start : String) (groups : List (MarkedGroup Raw Checkpoint)) : String :=
  groups.foldl (fun _ group => group.mark.lsn) start

def lastHash (start : String) (groups : List (MarkedGroup Raw Checkpoint)) : String :=
  groups.foldl (fun hash group => group.mark.schemaHash.getD hash) start

@[simp]
theorem lastLsn_expose (start : String) (fifo : GroupFifo Raw Checkpoint) (mark : Checkpoint) :
    lastLsn start (fifo.expose mark).groups = mark.lsn := by
  simp [lastLsn, GroupFifo.expose]

@[simp]
theorem lastHash_expose (start : String) (fifo : GroupFifo Raw Checkpoint) (mark : Checkpoint) :
    lastHash start (fifo.expose mark).groups
      = mark.schemaHash.getD (lastHash start fifo.groups) := by
  simp [lastHash, GroupFifo.expose]

structure SameOrigin (origin st : State) : Prop where
  protocolVersion : st.protocolVersion = origin.protocolVersion
  sourceId : st.sourceId = origin.sourceId
  generation : st.generation = origin.generation

/-- The database holds the state `fifo` of the abstract queue, started with the record `origin`. -/
structure Sim (codec : Codec Raw) (origin : State) (db : Db Raw)
    (fifo : GroupFifo Raw Checkpoint) : Prop where
  rep : ∃ evicted archive pending, Rep codec db archive pending fifo.staged
    ∧ fifo.published = evicted ++ archive ++ pending
    ∧ db.state.earliest = evicted.length + 1
  delivered : db.state.deliveredSeq = fifo.delivered
  durableLsn : db.state.durableLsn = lastLsn origin.durableLsn fifo.groups
  schemaHash : db.state.schemaHash = lastHash origin.schemaHash fifo.groups
  same : SameOrigin origin db.state

section Operations

variable {origin : State} {db db' : Db Raw} {fifo : GroupFifo Raw Checkpoint}

theorem Sim.initializeQueue {old : Db Raw} (hexec : initializeQueue origin old = .ok db) :
    Sim codec origin db {} := by
  have hrep : Rep codec db [] [] [] := Rep.initializeQueue hexec
  unfold Queue.initializeQueue at hexec
  split_ifs at hexec
  cases hexec
  exact ⟨⟨[], [], [], hrep, rfl, rfl⟩, rfl, rfl, rfl, ⟨rfl, rfl, rfl⟩⟩

/-- What the database shows of the abstract queue: the cursors, every message the consumer has not
acknowledged, what `Peek` and `Get` return, and the checkpoint of the last group. -/
structure Shows (codec : Codec Raw) (origin : State) (db : Db Raw)
    (fifo : GroupFifo Raw Checkpoint) : Prop where
  delivered : db.state.deliveredSeq = fifo.delivered
  ready : db.state.readySeq = fifo.published.length
  undelivered : ∀ seq, db.state.deliveredSeq < seq → seq ≤ db.state.readySeq →
    db.items.get seq = fifo.published[seq - 1]?
  peek : (peek codec db).toOption.map Prod.snd = fifo.head
  get : ∀ seq message raw, get codec seq db = .ok (message, raw) →
    fifo.published[seq - 1]? = some raw
  durableLsn : db.state.durableLsn = lastLsn origin.durableLsn fifo.groups
  schemaHash : db.state.schemaHash = lastHash origin.schemaHash fifo.groups

section Steps

variable (h : Sim codec origin db fifo)
include h

/-- `Append` stages one message. -/
theorem Sim.append {env : Surroundings} {message : Message}
    (hexec : append codec limits env message db = .ok db') :
    ∃ raw, codec.marshal (stamp db.state env.now message) = some raw
      ∧ db'.items.get db'.state.nextSeq = some raw
      ∧ Sim codec origin db' (fifo.stage raw) := by
  obtain ⟨evicted, archive, pending, hrep, hpublished, hearliest⟩ := h.rep
  obtain ⟨raw, hmarshal, hrep'⟩ := hrep.append hexec
  obtain ⟨raw', hmarshal', -, hdb⟩ := append_cases hexec
  obtain rfl : raw = raw' := Option.some_injective _ (hmarshal.symm.trans hmarshal')
  refine ⟨raw, hmarshal, ?_, ⟨evicted, archive, pending, hrep', hpublished, ?_⟩, ?_, ?_, ?_, ?_⟩
  · have hlast : db'.state.nextSeq
        = db'.state.earliest + (archive ++ pending ++ fifo.staged).length := by
      have := hrep'.delivered
      have := hrep'.ready
      have := hrep'.next
      simp only [List.length_append, List.length_singleton] at *
      omega
    rw [hrep'.items, Bucket.get_numbered, hlast, if_pos (Nat.le_add_right _ _),
      Nat.add_sub_cancel_left, ← List.append_assoc, List.getElem?_concat_length]
  all_goals subst hdb
  · exact hearliest
  · exact h.delivered
  · exact h.durableLsn
  · exact h.schemaHash
  · exact ⟨h.same.protocolVersion, h.same.sourceId, h.same.generation⟩

theorem Sim.publishSource {lsn cleanup : String} {sealSnapshot : Bool}
    (hexec : publishSource lsn sealSnapshot cleanup db = .ok db') :
    Sim codec origin db' (fifo.expose { lsn := lsn }) := by
  obtain ⟨evicted, archive, pending, hrep, hpublished, hearliest⟩ := h.rep
  have hrep' := hrep.publishSource hexec
  unfold Queue.publishSource at hexec
  split at hexec
  · cases hexec
  cases hexec
  refine ⟨⟨evicted, archive, pending ++ fifo.staged, hrep', ?_, hearliest⟩, h.delivered, ?_, ?_,
    ⟨h.same.protocolVersion, h.same.sourceId, h.same.generation⟩⟩
  · rw [GroupFifo.published_expose, hpublished, List.append_assoc _ pending]
  · simp only [lastLsn_expose]
  · simpa only [lastHash_expose, Option.getD_none] using h.schemaHash

theorem Sim.publishSchema {lsn schemaHash : String}
    (hexec : publishSchema lsn schemaHash db = .ok db') :
    Sim codec origin db' (fifo.expose { lsn := lsn, schemaHash := some schemaHash }) := by
  obtain ⟨evicted, archive, pending, hrep, hpublished, hearliest⟩ := h.rep
  have hrep' := hrep.publishSchema hexec
  unfold Queue.publishSchema at hexec
  split_ifs at hexec
  cases hexec
  refine ⟨⟨evicted, archive, pending ++ fifo.staged, hrep', ?_, hearliest⟩, h.delivered, ?_, ?_,
    ⟨h.same.protocolVersion, h.same.sourceId, h.same.generation⟩⟩
  · rw [GroupFifo.published_expose, hpublished, List.append_assoc _ pending]
  · simp only [lastLsn_expose]
  · simp only [lastHash_expose, Option.getD_some]

theorem Sim.recover (hexec : recover codec db = .ok db') :
    Sim codec origin db' fifo.discard := by
  obtain ⟨evicted, archive, pending, hrep, hpublished, hearliest⟩ := h.rep
  have hrep' := hrep.recover hexec
  cases hexec
  exact ⟨⟨evicted, archive, pending, hrep', hpublished, hearliest⟩, h.delivered, h.durableLsn,
    h.schemaHash, ⟨h.same.protocolVersion, h.same.sourceId, h.same.generation⟩⟩

theorem Sim.snapshotPoint {lsn : String}
    (hexec : snapshotPoint lsn db = .ok db') : Sim codec origin db' fifo := by
  obtain ⟨evicted, archive, pending, hrep, hpublished, hearliest⟩ := h.rep
  have hrep' := hrep.snapshotPoint hexec
  cases hexec
  exact ⟨⟨evicted, archive, pending, hrep', hpublished, hearliest⟩, h.delivered, h.durableLsn,
    h.schemaHash, ⟨h.same.protocolVersion, h.same.sourceId, h.same.generation⟩⟩

/-- `Peek` shows the head of the abstract queue. -/
theorem Sim.peek :
    (fifo.head = none ∧ peek codec db = .error .empty)
      ∨ ∃ raw message, fifo.head = some raw ∧ codec.unmarshal raw = some message
        ∧ message.seq = fifo.delivered + 1
        ∧ message.id = messageId origin.sourceId origin.generation (fifo.delivered + 1)
        ∧ db.items.get (fifo.delivered + 1) = some raw
        ∧ peek codec db = .ok (message, raw) := by
  obtain ⟨evicted, archive, pending, hrep, hpublished, hearliest⟩ := h.rep
  have hdelivered := hrep.delivered
  have hready := hrep.ready
  rw [← h.delivered]
  have hhead : fifo.head = pending[0]? := by
    rw [GroupFifo.head, hpublished, ← h.delivered, List.getElem?_append_right (by simp; omega)]
    congr 1
    simp only [List.length_append]
    omega
  cases pending with
  | nil =>
      refine .inl ⟨hhead, ?_⟩
      rw [Queue.peek, if_pos]
      simp only [List.length_nil] at hready
      omega
  | cons raw rest =>
      have hat : (archive ++ raw :: rest ++ fifo.staged)[archive.length]? = some raw := by simp
      obtain ⟨message, hdecode, hseq, hid⟩ := hrep.labelled archive.length raw hat
      have hget : db.items.get (db.state.deliveredSeq + 1) = some raw := by
        rw [hrep.items, Bucket.get_numbered, hdelivered, if_pos (Nat.le_add_right _ _),
          Nat.add_sub_cancel_left, hat]
      rw [h.same.sourceId, h.same.generation, ← hdelivered] at hid
      refine .inr ⟨raw, message, hhead, hdecode, hseq.trans hdelivered.symm, hid, hget, ?_⟩
      rw [Queue.peek, if_neg, hget]
      · simp only [hdecode]
      · simp only [List.length_cons] at hready
        omega

/-- `Ack` acknowledges the head. -/
theorem Sim.ack {since : String → Option Int} {seq : Nat} {id : String}
    (hexec : ack codec limits since seq id db = .ok db') :
    ∃ raw, fifo.head = some raw ∧ seq = fifo.delivered + 1 ∧ db.items.get seq = some raw
      ∧ Sim codec origin db' fifo.acknowledge := by
  obtain ⟨evicted, archive, pending, hrep, hpublished, hearliest⟩ := h.rep
  obtain ⟨raw, rest, message, count, rfl, -, -, rfl, hcount, hdb, hrep'⟩ := hrep.ack hexec
  have hpeek := h.peek
  have hdelivered := hrep.delivered
  have hready := hrep.ready
  rcases hpeek with ⟨-, hempty⟩ | ⟨raw', message', hhead, -, -, -, hget, -⟩
  · rw [Queue.peek] at hempty
    simp only [List.length_cons] at hready
    rw [if_neg (by omega)] at hempty
    split at hempty <;> first | cases hempty | (split at hempty <;> cases hempty)
  · rw [← h.delivered] at hget ⊢
    refine ⟨raw', hhead, rfl, hget, ⟨evicted ++ (archive ++ [raw]).take count, _, rest, hrep', ?_,
      ?_⟩, ?_, ?_, ?_, ?_⟩
    · rw [GroupFifo.published_acknowledge, hpublished, List.append_assoc evicted (List.take _ _),
        List.take_append_drop]
      simp
    all_goals subst hdb
    · have hlen : ((archive ++ [raw]).take count).length = count := by
        rw [List.length_take, List.length_append, List.length_singleton]
        omega
      rw [List.length_append, hlen, State.earliest, if_neg]
      · simp only
        omega
      · simp only
        omega
    · exact congrArg (· + 1) h.delivered
    · exact h.durableLsn
    · exact h.schemaHash
    · exact ⟨h.same.protocolVersion, h.same.sourceId, h.same.generation⟩

theorem Sim.ready :
    db.state.readySeq = fifo.published.length := by
  obtain ⟨evicted, archive, pending, hrep, hpublished, hearliest⟩ := h.rep
  have := hrep.delivered
  have := hrep.ready
  rw [hpublished]
  simp only [List.length_append]
  omega

theorem Sim.delivered_le_ready :
    db.state.deliveredSeq ≤ db.state.readySeq := by
  obtain ⟨evicted, archive, pending, hrep, -, -⟩ := h.rep
  have := hrep.delivered
  have := hrep.ready
  omega

theorem Sim.items_get {seq : Nat} (hlow : db.state.earliest ≤ seq)
    (hhigh : seq ≤ db.state.readySeq) : db.items.get seq = fifo.published[seq - 1]? := by
  obtain ⟨evicted, archive, pending, hrep, hpublished, hearliest⟩ := h.rep
  have hdelivered := hrep.delivered
  have hready := hrep.ready
  have hlength : seq - db.state.earliest < (archive ++ pending).length := by
    rw [List.length_append]
    omega
  have hfar : evicted.length ≤ seq - 1 := by omega
  have hoffset : seq - 1 - evicted.length = seq - db.state.earliest := by omega
  rw [hpublished, List.append_assoc, List.getElem?_append_right hfar, hoffset, hrep.items,
    Bucket.get_numbered, if_pos hlow, List.getElem?_append_left hlength]

theorem Sim.earliest_le :
    1 ≤ db.state.earliest ∧ db.state.earliest ≤ db.state.deliveredSeq + 1 := by
  obtain ⟨evicted, archive, pending, hrep, -, hearliest⟩ := h.rep
  have := hrep.delivered
  omega

theorem Sim.shows : Shows codec origin db fifo := by
  refine ⟨h.delivered, h.ready, ?_, ?_, ?_, h.durableLsn, h.schemaHash⟩
  · intro seq hlow hhigh
    exact h.items_get (h.earliest_le.2.trans hlow) hhigh
  · rcases h.peek with ⟨hhead, hpeek⟩ | ⟨raw, message, hhead, -, -, -, -, hpeek⟩
    · rw [hhead, hpeek]
      rfl
    · rw [hhead, hpeek]
      rfl
  · intro seq message raw hget
    unfold Queue.get at hget
    split_ifs at hget with hrange
    rw [not_or, not_lt, not_lt] at hrange
    rw [h.items_get hrange.1 hrange.2] at hget
    cases hvalue : fifo.published[seq - 1]? with
    | none =>
        rw [hvalue] at hget
        cases hget
    | some value =>
        simp only [hvalue] at hget
        split at hget
        · cases hget
        · cases hget
          rfl

end Steps

end Operations

inductive Action where
  | append (env : Surroundings) (message : Message)
  | publish (lsn : String) (sealSnapshot : Bool)
  | publishSource (lsn : String) (sealSnapshot : Bool) (cleanup : String)
  | publishSchema (lsn schemaHash : String)
  | recover
  | peek
  | ack (since : String → Option Int) (seq : Nat) (id : String)
  | failed
  | reopen (limits : Limits)

def Store.commit (store : Store Raw) (result : Except Error (Db Raw))
    (events : Db Raw → List (GroupFifo.Event Raw Checkpoint)) :
    Store Raw × List (GroupFifo.Event Raw Checkpoint) :=
  match result with
  | .ok db => ({ store with db := db }, events db)
  | .error _ => (store, [])

def Store.act (codec : Codec Raw) (store : Store Raw) :
    Action → Store Raw × List (GroupFifo.Event Raw Checkpoint)
  | .append env message =>
      store.commit (append codec store.limits env message store.db) fun db =>
        (db.items.get db.state.nextSeq).toList.map .stage
  | .publish lsn sealSnapshot =>
      store.commit (publish lsn sealSnapshot store.db) fun _ => [.expose { lsn := lsn }]
  | .publishSource lsn sealSnapshot cleanup =>
      store.commit (publishSource lsn sealSnapshot cleanup store.db) fun _ =>
        [.expose { lsn := lsn }]
  | .publishSchema lsn schemaHash =>
      store.commit (publishSchema lsn schemaHash store.db) fun _ =>
        [.expose { lsn := lsn, schemaHash := some schemaHash }]
  | .recover => store.commit (recover codec store.db) fun _ => [.discard]
  | .peek => (store, [.peek ((peek codec store.db).toOption.map Prod.snd)])
  | .ack since seq id =>
      store.commit (ack codec store.limits since seq id store.db) fun _ =>
        (store.db.items.get seq).toList.map .acknowledge
  | .failed => (store, [])
  | .reopen limits => ({ store with limits := limits }, [])

def Store.acts (codec : Codec Raw) (store : Store Raw) :
    List Action → Store Raw × List (GroupFifo.Event Raw Checkpoint)
  | [] => (store, [])
  | action :: actions =>
      let (middle, events) := store.act codec action
      let (last, rest) := middle.acts codec actions
      (last, events ++ rest)

variable {fifo : GroupFifo Raw Checkpoint} {store : Store Raw} {origin : State}

theorem Store.commit_sim {result : Except Error (Db Raw)}
    {events : Db Raw → List (GroupFifo.Event Raw Checkpoint)} (h : Sim codec origin store.db fifo)
    (hok : ∀ db, result = .ok db →
      ∃ last, GroupFifo.Run fifo (events db) last ∧ Sim codec origin db last) :
    ∃ last, GroupFifo.Run fifo (store.commit result events).2 last
      ∧ Sim codec origin (store.commit result events).1.db last := by
  cases result with
  | ok db => exact hok db rfl
  | error err => exact ⟨fifo, .nil fifo, h⟩

/-- Every action is a run of the abstract queue. -/
theorem Store.act_sim (h : Sim codec origin store.db fifo) (action : Action) :
    ∃ last, GroupFifo.Run fifo (store.act codec action).2 last
      ∧ Sim codec origin (store.act codec action).1.db last := by
  cases action with
  | append env message =>
      refine Store.commit_sim h fun db hexec => ?_
      obtain ⟨raw, -, hget, hsim⟩ := h.append hexec
      rw [hget]
      exact ⟨_, .cons (.stage fifo raw) (.nil _), hsim⟩
  | publish lsn sealSnapshot =>
      refine Store.commit_sim h fun db hexec => ?_
      exact ⟨_, .cons (.expose fifo _) (.nil _), h.publishSource hexec⟩
  | publishSource lsn sealSnapshot cleanup =>
      refine Store.commit_sim h fun db hexec => ?_
      exact ⟨_, .cons (.expose fifo _) (.nil _), h.publishSource hexec⟩
  | publishSchema lsn schemaHash =>
      refine Store.commit_sim h fun db hexec => ?_
      exact ⟨_, .cons (.expose fifo _) (.nil _), h.publishSchema hexec⟩
  | recover =>
      refine Store.commit_sim h fun db hexec => ?_
      exact ⟨_, .cons (.discard fifo) (.nil _), h.recover hexec⟩
  | peek =>
      refine ⟨fifo, ?_, h⟩
      rw [Store.act, h.shows.peek]
      exact .cons (.peek fifo) (.nil _)
  | ack since seq id =>
      refine Store.commit_sim h fun db hexec => ?_
      obtain ⟨raw, hhead, -, hget, hsim⟩ := h.ack hexec
      rw [hget]
      exact ⟨_, .cons (.acknowledge hhead) (.nil _), hsim⟩
  | failed => exact ⟨fifo, .nil fifo, h⟩
  | reopen limits => exact ⟨fifo, .nil fifo, h⟩

theorem Store.acts_sim (actions : List Action) (h : Sim codec origin store.db fifo) :
    ∃ last, GroupFifo.Run fifo (store.acts codec actions).2 last
      ∧ Sim codec origin (store.acts codec actions).1.db last := by
  induction actions generalizing store fifo with
  | nil => exact ⟨fifo, .nil fifo, h⟩
  | cons action actions ih =>
      obtain ⟨middle, hrun, hsim⟩ := Store.act_sim h action
      obtain ⟨last, hrest, hlast⟩ := ih hsim
      exact ⟨last, hrun.append hrest, hlast⟩

/-- **The queue is an atomic FIFO of published groups.** From an initialized queue on, every run of
its users, failing calls and crashes included, is a run of the abstract queue: staged messages are
exposed by a publish, all together and with its checkpoint, and the acknowledged messages are the
exposed ones in order. Whatever happens later, the groups stay as they are and every one of their
messages that is not acknowledged stays readable. -/
theorem fifo_of_actions (codec : Codec Raw) (limits : Limits) (origin : State) (old db : Db Raw)
    (hstart : initializeQueue origin old = .ok db) (actions : List Action) :
    let (store, trace) := ({ limits := limits, db := db } : Store Raw).acts codec actions
    ∃ fifo, GroupFifo.Run {} trace fifo
      ∧ fifo.published.take fifo.delivered = GroupFifo.acknowledged trace
      ∧ Shows codec origin store.db fifo
      ∧ ∀ later, ∃ last, GroupFifo.Run fifo (store.acts codec later).2 last
        ∧ fifo.groups <+: last.groups
        ∧ Shows codec origin (store.acts codec later).1.db last := by
  have hsim : Sim codec origin db {} := Sim.initializeQueue hstart
  obtain ⟨fifo, hrun, hfifo⟩ := Store.acts_sim actions
    (show Sim codec origin ({ limits := limits, db := db } : Store Raw).db {} from hsim)
  obtain ⟨-, hacknowledged⟩ := hrun.acknowledged_eq (Nat.zero_le _)
  refine ⟨fifo, hrun, hacknowledged, hfifo.shows, ?_⟩
  intro later
  obtain ⟨last, hlater, hlast⟩ := Store.acts_sim later hfifo
  exact ⟨last, hlater, hlater.groups_extend, hlast.shows⟩

/-- A message that is published and acknowledged, with a second one staged across a restart. -/
theorem fifo_of_one_delivery :
    let origin : State := { sourceId := "s", generation := "g" }
    let limits : Limits := { maxBytes := 10, reserve := 0 }
    let env : Surroundings := { free := some 100, now := "now" }
    let actions : List Action :=
      [.append env { kind := .snapshotBegin }, .publish "0/1" true, .peek,
        .append env { kind := .transactionEnd }, .reopen limits, .recover,
        .ack (fun _ => none) 1 "s/g/1"]
    ∃ db, initializeQueue origin ({} : Db Message) = .ok db
      ∧ ∃ fifo, GroupFifo.Run {}
          (({ limits := limits, db := db } : Store Message).acts .plain actions).2 fifo
        ∧ fifo.published.take fifo.delivered = [stamp origin "now" { kind := .snapshotBegin }] := by
  intro origin limits env actions
  let db : Db Message := { state := { origin with phase := .snapshot, earliestSeq := 1 } }
  have htrace : GroupFifo.acknowledged
      (({ limits := limits, db := db } : Store Message).acts .plain actions).2
      = [stamp origin "now" { kind := .snapshotBegin }] := by
    decide +revert
  obtain ⟨fifo, hrun, hacknowledged, -⟩ := fifo_of_actions .plain limits origin {} db rfl actions
  exact ⟨db, rfl, fifo, hrun, hacknowledged.trans htrace⟩

end GoSync.Queue
