import GoSync.Queue.Fifo

/-!
# A queue with its history

`Sim` relates a database to some state of the abstract queue. To speak about what a queue has
published after the archive has been evicted, a run carries the published groups along: `Traced` is
the queue with that history, which no operation reads.
-/

namespace GoSync.Queue

variable {Raw : Type} {codec : Codec Raw} {limits : Limits}

def stagedItems (db : Db Raw) : List Raw :=
  (db.items.seek (db.state.readySeq + 1)).map Prod.snd

def groupsAfter (op : Op) (db : Db Raw) (groups : List (MarkedGroup Raw Checkpoint)) :
    List (MarkedGroup Raw Checkpoint) :=
  match op with
  | .initializeQueue _ | .resetForSnapshot => []
  | .publish lsn _ | .publishSource lsn _ _ => groups ++ [⟨stagedItems db, { lsn := lsn }⟩]
  | .publishSchema lsn hash => groups ++ [⟨stagedItems db, { lsn := lsn, schemaHash := some hash }⟩]
  | _ => groups

structure Traced (Raw : Type) where
  limits : Limits
  db : Db Raw
  groups : List (MarkedGroup Raw Checkpoint) := []

def Traced.exec (codec : Codec Raw) (op : Op) (queue : Traced Raw) : Except Error (Traced Raw) :=
  match Queue.exec codec queue.limits op queue.db with
  | .error err => .error err
  | .ok db => .ok { queue with db := db, groups := groupsAfter op queue.db queue.groups }

def Traced.fifo (queue : Traced Raw) : GroupFifo Raw Checkpoint where
  groups := queue.groups
  staged := stagedItems queue.db
  delivered := queue.db.state.deliveredSeq

def Traced.published (queue : Traced Raw) : List Raw :=
  queue.fifo.published

variable {queue next : Traced Raw} {op : Op}

theorem Traced.exec_eq_ok (hexec : queue.exec codec op = .ok next) :
    Queue.exec codec queue.limits op queue.db = .ok next.db ∧ next.limits = queue.limits
      ∧ next.groups = groupsAfter op queue.db queue.groups := by
  unfold Traced.exec at hexec
  split at hexec
  · cases hexec
  · rename_i db hdb
    cases hexec
    exact ⟨hdb, rfl, rfl⟩

section Operations

variable {origin : State} {db db' : Db Raw} {fifo : GroupFifo Raw Checkpoint}

theorem Sim.stagedItems_eq (h : Sim codec origin db fifo) : stagedItems db = fifo.staged := by
  obtain ⟨evicted, archive, pending, hrep, -, -⟩ := h.rep
  have hcut : db.state.readySeq + 1 = db.state.earliest + (archive ++ pending).length := by
    have := hrep.delivered
    have := hrep.ready
    simp only [List.length_append]
    omega
  rw [stagedItems, hrep.items, hcut, Bucket.seek_numbered, List.drop_left]
  exact Bucket.map_snd_numbered _ _

theorem Sim.clearSourceCleanup {expected : String} (h : Sim codec origin db fifo)
    (hexec : clearSourceCleanup expected db = .ok db') : Sim codec origin db' fifo := by
  obtain ⟨evicted, archive, pending, hrep, hpublished, hearliest⟩ := h.rep
  have hrep' := hrep.clearSourceCleanup hexec
  unfold Queue.clearSourceCleanup at hexec
  split_ifs at hexec
  cases hexec
  exact ⟨⟨evicted, archive, pending, hrep', hpublished, hearliest⟩, h.delivered, h.durableLsn,
    h.schemaHash, ⟨h.same.protocolVersion, h.same.sourceId, h.same.generation⟩⟩

theorem Sim.finalizeSnapshotLsn {lsn : String} (h : Sim codec origin db fifo)
    (hexec : finalizeSnapshotLsn codec limits lsn db = .ok db') :
    ∃ staged, List.Forall₂ (Repositioned codec lsn) fifo.staged staged
      ∧ Sim codec origin db' { fifo with staged := staged } := by
  obtain ⟨evicted, archive, pending, hrep, hpublished, hearliest⟩ := h.rep
  obtain ⟨staged, hrep', rfl, rfl, hmoved, -⟩ := hrep.finalizeSnapshotLsn hexec
  unfold Queue.finalizeSnapshotLsn at hexec
  split_ifs at hexec
  split at hexec
  · cases hexec
  cases hexec
  exact ⟨staged, hmoved, ⟨evicted, [], [], hrep', hpublished, hearliest⟩, h.delivered, h.durableLsn,
    h.schemaHash, ⟨h.same.protocolVersion, h.same.sourceId, h.same.generation⟩⟩

theorem Sim.resetForSnapshot (hexec : resetForSnapshot db = .ok db') :
    Sim codec db'.state db' {} := by
  have hrep : Rep codec db' [] [] [] := Rep.resetForSnapshot hexec
  unfold Queue.resetForSnapshot at hexec
  split_ifs at hexec
  cases hexec
  exact ⟨⟨[], [], [], hrep, rfl, rfl⟩, rfl, rfl, rfl, ⟨rfl, rfl, rfl⟩⟩

def phaseAfter (op : Op) (phase : Phase) : Phase :=
  match op with
  | .initializeQueue _ | .resetForSnapshot => .snapshot
  | .publish _ sealSnapshot | .publishSource _ sealSnapshot _ =>
      if sealSnapshot then .stream else phase
  | _ => phase

/-- The phase depends on the operations alone. -/
theorem Sim.phase (h : Sim codec origin db fifo) (hexec : exec codec limits op db = .ok db') :
    db'.state.phase = phaseAfter op db.state.phase := by
  cases op with
  | initializeQueue st =>
      change Queue.initializeQueue st db = .ok db' at hexec
      unfold Queue.initializeQueue at hexec
      split_ifs at hexec
      cases hexec
      rfl
  | resetForSnapshot =>
      change Queue.resetForSnapshot db = .ok db' at hexec
      unfold Queue.resetForSnapshot at hexec
      split_ifs at hexec
      cases hexec
      rfl
  | snapshotPoint lsn =>
      cases hexec
      rfl
  | clearSourceCleanup expected =>
      change Queue.clearSourceCleanup expected db = .ok db' at hexec
      unfold Queue.clearSourceCleanup at hexec
      split_ifs at hexec
      cases hexec
      rfl
  | finalizeSnapshotLsn lsn =>
      change Queue.finalizeSnapshotLsn codec limits lsn db = .ok db' at hexec
      unfold Queue.finalizeSnapshotLsn at hexec
      split_ifs at hexec
      split at hexec
      · cases hexec
      cases hexec
      rfl
  | append env message =>
      obtain ⟨_, -, -, rfl⟩ := append_cases hexec
      rfl
  | publish lsn sealSnapshot | publishSource lsn sealSnapshot cleanup =>
      change Queue.publishSource lsn sealSnapshot _ db = .ok db' at hexec
      unfold Queue.publishSource at hexec
      split at hexec
      · cases hexec
      cases hexec
      rfl
  | publishSchema lsn hash =>
      change Queue.publishSchema lsn hash db = .ok db' at hexec
      unfold Queue.publishSchema at hexec
      split_ifs at hexec
      cases hexec
      rfl
  | recover =>
      cases hexec
      rfl
  | ack since seq id =>
      obtain ⟨evicted, archive, pending, hrep, -, -⟩ := h.rep
      obtain ⟨_, _, _, _, -, -, -, -, -, rfl, -⟩ := hrep.ack hexec
      rfl
  | failed => cases hexec

end Operations

def Op.restarts : Op → Bool
  | .initializeQueue _ | .resetForSnapshot => true
  | _ => false

variable {origin : State}

theorem Traced.fifo_eq {queue : Traced Raw} {fifo : GroupFifo Raw Checkpoint}
    (h : Sim codec origin queue.db fifo) (hgroups : queue.groups = fifo.groups) :
    queue.fifo = fifo := by
  obtain ⟨groups, staged, delivered⟩ := fifo
  rw [Traced.fifo, h.stagedItems_eq, h.delivered]
  exact congrArg (GroupFifo.mk · staged delivered) hgroups

/-- An operation starts a new queue or extends the groups of the old one. -/
theorem Traced.sim_exec
    (h : Sim codec origin queue.db queue.fifo) (hexec : queue.exec codec op = .ok next) :
    (op.restarts = true ∧ next.groups = []
        ∧ ∃ origin', Sim codec origin' next.db next.fifo ∧ next.db.state.generation
          = origin'.generation)
      ∨ (op.restarts = false ∧ queue.groups <+: next.groups
        ∧ Sim codec origin next.db next.fifo) := by
  obtain ⟨hdb, -, hgroups⟩ := Traced.exec_eq_ok hexec
  have hstaged : stagedItems queue.db = queue.fifo.staged := rfl
  -- An operation that keeps the history is matched by a step of the abstract queue.
  have hkeeps : ∀ fifo, op.restarts = false → Sim codec origin next.db fifo →
      next.groups = fifo.groups → queue.groups <+: fifo.groups →
      op.restarts = false ∧ queue.groups <+: next.groups
        ∧ Sim codec origin next.db next.fifo := by
    intro fifo hop hsim hsame hextend
    exact ⟨hop, hsame ▸ hextend, by rwa [Traced.fifo_eq hsim hsame]⟩
  cases op with
  | initializeQueue st =>
      have hsim : Sim codec st next.db {} := Sim.initializeQueue hdb
      refine .inl ⟨rfl, hgroups, st, ?_, hsim.same.generation⟩
      rwa [Traced.fifo_eq hsim hgroups]
  | resetForSnapshot =>
      have hsim : Sim codec next.db.state next.db {} := Sim.resetForSnapshot hdb
      refine .inl ⟨rfl, hgroups, next.db.state, ?_, rfl⟩
      rwa [Traced.fifo_eq hsim hgroups]
  | snapshotPoint lsn => exact .inr (hkeeps _ rfl (h.snapshotPoint hdb) hgroups List.prefix_rfl)
  | clearSourceCleanup expected =>
      exact .inr (hkeeps _ rfl (h.clearSourceCleanup hdb) hgroups List.prefix_rfl)
  | finalizeSnapshotLsn lsn =>
      obtain ⟨staged, -, hsim⟩ := h.finalizeSnapshotLsn hdb
      exact .inr (hkeeps _ rfl hsim hgroups List.prefix_rfl)
  | append env message =>
      obtain ⟨raw, -, -, hsim⟩ := h.append hdb
      exact .inr (hkeeps _ rfl hsim hgroups List.prefix_rfl)
  | publish lsn sealSnapshot =>
      exact .inr (hkeeps _ rfl (h.publishSource hdb) hgroups (List.prefix_append _ _))
  | publishSource lsn sealSnapshot cleanup =>
      exact .inr (hkeeps _ rfl (h.publishSource hdb) hgroups (List.prefix_append _ _))
  | publishSchema lsn hash =>
      exact .inr (hkeeps _ rfl (h.publishSchema hdb) hgroups (List.prefix_append _ _))
  | recover => exact .inr (hkeeps _ rfl (h.recover hdb) hgroups List.prefix_rfl)
  | ack since seq id =>
      obtain ⟨raw, -, -, -, hsim⟩ := h.ack hdb
      exact .inr (hkeeps _ rfl hsim hgroups List.prefix_rfl)
  | failed => cases hdb

def deliveredAfter (op : Op) (delivered : Nat) : Nat :=
  match op with
  | .initializeQueue _ | .resetForSnapshot => 0
  | .ack .. => delivered + 1
  | _ => delivered

/-- How far an operation moves the delivered cursor. -/
theorem Traced.delivered_exec
    (h : Sim codec origin queue.db queue.fifo) (hexec : queue.exec codec op = .ok next) :
    next.db.state.deliveredSeq = deliveredAfter op queue.db.state.deliveredSeq := by
  obtain ⟨hdb, -, -⟩ := Traced.exec_eq_ok hexec
  cases op with
  | initializeQueue st =>
      have hsim : Sim codec st next.db {} := Sim.initializeQueue hdb
      exact hsim.delivered
  | resetForSnapshot =>
      have hsim : Sim codec next.db.state next.db {} := Sim.resetForSnapshot hdb
      exact hsim.delivered
  | snapshotPoint lsn => exact (h.snapshotPoint hdb).delivered
  | clearSourceCleanup expected => exact (h.clearSourceCleanup hdb).delivered
  | finalizeSnapshotLsn lsn =>
      obtain ⟨staged, -, hsim⟩ := h.finalizeSnapshotLsn hdb
      exact hsim.delivered
  | append env message =>
      obtain ⟨raw, -, -, hsim⟩ := h.append hdb
      exact hsim.delivered
  | publish lsn sealSnapshot => exact (h.publishSource hdb).delivered
  | publishSource lsn sealSnapshot cleanup => exact (h.publishSource hdb).delivered
  | publishSchema lsn hash => exact (h.publishSchema hdb).delivered
  | recover => exact (h.recover hdb).delivered
  | ack since seq id =>
      obtain ⟨raw, -, -, -, hsim⟩ := h.ack hdb
      exact hsim.delivered
  | failed => cases hdb

end GoSync.Queue
