import GoSync.Capture.Collector

/-!
# The queue as capture sees it

Capture proofs are about messages, not about bytes in a bucket. A backlog is the state of the
abstract queue with its messages decoded, and `Views` says that a queue holds it. A granted request
changes the backlog by a function of the request and the clock; calls of the sender leave it alone.
-/

namespace GoSync.Capture

open Queue (Traced Checkpoint Sim Surroundings lastLsn lastHash stagedItems)

variable {Raw : Type} {codec : Codec Raw}

abbrev PublishedGroup := MarkedGroup Message Checkpoint

structure Backlog where
  origin : Queue.State
  phase : Phase
  groups : List PublishedGroup := []
  staged : List Message := []
  snapshotLsn : String := ""
  sourceCleanup : String := ""

namespace Backlog

def hash (b : Backlog) : String :=
  lastHash b.origin.schemaHash b.groups

def durableLsn (b : Backlog) : String :=
  lastLsn b.origin.durableLsn b.groups

def published (b : Backlog) : List Message :=
  b.groups.flatMap MarkedGroup.values

def stamp (b : Backlog) (now : String) (message : Message) : Message :=
  Queue.stamp
    { b.origin with schemaHash := b.hash, nextSeq := b.published.length + b.staged.length } now message

def stage (b : Backlog) (message : Message) : Backlog :=
  { b with staged := b.staged ++ [message] }

def expose (b : Backlog) (mark : Checkpoint) : Backlog :=
  { b with groups := b.groups ++ [⟨b.staged, mark⟩], staged := [] }

def settled (b : Backlog) : Backlog :=
  { b with staged := [] }

def grant (now : String) (b : Backlog) : Call → Backlog
  | .initializeQueue st =>
      { origin := st, phase := .snapshot, snapshotLsn := st.snapshotLsn, sourceCleanup := st.sourceCleanup }
  | .snapshotPoint lsn => { b with snapshotLsn := lsn }
  | .finalizeSnapshotLsn lsn =>
      { b with staged := b.staged.map fun message => { message with lsn := lsn }, snapshotLsn := lsn }
  | .append message | .appendOnce message => b.stage (b.stamp now message)
  | .publish lsn sealSnapshot =>
      { b.expose { lsn := lsn } with phase := if sealSnapshot then .stream else b.phase, sourceCleanup := "" }
  | .publishSource lsn cleanup => { b.expose { lsn := lsn } with sourceCleanup := cleanup }
  | .publishSchema lsn hash => b.expose { lsn := lsn, schemaHash := some hash }
  | .clearSourceCleanup _ => { b with sourceCleanup := "" }
  | .recover => b.settled

theorem published_expose (b : Backlog) (mark : Checkpoint) :
    (b.expose mark).published = b.published ++ b.staged := by
  simp [published, expose]

@[simp]
theorem durableLsn_expose (b : Backlog) (mark : Checkpoint) :
    (b.expose mark).durableLsn = mark.lsn := by
  simp [durableLsn, lastLsn, expose]

@[simp]
theorem hash_expose (b : Backlog) (mark : Checkpoint) :
    (b.expose mark).hash = mark.schemaHash.getD b.hash := by
  simp [hash, lastHash, expose]

end Backlog

def Grants (b : Backlog) (call : Call) (b' : Backlog) : Prop :=
  ∃ now, b' = b.grant now call

theorem granted_grant (calls : List Call) (now : String) (b : Backlog) :
    Plan.Granted Grants calls b (calls.foldl (Backlog.grant now) b) := by
  induction calls generalizing b with
  | nil => rfl
  | cons call rest ih => exact ⟨b.grant now call, ⟨now, rfl⟩, ih _⟩

def Decodes (codec : Codec Raw) (raw : Raw) (message : Message) : Prop :=
  codec.unmarshal raw = some message

def DecodesGroup (codec : Codec Raw) (raw : MarkedGroup Raw Checkpoint)
    (group : PublishedGroup) : Prop :=
  raw.mark = group.mark ∧ List.Forall₂ (Decodes codec) raw.values group.values

structure Views (codec : Codec Raw) (queue : Traced Raw) (b : Backlog) : Prop where
  sim : Sim codec b.origin queue.db queue.fifo
  groups : List.Forall₂ (DecodesGroup codec) queue.groups b.groups
  staged : List.Forall₂ (Decodes codec) (stagedItems queue.db) b.staged
  phase : queue.db.state.phase = b.phase
  snapshotLsn : queue.db.state.snapshotLsn = b.snapshotLsn
  sourceCleanup : queue.db.state.sourceCleanup = b.sourceCleanup

theorem forall₂_mem_right {α β : Type} {r : α → β → Prop} {front : List α} {back : List β} {y : β}
    (h : List.Forall₂ r front back) (hmem : y ∈ back) : ∃ x ∈ front, r x y := by
  induction h with
  | nil => cases hmem
  | cons hxy _ ih =>
      rcases List.mem_cons.mp hmem with rfl | hmem
      · exact ⟨_, List.mem_cons_self, hxy⟩
      · obtain ⟨x, hx, hr⟩ := ih hmem
        exact ⟨x, List.mem_cons_of_mem _ hx, hr⟩

section Marks

variable {raws : List (MarkedGroup Raw Checkpoint)} {groups : List PublishedGroup}

theorem lastLsn_decodes (h : List.Forall₂ (DecodesGroup codec) raws groups) (start : String) :
    lastLsn start raws = lastLsn start groups := by
  induction h generalizing start with
  | nil => rfl
  | @cons raw group _ _ hgroup _ ih =>
      change lastLsn raw.mark.lsn _ = lastLsn group.mark.lsn _
      rw [hgroup.1, ih]

theorem lastHash_decodes (h : List.Forall₂ (DecodesGroup codec) raws groups) (start : String) :
    lastHash start raws = lastHash start groups := by
  induction h generalizing start with
  | nil => rfl
  | @cons raw group _ _ hgroup _ ih =>
      change lastHash (raw.mark.schemaHash.getD start) _ = lastHash (group.mark.schemaHash.getD start) _
      rw [hgroup.1, ih]

theorem values_decode (h : List.Forall₂ (DecodesGroup codec) raws groups) :
    List.Forall₂ (Decodes codec) (raws.flatMap MarkedGroup.values)
      (groups.flatMap MarkedGroup.values) := by
  induction h with
  | nil => exact .nil
  | cons hgroup _ ih =>
      rw [List.flatMap_cons, List.flatMap_cons]
      exact List.rel_append hgroup.2 ih

end Marks

namespace Views

variable {queue next : Traced Raw} {b : Backlog}

theorem published (h : Views codec queue b) :
    List.Forall₂ (Decodes codec) queue.published b.published :=
  values_decode h.groups

theorem durableLsn (h : Views codec queue b) : queue.db.state.durableLsn = b.durableLsn :=
  h.sim.durableLsn.trans (lastLsn_decodes h.groups _)

theorem schemaHash (h : Views codec queue b) : queue.db.state.schemaHash = b.hash :=
  h.sim.schemaHash.trans (lastHash_decodes h.groups _)

theorem nextSeq (h : Views codec queue b) :
    queue.db.state.nextSeq = b.published.length + b.staged.length := by
  obtain ⟨evicted, archive, pending, hrep, -, -⟩ := h.sim.rep
  have hnext := hrep.next
  have hready : queue.db.state.readySeq = queue.published.length := h.sim.ready
  rw [h.published.length_eq] at hready
  have hstaged : queue.fifo.staged.length = b.staged.length := h.staged.length_eq
  omega

theorem stamp (h : Views codec queue b) (now : String) (message : Message) :
    Queue.stamp queue.db.state now message = b.stamp now message := by
  have hsame := h.sim.same
  unfold Backlog.stamp Queue.stamp
  rw [h.schemaHash, h.nextSeq, hsame.protocolVersion, hsame.sourceId, hsame.generation]

theorem of_exec {op : Queue.Op} {origin : Queue.State} {fifo : GroupFifo Raw Checkpoint}
    {b' : Backlog} (h : Views codec queue b) (hexec : queue.exec codec op = .ok next)
    (hsim : Sim codec origin next.db fifo)
    (hgroups : Queue.groupsAfter op queue.db queue.groups = fifo.groups)
    (horigin : b'.origin = origin)
    (hdecode : List.Forall₂ (DecodesGroup codec) fifo.groups b'.groups)
    (hstaged : List.Forall₂ (Decodes codec) fifo.staged b'.staged)
    (hphase : Queue.phaseAfter op b.phase = b'.phase)
    (hcursor : next.db.state.snapshotLsn = b'.snapshotLsn
      ∧ next.db.state.sourceCleanup = b'.sourceCleanup) : Views codec next b' := by
  obtain ⟨hdb, -, hnext⟩ := Traced.exec_eq_ok hexec
  rw [hgroups] at hnext
  refine ⟨?_, ?_, ?_, ?_, hcursor.1, hcursor.2⟩
  · rw [Traced.fifo_eq hsim hnext, horigin]
    exact hsim
  · rw [hnext]
    exact hdecode
  · rw [hsim.stagedItems_eq]
    exact hstaged
  · rw [h.sim.phase hdb, h.phase, hphase]

theorem forall₂_snoc {α β : Type} {r : α → β → Prop} {front : List α} {back : List β} {a : α} {b : β}
    (h : List.Forall₂ r front back) (hlast : r a b) :
    List.Forall₂ r (front ++ [a]) (back ++ [b]) :=
  List.rel_append h (.cons hlast .nil)

theorem decodes_repositioned {lsn : String} {raws raws' : List Raw} {messages : List Message}
    (hmoved : List.Forall₂ (Queue.Repositioned codec lsn) raws raws')
    (h : List.Forall₂ (Decodes codec) raws messages) :
    List.Forall₂ (Decodes codec) raws' (messages.map fun message => { message with lsn := lsn }) := by
  induction h generalizing raws' with
  | nil =>
      obtain rfl := List.forall₂_nil_left_iff.mp hmoved
      exact .nil
  | cons hdecodes _ ih =>
      obtain ⟨raw', rest', ⟨message, hold, hnew⟩, hrest, rfl⟩ := List.forall₂_cons_left_iff.mp hmoved
      cases hold.symm.trans hdecodes
      exact .cons hnew (ih hrest)

/-- The cursors move in the ledger as in the queue. -/
theorem cursor_granted {env : Surroundings} {call : Call} (h : Views codec queue b)
    (hexec : queue.exec codec (call.op env) = .ok next) :
    next.db.state.snapshotLsn = (b.grant env.now call).snapshotLsn
      ∧ next.db.state.sourceCleanup = (b.grant env.now call).sourceCleanup := by
  have hdb := (Traced.exec_eq_ok hexec).1
  cases call with
  | initializeQueue st =>
      change Queue.initializeQueue st queue.db = .ok next.db at hdb
      unfold Queue.initializeQueue at hdb
      split_ifs at hdb
      rw [← Except.ok.inj hdb]
      exact ⟨rfl, rfl⟩
  | snapshotPoint lsn | recover =>
      rw [← Except.ok.inj hdb]
      first
        | exact ⟨rfl, h.sourceCleanup⟩
        | exact ⟨h.snapshotLsn, h.sourceCleanup⟩
  | finalizeSnapshotLsn lsn =>
      change Queue.finalizeSnapshotLsn codec queue.limits lsn queue.db = .ok next.db at hdb
      unfold Queue.finalizeSnapshotLsn at hdb
      split_ifs at hdb
      split at hdb
      · cases hdb
      rw [← Except.ok.inj hdb]
      exact ⟨rfl, h.sourceCleanup⟩
  | append message | appendOnce message =>
      obtain ⟨_, -, -, hstate⟩ := Queue.append_cases hdb
      rw [hstate]
      exact ⟨h.snapshotLsn, h.sourceCleanup⟩
  | publish lsn sealSnapshot | publishSource lsn cleanup =>
      change Queue.publishSource lsn _ _ queue.db = .ok next.db at hdb
      unfold Queue.publishSource at hdb
      split at hdb
      · cases hdb
      rw [← Except.ok.inj hdb]
      exact ⟨h.snapshotLsn, rfl⟩
  | publishSchema lsn hash =>
      change Queue.publishSchema lsn hash queue.db = .ok next.db at hdb
      unfold Queue.publishSchema at hdb
      split_ifs at hdb
      rw [← Except.ok.inj hdb]
      exact ⟨h.snapshotLsn, h.sourceCleanup⟩
  | clearSourceCleanup expected =>
      change Queue.clearSourceCleanup expected queue.db = .ok next.db at hdb
      unfold Queue.clearSourceCleanup at hdb
      split_ifs at hdb
      rw [← Except.ok.inj hdb]
      exact ⟨h.snapshotLsn, rfl⟩

/-- A call that the queue grants is recorded in the ledger. -/
theorem granted {env : Surroundings} {call : Call} (h : Views codec queue b)
    (hexec : queue.exec codec (call.op env) = .ok next) : Views codec next (b.grant env.now call) := by
  have hdb := (Traced.exec_eq_ok hexec).1
  have hcursor := h.cursor_granted hexec
  cases call with
  | initializeQueue st => exact h.of_exec hexec (Sim.initializeQueue hdb) rfl rfl .nil .nil rfl hcursor
  | snapshotPoint lsn =>
      exact h.of_exec hexec (h.sim.snapshotPoint hdb) rfl rfl h.groups h.staged rfl hcursor
  | finalizeSnapshotLsn lsn =>
      obtain ⟨staged, hmoved, hsim⟩ := h.sim.finalizeSnapshotLsn hdb
      exact h.of_exec hexec hsim rfl rfl h.groups (decodes_repositioned hmoved h.staged) rfl hcursor
  | append message | appendOnce message =>
      obtain ⟨raw, hmarshal, -, hsim⟩ := h.sim.append hdb
      rw [h.stamp] at hmarshal
      exact h.of_exec hexec hsim rfl rfl h.groups
        (forall₂_snoc h.staged (codec.unmarshal_marshal _ _ hmarshal)) rfl hcursor
  | publish lsn sealSnapshot | publishSource lsn cleanup =>
      exact h.of_exec hexec (h.sim.publishSource hdb) rfl rfl
        (forall₂_snoc h.groups ⟨rfl, h.staged⟩) .nil rfl hcursor
  | publishSchema lsn hash =>
      exact h.of_exec hexec (h.sim.publishSchema hdb) rfl rfl
        (forall₂_snoc h.groups ⟨rfl, h.staged⟩) .nil rfl hcursor
  | clearSourceCleanup expected =>
      exact h.of_exec hexec (h.sim.clearSourceCleanup hdb) rfl rfl h.groups h.staged rfl hcursor
  | recover => exact h.of_exec hexec (h.sim.recover hdb) rfl rfl h.groups .nil rfl hcursor

theorem recover (h : Views codec queue b) (hexec : queue.exec codec .recover = .ok next) :
    Views codec next b.settled :=
  h.granted (show queue.exec codec (Call.op ⟨none, ""⟩ .recover) = .ok next from hexec)

theorem ack {since : String → Option Int} {seq : Nat} {id : String} (h : Views codec queue b)
    (hexec : queue.exec codec (.ack since seq id) = .ok next) : Views codec next b := by
  obtain ⟨raw, -, -, -, hsim⟩ := h.sim.ack (Traced.exec_eq_ok hexec).1
  obtain ⟨_, _, _, hrep, -, -⟩ := h.sim.rep
  obtain ⟨_, _, _, _, -, -, -, -, -, hdb, -⟩ := hrep.ack (Traced.exec_eq_ok hexec).1
  refine h.of_exec hexec hsim rfl rfl h.groups h.staged rfl ?_
  rw [hdb]
  exact ⟨h.snapshotLsn, h.sourceCleanup⟩

end Views

end GoSync.Capture
