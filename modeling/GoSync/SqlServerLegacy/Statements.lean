import GoSync.SqlServerLegacy.Draining

/-!
# Each statement is published exactly once

Runs of the outbox and the collector from an empty queue on. A crash can come between the publication of a
statement and its deletion, between the deletion and the clearing of the note, and anywhere else.
-/

namespace GoSync.SqlServerLegacy

open Capture (Backlog Call Captured DecodesGroup Extends Keeps PublishedGroup ReadFile)
open Producer (Consistent Leads Positions Preserves)
open Queue (Limits)

variable {Raw : Type} {codec : Codec Raw} {rt : Runtime} {history : List Statement}
  {refs : List TableRef} {hash : String} {boundary durable : ChangeId} {outbox : Outbox}
  {groups : List PublishedGroup} {group : PublishedGroup} {drained : List Drained}

section Groups

theorem Drains.forall_groups (h : Drains rt hash boundary groups drained durable) :
    List.Forall₂ (fun d group => ∃ lsn, StatementGroup rt hash lsn d group) drained groups := by
  induction h with
  | start => exact .nil
  | statement _ _ _ _ hgroup ih => exact List.rel_append ih (.cons ⟨_, hgroup⟩ .nil)

theorem Drains.nodup (h : Drains rt hash boundary groups drained durable) :
    (drained.map Drained.statement).Nodup := by
  induction h with
  | start => exact List.nodup_nil
  | statement _ hfresh _ _ _ ih =>
      rw [List.map_append, List.map_singleton, List.nodup_append]
      refine ⟨ih, List.nodup_singleton _, ?_⟩
      rintro statement hmem other hother rfl
      exact hfresh (List.mem_singleton.mp hother ▸ hmem)

theorem Drains.events (h : Drains rt hash boundary groups drained durable) :
    ∀ d ∈ drained, (∀ event ∈ d.events, event ∈ d.statement.events)
      ∧ ((∀ event ∈ d.statement.events, boundary < event.changeId) →
        d.events = d.statement.events) := by
  induction h with
  | start => simp
  | statement _ _ hevents hall _ ih =>
      intro d hd
      rcases List.mem_append.mp hd with hd | hd
      · exact ih d hd
      · rw [List.mem_singleton.mp hd]
        exact ⟨hevents, hall⟩

def cursor (rt : Runtime) : Positions ChangeId where
  render := position
  parse := parsePosition
  runs boundary groups durable := ∃ hash drained, Drains rt hash boundary groups drained durable
  parse_render := parse_position
  position := by
    rintro boundary durable groups ⟨hash, drained, h⟩
    cases h with
    | start => rfl
    | statement _ _ _ _ hgroup =>
        obtain ⟨_, _, -, -, -, -, hmark, -⟩ := hgroup
        simp [Queue.lastLsn, hmark]
  last := by
    rintro boundary durable groups group ⟨hash, drained, h⟩
    generalize hgroups : groups ++ [group] = all at h
    cases h with
    | start => simp at hgroups
    | statement hdrains _ _ _ _ =>
        obtain ⟨rfl, -⟩ := List.append_inj' hgroups rfl
        exact ⟨_, ⟨hash, _, hdrains⟩, le_max_left _ _⟩

end Groups

variable {st : Queue.State} {read : ReadFile}

section Polls

/-- A poll publishes the statement with the smallest change. -/
theorem poll_publishes {info : Inspection refs}
    {current : Except Error (Inspection refs)} {lsn statement : String}
    (h : Call.publishSource lsn statement ∈ (poll rt read info current outbox st).requests) :
    ∃ first ∈ outbox.events, first.statement = statement
      ∧ ∀ event ∈ outbox.events, first.changeId ≤ event.changeId := by
  unfold poll at h
  rcases Plan.mem_bind h with h | ⟨_, -, h⟩
  · cases h
  rcases Plan.mem_bind h with h | ⟨_, -, h⟩
  · cases h
  split at h
  · cases h
  split at h
  · cases h
  rename_i other events hnext
  rcases Plan.mem_bind h with h | ⟨_, -, h⟩
  · unfold pollStatement at h
    split at h
    · cases h
    rcases Plan.mem_bind h with h | ⟨batch, -, h⟩
    · obtain ⟨message, hmessage⟩ := Producer.addRows_requests h
      cases hmessage
    rcases Plan.mem_bind h with h | ⟨batch', -, h⟩
    · obtain ⟨message, hmessage⟩ := Capture.Batch.flush_requests h
      cases hmessage
    rcases Plan.mem_bind h with h | ⟨_, -, h⟩
    · exact Call.noConfusion (List.mem_singleton.mp h)
    · obtain ⟨-, rfl⟩ := Call.publishSource.inj (List.mem_singleton.mp h)
      exact (Outbox.nextStatement_some hnext).1
  · cases h

end Polls

section Runs

/-- Where an attempt is between two of its plans, the ledger is as the next part needs it. -/
def Holds (rt : Runtime) : Local refs → Backlog → Prop
  | .checked info, b => b.staged = [] ∧ (b.phase = .stream → b.hash = rt.schemaHash info.tables)
  | .discarding info checkpoint, b => Ready rt info b ∧ checkpoint = b.snapshotLsn
  | .deleting info statement _, b => Ready rt info b ∧ b.sourceCleanup = statement ∧ statement ≠ ""
  | .polling info, b => Ready rt info b ∧ b.sourceCleanup = ""

structure InStep (rt : Runtime) (codec : Codec Raw) (history : List Statement)
    (s : System Raw rt.refs) (b : Backlog) : Prop where
  sound : s.outbox.Sound history
  complete : b.phase ≠ .stream → s.outbox.Complete history
  consistent : Consistent codec (Sealed rt history s.outbox) (Holds rt) s.collector b

variable {s : System Raw rt.refs} {b b' : Backlog}

theorem ensureInstalled_self {info info' : Inspection refs} {again : Except Error (Inspection refs)}
    (h : ensureInstalled rt info again = .ok info') (hinstalled : info.installed = true) :
    info' = info := by
  rw [ensureInstalled, if_pos hinstalled] at h
  exact (Except.ok.inj h).symm

theorem start_ok {inspected again : Except Error (Inspection refs)}
    {here : Local refs} (h : start rt inspected again st = .ok here) :
    ∃ info, here = .checked info
      ∧ (st.phase = .stream → st.schemaHash = rt.schemaHash info.tables) := by
  obtain ⟨info, -, h⟩ := Except.bind_eq_ok.mp h
  obtain ⟨_, hcheck, h⟩ := Except.bind_eq_ok.mp h
  obtain ⟨info', hinstalled, h⟩ := Except.bind_eq_ok.mp h
  cases h
  refine ⟨info', rfl, fun hphase => ?_⟩
  unfold checkAttempt at hcheck
  rw [if_neg (by rw [hphase]; exact Phase.noConfusion)] at hcheck
  split_ifs at hcheck with hscope hhash
  rw [not_or, not_not] at hscope
  rw [ensureInstalled_self hinstalled hscope.1]
  exact not_not.mp fun hne => hhash ⟨hphase, hne⟩

variable {info : Inspection rt.refs}

/-- A snapshot leaves the events it covers to be discarded. -/
theorem keeps_takeSnapshot {input : SnapshotInput}
    (hcomplete : outbox.Complete history) (hb : Captured (Sealed rt history outbox) b) :
    Keeps (Sealed rt history outbox) b
      (do snapshot rt read info input boundary; pure (Local.discarding info (position boundary)))
      (Holds rt) fun _ _ => True := by
  apply Plan.Triple.bind (fun _ b' => Ready rt info b' ∧ position boundary = b'.snapshotLsn)
  · unfold snapshot
    split
    · exact Plan.Triple.fail hb trivial
    refine (Producer.keeps_snapshot hb ?_ fun _ _ => trivial).mono ?_ fun _ _ _ herr => herr
    · intro group hgroup
      have hsnapshot : SnapshotGroup rt (rt.schemaHash info.tables) boundary group :=
        ⟨info, input.contents, rfl, hgroup⟩
      refine ⟨group, [], boundary, boundary, [], rfl, hsnapshot, .start, ?_, ?_, rfl,
        hcomplete.accounts⟩
      · simp [Capture.Backlog.hash, Queue.lastHash, hsnapshot.mark]
      · simp [Capture.Backlog.durableLsn, Queue.lastLsn, hsnapshot.mark]
    · exact fun _ _ _ hsnapped =>
        ⟨⟨hsnapped.phase, hsnapped.staged, hsnapped.hash⟩, hsnapped.snapshotLsn.symm⟩
  · exact fun _ _ _ hb' hpost => Plan.Triple.pure hb' hpost

/-- A poll leaves a statement to delete, or nothing to do. -/
theorem keeps_takePoll {current : Except Error (Inspection rt.refs)} (hformed : Wellformed history)
    (hsound : outbox.Sound history) (hb : Captured (Sealed rt history outbox) b)
    (hready : Ready rt info b) (hcleanup : b.sourceCleanup = "") (hst : st.durableLsn = b.durableLsn) :
    Keeps (Sealed rt history outbox) b
      (do
        let published ← poll rt read info current outbox st
        pure (match published with
          | none => .polling info
          | some statement => .deleting info statement false))
      (Holds rt) fun _ _ => True := by
  apply Plan.Triple.bind (fun (published : Option String) b' => Ready rt info b'
    ∧ b'.sourceCleanup = published.getD "" ∧ published ≠ some "")
  · unfold poll
    apply Plan.Triple.bind (fun _ b' => b = b')
    · exact Plan.Triple.lift hb (fun _ _ => rfl) fun _ _ => trivial
    rintro source _ - - rfl
    apply Plan.Triple.bind (fun _ b' => b = b')
    · exact Plan.Triple.lift hb (fun _ _ => rfl) fun _ _ => trivial
    rintro - _ - - rfl
    split
    · exact Plan.Triple.fail hb trivial
    rename_i durable hdurable
    split
    · exact Plan.Triple.pure hb ⟨hready, hcleanup, nofun⟩
    rename_i statement events hnext
    have hposition : b.durableLsn = position durable := by
      obtain ⟨_, _, _, durable', _, -, -, -, -, hposition, -⟩ := hb.sealed hready.phase
      have hposition : b.durableLsn = position durable' := hposition
      rw [hst, hposition, parse_position] at hdurable
      rw [hposition, Option.some.inj hdurable]
    have hnamed : statement ≠ "" := by
      obtain ⟨⟨first, hfirst, rfl, -⟩, -⟩ := Outbox.nextStatement_some hnext
      obtain ⟨t, ht, hevent⟩ := hsound.pending first hfirst
      rw [hformed.owned t (Outbox.mem_history ht) first hevent]
      exact hformed.named t (Outbox.mem_history ht)
    refine Plan.Triple.bind _
      (keeps_pollStatement hformed hsound hb hready hcleanup hposition hnext) ?_
    rintro - b' - hb' ⟨hready', hcleanup'⟩
    exact Plan.Triple.pure hb' ⟨hready', hcleanup', fun heq => hnamed (Option.some.inj heq)⟩
  · rintro published b' - hb' ⟨hready', hcleanup', hnamed⟩
    refine Plan.Triple.pure hb' ?_
    cases published with
    | none => exact ⟨hready', hcleanup'⟩
    | some statement => exact ⟨hready', hcleanup', fun heq => hnamed (congrArg some heq)⟩

def Steps (rt : Runtime) (codec : Codec Raw) (history : List Statement) (b : Backlog)
    (s : System Raw rt.refs) : Prop :=
  ∃ b', InStep rt codec history s b' ∧ (b.phase = .stream → Extends b b')

theorem InStep.collect {collector : Producer.Process Raw (Local rt.refs) Error}
    (h : InStep rt codec history s b)
    (hpreserves : Preserves codec (Sealed rt history s.outbox) (Holds rt) b collector) :
    Steps rt codec history b { s with collector := collector } := by
  obtain ⟨b', hconsistent, hextends⟩ := hpreserves
  refine ⟨b', ⟨h.sound, fun hunsealed => h.complete fun hsealed => ?_, hconsistent⟩, hextends⟩
  exact hunsealed (hextends hsealed).phase

theorem InStep.commit (h : InStep rt codec history s b) (hformed : Wellformed history) :
    Steps rt codec history b { s with outbox := s.outbox.commit history } :=
  ⟨b, ⟨h.sound.commit hformed, fun hunsealed => (h.complete hunsealed).commit,
    ⟨h.consistent.keeping, h.consistent.running.mono (fun _ hsealed => hsealed.commit hformed)
      fun _ _ hholds => hholds⟩⟩, .refl⟩

theorem Outbox.nextCovered_le {id : ChangeId} (h : outbox.nextCovered boundary = some id) :
    id ≤ boundary := by
  obtain ⟨event, hhead, rfl⟩ := Option.map_eq_some_iff.mp h
  have hmem := (List.mem_insertionSort _).mp (List.mem_of_head? hhead)
  exact of_decide_eq_true (List.mem_filter.mp hmem).2

/-- What the snapshot covers is deleted after it is sealed. -/
theorem InStep.discard {checkpoint : String} (h : InStep rt codec history s b)
    (hplan : s.collector.plan = some ⟨[], .ok (.discarding info checkpoint)⟩) :
    Steps rt codec history b (s.discard info checkpoint) := by
  have hrunning := h.consistent.running
  rw [hplan] at hrunning
  obtain ⟨hcaptured, hready, hcheckpoint⟩ := hrunning
  unfold System.discard
  split
  · exact h.collect (h.consistent.replan hcaptured)
  rename_i point hpoint
  split
  · rename_i id hid
    obtain ⟨first, rest, boundary, durable, drained, hgroups, hfirst, hdrains, hhash, hdurable,
      hboundary, haccounts⟩ := hcaptured.sealed hready.phase
    have hboundary : b.snapshotLsn = position boundary := hboundary
    rw [hcheckpoint, hboundary, parse_position] at hpoint
    have hcovered : id ≤ boundary := Option.some.inj hpoint ▸ Outbox.nextCovered_le hid
    have hafter : Captured (Sealed rt history (s.outbox.deleteEvent id)) b :=
      ⟨hcaptured.numbered, .inr ⟨hready.phase, first, rest, boundary, durable, drained, hgroups, hfirst,
        hdrains, hhash, hdurable, hboundary, haccounts.deleteEvent hcovered⟩⟩
    refine ⟨b, ⟨h.sound.filter, fun hunsealed => absurd hready.phase hunsealed,
      h.consistent.keeping, ?_⟩, .refl⟩
    rw [hplan]
    exact ⟨hafter, hready, hcheckpoint⟩
  · apply h.collect
    apply h.consistent.replan
    have hcleanup := h.consistent.keeping.sourceCleanup
    split
    · rename_i hempty
      exact ⟨hcaptured, hready, hcleanup.symm.trans hempty⟩
    · rename_i hnoted
      exact ⟨hcaptured, hready, hcleanup.symm, hnoted⟩

/-- A statement is deleted after it is published. -/
theorem InStep.delete {statement : String} {allowMissing : Bool}
    (h : InStep rt codec history s b) (hformed : Wellformed history)
    (hplan : s.collector.plan = some ⟨[], .ok (.deleting info statement allowMissing)⟩) :
    Steps rt codec history b (s.delete info statement allowMissing) := by
  have hrunning := h.consistent.running
  rw [hplan] at hrunning
  obtain ⟨hcaptured, hready, hcleanup, hnamed⟩ := hrunning
  unfold System.delete
  split
  · exact h.collect (h.consistent.replan hcaptured)
  rename_i outbox hdeleted
  unfold Outbox.deleteStatement at hdeleted
  split at hdeleted
  · cases hdeleted
  cases hdeleted
  obtain ⟨first, rest, boundary, durable, drained, hgroups, hfirst, hdrains, hhash, hdurable,
    hboundary, haccounts⟩ := hcaptured.sealed hready.phase
  have haccounts : Accounts history s.outbox boundary drained statement := hcleanup ▸ haccounts
  refine ⟨b, ⟨h.sound.filter, fun hunsealed => absurd hready.phase hunsealed,
    h.consistent.keeping, ?_⟩, .refl⟩
  refine (keeps_clear (fun cleanup hnote => ?_) hcaptured.numbered hready hcleanup).mono ?_
    fun _ _ _ herr => herr
  · exact ⟨first, rest, boundary, durable, drained, hgroups, hfirst, hdrains, hhash, hdurable,
      hboundary, haccounts.deleteStatement hformed hnamed hnote⟩
  · rintro _ b' - ⟨rfl, hpost⟩
    exact hpost

/-- One action of the database or the collector. -/
theorem InStep.act (h : InStep rt codec history s b) (hformed : Wellformed history)
    (action : Action rt.refs) : Steps rt codec history b (s.act rt codec history action) := by
  have hcaptured := h.consistent.running.captured
  cases action with
  | commit => exact h.commit hformed
  | attempt inspected again =>
      apply h.collect
      apply h.consistent.attempt
      intro queue here hkeeping hstart
      obtain ⟨info, rfl, hhash⟩ := start_ok hstart
      refine ⟨rfl, fun hphase => ?_⟩
      rw [← hkeeping.schemaHash]
      exact hhash (hkeeping.phase.trans hphase)
  | snapshot input read =>
      apply h.collect
      apply h.consistent.proceed
      intro here plan _ hplan
      unfold takeSnapshot at hplan
      split at hplan
      · split at hplan
        · cases hplan
        · rename_i hphase
          cases hplan
          exact keeps_takeSnapshot
            (h.complete fun hsealed => hphase (h.consistent.keeping.phase.trans hsealed)) hcaptured
      · cases hplan
  | resume =>
      apply h.collect
      apply h.consistent.proceed
      intro here plan hholds hplan
      unfold resume at hplan
      split at hplan
      · split at hplan
        · rename_i hphase
          cases hplan
          have hstream := h.consistent.keeping.phase.symm.trans hphase
          exact Plan.Triple.pure hcaptured
            ⟨⟨hstream, hholds.1, hholds.2 hstream⟩, h.consistent.keeping.snapshotLsn⟩
        · cases hplan
      · cases hplan
  | tidy =>
      simp only [System.act, System.tidy]
      split
      · exact h.discard ‹_›
      · exact h.delete hformed ‹_›
      · exact ⟨b, h, .refl⟩
  | poll current read =>
      apply h.collect
      apply h.consistent.proceed
      intro here plan hholds hplan
      unfold takePoll at hplan
      split at hplan
      · cases hplan
        exact keeps_takePoll hformed h.sound hcaptured hholds.1 hholds.2
          h.consistent.keeping.durableLsn
      · cases hplan
  | event event => exact h.collect (h.consistent.happen event)

theorem InStep.run (hformed : Wellformed history) (actions : List (Action rt.refs))
    (h : InStep rt codec history s b) :
    ∃ b', InStep rt codec history (s.run rt codec history actions) b' := by
  induction actions generalizing s b with
  | nil => exact ⟨b, h⟩
  | cons action actions ih =>
      obtain ⟨b', h', -⟩ := h.act hformed action
      exact ih h'

theorem inStep_opened (limits : Limits) :
    InStep rt codec history (System.opened rt.refs limits) { origin := {}, phase := .unset } :=
  ⟨⟨fun _ hmem => (List.not_mem_nil hmem).elim, List.nodup_nil⟩,
    fun _ _ hmem => (List.not_mem_nil hmem).elim, Producer.consistent_opened limits⟩

theorem Sealed.leads (h : Sealed rt history outbox b) : ∃ durable, Leads (cursor rt) b durable := by
  obtain ⟨first, rest, boundary, durable, drained, hgroups, hfirst, hdrains, -, hdurable, -⟩ := h
  exact ⟨durable, ⟨first, rest, boundary, hgroups, by rw [hfirst.mark]; rfl, _, _, hdrains⟩, hdurable⟩

/-- **The legacy outbox is drained exactly once.** Before the snapshot is sealed, nothing is published or
deleted. Afterwards the groups are those of different committed statements. One that lies wholly above the
boundary is published with all its events in order, or it has not been published and all its events are
still in the outbox. What is missing in the outbox has been published or lies within the snapshot. No
action moves the durable position back, and a poll publishes only the statement with the smallest
change. -/
theorem statements_exactly_once (rt : Runtime) (codec : Codec Raw) (history : List Statement)
    (hformed : Wellformed history) (limits : Limits) (actions : List (Action rt.refs)) :
    let s := (System.opened rt.refs limits).run rt codec history actions
    let st := s.collector.queue.db.state
    let committed := s.outbox.done history
    (st.phase ≠ .stream →
        s.collector.queue.groups = [] ∧ ∀ statement ∈ committed, ∀ event ∈ statement.events,
          event ∈ s.outbox.events)
      ∧ (st.phase = .stream → ∃ boundary durable snap groups drained hash,
        parsePosition st.durableLsn = some durable
          ∧ List.Forall₂ (DecodesGroup codec) s.collector.queue.groups (snap :: groups)
          ∧ SnapshotGroup rt hash boundary snap
          ∧ List.Forall₂ (fun d group => ∃ lsn, StatementGroup rt hash lsn d group) drained groups
          ∧ (drained.map Drained.statement).Nodup
          ∧ (∀ d ∈ drained, d.statement ∈ committed ∧ (∀ event ∈ d.events, event ∈ d.statement.events)
              ∧ ((∀ event ∈ d.statement.events, boundary < event.changeId) →
                d.events = d.statement.events))
          ∧ (∀ statement ∈ committed, (∀ event ∈ statement.events, boundary < event.changeId) →
              statement ∈ drained.map Drained.statement
                ∨ ∀ event ∈ statement.events, event ∈ s.outbox.events)
          ∧ (∀ statement ∈ committed, ∀ event ∈ statement.events, event ∉ s.outbox.events →
              statement ∈ drained.map Drained.statement ∨ event.changeId ≤ boundary)
          ∧ ∀ action, let st' := (s.act rt codec history action).collector.queue.db.state
              st'.phase = .stream
                ∧ ∃ durable', parsePosition st'.durableLsn = some durable' ∧ durable ≤ durable')
      ∧ ∀ (info : Inspection rt.refs) current read lsn statement,
          Call.publishSource lsn statement ∈ (poll rt read info current s.outbox st).requests →
            ∃ first ∈ s.outbox.events, first.statement = statement
              ∧ ∀ event ∈ s.outbox.events, first.changeId ≤ event.changeId := by
  intro s st committed
  have hopened : InStep rt codec history (System.opened rt.refs limits) _ := inStep_opened limits
  obtain ⟨b, h⟩ := hopened.run hformed actions
  have hphase : st.phase = b.phase := h.consistent.keeping.phase
  have hcaptured := h.consistent.running.captured
  rw [hphase]
  refine ⟨fun hunsealed => ⟨h.consistent.unsealed hunsealed, h.complete hunsealed⟩, fun hstream => ?_,
    fun _ _ _ _ _ => poll_publishes⟩
  obtain ⟨first, rest, boundary, durable, drained, hgroups, hfirst, hdrains, -, hdurable, -,
    haccounts⟩ := hcaptured.sealed hstream
  have hgroups : b.groups = first :: rest := hgroups
  have hleads : Leads (cursor rt) b.settled durable :=
    ⟨⟨first, rest, boundary, hgroups, by rw [hfirst.mark]; rfl, _, _, hdrains⟩, hdurable⟩
  have hst : parsePosition st.durableLsn = some durable := hleads.parse h.consistent.keeping
  have hdecodes : List.Forall₂ (DecodesGroup codec) s.collector.queue.groups (first :: rest) :=
    hgroups ▸ h.consistent.keeping.groups
  refine ⟨boundary, durable, first, rest, drained, b.origin.schemaHash, hst, hdecodes, hfirst,
    hdrains.forall_groups, hdrains.nodup, fun d hd => ⟨haccounts.committed d hd, hdrains.events d hd⟩,
    ?_, ?_, ?_⟩
  · intro statement hstatement habove
    by_cases hdrained : statement ∈ drained.map Drained.statement
    · exact .inl hdrained
    · refine .inr fun event hevent => ?_
      rcases haccounts.kept statement hstatement event hevent with hkept | hpublished | hcovered
      · exact hkept
      · exact absurd hpublished hdrained
      · exact absurd (habove event hevent) hcovered.not_gt
  · intro statement hstatement event hevent hmissing
    exact (haccounts.kept statement hstatement event hevent).resolve_left hmissing
  · intro action st'
    obtain ⟨b', h', hextends⟩ := h.act hformed action
    have hextends := hextends hstream
    obtain ⟨after, hafter⟩ := (h'.consistent.running.captured.sealed hextends.phase).leads
    exact ⟨h'.consistent.keeping.phase.trans hextends.phase, after, hafter.parse h'.consistent.keeping,
      hleads.advance hafter hextends⟩

/-- A collector that crashes between the publication of a statement and its deletion deletes it before it
polls again. -/
theorem statements_exactly_once_after_crash :
    let ref : TableRef := ⟨"dbo", "t"⟩
    let rt : Runtime :=
      { sizing := { cfg := { sourceId := "s", tables := [ref] }, rowSize := fun _ => 1 }
        schemaHash := fun _ => "h", print := { text := fun _ => "7", float := fun _ _ => "" } }
    let table : Table :=
      { schema := "dbo", name := "t", objectId := 1
        columns := [{ name := "id", type := "int", primary := true, baseType := "int" }] }
    let info : Inspection rt.refs := { tables := [table], covers := .refl _ }
    let event : ChangeId → String → OutboxEvent := fun id statement =>
      { changeId := id, statement := statement, objectId := 1, operation := "I",
        values := [{ ordinal := 1, text := some [55] }] }
    let history : List Statement :=
      [⟨"a", [event 1 "a"]⟩, ⟨"b", [event 3 "b"]⟩, ⟨"c", [event 2 "c"]⟩]
    let read : ReadFile := fun _ _ _ => .error ""
    let limits : Limits := { maxBytes := 100, reserve := 0 }
    let perform : Action rt.refs := .event (.perform { free := some 1000000, now := "now" })
    let actions : List (Action rt.refs) :=
      [.commit, .attempt (.ok info) (.ok info), .snapshot { token := "g", contents := fun _ => [] } read]
      ++ List.replicate 6 perform
      ++ [.tidy, .tidy, .commit, .poll (.ok info) read] ++ List.replicate 3 perform
      ++ [.event (.reopen limits), .attempt (.ok info) (.ok info), .resume, .tidy, .tidy, perform,
        .commit, .poll (.ok info) read] ++ List.replicate 3 perform ++ [.tidy, perform]
    let s := (System.opened rt.refs limits).run rt .plain history actions
    s.outbox.events = [] ∧ parsePosition s.collector.queue.db.state.durableLsn = some 3
      ∧ ∃ boundary snap groups drained hash,
        List.Forall₂ (DecodesGroup .plain) s.collector.queue.groups (snap :: groups)
          ∧ SnapshotGroup rt hash boundary snap
          ∧ List.Forall₂ (fun d group => ∃ lsn, StatementGroup rt hash lsn d group) drained groups
          ∧ (drained.map Drained.statement).Nodup := by
  intro ref rt table info event history read limits perform actions
  have hphase : ((System.opened rt.refs limits).run rt .plain history
      actions).collector.queue.db.state.phase = .stream := by decide +revert
  have houtbox : ((System.opened rt.refs limits).run rt .plain history actions).outbox.events
      = [] := by decide +revert
  have hdurable : parsePosition ((System.opened rt.refs limits).run rt .plain history
      actions).collector.queue.db.state.durableLsn = some 3 := by decide +revert
  have hrun := (statements_exactly_once rt .plain history
    ⟨by decide +revert, by decide +revert, by decide +revert, by decide +revert⟩ limits actions).2.1
  generalize (System.opened rt.refs limits).run rt .plain history actions = s
    at hphase houtbox hdurable hrun ⊢
  obtain ⟨boundary, durable, snap, groups, drained, hash, -, hdecodes, hsnap, hgroups, hnodup, -⟩ :=
    hrun hphase
  exact ⟨houtbox, hdurable, boundary, snap, groups, drained, hash, hdecodes, hsnap, hgroups, hnodup⟩

end Runs

end GoSync.SqlServerLegacy
