import GoSync.SqlServerLegacy.Collector

/-!
# The outbox and what has been published of it

`Accounts` ties the two databases together. An event that is no longer in the outbox belongs to a
published statement or lies within the snapshot, and a published statement of which events are left is the
one the queue state has a note of. So a statement is published only while it has not been before.
-/

namespace GoSync.SqlServerLegacy

open Capture (Backlog Call Captured chunkMessages Keeps PublishedGroup ReadFile Staging Stamped)
open Producer (Added)

variable {rt : Runtime} {history : List Statement} {outbox : Outbox} {refs : List TableRef}
  {boundary durable : ChangeId} {statement : String} {events : List OutboxEvent}

section Outboxes

structure Wellformed (history : List Statement) : Prop where
  ids : (history.map Statement.id).Nodup
  named : ∀ s ∈ history, s.id ≠ ""
  owned : ∀ s ∈ history, ∀ event ∈ s.events, event.statement = s.id
  ordered : ∀ s ∈ history, s.events.Pairwise fun earlier later => earlier.changeId < later.changeId

theorem Wellformed.eq_of_id (h : Wellformed history) {s t : Statement} (hs : s ∈ history)
    (ht : t ∈ history) (hid : s.id = t.id) : s = t :=
  List.inj_on_of_nodup_map h.ids hs ht hid

theorem Wellformed.changes_nodup (h : Wellformed history) {s : Statement} (hs : s ∈ history) :
    (s.events.map OutboxEvent.changeId).Nodup :=
  List.pairwise_map.mpr ((h.ordered s hs).imp fun hlt => ne_of_lt hlt)

def Outbox.done (outbox : Outbox) (history : List Statement) : List Statement :=
  history.take outbox.committed

theorem Outbox.mem_history {s : Statement} (h : s ∈ outbox.done history) : s ∈ history :=
  List.mem_of_mem_take h

structure Outbox.Sound (history : List Statement) (outbox : Outbox) : Prop where
  pending : ∀ event ∈ outbox.events, ∃ s ∈ outbox.done history, event ∈ s.events
  nodup : outbox.events.Nodup

def Outbox.Complete (history : List Statement) (outbox : Outbox) : Prop :=
  ∀ s ∈ outbox.done history, ∀ event ∈ s.events, event ∈ outbox.events

theorem Outbox.commit_cases (history : List Statement) (outbox : Outbox) :
    outbox.commit history = outbox
      ∨ ∃ s ∈ history, (outbox.commit history).done history = outbox.done history ++ [s]
        ∧ (outbox.commit history).events = outbox.events ++ s.events := by
  unfold Outbox.commit
  split
  · exact .inl rfl
  · rename_i s hs
    refine .inr ⟨s, List.mem_of_getElem? hs, ?_, rfl⟩
    rw [Outbox.done, List.take_add_one, hs]
    rfl

theorem Wellformed.fresh (h : Wellformed history) {s t : Statement}
    (hdone : (outbox.commit history).done history = outbox.done history ++ [s])
    (ht : t ∈ outbox.done history) : t.id ≠ s.id := by
  have hnodup : ((outbox.done history ++ [s]).map Statement.id).Nodup := by
    rw [← hdone, Outbox.done, List.map_take]
    exact (List.take_sublist _ _).nodup h.ids
  rw [List.map_append] at hnodup
  intro heq
  exact List.disjoint_of_nodup_append hnodup (List.mem_map_of_mem ht) (by simp [heq])

theorem Outbox.Sound.commit (h : outbox.Sound history) (hformed : Wellformed history) :
    (outbox.commit history).Sound history := by
  rcases outbox.commit_cases history with hsame | ⟨s, hs, hdone, hevents⟩
  · rwa [hsame]
  refine ⟨?_, ?_⟩
  · rw [hevents, hdone]
    intro event hmem
    rcases List.mem_append.mp hmem with hmem | hmem
    · obtain ⟨t, ht, hevent⟩ := h.pending event hmem
      exact ⟨t, List.mem_append_left _ ht, hevent⟩
    · exact ⟨s, by simp, hmem⟩
  · rw [hevents, List.nodup_append]
    refine ⟨h.nodup, (hformed.changes_nodup hs).of_map _, ?_⟩
    rintro event hold other hother rfl
    obtain ⟨t, ht, hevent⟩ := h.pending event hold
    have hid : t.id = s.id :=
      (hformed.owned t (Outbox.mem_history ht) event hevent).symm.trans
        (hformed.owned s hs event hother)
    exact hformed.fresh hdone ht hid

theorem Outbox.Sound.filter {keep : OutboxEvent → Bool} (h : outbox.Sound history) :
    ({ outbox with events := outbox.events.filter keep } : Outbox).Sound history :=
  ⟨fun event hmem => h.pending event (List.mem_of_mem_filter hmem), h.nodup.filter _⟩

theorem Outbox.Complete.commit (h : outbox.Complete history) :
    (outbox.commit history).Complete history := by
  rcases outbox.commit_cases history with hsame | ⟨s, -, hdone, hevents⟩
  · rwa [hsame]
  unfold Outbox.Complete
  rw [hdone, hevents]
  intro t ht event hevent
  rcases List.mem_append.mp ht with ht | ht
  · exact List.mem_append_left _ (h t ht event hevent)
  · rw [List.mem_singleton.mp ht] at hevent
    exact List.mem_append_right _ hevent

instance : IsTrans OutboxEvent fun a b => a.changeId ≤ b.changeId := ⟨fun _ _ _ => le_trans⟩

instance : Std.Total fun a b : OutboxEvent => a.changeId ≤ b.changeId :=
  ⟨fun a b => le_total a.changeId b.changeId⟩

/-- The next statement has the smallest change, and its events are in order. -/
theorem Outbox.nextStatement_some (h : outbox.nextStatement = some (statement, events)) :
    (∃ first ∈ outbox.events, first.statement = statement
        ∧ ∀ event ∈ outbox.events, first.changeId ≤ event.changeId)
      ∧ events.Perm (outbox.events.filter fun event => event.statement = statement)
      ∧ events.Pairwise fun earlier later => earlier.changeId ≤ later.changeId := by
  unfold Outbox.nextStatement at h
  split at h
  · cases h
  · rename_i first hfirst
    cases h
    have hsorted : (byChange outbox.events).Pairwise fun a b => a.changeId ≤ b.changeId :=
      List.pairwise_insertionSort _ _
    obtain ⟨rest, hrest⟩ := List.head?_eq_some_iff.mp hfirst
    have hmem : ∀ event, event ∈ byChange outbox.events ↔ event ∈ outbox.events :=
      fun event => List.mem_insertionSort _
    rw [hrest] at hsorted hmem
    refine ⟨⟨first, (hmem first).mp List.mem_cons_self, rfl, fun event hevent => ?_⟩,
      List.perm_insertionSort _ _, List.pairwise_insertionSort _ _⟩
    rcases List.mem_cons.mp ((hmem event).mpr hevent) with rfl | hlater
    · exact le_rfl
    · exact List.rel_of_pairwise_cons hsorted hlater

end Outboxes

section Accounts

/-- A published statement, with the events of it that were left when it was read. -/
structure Drained where
  statement : Statement
  events : List OutboxEvent

/-- The outbox after the statements `drained` have been published. -/
structure Accounts (history : List Statement) (outbox : Outbox) (boundary : ChangeId)
    (drained : List Drained) (cleanup : String) : Prop where
  committed : ∀ d ∈ drained, d.statement ∈ outbox.done history
  kept : ∀ s ∈ outbox.done history, ∀ event ∈ s.events, event ∈ outbox.events
    ∨ s ∈ drained.map Drained.statement ∨ event.changeId ≤ boundary
  left : ∀ event ∈ outbox.events, ∀ d ∈ drained, event.statement = d.statement.id →
    event.statement = cleanup
  noted : cleanup = "" ∨ ∃ d ∈ drained, d.statement.id = cleanup

variable {drained : List Drained} {cleanup : String}

theorem Outbox.Complete.accounts (h : outbox.Complete history) :
    Accounts history outbox boundary [] "" :=
  ⟨by simp, fun s hs event hevent => .inl (h s hs event hevent), by simp, .inl rfl⟩

theorem Accounts.commit (h : Accounts history outbox boundary drained cleanup)
    (hformed : Wellformed history) :
    Accounts history (outbox.commit history) boundary drained cleanup := by
  rcases outbox.commit_cases history with hsame | ⟨s, hs, hdone, hevents⟩
  · rwa [hsame]
  refine ⟨?_, ?_, ?_, h.noted⟩
  · rw [hdone]
    exact fun d hd => List.mem_append_left _ (h.committed d hd)
  · rw [hdone, hevents]
    intro t ht event hevent
    rcases List.mem_append.mp ht with ht | ht
    · exact (h.kept t ht event hevent).imp (List.mem_append_left _) id
    · rw [List.mem_singleton.mp ht] at hevent
      exact .inl (List.mem_append_right _ hevent)
  · rw [hevents]
    intro event hmem d hd hid
    rcases List.mem_append.mp hmem with hmem | hmem
    · exact h.left event hmem d hd hid
    · have hnew := hformed.fresh hdone (h.committed d hd)
      exact absurd (hid.symm.trans (hformed.owned s hs event hmem)) hnew

/-- A statement that is noted can be deleted. -/
theorem Accounts.deleteStatement {cleanup' : String}
    (h : Accounts history outbox boundary drained cleanup) (hformed : Wellformed history)
    (hnote : cleanup ≠ "") (hcleanup : cleanup' = "" ∨ cleanup' = cleanup) :
    Accounts history
      { outbox with events := outbox.events.filter fun event => event.statement ≠ cleanup } boundary
      drained cleanup' := by
  refine ⟨h.committed, fun s hs event hevent => ?_, fun event hmem d hd hid => ?_, ?_⟩
  · rcases h.kept s hs event hevent with hkept | hrest
    · by_cases hnoted : event.statement = cleanup
      · obtain ⟨d, hd, hid⟩ := h.noted.resolve_left hnote
        have howned := hformed.owned s (Outbox.mem_history hs) event hevent
        have hsame : d.statement = s := hformed.eq_of_id (Outbox.mem_history (h.committed d hd))
          (Outbox.mem_history hs) (by rw [hid, ← hnoted, howned])
        exact .inr (.inl (List.mem_map.mpr ⟨d, hd, hsame⟩))
      · exact .inl (List.mem_filter.mpr ⟨hkept, by simpa using hnoted⟩)
    · exact .inr hrest
  · obtain ⟨hmem, hother⟩ := List.mem_filter.mp hmem
    exact absurd (h.left event hmem d hd hid) (by simpa using hother)
  · rcases hcleanup with rfl | rfl
    · exact .inl rfl
    · exact h.noted

theorem Accounts.deleteEvent {id : ChangeId} (h : Accounts history outbox boundary drained cleanup)
    (hcovered : id ≤ boundary) : Accounts history (outbox.deleteEvent id) boundary drained cleanup := by
  refine ⟨h.committed, fun s hs event hevent => ?_, fun event hmem d hd hid => ?_, h.noted⟩
  · rcases h.kept s hs event hevent with hkept | hrest
    · by_cases hdeleted : event.changeId = id
      · exact .inr (.inr (hdeleted ▸ hcovered))
      · exact .inl (List.mem_filter.mpr ⟨hkept, by simpa using hdeleted⟩)
    · exact .inr hrest
  · exact h.left event (List.mem_of_mem_filter hmem) d hd hid

/-- What a poll reads: a statement that has not been published, with all of its events above the
boundary. -/
theorem Accounts.next (h : Accounts history outbox boundary drained "")
    (hformed : Wellformed history) (hsound : outbox.Sound history)
    (hnext : outbox.nextStatement = some (statement, events)) :
    ∃ s ∈ outbox.done history, s.id = statement ∧ s ∉ drained.map Drained.statement
      ∧ (∀ event ∈ events, event ∈ s.events)
      ∧ ((∀ event ∈ s.events, boundary < event.changeId) → events = s.events)
      ∧ Accounts history outbox boundary (drained ++ [⟨s, events⟩]) statement := by
  obtain ⟨⟨first, hfirst, hname, -⟩, hperm, hsorted⟩ := Outbox.nextStatement_some hnext
  obtain ⟨s, hs, hown⟩ := hsound.pending first hfirst
  have hhistory := Outbox.mem_history hs
  have hid : s.id = statement := (hformed.owned s hhistory first hown).symm.trans hname
  -- A published statement has no event in the outbox, for there is no note.
  have hgone : ∀ event ∈ outbox.events, ∀ d ∈ drained, event.statement ≠ d.statement.id := by
    intro event hmem d hd heq
    obtain ⟨t, ht, hevent⟩ := hsound.pending event hmem
    have hempty := h.left event hmem d hd heq
    rw [hformed.owned t (Outbox.mem_history ht) event hevent] at hempty
    exact hformed.named t (Outbox.mem_history ht) hempty
  have hfresh : s ∉ drained.map Drained.statement := by
    intro hmem
    obtain ⟨d, hd, hsame⟩ := List.mem_map.mp hmem
    exact hgone first hfirst d hd (by rw [hname, ← hid, ← hsame])
  have hmem : ∀ event, event ∈ events ↔ event ∈ outbox.events ∧ event.statement = statement := by
    intro event
    rw [hperm.mem_iff, List.mem_filter, decide_eq_true_eq]
  have hevents : ∀ event ∈ events, event ∈ s.events := by
    intro event hevent
    obtain ⟨hin, hstatement⟩ := (hmem event).mp hevent
    obtain ⟨t, ht, hmine⟩ := hsound.pending event hin
    have hsame : t = s := hformed.eq_of_id (Outbox.mem_history ht) hhistory
      (by rw [← hformed.owned t (Outbox.mem_history ht) event hmine, hstatement, hid])
    exact hsame ▸ hmine
  refine ⟨s, hs, hid, hfresh, hevents, ?_, ?_, ?_, ?_, ?_⟩
  · intro habove
    have hnodup := hformed.changes_nodup hhistory
    have hsame : events.Perm s.events := by
      rw [List.perm_ext_iff_of_nodup (hperm.nodup_iff.mpr (hsound.nodup.filter _)) (hnodup.of_map _)]
      refine fun event => ⟨hevents event, fun hevent => (hmem event).mpr ⟨?_, ?_⟩⟩
      · rcases h.kept s hs event hevent with hkept | hdrained | hcovered
        · exact hkept
        · exact absurd hdrained hfresh
        · exact absurd (habove event hevent) hcovered.not_gt
      · rw [hformed.owned s hhistory event hevent, hid]
    refine hsame.eq_of_pairwise ?_ hsorted ((hformed.ordered s hhistory).imp fun hlt => le_of_lt hlt)
    intro a b ha hb hab hba
    exact List.inj_on_of_nodup_map hnodup (hevents a ha) hb (le_antisymm hab hba)
  · intro d hd
    rcases List.mem_append.mp hd with hd | hd
    · exact h.committed d hd
    · rw [List.mem_singleton.mp hd]
      exact hs
  · intro t ht event hevent
    refine (h.kept t ht event hevent).imp id (Or.imp ?_ id)
    intro hdrained
    rw [List.map_append]
    exact List.mem_append_left _ hdrained
  · intro event hin d hd heq
    rcases List.mem_append.mp hd with hd | hd
    · exact absurd heq (hgone event hin d hd)
    · rw [List.mem_singleton.mp hd] at heq
      exact heq.trans hid
  · exact .inr ⟨⟨s, events⟩, by simp, hid⟩

end Accounts

section Groups

def statementMessages (statement lsn : String) (chunks : List (List Row)) : List Message :=
  chunkMessages (template statement lsn) chunks
    ++ [{ kind := .transactionEnd, transaction := transactionText statement, lsn := lsn,
          chunk := chunks.length }]

/-- The group of a statement: its events in order, read under a catalog with the hash in force. -/
def StatementGroup (rt : Runtime) (hash : String) (lsn : ChangeId) (d : Drained)
    (group : PublishedGroup) : Prop :=
  ∃ tables chunks, rt.schemaHash tables = hash ∧ (tables.map Table.ref).Perm rt.refs
    ∧ Added rt.sizing (eventRows rt tables d.events) chunks.flatten ∧ (∀ rows ∈ chunks, rows ≠ [])
    ∧ group.mark = { lsn := position lsn }
    ∧ List.Forall₂ (Stamped hash) (statementMessages d.statement.id (position lsn) chunks) group.values

/-- The groups after a snapshot at `boundary`, with the statements they are of and the position they lead
to. -/
inductive Drains (rt : Runtime) (hash : String) (boundary : ChangeId) :
    List PublishedGroup → List Drained → ChangeId → Prop where
  | start : Drains rt hash boundary [] [] boundary
  | statement {groups : List PublishedGroup} {drained : List Drained} {durable : ChangeId}
      {d : Drained} {group : PublishedGroup} (hgroups : Drains rt hash boundary groups drained durable)
      (hfresh : d.statement ∉ drained.map Drained.statement)
      (hevents : ∀ event ∈ d.events, event ∈ d.statement.events)
      (hall : (∀ event ∈ d.statement.events, boundary < event.changeId) →
        d.events = d.statement.events)
      (hgroup : StatementGroup rt hash (max durable (maximum d.events)) d group) :
      Drains rt hash boundary (groups ++ [group]) (drained ++ [d]) (max durable (maximum d.events))

def SnapshotGroup (rt : Runtime) (hash : String) (boundary : ChangeId) (group : PublishedGroup) :
    Prop :=
  ∃ (info : Inspection rt.refs) (contents : TableRef → List (List (Option (List UInt8)))),
    rt.schemaHash info.tables = hash
      ∧ Producer.SnapshotGroup rt.sizing hash (position boundary) (info.tables.map Table.ref)
        (snapshotLoads rt info contents) group

theorem SnapshotGroup.mark {hash : String} {group : PublishedGroup}
    (h : SnapshotGroup rt hash boundary group) : group.mark = { lsn := position boundary } := by
  obtain ⟨_, _, -, _, -, hmark, -⟩ := h
  exact hmark

def Sealed (rt : Runtime) (history : List Statement) (outbox : Outbox) (b : Backlog) : Prop :=
  ∃ (first : PublishedGroup) (rest : List PublishedGroup) (boundary durable : ChangeId)
    (drained : List Drained), b.groups = first :: rest
    ∧ SnapshotGroup rt b.origin.schemaHash boundary first
    ∧ Drains rt b.origin.schemaHash boundary rest drained durable
    ∧ b.hash = b.origin.schemaHash ∧ b.durableLsn = position durable
    ∧ b.snapshotLsn = position boundary
    ∧ Accounts history outbox boundary drained b.sourceCleanup

theorem Sealed.commit {b : Backlog} (h : Sealed rt history outbox b) (hformed : Wellformed history) :
    Sealed rt history (outbox.commit history) b := by
  obtain ⟨first, rest, boundary, durable, drained, hgroups, hfirst, hdrains, hhash, hdurable, hpoint,
    haccounts⟩ := h
  exact ⟨first, rest, boundary, durable, drained, hgroups, hfirst, hdrains, hhash, hdurable, hpoint,
    haccounts.commit hformed⟩

end Groups

section Plans

variable {b : Backlog} {read : ReadFile}

structure Ready (rt : Runtime) (info : Inspection refs) (b : Backlog) : Prop where
  phase : b.phase = .stream
  staged : b.staged = []
  hash : b.hash = rt.schemaHash info.tables

/-- A poll publishes one statement and notes it for deletion. -/
theorem keeps_pollStatement {info : Inspection rt.refs} (hformed : Wellformed history)
    (hsound : outbox.Sound history) (hb : Captured (Sealed rt history outbox) b)
    (hready : Ready rt info b) (hcleanup : b.sourceCleanup = "")
    (hdurable : b.durableLsn = position durable)
    (hnext : outbox.nextStatement = some (statement, events)) :
    Keeps (Sealed rt history outbox) b (pollStatement rt read info.tables durable statement events)
      (fun _ b' => Ready rt info b' ∧ b'.sourceCleanup = statement) fun _ _ => True := by
  obtain ⟨first, rest, boundary, durable', drained, hgroups, hfirst, hdrains, hhash, hposition, hpoint,
    haccounts⟩ := hb.sealed hready.phase
  have hsame : durable' = durable := by
    have hposition : b.durableLsn = position durable' := hposition
    rw [hdurable] at hposition
    exact Option.some.inj (by rw [← parse_position durable', ← hposition, parse_position])
  subst hsame
  have haccounts : Accounts history outbox boundary drained "" := hcleanup ▸ haccounts
  obtain ⟨s, hs, hid, hfresh, hevents, hall, hafter⟩ := haccounts.next hformed hsound hnext
  have hstart : Staging b [] b := ⟨rfl, by rw [hready.staged]; exact .nil⟩
  have hschema : b.hash = b.origin.schemaHash := hhash
  unfold pollStatement
  split
  · exact Plan.Triple.fail hb trivial
  refine Plan.Triple.bind _ (Producer.keeps_addRows (eventRows rt info.tables events)
    (Capture.batched_start hstart rfl rfl 0) hb fun _ _ => trivial) ?_
  rintro batch b₁ - hb₁ ⟨rows, hrows, hbatched⟩
  refine Plan.Triple.bind _ (Plan.Triple.mapError (hbatched.flush hb₁)) ?_
  rintro batch' b₂ - hb₂ ⟨⟨chunks, hfull, hmessage, hconcat, hstaging⟩, hempty⟩
  rw [hempty, List.append_nil] at hconcat
  apply Plan.Triple.bind (fun _ => Staging b
    (statementMessages statement (position (max durable' (maximum events))) chunks))
  · refine Capture.keeps_append hb₂ fun now => ?_
    rw [hmessage]
    exact hstaging.stage now _
  rintro - b₃ - hb₃ hstaged
  obtain ⟨staged, rfl⟩ : ∃ staged, b₃ = { b with staged := staged } := ⟨_, hstaged.same⟩
  have hgroup : StatementGroup rt b.origin.schemaHash (max durable' (maximum events)) ⟨s, events⟩
      ⟨staged, { lsn := position (max durable' (maximum events)) }⟩ := by
    refine ⟨info.tables, chunks, ?_, info.covers, hconcat ▸ hrows, hfull, rfl, ?_⟩
    · rw [← hschema, hready.hash]
    · rw [← hschema, hid]
      exact hstaged.staged
  have hdrained : Drains rt b.origin.schemaHash boundary
      (rest ++ [⟨staged, { lsn := position (max durable' (maximum events)) }⟩])
      (drained ++ [⟨s, events⟩]) (max durable' (maximum events)) :=
    hdrains.statement hfresh hevents hall hgroup
  have hlast : (({ b with staged := staged } : Backlog).expose
      { lsn := position (max durable' (maximum events)) }).hash = b.hash := Backlog.hash_expose _ _
  refine Plan.Triple.request hb₃ ?_
  rintro _ ⟨now, rfl⟩
  refine ⟨hb₃.expose hready.phase fun _ => ?_, ⟨hready.phase, rfl, hlast.trans hready.hash⟩, rfl⟩
  refine ⟨first, _, boundary, _, _, ?_, hfirst, hdrained, hlast.trans hschema, ?_, hpoint, hafter⟩
  · have hgroups : b.groups = first :: rest := hgroups
    change b.groups ++ _ = _
    rw [hgroups]
    rfl
  · exact Backlog.durableLsn_expose { b with staged := staged } _

theorem keeps_clear {info : Inspection rt.refs}
    (hsealed : ∀ cleanup, cleanup = "" ∨ cleanup = statement →
      Sealed rt history outbox { b.settled with sourceCleanup := cleanup })
    (hnumbered : Capture.Numbered b) (hready : Ready rt info b)
    (hcleanup : b.sourceCleanup = statement) :
    Keeps (Sealed rt history outbox) b
      (do Plan.request (.clearSourceCleanup statement); pure (Local.polling info))
      (fun here b' => here = .polling info ∧ Ready rt info b' ∧ b'.sourceCleanup = "")
      fun (_ : Error) _ => True := by
  have hb : Captured (Sealed rt history outbox) b := by
    refine ⟨hnumbered, .inr ⟨hready.phase, ?_⟩⟩
    have hsame := hsealed statement (.inr rfl)
    rwa [← hcleanup] at hsame
  apply Plan.Triple.bind (fun _ b' => Ready rt info b' ∧ b'.sourceCleanup = "")
  · refine Plan.Triple.request hb ?_
    rintro _ ⟨now, rfl⟩
    exact ⟨⟨hnumbered, .inr ⟨hready.phase, hsealed "" (.inl rfl)⟩⟩,
      ⟨hready.phase, hready.staged, hready.hash⟩, rfl⟩
  · exact fun _ _ _ hb' hpost => Plan.Triple.pure hb' ⟨rfl, hpost⟩

end Plans

end GoSync.SqlServerLegacy
