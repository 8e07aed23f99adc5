import GoSync.SqlServer.Polling

/-!
# Each commit is published exactly once

Runs of the change tables and the collector from an empty queue on. Once the snapshot is sealed, the
groups after it are those of the commits between its fence and the durable position that have changed a
configured table, each once and in order; the other groups are empty and only move the position.
-/

namespace GoSync.SqlServer

open Capture (Backlog Captured DecodesGroup Extends PublishedGroup ReadFile)
open Producer (Consistent Leads Positions Preserves)
open Queue (Limits)

variable {Raw : Type} {codec : Codec Raw} {rt : Runtime} {history : List Commit}
  {refs : List TableRef} {hash : String} {boundary durable : Lsn} {groups : List PublishedGroup} {group : PublishedGroup}

section Order

def within (refs : List TableRef) (history : List Commit) (boundary durable : Lsn) : List Commit :=
  history.filter fun commit => boundary < commit.lsn ∧ commit.lsn ≤ durable ∧ commit.touches refs

theorem within_self (refs : List TableRef) (history : List Commit) (boundary : Lsn) :
    within refs history boundary boundary = [] := by
  rw [within, List.filter_eq_nil_iff]
  intro commit _ hmem
  obtain ⟨hafter, hbefore, -⟩ := of_decide_eq_true hmem
  exact absurd hafter hbefore.not_gt

theorem within_forward {upper : Lsn} (huntouched : Untouched refs history durable upper)
    (hupper : durable < upper) :
    within refs history boundary upper = within refs history boundary durable := by
  apply List.filter_congr
  intro commit hmem
  apply decide_eq_decide.mpr
  constructor
  · rintro ⟨hafter, hbefore, htouches⟩
    refine ⟨hafter, ?_, htouches⟩
    by_contra hbeyond
    exact absurd hbefore (huntouched commit hmem htouches (not_le.mp hbeyond)).not_ge
  · rintro ⟨hafter, hbefore, htouches⟩
    exact ⟨hafter, hbefore.trans hupper.le, htouches⟩

/-- The next commit is the only one that is passed. -/
theorem within_next {commit : Commit}
    (hlsns : history.Pairwise fun earlier later => earlier.lsn < later.lsn)
    (hnext : NextCommit refs history durable commit) (hboundary : boundary ≤ durable) :
    within refs history boundary commit.lsn = within refs history boundary durable ++ [commit] := by
  obtain ⟨hmem, htouches, hafter, hfirst⟩ := hnext
  obtain ⟨earlier, later, rfl⟩ := List.append_of_mem hmem
  obtain ⟨-, hlater, hearlier⟩ := List.pairwise_append.mp hlsns
  have hlater := (List.pairwise_cons.mp hlater).1
  have hold : within refs earlier boundary commit.lsn = within refs earlier boundary durable := by
    apply List.filter_congr
    intro other hother
    have hbefore := hearlier other hother commit List.mem_cons_self
    apply decide_eq_decide.mpr
    constructor
    · rintro ⟨habove, -, hotherTouches⟩
      refine ⟨habove, ?_, hotherTouches⟩
      by_contra hbeyond
      have hnot := hfirst other (List.mem_append_left _ hother) hotherTouches (not_le.mp hbeyond)
      exact absurd hbefore hnot.not_gt
    · rintro ⟨habove, -, hotherTouches⟩
      exact ⟨habove, hbefore.le, hotherTouches⟩
  have hnew : ∀ bound, bound ≤ commit.lsn → within refs later boundary bound = [] := by
    intro bound hbound
    rw [within, List.filter_eq_nil_iff]
    intro other hother hin
    exact absurd ((of_decide_eq_true hin).2.1.trans hbound) (hlater other hother).not_ge
  have hsplit : ∀ bound, within refs (earlier ++ commit :: later) boundary bound
      = within refs earlier boundary bound
        ++ (within refs [commit] boundary bound ++ within refs later boundary bound) := by
    intro bound
    rw [within, List.filter_append, ← List.singleton_append, List.filter_append]
    rfl
  have hself : within refs [commit] boundary commit.lsn = [commit] := by
    simp [within, htouches, hboundary.trans_lt hafter]
  have hother : within refs [commit] boundary durable = [] := by
    simp [within, hafter.not_ge]
  rw [hsplit, hsplit, hold, hself, hother, hnew _ le_rfl, hnew _ hafter.le, List.append_nil,
    List.nil_append, List.append_nil]

end Order

section Groups

theorem CommitGroup.values_ne {commit : Commit} (h : CommitGroup rt hash commit group) :
    group.values ≠ [] := by
  obtain ⟨_, _, _, _, _, -, -, -, -, -, -, -, -, -, -, hstamped⟩ := h
  rintro hempty
  rw [hempty] at hstamped
  have hnone := List.forall₂_nil_right_iff.mp hstamped
  simp [Capture.transactionMessages] at hnone

theorem Polled.boundary_le (h : Polled rt history hash boundary groups durable) :
    boundary ≤ durable := by
  induction h with
  | start => exact le_rfl
  | forward _ hupper _ ih => exact ih.trans hupper.le
  | commit _ hnext _ ih => exact ih.trans hnext.after.le

theorem Polled.commits (h : Polled rt history hash boundary groups durable)
    (hlsns : history.Pairwise fun earlier later => earlier.lsn < later.lsn) :
    List.Forall₂ (CommitGroup rt hash) (within rt.refs history boundary durable)
      (groups.filter fun group => group.values ≠ []) := by
  induction h with
  | start =>
      rw [within_self]
      exact .nil
  | forward _ hupper huntouched ih =>
      rw [within_forward huntouched hupper, List.filter_append, List.filter_cons_of_neg (by simp),
        List.filter_nil, List.append_nil]
      exact ih
  | commit hgroups hnext hgroup ih =>
      rw [within_next hlsns hnext hgroups.boundary_le, List.filter_append,
        List.filter_cons_of_pos (by simpa using hgroup.values_ne), List.filter_nil]
      exact List.rel_append ih (.cons hgroup .nil)

def cursor (rt : Runtime) (history : List Commit) : Positions Lsn where
  render := Lsn.render
  parse := parseLsn
  runs boundary groups durable := ∃ hash, Polled rt history hash boundary groups durable
  parse_render := parse_render
  position := by
    rintro boundary durable groups ⟨hash, h⟩
    cases h with
    | start => rfl
    | forward => simp [Queue.lastLsn]
    | commit _ _ hgroup =>
        obtain ⟨_, _, _, _, _, -, -, -, -, -, -, -, -, -, hmark, -⟩ := hgroup
        simp [Queue.lastLsn, hmark]
  last := by
    rintro boundary durable groups group ⟨hash, h⟩
    generalize hall : groups ++ [group] = all at h
    cases h with
    | start => simp at hall
    | forward hgroups hupper _ =>
        obtain ⟨rfl, -⟩ := List.append_inj' hall rfl
        exact ⟨_, ⟨hash, hgroups⟩, hupper.le⟩
    | commit hgroups hnext _ =>
        obtain ⟨rfl, -⟩ := List.append_inj' hall rfl
        exact ⟨_, ⟨hash, hgroups⟩, hnext.after.le⟩

end Groups

section Runs

def Holds (rt : Runtime) : Local refs → Backlog → Prop
  | .checked info, b => b.staged = [] ∧ (b.phase = .stream → b.hash = rt.schemaHash info.tables)
  | .polling info, b => Ready rt info b

structure InStep (rt : Runtime) (codec : Codec Raw) (history : List Commit) (s : System Raw rt.refs)
    (b : Backlog) : Prop where
  sound : s.cdc.Sound history
  consistent : Consistent codec (Sealed rt history) (Holds rt) s.collector b

variable {s : System Raw rt.refs} {b b' : Backlog}

theorem start_ok {inspected : Except Error (Inspection refs)} {st : Queue.State} {here : Local refs}
    (h : start rt inspected st = .ok here) :
    ∃ info, here = .checked info
      ∧ (st.phase = .stream → st.schemaHash = rt.schemaHash info.tables) := by
  obtain ⟨info, -, h⟩ := Except.bind_eq_ok.mp h
  obtain ⟨_, hcheck, h⟩ := Except.bind_eq_ok.mp h
  cases h
  refine ⟨info, rfl, fun hphase => ?_⟩
  unfold checkAttempt at hcheck
  rw [if_neg (by rw [hphase]; exact Phase.noConfusion)] at hcheck
  split_ifs at hcheck with _ hhash
  exact not_not.mp fun hne => hhash ⟨hphase, hne⟩

/-- After the snapshot the collector polls from its boundary. -/
theorem keeps_takeSnapshot {read : ReadFile} {input : SnapshotInput rt.refs}
    {info : Inspection rt.refs} (hb : Captured (Sealed rt history) b) :
    Capture.Keeps (Sealed rt history) b (do snapshot rt read info input; pure (Local.polling info))
      (Holds rt) fun _ _ => True := by
  refine Plan.Triple.bind (fun _ => Ready rt info) ?_
    fun _ _ _ hb' hready => Plan.Triple.pure hb' hready
  unfold snapshot
  split
  · exact Plan.Triple.fail hb trivial
  refine (Producer.keeps_snapshot hb ?_ fun _ _ => trivial).mono ?_ fun _ _ _ herr => herr
  · intro group hgroup
    have hsnapshot : SnapshotGroup rt (rt.schemaHash info.tables) input.boundary group :=
      ⟨info, input.contents, rfl, hgroup⟩
    refine ⟨group, [], input.boundary, input.boundary, rfl, hsnapshot, .start, ?_, ?_⟩
    · simp [Capture.Backlog.hash, Queue.lastHash, hsnapshot.mark]
    · simp [Capture.Backlog.durableLsn, Queue.lastLsn, hsnapshot.mark]
  · exact fun _ _ _ hsnapped => ⟨hsnapped.phase, hsnapped.staged, hsnapped.hash⟩

def Steps (rt : Runtime) (codec : Codec Raw) (history : List Commit) (b : Backlog)
    (s : System Raw rt.refs) : Prop :=
  ∃ b', InStep rt codec history s b' ∧ (b.phase = .stream → Extends b b')

theorem InStep.collect {collector : Producer.Process Raw (Local rt.refs) Error}
    (h : InStep rt codec history s b)
    (hpreserves : Preserves codec (Sealed rt history) (Holds rt) b collector) :
    Steps rt codec history b { s with collector := collector } := by
  obtain ⟨b', hconsistent, hextends⟩ := hpreserves
  exact ⟨b', ⟨h.sound, hconsistent⟩, hextends⟩

/-- One action of the database or the collector. -/
theorem InStep.act (h : InStep rt codec history s b)
    (hlsns : history.Pairwise fun earlier later => earlier.lsn < later.lsn)
    (action : Action rt.refs) : Steps rt codec history b (s.act rt codec history action) := by
  have hcaptured := h.consistent.running.captured
  cases action with
  | source step => exact ⟨b, ⟨h.sound.step step, h.consistent⟩, .refl⟩
  | attempt inspected =>
      apply h.collect
      apply h.consistent.attempt
      intro queue here hkeeping hstart
      obtain ⟨info, rfl, hhash⟩ := start_ok hstart
      refine ⟨rfl, fun hphase => ?_⟩
      rw [← hkeeping.schemaHash]
      exact hhash (hkeeping.phase.trans hphase)
  | snapshot input read =>
      apply h.collect
      apply h.consistent.proceed
      intro here plan _ hplan
      unfold takeSnapshot at hplan
      split at hplan
      · split at hplan
        · cases hplan
        · cases hplan
          exact keeps_takeSnapshot hcaptured
      · cases hplan
  | poll view read =>
      simp only [System.act]
      split
      · rename_i hshows
        have hpolls : ∀ info : Inspection rt.refs, Ready rt info b →
            Capture.Keeps (Sealed rt history) b
              (do let _ ← poll rt read info view s.collector.queue.db.state; pure (Local.polling info))
              (Holds rt) fun _ _ => True := by
          intro info hready
          refine Plan.Triple.bind _ (keeps_poll hlsns h.sound hshows hcaptured hready
            h.consistent.keeping.durableLsn) ?_
          exact fun _ _ _ hb' hready' => Plan.Triple.pure hb' hready'
        apply h.collect
        apply h.consistent.proceed
        intro here plan hholds hplan
        unfold takePoll at hplan
        split at hplan
        · split at hplan
          · rename_i hphase
            cases hplan
            have hstream := h.consistent.keeping.phase.symm.trans hphase
            exact hpolls _ ⟨hstream, hholds.1, hholds.2 hstream⟩
          · cases hplan
        · cases hplan
          exact hpolls _ hholds
      · exact ⟨b, h, .refl⟩
  | event event => exact h.collect (h.consistent.happen event)

theorem InStep.run (hlsns : history.Pairwise fun earlier later => earlier.lsn < later.lsn)
    (actions : List (Action rt.refs)) (h : InStep rt codec history s b) :
    ∃ b', InStep rt codec history (s.run rt codec history actions) b' := by
  induction actions generalizing s b with
  | nil => exact ⟨b, h⟩
  | cons action actions ih =>
      obtain ⟨b', h', -⟩ := h.act hlsns action
      exact ih h'

theorem inStep_opened (limits : Limits) :
    InStep rt codec history (System.opened rt.refs limits) { origin := {}, phase := .unset } :=
  ⟨.inl rfl, Producer.consistent_opened limits⟩

theorem Sealed.leads (h : Sealed rt history b) : ∃ durable, Leads (cursor rt history) b durable := by
  obtain ⟨first, rest, boundary, durable, hgroups, hfirst, hpolled, -, hdurable⟩ := h
  exact ⟨durable, ⟨first, rest, boundary, hgroups, by rw [hfirst.mark]; rfl, _, hpolled⟩, hdurable⟩

/-- **CDC capture neither skips nor repeats a commit.** However the change tables evolve and however often
the collector starts over, a sealed queue holds the snapshot and then, once each and in order, the commits
between its fence and the durable position that have changed a configured table. No action moves the
durable position back. Where cleanup has removed a row beyond that position, a poll publishes nothing, and
it fails as soon as there is something to read. -/
theorem commits_exactly_once (rt : Runtime) (codec : Codec Raw) (history : List Commit)
    (hlsns : history.Pairwise fun earlier later => earlier.lsn < later.lsn) (limits : Limits)
    (actions : List (Action rt.refs)) :
    let s := (System.opened rt.refs limits).run rt codec history actions
    let st := s.collector.queue.db.state
    (st.phase ≠ .stream → s.collector.queue.groups = [])
      ∧ (st.phase = .stream → ∃ boundary durable snap groups hash,
        parseLsn st.durableLsn = some durable
          ∧ List.Forall₂ (DecodesGroup codec) s.collector.queue.groups (snap :: groups)
          ∧ SnapshotGroup rt hash boundary snap
          ∧ List.Forall₂ (CommitGroup rt hash) (within rt.refs history boundary durable)
              (groups.filter fun group => group.values ≠ [])
          ∧ (∀ action, let st' := (s.act rt codec history action).collector.queue.db.state
              st'.phase = .stream
                ∧ ∃ durable', parseLsn st'.durableLsn = some durable' ∧ durable ≤ durable')
          ∧ ∀ ref ∈ rt.refs, ∀ commit ∈ history, commit.rows ref ≠ [] → durable < commit.lsn →
              commit.lsn < s.cdc.low ref → ∀ (info : Inspection rt.refs) view read,
              view.shows history s.cdc = true →
                (poll rt read info view st).requests = []
                  ∧ (s.cdc.high ≠ durable →
                    ∃ err, (poll rt read info view st).result = .error err)) := by
  intro s st
  have hopened : InStep rt codec history (System.opened rt.refs limits) _ := inStep_opened limits
  obtain ⟨b, h⟩ := hopened.run hlsns actions
  have hphase : st.phase = b.phase := h.consistent.keeping.phase
  have hcaptured := h.consistent.running.captured
  rw [hphase]
  constructor
  · exact h.consistent.unsealed
  intro hstream
  obtain ⟨first, rest, boundary, durable, hgroups, hfirst, hpolled, -, hdurable⟩ :=
    hcaptured.sealed hstream
  have hgroups : b.groups = first :: rest := hgroups
  have hleads : Leads (cursor rt history) b.settled durable :=
    ⟨⟨first, rest, boundary, hgroups, by rw [hfirst.mark]; rfl, _, hpolled⟩, hdurable⟩
  have hst : parseLsn st.durableLsn = some durable := hleads.parse h.consistent.keeping
  have hdecodes : List.Forall₂ (DecodesGroup codec) s.collector.queue.groups (first :: rest) :=
    hgroups ▸ h.consistent.keeping.groups
  refine ⟨boundary, durable, first, rest, b.origin.schemaHash, hst, hdecodes, hfirst,
    hpolled.commits hlsns, ?_, ?_⟩
  · intro action st'
    obtain ⟨b', h', hextends⟩ := h.act hlsns action
    have hextends := hextends hstream
    obtain ⟨after, hafter⟩ := (h'.consistent.running.captured.sealed hextends.phase).leads
    exact ⟨h'.consistent.keeping.phase.trans hextends.phase, after, hafter.parse h'.consistent.keeping,
      hleads.advance hafter hextends⟩
  · intro ref href commit _ _ hunread hremoved info view read hshows
    exact poll_gap hshows hst href hunread hremoved

/-- A collector that crashes within a commit publishes it once it has read it again. -/
theorem commits_exactly_once_after_crash :
    let ref : TableRef := ⟨"dbo", "t"⟩
    let rt : Runtime :=
      { sizing := { cfg := { sourceId := "s", tables := [ref] }, rowSize := fun _ => 1 }
        schemaHash := fun _ => "h", formatFloat := fun _ => "" }
    let table : Table :=
      { schema := "dbo", name := "t",
        columns := [{ name := "id", type := "int", primary := true, baseType := "int", ordinal := 1 }] }
    let info : Inspection rt.refs := { tables := [table], covers := .refl _, fence := table }
    let row : ChangeRow := { sequence := 1, operation := 2, values := [some "7"] }
    let history : List Commit :=
      [{ lsn := 5, rows := fun _ => [row] }, { lsn := 6, rows := fun _ => [] }]
    let read : ReadFile := fun _ _ _ => .error ""
    let view : View rt.refs :=
      { current := .ok info, maximum := some 6, minimum := fun _ => some 1,
        changes := fun _ => [(5, row)], again := .ok info }
    let limits : Limits := { maxBytes := 100, reserve := 0 }
    let perform : Action rt.refs := .event (.perform { free := some 1000000, now := "now" })
    let actions : List (Action rt.refs) :=
      [.attempt (.ok info),
        .snapshot { token := "g", current := .ok info, contents := fun _ => [], boundary := 4 } read]
      ++ List.replicate 6 perform
      ++ [.source .capture, .source .capture, .source (.cleanup ref 1), .source (.raise 6),
        .poll view read, perform, .event (.reopen limits), .attempt (.ok info), .poll view read]
      ++ List.replicate 3 perform ++ [.poll view read, perform]
    let s := (System.opened rt.refs limits).run rt .plain history actions
    parseLsn s.collector.queue.db.state.durableLsn = some 6
      ∧ ∃ boundary snap groups hash,
        List.Forall₂ (DecodesGroup .plain) s.collector.queue.groups (snap :: groups)
          ∧ List.Forall₂ (CommitGroup rt hash) (within rt.refs history boundary 6)
            (groups.filter fun group => group.values ≠ []) := by
  intro ref rt table info row history read view limits perform actions
  have hphase : ((System.opened rt.refs limits).run rt .plain history
      actions).collector.queue.db.state.phase = .stream := by decide +revert
  have hdurable : parseLsn ((System.opened rt.refs limits).run rt .plain history
      actions).collector.queue.db.state.durableLsn = some 6 := by decide +revert
  have hrun := (commits_exactly_once rt .plain history (by decide +revert) limits actions).2
  generalize (System.opened rt.refs limits).run rt .plain history actions = s
    at hphase hdurable hrun ⊢
  obtain ⟨boundary, durable, snap, groups, hash, hparsed, hdecodes, -, honce, -⟩ := hrun hphase
  cases hparsed.symm.trans hdurable
  exact ⟨hdurable, boundary, snap, groups, hash, hdecodes, honce⟩

end Runs

end GoSync.SqlServer
