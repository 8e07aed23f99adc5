import GoSync.SqlServer.Collector

/-!
# What a poll publishes

A view of the change tables determines the next commit: everything between the durable position and the
high watermark is in it, unless cleanup has got there, which the low watermarks show. The groups of a
sealed queue are then those of the commits after the snapshot, one by one.
-/

namespace GoSync.SqlServer

open Capture (Backlog Batched Call Captured chunkMessages Embedded Keeps PublishedGroup ReadFile
  Staging Stamped transactionMessages transactionTemplate)

variable {rt : Runtime} {history : List Commit} {refs : List TableRef} {cdc : Cdc} {view : View refs}
  {expected : Inspection refs} {ref : TableRef} {commit : Commit} {lsn last : Lsn}

section Views

def Cdc.Sound (history : List Commit) (cdc : Cdc) : Prop :=
  cdc.high = 0 ∨ ∀ commit ∈ history.drop cdc.captured, cdc.high < commit.lsn

theorem Cdc.Sound.step (h : cdc.Sound history) (step : CdcStep) : (cdc.step history step).Sound history := by
  cases step with
  | capture =>
      simp only [Cdc.step]
      split
      · refine h.imp id fun hbeyond commit hmem => hbeyond commit ?_
        exact List.drop_subset_drop_left history (Nat.le_succ _) hmem
      · exact h
  | raise high =>
      simp only [Cdc.step]
      split
      · rename_i hguard
        exact .inr fun commit hmem => of_decide_eq_true (List.all_eq_true.mp hguard.2 commit hmem)
      · exact h
  | cleanup ref low => exact h

theorem View.shows_maximum (h : view.shows history cdc = true) {high : Lsn}
    (hhigh : view.maximum = some high) : high = cdc.high := by
  rw [View.shows, Bool.and_eq_true, hhigh] at h
  exact of_decide_eq_true h.1

theorem View.shows_table (h : view.shows history cdc = true) (hmem : ref ∈ refs) :
    (∀ low, view.minimum ref = some low → low = cdc.low ref)
      ∧ ((view.changes ref).filter (cdc.retains ref)).Perm
        ((recorded (history.take cdc.captured) ref).filter (cdc.retains ref)) := by
  rw [View.shows, Bool.and_eq_true] at h
  have htable := List.all_eq_true.mp h.2 ref hmem
  rw [Bool.and_eq_true, List.isPerm_iff] at htable
  refine ⟨fun low hlow => ?_, htable.2⟩
  rw [hlow] at htable
  exact of_decide_eq_true htable.1

/-- What is not cleaned up is shown whole. -/
theorem View.changes_at (h : view.shows history cdc = true) (hsound : cdc.Sound history)
    (hmem : ref ∈ refs) (hpositive : 0 < lsn) (hlow : cdc.low ref ≤ lsn) (hhigh : lsn ≤ cdc.high) :
    ((view.changes ref).filter fun entry => entry.1 = lsn).Perm
      ((recorded history ref).filter fun entry => entry.1 = lsn) := by
  have hretained : ∀ entries : List (Lsn × ChangeRow),
      entries.filter (fun entry => entry.1 = lsn)
        = (entries.filter (cdc.retains ref)).filter fun entry => entry.1 = lsn := by
    intro entries
    rw [List.filter_filter]
    apply List.filter_congr
    intro entry _
    by_cases hentry : entry.1 = lsn
    · simp [hentry, Cdc.retains, hlow, hhigh]
    · simp [hentry]
  have hbeyond : (recorded (history.drop cdc.captured) ref).filter (fun entry => entry.1 = lsn) = [] := by
    rw [List.filter_eq_nil_iff]
    intro entry hentry hat
    obtain ⟨commit, hcommit, hrow⟩ := List.mem_flatMap.mp hentry
    obtain ⟨row, -, rfl⟩ := List.mem_map.mp hrow
    have hlsn : commit.lsn = lsn := of_decide_eq_true hat
    rcases hsound with hzero | hall
    · rw [hzero] at hhigh
      exact absurd hpositive hhigh.not_gt
    · exact absurd (hlsn ▸ hhigh) (hall commit hcommit).not_ge
  have hsplit : (recorded history ref).filter (fun entry => entry.1 = lsn)
      = (recorded (history.take cdc.captured) ref).filter fun entry => entry.1 = lsn := by
    calc (recorded history ref).filter (fun entry => entry.1 = lsn)
        = (recorded (history.take cdc.captured ++ history.drop cdc.captured) ref).filter
            (fun entry => entry.1 = lsn) := by rw [List.take_append_drop]
      _ = (recorded (history.take cdc.captured) ref).filter (fun entry => entry.1 = lsn)
            ++ (recorded (history.drop cdc.captured) ref).filter (fun entry => entry.1 = lsn) := by
          rw [recorded, List.flatMap_append, List.filter_append]
          rfl
      _ = _ := by rw [hbeyond, List.append_nil]
  rw [hretained, hsplit, hretained (recorded _ ref)]
  exact (View.shows_table h hmem).2.filter _

/-- One position belongs to one commit. -/
theorem recorded_at (hlsns : history.Pairwise fun earlier later => earlier.lsn < later.lsn)
    (hmem : commit ∈ history) :
    (recorded history ref).filter (fun entry => entry.1 = commit.lsn)
      = (commit.rows ref).map fun row => (commit.lsn, row) := by
  obtain ⟨earlier, later, rfl⟩ := List.append_of_mem hmem
  have hother : ∀ commits : List Commit, (∀ other ∈ commits, other.lsn ≠ commit.lsn) →
      (recorded commits ref).filter (fun entry => entry.1 = commit.lsn) = [] := by
    intro commits hne
    rw [List.filter_eq_nil_iff]
    intro entry hentry hat
    obtain ⟨other, hcommit, hrow⟩ := List.mem_flatMap.mp hentry
    obtain ⟨row, -, rfl⟩ := List.mem_map.mp hrow
    exact hne other hcommit (of_decide_eq_true hat)
  obtain ⟨-, hlater, hearlier⟩ := List.pairwise_append.mp hlsns
  have hbefore := hother earlier fun other hmem =>
    (hearlier other hmem commit List.mem_cons_self).ne
  have hafter := hother later fun other hmem => ((List.pairwise_cons.mp hlater).1 other hmem).ne'
  unfold recorded at hbefore hafter ⊢
  rw [List.flatMap_append, List.flatMap_cons, List.filter_append, List.filter_append, hbefore, hafter,
    List.nil_append, List.append_nil, List.filter_eq_self]
  intro entry hentry
  obtain ⟨row, -, rfl⟩ := List.mem_map.mp hentry
  exact decide_eq_true rfl

def Commit.changes (tables : List Table) (commit : Commit) : List Change :=
  tables.zipIdx.flatMap fun (table, index) =>
    (commit.rows table.ref).map fun row => row.change table index

instance : IsTrans Change Change.upTo := ⟨fun _ _ _ => le_trans⟩

instance : Std.Total Change.upTo := ⟨fun a b => le_total a.sortKey b.sortKey⟩

theorem Inspection.ref_mem {table : Table} (h : table ∈ expected.tables) : table.ref ∈ refs :=
  expected.covers.mem_iff.mp (List.mem_map_of_mem h)

variable (expected) in
theorem changesQuery_commit (h : view.shows history cdc = true) (hsound : cdc.Sound history)
    (hlsns : history.Pairwise fun earlier later => earlier.lsn < later.lsn)
    (hmem : commit ∈ history) (hpositive : 0 < commit.lsn)
    (hlow : ∀ ref ∈ refs, cdc.low ref ≤ commit.lsn) (hhigh : commit.lsn ≤ cdc.high) :
    (changesQuery expected.tables view.changes commit.lsn).Pairwise Change.upTo
      ∧ (changesQuery expected.tables view.changes commit.lsn).Perm
        (commit.changes expected.tables) := by
  refine ⟨List.pairwise_insertionSort _ _, (List.perm_insertionSort _ _).trans ?_⟩
  apply List.Perm.flatMap_left
  rintro ⟨table, index⟩ hentry
  have href := expected.ref_mem (List.fst_mem_of_mem_zipIdx hentry)
  have hat := View.changes_at h hsound href hpositive (hlow _ href) hhigh
  rw [recorded_at hlsns hmem] at hat
  have hmapped := hat.map fun entry => entry.2.change table index
  rw [List.map_map] at hmapped
  exact hmapped

theorem getLsn_eq_ok {found : Option Lsn} : getLsn found = .ok lsn ↔ found = some lsn := by
  cases found with
  | none => simp [getLsn]
  | some other => simp [getLsn]

theorem pollRange_some {fromLsn upper : Lsn} (hshows : view.shows history cdc = true)
    (h : pollRange rt expected view last = .ok (some (fromLsn, upper))) :
    fromLsn = last + 1 ∧ upper = cdc.high ∧ last < upper ∧ ∀ ref ∈ refs, cdc.low ref ≤ last + 1 := by
  obtain ⟨current, -, h⟩ := Except.bind_eq_ok.mp h
  obtain ⟨_, -, h⟩ := Except.bind_eq_ok.mp h
  obtain ⟨high, hhigh, h⟩ := Except.bind_eq_ok.mp h
  split_ifs at h with hbehind hsame
  · cases h
  obtain ⟨_, hminima, h⟩ := Except.bind_eq_ok.mp h
  cases h
  refine ⟨rfl, View.shows_maximum hshows (getLsn_eq_ok.mp hhigh),
    lt_of_le_of_ne (not_lt.mp hbehind) (Ne.symm hsame), fun ref href => ?_⟩
  obtain ⟨table, htable, rfl⟩ := List.mem_map.mp (expected.covers.mem_iff.mpr href)
  have hminimum := Except.forM_eq_ok.mp hminima table htable
  obtain ⟨minimum, hlow, hrange⟩ := Except.bind_eq_ok.mp hminimum
  have hlow : minimum = cdc.low table.ref :=
    (View.shows_table hshows href).1 minimum (getLsn_eq_ok.mp hlow)
  unfold validateRange at hrange
  split_ifs at hrange with hzero hgap
  exact hlow ▸ not_lt.mp hgap

theorem pollRange_none (hshows : view.shows history cdc = true)
    (h : pollRange rt expected view last = .ok none) : cdc.high = last := by
  obtain ⟨current, -, h⟩ := Except.bind_eq_ok.mp h
  obtain ⟨_, -, h⟩ := Except.bind_eq_ok.mp h
  obtain ⟨high, hhigh, h⟩ := Except.bind_eq_ok.mp h
  split_ifs at h with hbehind hsame
  · exact (View.shows_maximum hshows (getLsn_eq_ok.mp hhigh)).symm.trans hsame
  · obtain ⟨_, -, h⟩ := Except.bind_eq_ok.mp h
    cases h

/-- Where cleanup has removed a row that has not been read, a poll does nothing, and it fails unless
there is nothing to read yet. -/
theorem poll_gap {read : ReadFile} {st : Queue.State} (hshows : view.shows history cdc = true)
    (hst : parseLsn st.durableLsn = some last) (href : ref ∈ refs) (hafter : last < lsn)
    (hremoved : lsn < cdc.low ref) :
    (poll rt read expected view st).requests = []
      ∧ (cdc.high ≠ last → ∃ err, (poll rt read expected view st).result = .error err) := by
  unfold poll
  rw [hst]
  dsimp only
  split
  · rename_i err _
    exact ⟨rfl, fun _ => ⟨err, rfl⟩⟩
  · rename_i hnone
    exact ⟨rfl, fun hne => absurd (pollRange_none hshows hnone) hne⟩
  · rename_i hsome
    obtain ⟨-, -, -, hlow⟩ := pollRange_some hshows hsome
    have hread : cdc.low ref ≤ lsn := (hlow ref href).trans (Fin.add_one_le_of_lt hafter)
    exact absurd hremoved hread.not_gt

/-- The first commit after a position that has changed one of the tables. -/
structure NextCommit (refs : List TableRef) (history : List Commit) (durable : Lsn)
    (commit : Commit) : Prop where
  mem : commit ∈ history
  touches : commit.touches refs = true
  after : durable < commit.lsn
  first : ∀ other ∈ history, other.touches refs = true → durable < other.lsn → commit.lsn ≤ other.lsn

def Untouched (refs : List TableRef) (history : List Commit) (durable upper : Lsn) : Prop :=
  ∀ commit ∈ history, commit.touches refs = true → durable < commit.lsn → upper < commit.lsn

theorem Commit.touches_iff : commit.touches refs = true ↔ ∃ ref ∈ refs, commit.rows ref ≠ [] := by
  rw [Commit.touches, List.any_eq_true]
  simp only [decide_eq_true_eq]

theorem lt_add_one_of_lt {upper : Lsn} (h : last < upper) : last < last + 1 :=
  Fin.lt_add_one_iff.mpr (h.trans_le (Fin.le_last upper))

variable (expected) in
/-- The positions a poll reads are those of the commits it has not seen. -/
theorem mem_positions (hshows : view.shows history cdc = true) (hsound : cdc.Sound history)
    (hlow : ∀ ref ∈ refs, cdc.low ref ≤ last + 1) (hlast : last < cdc.high) :
    lsn ∈ ((expected.tables.flatMap fun table => view.changes table.ref).map Prod.fst).filter
        (fun lsn => last + 1 ≤ lsn ∧ lsn ≤ cdc.high)
      ↔ last < lsn ∧ lsn ≤ cdc.high
        ∧ ∃ commit ∈ history, commit.lsn = lsn ∧ commit.touches refs = true := by
  have hstep := lt_add_one_of_lt hlast
  have hrange : last + 1 ≤ lsn ↔ last < lsn := by
    constructor
    · exact hstep.trans_le
    · intro hlt
      exact Fin.add_one_le_of_lt hlt
  -- In the range, an entry of a view is an entry of the history, and the other way round.
  have hentries : ∀ ref ∈ refs, last < lsn → lsn ≤ cdc.high →
      ((∃ entry ∈ view.changes ref, entry.1 = lsn)
        ↔ ∃ commit ∈ history, commit.lsn = lsn ∧ commit.rows ref ≠ []) := by
    intro ref href hafter hhigh
    have hperm := View.changes_at hshows hsound href (lt_of_le_of_lt (Fin.zero_le _) hafter)
      ((hlow ref href).trans (hrange.mpr hafter)) hhigh
    have hview : (∃ entry ∈ view.changes ref, entry.1 = lsn)
        ↔ ∃ entry, entry ∈ (view.changes ref).filter fun entry => entry.1 = lsn := by
      simp [List.mem_filter]
    rw [hview]
    simp only [hperm.mem_iff, List.mem_filter, recorded, List.mem_flatMap, List.mem_map,
      decide_eq_true_eq]
    constructor
    · rintro ⟨_, ⟨commit, hcommit, row, hrow, rfl⟩, hlsn⟩
      exact ⟨commit, hcommit, hlsn, List.ne_nil_of_mem hrow⟩
    · rintro ⟨commit, hcommit, hlsn, hrows⟩
      obtain ⟨row, hrow⟩ := List.exists_mem_of_ne_nil _ hrows
      exact ⟨(commit.lsn, row), ⟨commit, hcommit, row, hrow, rfl⟩, hlsn⟩
  simp only [List.mem_filter, List.mem_map, List.mem_flatMap, decide_eq_true_eq, hrange]
  constructor
  · rintro ⟨⟨entry, ⟨table, htable, hentry⟩, hlsn⟩, hafter, hhigh⟩
    have href := expected.ref_mem htable
    obtain ⟨commit, hcommit, hat, hrows⟩ := (hentries _ href hafter hhigh).mp ⟨entry, hentry, hlsn⟩
    exact ⟨hafter, hhigh, commit, hcommit, hat, Commit.touches_iff.mpr ⟨_, href, hrows⟩⟩
  · rintro ⟨hafter, hhigh, commit, hcommit, hat, htouches⟩
    obtain ⟨ref, href, hrows⟩ := Commit.touches_iff.mp htouches
    obtain ⟨table, htable, rfl⟩ := List.mem_map.mp (expected.covers.mem_iff.mpr href)
    obtain ⟨entry, hentry, hlsn⟩ := (hentries _ href hafter hhigh).mpr ⟨commit, hcommit, hat, hrows⟩
    exact ⟨⟨entry, ⟨table, htable, hentry⟩, hlsn⟩, hafter, hhigh⟩

theorem nextLsn_none (hshows : view.shows history cdc = true) (hsound : cdc.Sound history)
    (hlow : ∀ ref ∈ refs, cdc.low ref ≤ last + 1) (hlast : last < cdc.high)
    (h : nextLsn view expected.tables (last + 1) cdc.high = none) :
    Untouched refs history last cdc.high := by
  rw [nextLsn, List.min?_eq_none_iff] at h
  intro commit hcommit htouches hafter
  by_contra hbeyond
  have hmem := (mem_positions expected hshows hsound hlow hlast).mpr
    ⟨hafter, not_lt.mp hbeyond, commit, hcommit, rfl, htouches⟩
  rw [h] at hmem
  exact List.not_mem_nil hmem

theorem nextLsn_some (hshows : view.shows history cdc = true) (hsound : cdc.Sound history)
    (hlow : ∀ ref ∈ refs, cdc.low ref ≤ last + 1) (hlast : last < cdc.high)
    (h : nextLsn view expected.tables (last + 1) cdc.high = some lsn) :
    lsn ≤ cdc.high ∧ ∃ commit, commit.lsn = lsn ∧ NextCommit refs history last commit := by
  rw [nextLsn, List.min?_eq_some_iff] at h
  obtain ⟨hmem, hleast⟩ := h
  obtain ⟨hafter, hhigh, commit, hcommit, rfl, htouches⟩ :=
    (mem_positions expected hshows hsound hlow hlast).mp hmem
  refine ⟨hhigh, commit, rfl, hcommit, htouches, hafter, ?_⟩
  intro other hother hotherTouches hotherAfter
  by_cases hpassed : other.lsn ≤ cdc.high
  · exact hleast _ ((mem_positions expected hshows hsound hlow hlast).mpr
      ⟨hotherAfter, hpassed, other, hother, rfl, hotherTouches⟩)
  · exact hhigh.trans (not_le.mp hpassed).le

end Views

section Groups

/-- The group of a commit: its changes in order, converted under a catalog with the hash in force. -/
def CommitGroup (rt : Runtime) (hash : String) (commit : Commit) (group : PublishedGroup) : Prop :=
  ∃ tables changes r rows chunks, rt.schemaHash tables = hash ∧ (tables.map Table.ref).Perm rt.refs
    ∧ changes.Pairwise Change.upTo ∧ changes.Perm (commit.changes tables)
    ∧ Reading.rows rt.formatFloat tables {} changes = .ok (r, rows) ∧ r.before = none
    ∧ Embedded rt.sizing rows chunks.flatten ∧ chunks ≠ [] ∧ (∀ rows ∈ chunks, rows ≠ [])
    ∧ group.mark = { lsn := commit.lsn.render }
    ∧ List.Forall₂ (Stamped hash) (transactionMessages commit.lsn.render chunks) group.values

/-- The groups after a snapshot at `boundary`, with the position they lead to. -/
inductive Polled (rt : Runtime) (history : List Commit) (hash : String) (boundary : Lsn) :
    List PublishedGroup → Lsn → Prop where
  | start : Polled rt history hash boundary [] boundary
  | forward {groups : List PublishedGroup} {durable upper : Lsn}
      (hgroups : Polled rt history hash boundary groups durable) (hupper : durable < upper)
      (huntouched : Untouched rt.refs history durable upper) :
      Polled rt history hash boundary (groups ++ [⟨[], { lsn := upper.render }⟩]) upper
  | commit {groups : List PublishedGroup} {durable : Lsn} {commit : Commit} {group : PublishedGroup}
      (hgroups : Polled rt history hash boundary groups durable)
      (hnext : NextCommit rt.refs history durable commit) (hgroup : CommitGroup rt hash commit group) :
      Polled rt history hash boundary (groups ++ [group]) commit.lsn

def SnapshotGroup (rt : Runtime) (hash : String) (boundary : Lsn) (group : PublishedGroup) : Prop :=
  ∃ (info : Inspection rt.refs) (contents : TableRef → List (List (Option String))),
    rt.schemaHash info.tables = hash
      ∧ Producer.SnapshotGroup rt.sizing hash boundary.render (info.tables.map Table.ref)
        (snapshotLoads rt info contents) group

theorem SnapshotGroup.mark {boundary : Lsn} {hash : String} {group : PublishedGroup}
    (h : SnapshotGroup rt hash boundary group) : group.mark = { lsn := boundary.render } := by
  obtain ⟨_, _, -, _, -, hmark, -⟩ := h
  exact hmark

def Sealed (rt : Runtime) (history : List Commit) (b : Backlog) : Prop :=
  ∃ (first : PublishedGroup) (rest : List PublishedGroup) (boundary durable : Lsn), b.groups = first :: rest
    ∧ SnapshotGroup rt b.origin.schemaHash boundary first
    ∧ Polled rt history b.origin.schemaHash boundary rest durable
    ∧ b.hash = b.origin.schemaHash ∧ b.durableLsn = durable.render

theorem Sealed.expose {b : Backlog} {cleanup : String} (h : Sealed rt history b.settled)
    (hdurable : b.durableLsn = last.render) (next : Lsn)
    (hgroup : ∀ {boundary : Lsn} {rest : List PublishedGroup},
      Polled rt history b.origin.schemaHash boundary rest last →
      Polled rt history b.origin.schemaHash boundary (rest ++ [⟨b.staged, { lsn := next.render }⟩]) next) :
    Sealed rt history { b.expose { lsn := next.render } with sourceCleanup := cleanup } := by
  obtain ⟨first, rest, boundary, durable, hgroups, hfirst, hpolled, hhash, hposition⟩ := h
  have hsame : durable = last :=
    Option.some.inj (by rw [← parse_render durable, ← parse_render last, ← hdurable, ← hposition]; rfl)
  subst hsame
  refine ⟨first, _, boundary, next, ?_, hfirst, hgroup hpolled, ?_, ?_⟩
  · change b.groups ++ _ = _
    have hgroups : b.groups = first :: rest := hgroups
    rw [hgroups]
    rfl
  · exact (b.hash_expose { lsn := next.render }).trans hhash
  · exact b.durableLsn_expose { lsn := next.render }

end Groups

section Plans

variable {b base : Backlog} {read : ReadFile} {text : String}

structure Ready (rt : Runtime) (info : Inspection refs) (b : Backlog) : Prop where
  phase : b.phase = .stream
  staged : b.staged = []
  hash : b.hash = rt.schemaHash info.tables

theorem keeps_addRow {seals : Backlog → Prop} {template : Message} {front : List Message}
    {raw rows : List Row} {row : Option Row} {batch : Capture.Batch}
    (h : Batched template front base rows batch b) (hraw : Embedded rt.sizing raw rows)
    (hb : Captured seals b) :
    Keeps seals b (addRow rt read row batch)
      (fun batch' b' => ∃ rows', Embedded rt.sizing (raw ++ row.toList) rows'
        ∧ Batched template front base rows' batch' b')
      fun _ _ => True := by
  cases row with
  | none =>
      refine Plan.Triple.pure hb ⟨rows, ?_, h⟩
      rw [Option.toList_none, List.append_nil]
      exact hraw
  | some row =>
      apply Plan.Triple.mapError
      refine (h.add hb fun _ => trivial).mono ?_ fun _ _ _ herr => herr
      rintro batch' b' - ⟨embedded, hembed, hadded⟩
      exact ⟨rows ++ [embedded], Capture.Views.forall₂_snoc hraw ⟨read, hembed⟩, hadded⟩

/-- The changes of a commit are paired, converted and batched. -/
theorem keeps_readChanges {seals : Backlog → Prop} (tables : List Table) (changes : List Change)
    (hb : Captured seals b) (hstaging : Staging base [] b) :
    Keeps seals b (readChanges rt read tables changes { message := transactionTemplate text })
      (fun result b' => ∃ raw rows, Reading.rows rt.formatFloat tables {} changes = .ok (result.1, raw)
        ∧ result.1.before = none ∧ Embedded rt.sizing raw rows
        ∧ Batched (transactionTemplate text) [] base rows result.2 b')
      fun _ _ => True := by
  unfold readChanges
  apply Plan.Triple.bind (fun (result : Reading × Capture.Batch) b' => ∃ raw rows,
    Reading.rows rt.formatFloat tables {} changes = .ok (result.1, raw)
      ∧ Embedded rt.sizing raw rows ∧ Batched (transactionTemplate text) [] base rows result.2 b')
  · refine Plan.Triple.mono (Plan.Triple.foldlM
      (fun rest (state : Reading × Capture.Batch) b' => ∃ done raw rows, changes = done ++ rest
        ∧ Reading.rows rt.formatFloat tables {} done = .ok (state.1, raw)
        ∧ Embedded rt.sizing raw rows ∧ Batched (transactionTemplate text) [] base rows state.2 b')
      ?_ changes hb
      ⟨[], [], [], rfl, rfl, .nil, Capture.batched_start hstaging rfl rfl 0⟩) ?_ fun _ _ _ herr => herr
    · rintro change rest ⟨r, batch⟩ b hb ⟨done, raw, rows, hdone, hrows, hraw, hbatched⟩
      unfold readChange
      refine Plan.Triple.bind
        (fun result b' => b' = b ∧ r.next rt.formatFloat tables change = .ok result)
        (Plan.Triple.lift hb (fun _ hok => ⟨rfl, hok⟩) fun _ _ => trivial) ?_
      rintro ⟨r', row⟩ _ - - ⟨rfl, hnext⟩
      refine Plan.Triple.bind _ (keeps_addRow hbatched hraw hb) ?_
      rintro batch' b' - hb' ⟨rows', hraw', hbatched'⟩
      refine Plan.Triple.pure hb' ⟨done ++ [change], raw ++ row.toList, rows', ?_,
        Reading.rows_snoc hrows hnext, hraw', hbatched'⟩
      rw [hdone, List.append_assoc]
      rfl
    · rintro result b' - ⟨done, raw, rows, hdone, hrest⟩
      rw [List.append_nil] at hdone
      exact ⟨raw, rows, hdone ▸ hrest⟩
  · rintro ⟨r, batch⟩ b' - hb' ⟨raw, rows, hrows, hraw, hbatched⟩
    dsimp only
    split
    · exact Plan.Triple.fail hb' trivial
    · rename_i hpaired
      exact Plan.Triple.pure hb' ⟨raw, rows, hrows, by simpa using hpaired, hraw, hbatched⟩

theorem keeps_publish {info : Inspection rt.refs} {next : Lsn} (hb : Captured (Sealed rt history) b)
    (hphase : b.phase = .stream) (hhash : b.hash = rt.schemaHash info.tables)
    (hdurable : b.durableLsn = last.render)
    (hgroup : ∀ {boundary : Lsn} {rest : List PublishedGroup},
      Polled rt history b.origin.schemaHash boundary rest last →
      Polled rt history b.origin.schemaHash boundary (rest ++ [⟨b.staged, { lsn := next.render }⟩]) next) :
    Keeps (Sealed rt history) b (Plan.request (.publish next.render false) : Plan Call Error Unit)
      (fun _ => Ready rt info) fun _ _ => True := by
  refine Plan.Triple.request hb ?_
  rintro _ ⟨now, rfl⟩
  refine ⟨hb.expose hphase fun hsealed => hsealed.expose hdurable next hgroup, hphase, rfl, ?_⟩
  exact (b.hash_expose { lsn := next.render }).trans hhash

/-- A commit is published whole. -/
theorem keeps_pollCommit {expected : Inspection rt.refs} {view : View rt.refs}
    (hb : Captured (Sealed rt history) b) (hready : Ready rt expected b)
    (hdurable : b.durableLsn = last.render) (hnext : NextCommit rt.refs history last commit)
    (hsorted : (changesQuery expected.tables view.changes commit.lsn).Pairwise Change.upTo)
    (hperm : (changesQuery expected.tables view.changes commit.lsn).Perm
      (commit.changes expected.tables)) :
    Keeps (Sealed rt history) b (pollCommit rt read expected view commit.lsn)
      (fun _ => Ready rt expected) fun _ _ => True := by
  have hstart : Staging b [] b := ⟨rfl, by rw [hready.staged]; exact .nil⟩
  have hsealed : b.hash = b.origin.schemaHash := by
    obtain ⟨_, _, _, _, -, -, -, hhash, -⟩ := hb.sealed hready.phase
    exact hhash
  unfold pollCommit
  refine Plan.Triple.bind _ (keeps_readChanges expected.tables _ hb hstart) ?_
  rintro ⟨r, batch⟩ b₁ - hb₁ ⟨raw, rows, hrows, hpaired, hraw, hbatched⟩
  dsimp only
  split
  · exact Plan.Triple.fail hb₁ trivial
  rename_i hcount
  apply Plan.Triple.bind (fun _ b' => b' = b₁)
  · exact Plan.Triple.lift hb₁ (fun _ _ => rfl) fun _ _ => trivial
  rintro current _ - - rfl
  apply Plan.Triple.bind (fun _ b' => b' = _)
  · exact Plan.Triple.lift hb₁ (fun _ _ => rfl) fun _ _ => trivial
  rintro - _ - - rfl
  refine Plan.Triple.bind _ (Plan.Triple.mapError (hbatched.flush hb₁)) ?_
  rintro batch' b₂ - hb₂ ⟨⟨chunks, hfull, hmessage, hconcat, hstaging⟩, hempty⟩
  rw [hempty, List.append_nil] at hconcat
  apply Plan.Triple.bind
    (fun _ => Staging b (transactionMessages commit.lsn.render chunks))
  · refine Capture.keeps_append hb₂ fun now => ?_
    rw [hmessage]
    exact hstaging.stage now _
  rintro - b₃ - hb₃ hstaged
  have horigin : b₃.origin = b.origin := by rw [hstaged.same]
  have hposition : b₃.durableLsn = last.render := by
    rw [hstaged.same]
    exact hdurable
  have hphase : b₃.phase = .stream := by
    rw [hstaged.same]
    exact hready.phase
  refine keeps_publish hb₃ hphase (hstaged.hash_eq.trans hready.hash) hposition ?_
  intro boundary rest hpolled
  refine hpolled.commit hnext ⟨expected.tables, _, r, raw, chunks, ?_, expected.covers, hsorted, hperm,
    hrows, hpaired, hconcat ▸ hraw, ?_, hfull, rfl, ?_⟩
  · rw [horigin, ← hsealed, hready.hash]
  · rintro rfl
    rw [← hconcat] at hraw
    cases List.forall₂_nil_right_iff.mp hraw
    exact hcount (Reading.rows_ordinals hrows).2
  · rw [horigin, ← hsealed]
    exact hstaged.staged

/-- A poll publishes the next commit, moves the position, or does nothing. -/
theorem keeps_poll {cdc : Cdc} {expected : Inspection rt.refs} {view : View rt.refs} {st : Queue.State}
    (hlsns : history.Pairwise fun earlier later => earlier.lsn < later.lsn)
    (hsound : cdc.Sound history) (hshows : view.shows history cdc = true)
    (hb : Captured (Sealed rt history) b) (hready : Ready rt expected b)
    (hst : st.durableLsn = b.durableLsn) :
    Keeps (Sealed rt history) b (poll rt read expected view st) (fun _ => Ready rt expected)
      fun _ _ => True := by
  unfold poll
  split
  · exact Plan.Triple.fail hb trivial
  rename_i last hlast
  have hdurable : b.durableLsn = last.render := by
    obtain ⟨_, _, _, durable, -, -, -, -, hposition⟩ := hb.sealed hready.phase
    have hposition : b.durableLsn = durable.render := hposition
    rw [hst, hposition, parse_render] at hlast
    rw [hposition, Option.some.inj hlast]
  split
  · exact Plan.Triple.fail hb trivial
  · exact Plan.Triple.pure hb hready
  rename_i fromLsn upper hrange
  obtain ⟨rfl, rfl, hbelow, hlow⟩ := pollRange_some hshows hrange
  unfold pollFrom
  split
  · rename_i hnone
    have huntouched := nextLsn_none hshows hsound hlow hbelow hnone
    refine Plan.Triple.bind _
      (keeps_publish hb hready.phase hready.hash hdurable fun hpolled => ?_) ?_
    · rw [hready.staged]
      exact hpolled.forward hbelow huntouched
    · exact fun _ _ _ hb' hready' => Plan.Triple.pure hb' hready'
  · rename_i next hsome
    split
    · exact Plan.Triple.fail hb trivial
    obtain ⟨hhigh, commit, rfl, hnext⟩ := nextLsn_some hshows hsound hlow hbelow hsome
    have hreached : last + 1 ≤ commit.lsn := Fin.add_one_le_of_lt hnext.after
    obtain ⟨hsorted, hperm⟩ := changesQuery_commit expected hshows hsound hlsns hnext.mem
      (lt_of_le_of_lt (Fin.zero_le _) hnext.after) (fun ref href => (hlow ref href).trans hreached) hhigh
    refine Plan.Triple.bind _ (keeps_pollCommit hb hready hdurable hnext hsorted hperm) ?_
    exact fun _ _ _ hb' hready' => Plan.Triple.pure hb' hready'

end Plans

end GoSync.SqlServer
