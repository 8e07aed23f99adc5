import GoSync.Capture.Grammar

/-!
# Plans keep the backlog captured

A triple for each plan of capture: the batcher's, the decoder's, the snapshot and the refresh. The
crash condition is always `Captured`, so an attempt may end between any two queue calls.
-/

namespace GoSync.Capture

open Queue (Checkpoint)

def Keeps {ε α : Type} (seals : Backlog → Prop) (b : Backlog) (plan : Plan Call ε α)
    (post : α → Backlog → Prop) (errs : ε → Backlog → Prop) : Prop :=
  plan.Triple Grants (Captured seals) b post errs

variable {seals : Backlog → Prop} {b base : Backlog}

theorem stamped_stamp (b : Backlog) (now : String) (body : Message) :
    Stamped b.hash body (b.stamp now body) :=
  ⟨_, now, rfl, rfl⟩

theorem Numbered.stage (h : Numbered b) (now : String) (body : Message) :
    Numbered (b.stage (b.stamp now body)) := by
  intro index message hget
  change (b.published ++ (b.staged ++ [b.stamp now body]))[index]? = some message at hget
  rw [← List.append_assoc] at hget
  rcases Nat.lt_or_ge index (b.published ++ b.staged).length with hlt | hge
  · rw [List.getElem?_append_left hlt] at hget
    exact h index message hget
  · rw [List.getElem?_append_right hge, List.getElem?_singleton] at hget
    split_ifs at hget with hlast
    cases hget
    have hindex : index = b.published.length + b.staged.length := by
      rw [List.length_append] at hge hlast
      omega
    subst hindex
    exact ⟨rfl, rfl, rfl, rfl⟩

theorem Numbered.expose (h : Numbered b) (mark : Checkpoint) : Numbered (b.expose mark) := by
  intro index message hget
  rw [Backlog.published_expose] at hget
  exact h index message (by simpa [Backlog.expose] using hget)

theorem Numbered.discard (h : Numbered b) : Numbered { b with staged := [] } := by
  intro index message hget
  change (b.published ++ [])[index]? = some message at hget
  rw [List.append_nil] at hget
  obtain ⟨hlt, -⟩ := List.getElem?_eq_some_iff.mp hget
  exact h index message (by rwa [List.getElem?_append_left hlt])

theorem Captured.stage (h : Captured seals b) (now : String) (message : Message) :
    Captured seals (b.stage (b.stamp now message)) :=
  ⟨h.numbered.stage now message, h.groups⟩

theorem Captured.discard (h : Captured seals b) : Captured seals b.settled :=
  ⟨h.numbered.discard, h.groups⟩

theorem Captured.initial (b : Backlog) (hphase : b.phase ≠ .stream) (hgroups : b.groups = [])
    (hstaged : b.staged = []) : Captured seals b := by
  refine ⟨fun index message hget => ?_, .inl ⟨hphase, hgroups⟩⟩
  rw [Backlog.published, hgroups, hstaged] at hget
  cases hget

theorem Captured.sealed (h : Captured seals b) (hphase : b.phase = .stream) : seals b.settled := by
  rcases h.groups with ⟨hunsealed, -⟩ | ⟨-, hsealed⟩
  · exact absurd hphase hunsealed
  · exact hsealed

theorem Captured.expose {mark : Checkpoint} {cleanup : String} (h : Captured seals b)
    (hphase : b.phase = .stream)
    (hgroups : seals b.settled → seals { b.expose mark with sourceCleanup := cleanup }) :
    Captured seals { b.expose mark with sourceCleanup := cleanup } :=
  ⟨h.numbered.expose mark, .inr ⟨hphase, hgroups (h.sealed hphase)⟩⟩

theorem Captured.mono {seals' : Backlog → Prop} (h : Captured seals b)
    (himp : ∀ b, seals b → seals' b) : Captured seals' b :=
  ⟨h.numbered, h.groups.imp id fun hsealed => ⟨hsealed.1, himp _ hsealed.2⟩⟩

theorem Captured.finalize {lsn : String} (h : Captured seals b) (hphase : b.phase ≠ .stream) :
    Captured seals (b.grant "" (.finalizeSnapshotLsn lsn)) := by
  refine ⟨?_, ?_⟩
  · intro index message hget
    change (b.published ++ b.staged.map fun message => { message with lsn := lsn })[index]?
      = some message at hget
    rw [List.getElem?_append] at hget
    have hnumbered := h.numbered index
    rw [List.getElem?_append] at hnumbered
    split at hget
    · rename_i hlt
      rw [if_pos hlt] at hnumbered
      exact hnumbered message hget
    · rename_i hge
      rw [if_neg hge] at hnumbered
      rw [List.getElem?_map] at hget
      obtain ⟨old, hold, rfl⟩ := Option.map_eq_some_iff.mp hget
      exact hnumbered old hold
  · rcases h.groups with hunsealed | ⟨hsealed, -⟩
    · exact .inl hunsealed
    · exact absurd hsealed hphase

theorem keeps_append {ε : Type} {message : Message} {post : Unit → Backlog → Prop}
    {errs : ε → Backlog → Prop} (h : Captured seals b)
    (hpost : ∀ now, post () (b.stage (b.stamp now message))) :
    Keeps seals b (Plan.request (.append message)) post errs := by
  refine Plan.Triple.request h ?_
  rintro _ ⟨now, rfl⟩
  exact ⟨h.stage now message, hpost now⟩

theorem keeps_appendOnce {ε : Type} {message : Message} {post : Unit → Backlog → Prop}
    {errs : ε → Backlog → Prop} (h : Captured seals b)
    (hpost : ∀ now, post () (b.stage (b.stamp now message))) :
    Keeps seals b (Plan.request (.appendOnce message)) post errs := by
  refine Plan.Triple.request h ?_
  rintro _ ⟨now, rfl⟩
  exact ⟨h.stage now message, hpost now⟩

structure Staging (base : Backlog) (bodies : List Message) (b : Backlog) : Prop where
  same : b = { base with staged := b.staged }
  staged : List.Forall₂ (Stamped base.hash) bodies b.staged

variable {bodies : List Message}

theorem Staging.hash_eq (h : Staging base bodies b) : b.hash = base.hash := by
  rw [h.same]
  rfl

theorem Staging.stage (h : Staging base bodies b) (now : String)
    (body : Message) : Staging base (bodies ++ [body]) (b.stage (b.stamp now body)) := by
  refine ⟨?_, Views.forall₂_snoc h.staged (h.hash_eq ▸ stamped_stamp b now body)⟩
  rw [h.same]
  rfl

variable {row : Row}

section Batching

/-- The staged messages are `front` and full chunks; with the batch in hand they hold `rows`. -/
def Batched (template : Message) (front : List Message) (base : Backlog) (rows : List Row)
    (batch : Batch) (b : Backlog) : Prop :=
  ∃ chunks, (∀ rows ∈ chunks, rows ≠ [])
    ∧ batch.message = { template with chunk := chunks.length, rows := batch.message.rows }
    ∧ chunks.flatten ++ batch.message.rows = rows
    ∧ Staging base (front ++ chunkMessages template chunks) b

variable {template : Message} {front : List Message} {rows : List Row} {batch : Batch}
  {errs : CaptureError → Backlog → Prop} {sizing : Sizing} {due : Nat → Batch → Bool}

theorem chunkMessages_snoc (template : Message) (chunks : List (List Row)) (rows : List Row) :
    chunkMessages template (chunks ++ [rows])
      = chunkMessages template chunks ++ [{ template with chunk := chunks.length, rows := rows }] := by
  simp [chunkMessages, List.zipIdx_append]

theorem Batched.push (h : Batched template front base rows batch b) (row : Row) (size : Nat) :
    Batched template front base (rows ++ [row]) (batch.push row size) b := by
  obtain ⟨chunks, hfull, hmessage, hrows, hstaging⟩ := h
  refine ⟨chunks, hfull, ?_, ?_, hstaging⟩
  · rw [Batch.push, hmessage]
  · rw [Batch.push, ← hrows, List.append_assoc]

/-- Flushing stages the rows that are batched. -/
theorem Batched.flush (h : Batched template front base rows batch b) (hb : Captured seals b) :
    Keeps seals b batch.flush
      (fun batch' b' => Batched template front base rows batch' b' ∧ batch'.message.rows = []) errs := by
  unfold Batch.flush
  by_cases hempty : batch.message.rows = []
  · rw [if_pos hempty]
    exact Plan.Triple.pure hb ⟨h, hempty⟩
  rw [if_neg hempty]
  apply Plan.Triple.bind
    (fun _ b' => Batched template front base rows
      { message := { batch.message with rows := [], chunk := batch.message.chunk + 1 } } b')
  · apply keeps_append hb
    intro now
    obtain ⟨chunks, hfull, hmessage, hconcat, hstaging⟩ := h
    refine ⟨chunks ++ [batch.message.rows], ?_, ?_, by simpa using hconcat, ?_⟩
    · intro chunk hmem
      rcases List.mem_append.mp hmem with hmem | hmem
      · exact hfull chunk hmem
      · rwa [List.mem_singleton.mp hmem]
    · rw [hmessage, List.length_append, List.length_singleton]
    · rw [chunkMessages_snoc, ← hmessage, ← List.append_assoc]
      exact hstaging.stage now batch.message
  · intro _ b' _ hb' hbatched
    exact Plan.Triple.pure hb' ⟨hbatched, rfl⟩

theorem Batched.flushIf (h : Batched template front base rows batch b) (hb : Captured seals b)
    (due : Bool) : Keeps seals b (batch.flushIf due) (Batched template front base rows) errs := by
  cases due with
  | false => exact Plan.Triple.pure hb h
  | true => exact (h.flush hb).mono (fun _ _ _ hpost => hpost.1) fun _ _ _ herr => herr

theorem Batched.add {read : ReadFile} (h : Batched template front base rows batch b)
    (hb : Captured seals b) (herrs : ∀ err, errs err b) :
    Keeps seals b (batch.addUnless due sizing read row)
      (fun batch' b' => ∃ embedded, embedFiles sizing.cfg read row = .ok embedded
        ∧ Batched template front base (rows ++ [embedded]) batch' b')
      errs := by
  unfold Batch.addUnless
  refine Plan.Triple.bind (fun embedded b' => b' = b ∧ embedFiles sizing.cfg read row = .ok embedded)
    (Plan.Triple.lift hb (fun _ hok => ⟨rfl, hok⟩) fun err _ => herrs err) ?_
  rintro embedded _ - - ⟨rfl, hembed⟩
  split
  · exact Plan.Triple.fail hb (herrs _)
  -- The batch is flushed before the row, after it, or not at all.
  refine Plan.Triple.bind _ (h.flushIf hb _) ?_
  intro batch' b' _ hb' h'
  exact ((h'.push embedded _).flushIf hb' _).mono (fun _ _ _ hpost => ⟨embedded, hembed, hpost⟩)
    fun _ _ _ herr => herr

theorem batched_start (hstaging : Staging base front b) (hrows : template.rows = [])
    (hchunk : template.chunk = 0) (size : Nat) :
    Batched template front base [] { message := template, size := size } b := by
  refine ⟨[], fun _ hmem => (List.not_mem_nil hmem).elim, ?_, hrows, ?_⟩
  · cases template
    simp_all
  · rw [chunkMessages, List.zipIdx_nil, List.map_nil, List.append_nil]
    exact hstaging

variable {call : Call}

theorem Batch.flush_requests (h : call ∈ batch.flush.requests) :
    ∃ message, call = .append message := by
  unfold Batch.flush at h
  split at h
  · cases h
  · rcases Plan.mem_bind h with h | ⟨_, -, h⟩
    · exact ⟨_, List.mem_singleton.mp h⟩
    · cases h

theorem Batch.flushIf_requests {due : Bool} (h : call ∈ (batch.flushIf due).requests) :
    ∃ message, call = .append message := by
  cases due with
  | false => cases h
  | true => exact Batch.flush_requests h

theorem Batch.add_requests {read : ReadFile}
    (h : call ∈ (batch.addUnless due sizing read row).requests) : ∃ message, call = .append message := by
  unfold Batch.addUnless at h
  rcases Plan.mem_bind h with h | ⟨embedded, -, h⟩
  · cases h
  split at h
  · cases h
  rcases Plan.mem_bind h with h | ⟨roomy, -, h⟩
  · exact Batch.flushIf_requests h
  · exact Batch.flushIf_requests h

end Batching

section Decoding

variable {rt : Runtime} {history : List Transaction} {hash : String}

def closing (lsn : LsnText) (tx : Transaction) (changes : List Change) : List Record :=
  changes.map (Change.record tx.xid)
    ++ [{ action := .commit, xid := tx.xid, nextLsn := lsn.render tx.end }]

structure Reading (history earlier later : List Transaction) (tx : Transaction) (d : Decoder) : Prop
    where
  history : history = earlier ++ tx :: later
  past : ∀ t ∈ earlier, t.end ≤ d.durable
  active : d.active = true
  «end» : d.end = tx.end
  xid : d.xid = tx.xid

/-- Where a decoder is in the history, given the records that follow: between two transactions, in
one that was published before, or in a new one, of which it has staged what it has read. -/
inductive Place (rt : Runtime) (history : List Transaction) (d : Decoder) (remaining : List Record)
    (b : Backlog) : Prop where
  | between (earlier later : List Transaction) (hhistory : history = earlier ++ later)
      (hpast : ∀ t ∈ earlier, t.end ≤ d.durable) (hidle : d.active = false) (hstaged : b.staged = [])
      (hremaining : remaining = later.flatMap (Transaction.records rt.lsn))
  | skipping (earlier later : List Transaction) (tx : Transaction) (rest : List Change)
      (hreading : Reading history earlier later tx d) (hskip : d.skip = true)
      (hend : tx.end ≤ d.durable) (hstaged : b.staged = [])
      (hremaining : remaining
        = closing rt.lsn tx rest ++ later.flatMap (Transaction.records rt.lsn))
  | inside (earlier later : List Transaction) (tx : Transaction) (done rest : List Change)
      (rows : List Row) (hreading : Reading history earlier later tx d) (hskip : d.skip = false)
      (hend : d.durable < tx.end) (hchanges : tx.changes = done ++ rest)
      (hordinal : d.ordinal = done.length) (hrows : Converted rt d.tables done rows)
      (hbatched : Batched (transactionTemplate (rt.lsn.render tx.end)) [] b rows d.b b)
      (hremaining : remaining
        = closing rt.lsn tx rest ++ later.flatMap (Transaction.records rt.lsn))

structure Stands (rt : Runtime) (hash : String) (durable : Lsn) (b : Backlog) : Prop where
  phase : b.phase = .stream
  durable : rt.lsn.parse b.durableLsn = some durable
  hash : b.hash = hash

variable {durable : Lsn}

theorem Stands.of_staging (h : Stands rt hash durable base)
    (hstaging : Staging base bodies b) : Stands rt hash durable b := by
  rw [hstaging.same]
  exact ⟨h.phase, h.durable, h.hash⟩

variable {rows : List Row} {batch : Batch}

theorem Stands.of_batched {template : Message} {front : List Message} (h : Stands rt hash durable base)
    (hbatched : Batched template front base rows batch b) : Stands rt hash durable b := by
  obtain ⟨_, -, -, -, hstaging⟩ := hbatched
  exact h.of_staging hstaging

structure InStream (rt : Runtime) (history : List Transaction) (hash : String)
    (remaining : List Record) (d : Decoder) (b : Backlog) : Prop where
  stands : Stands rt hash d.durable b
  tables : rt.schemaHash d.tables = hash
  place : Place rt history d remaining b

variable {d : Decoder} {read : ReadFile} {r : Record} {rest : List Record}
  {errs : CaptureError → Backlog → Prop}

theorem Batched.rebase {template : Message} {front : List Message}
    (h : Batched template front base rows batch b) :
    Batched template front b rows batch b := by
  obtain ⟨chunks, hfull, hmsg, hconcat, hstaging⟩ := h
  exact ⟨chunks, hfull, hmsg, hconcat, rfl, hstaging.hash_eq ▸ hstaging.staged⟩

theorem Converted.snoc {tables : List Table} {done : List Change} {change : Change}
    (h : Converted rt tables done rows) (hrow : ConvertedRow rt tables change (done.length + 1) row) :
    Converted rt tables (done ++ [change]) (rows ++ [row]) := by
  unfold Converted
  rw [List.zipIdx_append]
  refine Views.forall₂_snoc h ?_
  rw [Nat.add_comm]
  exact hrow

theorem Runtime.position_render (rt : Runtime) (lsn : Lsn) : rt.position (rt.lsn.render lsn) = lsn := by
  rw [Runtime.position, rt.lsn.parse_render]
  rfl

theorem Stands.position (h : Stands rt hash durable b) :
    rt.position b.durableLsn = durable := by
  rw [Runtime.position, h.durable]
  rfl

theorem Captured.publish {mark : Checkpoint} {cleanup : String} (h : Captured (Sealed rt history) b)
    (hphase : b.phase = .stream)
    (hgroup : ∀ start point groups,
      Streamed rt history start point groups (rt.position b.durableLsn) b.hash →
      Streamed rt history start point (groups ++ [⟨b.staged, mark⟩]) (rt.position mark.lsn)
        (mark.schemaHash.getD b.hash)) :
    Captured (Sealed rt history) { b.expose mark with sourceCleanup := cleanup } := by
  refine h.expose hphase ?_
  rintro ⟨first, rest, point, hgroups, hfirst, hstreamed⟩
  refine ⟨first, rest ++ [⟨b.staged, mark⟩], point, ?_, hfirst, ?_⟩
  · exact (congrArg (· ++ [⟨b.staged, mark⟩]) hgroups).trans rfl
  · have hstep := hgroup _ _ _ hstreamed
    rw [← Backlog.durableLsn_expose b mark, ← Backlog.hash_expose b mark] at hstep
    exact hstep

variable {tx : Transaction}

theorem Captured.commit (h : Captured (Sealed rt history) b)
    (hstands : Stands rt hash durable b) (hnext : NextTransaction history durable tx)
    (hgroup : TransactionGroup rt hash tx ⟨b.staged, { lsn := rt.lsn.render tx.end }⟩) :
    Captured (Sealed rt history)
      { b.expose { lsn := rt.lsn.render tx.end } with sourceCleanup := "" } := by
  refine h.publish hstands.phase ?_
  intro start point groups hstreamed
  rw [hstands.position, hstands.hash] at hstreamed
  rw [rt.position_render, hstands.hash]
  exact .transaction hstreamed hnext hgroup

theorem Captured.refresh {current : List Table} (h : Captured (Sealed rt history) b)
    (hstands : Stands rt hash durable b) (hgroup : RefreshGroup rt hash durable current
      ⟨b.staged, { lsn := rt.lsn.render durable, schemaHash := some (rt.schemaHash current) }⟩) :
    Captured (Sealed rt history)
      (b.expose { lsn := rt.lsn.render durable, schemaHash := some (rt.schemaHash current) }) := by
  apply h.publish hstands.phase
  intro start point groups hstreamed
  rw [hstands.position, hstands.hash] at hstreamed
  rw [rt.position_render]
  exact .refresh hstreamed hgroup

variable {earlier later : List Transaction}

/-- A transaction begins behind the durable position or is skipped. -/
theorem keeps_begin (hb : Captured (Sealed rt history) b) (hstands : Stands rt hash d.durable b)
    (htables : rt.schemaHash d.tables = hash) (hhistory : history = earlier ++ tx :: later)
    (hpast : ∀ t ∈ earlier, t.end ≤ d.durable) (hidle : d.active = false) (hstaged : b.staged = [])
    (herrs : ∀ err, errs err b) :
    Keeps (Sealed rt history) b
      (d.record rt read { action := .begin, xid := tx.xid, nextLsn := rt.lsn.render tx.end })
      (InStream rt history hash
        (closing rt.lsn tx tx.changes ++ later.flatMap (Transaction.records rt.lsn)))
      errs := by
  refine Plan.Triple.lift hb ?_ fun err _ => herrs err
  intro d' hbegin
  unfold Decoder.begin at hbegin
  rw [hidle, rt.lsn.parse_render] at hbegin
  simp only [Bool.false_eq_true, if_false] at hbegin
  split_ifs at hbegin
  cases hbegin
  refine ⟨hstands, htables, ?_⟩
  by_cases hold : tx.end ≤ d.durable
  · exact .skipping earlier later tx tx.changes ⟨hhistory, hpast, rfl, rfl, rfl⟩
      (decide_eq_true hold) hold hstaged rfl
  · refine .inside earlier later tx [] tx.changes [] ⟨hhistory, hpast, rfl, rfl, rfl⟩
      (decide_eq_false hold) (not_le.mp hold) rfl rfl .nil ?_ rfl
    exact batched_start ⟨rfl, by rw [hstaged]; exact .nil⟩ rfl rfl d.b.size

/-- A change is converted and batched. -/
theorem keeps_change {done rest : List Change}
    {change : Change} (hb : Captured (Sealed rt history) b) (hstands : Stands rt hash d.durable b)
    (htables : rt.schemaHash d.tables = hash)
    (hreading : Reading history earlier later tx d) (hskip : d.skip = false)
    (hend : d.durable < tx.end) (hchanges : tx.changes = done ++ change :: rest)
    (hordinal : d.ordinal = done.length) (hrows : Converted rt d.tables done rows)
    (hbatched : Batched (transactionTemplate (rt.lsn.render tx.end)) [] b rows d.b b)
    (herrs : ∀ err, errs err b) :
    Keeps (Sealed rt history) b (d.record rt read (change.record tx.xid))
      (InStream rt history hash
        (closing rt.lsn tx rest ++ later.flatMap (Transaction.records rt.lsn)))
      errs := by
  change Keeps (Sealed rt history) b (d.change rt read change.kind (change.record tx.xid)) _ errs
  unfold Decoder.change
  rw [if_neg (by simp [hreading.active, hreading.xid, Change.record]), hskip]
  simp only [Bool.false_eq_true, if_false]
  cases htable : findTable d.tables (change.record tx.xid).schema (change.record tx.xid).table with
  | none => exact Plan.Triple.fail hb (herrs _)
  | some table =>
      refine Plan.Triple.bind (fun row b' => b' = b
          ∧ convert change.kind (change.record tx.xid) table = .ok row)
        (Plan.Triple.lift hb (fun _ hok => ⟨rfl, hok⟩) fun err _ => herrs err) ?_
      rintro row _ - - ⟨rfl, hconvert⟩
      refine Plan.Triple.bind _ (hbatched.add hb herrs) ?_
      rintro batch b' - hb' ⟨embedded, hembed, hadded⟩
      refine Plan.Triple.pure hb' ⟨hstands.of_batched hadded, htables, ?_⟩
      · refine .inside earlier later tx (done ++ [change]) rest (rows ++ [embedded])
          ⟨hreading.history, hreading.past, hreading.active, hreading.end, hreading.xid⟩ rfl hend
          (by rw [hchanges, List.append_assoc]; rfl) (by simp [hordinal]) ?_ hadded.rebase rfl
        rw [hordinal] at hembed
        exact hrows.snoc ⟨table, row, read, htable, hconvert, hembed⟩

/-- A commit publishes the rows of its transaction, once. -/
theorem keeps_commit (hb : Captured (Sealed rt history) b) (hstands : Stands rt hash d.durable b)
    (htables : rt.schemaHash d.tables = hash)
    (hreading : Reading history earlier later tx d) (hskip : d.skip = false)
    (hend : d.durable < tx.end) (hrows : Converted rt d.tables tx.changes rows)
    (hbatched : Batched (transactionTemplate (rt.lsn.render tx.end)) [] b rows d.b b) :
    Keeps (Sealed rt history) b
      (d.record rt read { action := .commit, xid := tx.xid, nextLsn := rt.lsn.render tx.end })
      (InStream rt history hash (later.flatMap (Transaction.records rt.lsn))) errs := by
  change Keeps (Sealed rt history) b (d.commit rt _) _ errs
  unfold Decoder.commit
  rw [if_neg (by simp [hreading.active, hreading.xid]),
    if_neg (by simp [rt.lsn.parse_render, hreading.end]), hskip]
  simp only [Bool.false_eq_true, if_false]
  unfold Decoder.publish
  refine Plan.Triple.bind _ (hbatched.flush hb) ?_
  rintro batch b₁ - hb₁ ⟨hflushed, hempty⟩
  obtain ⟨chunks, hfull, hmsg, hconcat, hstaging⟩ := hflushed
  rw [hempty, List.append_nil] at hconcat
  have hchunk : batch.message.chunk = chunks.length := by rw [hmsg]
  refine Plan.Triple.bind
    (fun _ => Staging b (transactionMessages (rt.lsn.render tx.end) chunks))
    (keeps_append hb₁ fun now => ?_) ?_
  · rw [hchunk]
    exact hstaging.stage now _
  rintro - b₂ - hb₂ hgroup
  have hstands₂ : Stands rt hash d.durable b₂ := hstands.of_staging hgroup
  set published : Backlog := { b₂.expose { lsn := rt.lsn.render tx.end } with sourceCleanup := "" }
  have hpublished : Captured (Sealed rt history) published := by
    apply hb₂.commit hstands₂ ⟨earlier, later, hreading.history, hreading.past, hend⟩
    exact ⟨d.tables, chunks, htables, hfull, hconcat ▸ hrows, rfl, hstands.hash ▸ hgroup.staged⟩
  refine Plan.Triple.bind (fun _ b₃ => b₃ = published)
    (Plan.Triple.request hb₂ ?_) ?_
  · rintro _ ⟨now, rfl⟩
    exact ⟨hpublished, rfl⟩
  rintro - _ - - rfl
  refine Plan.Triple.pure hpublished ⟨⟨hstands₂.phase, ?_, ?_⟩, htables, ?_⟩
  · change rt.lsn.parse (b₂.expose _).durableLsn = _
    rw [Backlog.durableLsn_expose, rt.lsn.parse_render, hreading.end]
  · exact (b₂.hash_expose _).trans hstands₂.hash
  · refine .between (earlier ++ [tx]) later (by rw [hreading.history, List.append_assoc]; rfl) ?_ rfl
      rfl rfl
    intro t hmem
    rcases List.mem_append.mp hmem with hmem | hmem
    · rw [hreading.end]
      exact (hreading.past t hmem).trans hend.le
    · rw [List.mem_singleton.mp hmem, hreading.end]

/-- One record of the stream. -/
theorem InStream.record (h : InStream rt history hash (r :: rest) d b) (hb : Captured (Sealed rt history) b) :
    Keeps (Sealed rt history) b (d.record rt read r) (InStream rt history hash rest)
      (fun _ => Stands rt hash d.durable) := by
  have herrs : ∀ _ : CaptureError, Stands rt hash d.durable b := fun _ => h.stands
  cases h.place with
  | between earlier later hhistory hpast hidle hstaged hremaining =>
      cases later with
      | nil => cases hremaining
      | cons tx later =>
          obtain ⟨rfl, rfl⟩ := List.cons.inj hremaining
          exact keeps_begin hb h.stands h.tables hhistory hpast hidle hstaged herrs
  | skipping earlier later tx changes hreading hskip hend hstaged hremaining =>
      cases changes with
      | nil =>
          obtain ⟨rfl, rfl⟩ := List.cons.inj hremaining
          change Keeps (Sealed rt history) b (d.commit rt _) _ _
          unfold Decoder.commit
          rw [if_neg (by simp [hreading.active, hreading.xid]),
            if_neg (by simp [rt.lsn.parse_render, hreading.end]), if_pos hskip]
          refine Plan.Triple.pure hb ⟨h.stands, h.tables, ?_⟩
          refine .between (earlier ++ [tx]) later
            (by rw [hreading.history, List.append_assoc]; rfl) ?_ rfl hstaged rfl
          intro t hmem
          rcases List.mem_append.mp hmem with hmem | hmem
          · exact hreading.past t hmem
          · rwa [List.mem_singleton.mp hmem]
      | cons change changes =>
          obtain ⟨rfl, rfl⟩ := List.cons.inj hremaining
          change Keeps (Sealed rt history) b (d.change rt read change.kind (change.record tx.xid)) _ _
          unfold Decoder.change
          rw [if_neg (by simp [hreading.active, hreading.xid, Change.record]), if_pos hskip]
          exact Plan.Triple.pure hb
            ⟨h.stands, h.tables, .skipping earlier later tx changes hreading hskip hend hstaged rfl⟩
  | inside earlier later tx done changes rows hreading hskip hend hchanges hordinal hrows hbatched
      hremaining =>
      cases changes with
      | nil =>
          obtain ⟨rfl, rfl⟩ := List.cons.inj hremaining
          rw [List.append_nil] at hchanges
          exact keeps_commit hb h.stands h.tables hreading hskip hend (hchanges ▸ hrows) hbatched
      | cons change changes =>
          obtain ⟨rfl, rfl⟩ := List.cons.inj hremaining
          exact keeps_change hb h.stands h.tables hreading hskip hend hchanges hordinal hrows hbatched herrs

theorem Batch.flush_result (b : Batch) : ∃ b', b.flush.result = .ok b' := by
  unfold Batch.flush
  split
  · exact ⟨_, rfl⟩
  · exact ⟨_, rfl⟩

theorem Batch.flushIf_result (due : Bool) (b : Batch) : ∃ b', (b.flushIf due).result = .ok b' := by
  cases due with
  | false => exact ⟨b, rfl⟩
  | true => exact b.flush_result

theorem Batch.add_refused {due : Nat → Batch → Bool} {sizing : Sizing}
    {err : CaptureError} (h : (batch.addUnless due sizing read row).result = .error err) :
    (batch.addUnless due sizing read row).requests = [] := by
  unfold Batch.addUnless at h ⊢
  cases hembed : embedFiles sizing.cfg read row with
  | error err => rfl
  | ok embedded =>
      rw [hembed, Plan.bind_of_ok rfl] at h
      rw [Plan.bind_of_ok rfl]
      dsimp only at h ⊢
      split
      · rfl
      -- Nothing after the size check fails.
      · rename_i hsize
        rw [if_neg hsize] at h
        obtain ⟨roomy, hroomy⟩ := batch.flushIf_result (due (sizing.rowSize embedded) batch)
        rw [Plan.bind_of_ok hroomy] at h
        obtain ⟨last, hlast⟩ := Batch.flushIf_result
          ((roomy.push embedded (sizing.rowSize embedded)).full sizing.cfg)
          (roomy.push embedded (sizing.rowSize embedded))
        rw [hlast] at h
        cases h

/-- A record that is refused asks nothing of the queue. -/
theorem Decoder.record_refused {err : CaptureError} (h : (d.record rt read r).result = .error err) :
    (d.record rt read r).requests = [] := by
  unfold Decoder.record at h ⊢
  split
  · rfl
  · rename_i haction
    rw [haction] at h
    change (d.commit rt r).result = _ at h
    unfold Decoder.commit at h ⊢
    split_ifs at h ⊢
    · rfl
    · rfl
    · obtain ⟨batch, hflush⟩ := d.b.flush_result
      rw [Decoder.publish, Plan.bind_of_ok hflush] at h
      cases h
  · rename_i kind haction
    rw [haction] at h
    change (d.change rt read kind r).result = _ at h
    unfold Decoder.change at h ⊢
    split_ifs at h ⊢
    · rfl
    · split
      · rfl
      · rename_i table htable
        simp only [htable] at h
        cases hconvert : convert kind r table with
        | error err => rfl
        | ok row =>
            rw [hconvert, Plan.bind_of_ok rfl] at h
            rw [Plan.bind_of_ok rfl]
            dsimp only [Plan.lift] at h ⊢
            cases hadd : (Batcher.add rt read { row with ordinal := d.ordinal + 1 } d.b).result with
            | error err =>
                rw [Plan.bind_of_error hadd]
                exact Batch.add_refused hadd
            | ok batch =>
                rw [Plan.bind_of_ok hadd] at h
                cases h
  · rfl
  · rfl
  · rfl

def Stranded (rt : Runtime) (hash : String) (err : CaptureError × Lsn) (b : Backlog) : Prop :=
  Stands rt hash err.2 b

theorem InStream.records {records : List Record} (h : InStream rt history hash (records ++ rest) d b)
    (hb : Captured (Sealed rt history) b) :
    Keeps (Sealed rt history) b (records.foldlM (Decoder.recordAt rt read) d)
      (InStream rt history hash rest) (Stranded rt hash) := by
  refine Plan.Triple.foldlM (fun items d b => InStream rt history hash (items ++ rest) d b) ?_ records
    hb h
  intro r rest' d b hb h
  exact Plan.Triple.mapError (h.record hb)

theorem InStream.refused {front : List Record} {bad : Record} {err : CaptureError × Lsn}
    {post : Decoder → Backlog → Prop} (h : InStream rt history hash (front ++ rest) d b)
    (hb : Captured (Sealed rt history) b)
    (hrefused : ((front ++ [bad]).foldlM (Decoder.recordAt rt read) d).result = .error err) :
    Keeps (Sealed rt history) b ((front ++ [bad]).foldlM (Decoder.recordAt rt read) d) post
      (Stranded rt hash) := by
  simp only [List.foldlM_append, List.foldlM_cons, List.foldlM_nil, bind_pure] at hrefused ⊢
  refine Plan.Triple.bind _ (h.records hb) ?_
  intro d' b' hresult hb' h'
  rw [Plan.bind_of_ok hresult] at hrefused
  unfold Decoder.recordAt Plan.mapError at hrefused ⊢
  cases hrecord : (d'.record rt read bad).result with
  | ok next =>
      rw [hrecord] at hrefused
      cases hrefused
  | error reason =>
      rw [Decoder.record_refused hrecord]
      exact Plan.Triple.fail hb' h'.stands

/-- One frame of the stream. -/
theorem InStream.consume {frame : Frame} {remaining : List Record}
    (h : InStream rt history hash remaining d b) (hb : Captured (Sealed rt history) b)
    (hfollows : frame.follows rt read d remaining = true) :
    Keeps (Sealed rt history) b (d.consume rt read frame)
      (InStream rt history hash (remaining.drop frame.records.length)) (Stranded rt hash) := by
  rw [Frame.follows, Bool.or_eq_true, Bool.and_eq_true, List.isPrefixOf_iff_prefix,
    List.isPrefixOf_iff_prefix] at hfollows
  unfold Decoder.consume
  by_cases hsize : frame.size > rt.cfg.maxRowBytes * 2
  · rw [if_pos hsize]
    exact Plan.Triple.fail hb h.stands
  rw [if_neg hsize]
  rcases hfollows with ⟨rest, rfl⟩ | ⟨⟨rest, hfront⟩, hrefused⟩
  · rw [List.drop_left]
    refine Plan.Triple.bind _ (h.records hb) ?_
    intro d' b' _ hb' h'
    split
    · exact Plan.Triple.fail hb' h'.stands
    · exact Plan.Triple.pure hb' h'
  · rw [Decoder.consume, if_neg hsize] at hrefused
    cases hresult : (frame.records.foldlM (Decoder.recordAt rt read) d).result with
    | ok d' =>
        rw [Plan.bind_of_ok hresult] at hrefused
        cases hrefused
    | error err =>
        rcases List.eq_nil_or_concat frame.records with hnil | ⟨front, bad, hrecords⟩
        · rw [hnil] at hresult
          cases hresult
        rw [List.concat_eq_append] at hrecords
        rw [hrecords, List.dropLast_concat] at hfront
        subst hfront
        rw [hrecords] at hresult ⊢
        refine Plan.Triple.bind (fun _ _ => False) (h.refused hb hresult) ?_
        intro _ _ _ _ hfalse
        exact hfalse.elim

end Decoding

end GoSync.Capture
