import GoSync.MySql.Checkpoints
import GoSync.Producer.Chunks
import Mathlib.Data.List.TakeWhile

/-!
# Transactions in the binlog

A transaction stands in the binlog as `BEGIN`, the events of its rows and `XID`. `SAVEPOINT` and
`ROLLBACK TO` are written between them. `stream` knows neither and takes them for statements that may have
changed the schema: it gives up if it has seen rows, and otherwise publishes a position from which a restart
would read half of the transaction.
-/

namespace GoSync.MySql

open Capture (Batch Call ReadFile)
open Chunking (collected partitioned)
open Producer (Accepted Drives batchAt limitsOf numbered)

/-- What can stand between `BEGIN` and `XID`; `other` is an event such as the map of a table. -/
inductive Inside where
  | rows (event : RowsEvent)
  | savepoint (name : String)
  | rollbackTo (name : String)
  | other

def Inside.isQuery : Inside → Bool
  | .savepoint _ | .rollbackTo _ => true
  | _ => false

def Inside.body : Inside → Body
  | .rows event => .rows event
  | .savepoint name => .query ("SAVEPOINT `" ++ name ++ "`")
  | .rollbackTo name => .query ("ROLLBACK TO `" ++ name ++ "`")
  | .other => .other

def insideEvents (inside : List (LogPos × Inside)) : List BinlogEvent :=
  inside.map fun entry => ⟨entry.1, entry.2.body⟩

/-- A committed transaction with the positions at which its events end. -/
structure Transaction where
  file : FileName
  opens : LogPos
  inside : List (LogPos × Inside)
  closes : LogPos
  within : ∀ entry ∈ inside, opens ≤ entry.1 ∧ entry.1 < closes
  ordered : opens < closes

def Transaction.Plain (tx : Transaction) : Prop :=
  ∀ entry ∈ tx.inside, entry.2.isQuery = false

def Transaction.events (tx : Transaction) : List BinlogEvent :=
  ⟨tx.opens, .query "BEGIN"⟩ :: insideEvents tx.inside ++ [⟨tx.closes, .xid⟩]

/-- The events of a binlog, which is rotated where the next transaction is in another file. -/
def binlogEvents : FileName → List Transaction → List BinlogEvent
  | _, [] => []
  | current, tx :: rest =>
      (if tx.file = current then [] else [⟨tx.opens, .rotate tx.file⟩])
        ++ (tx.events ++ binlogEvents tx.file rest)

variable {refs : List TableRef}

/-- The loop of `Collector.stream` over the events it gets; `inspected` is what the catalog says after them. -/
def stream (rt : Runtime) (read : ReadFile) (inspected : LogPos → Except Error (Inspection refs))
    (events : List BinlogEvent) (loop : Loop refs) : Plan Call Error (Loop refs) :=
  events.foldlM (fun loop event => loop.next rt read (inspected event.logPos) event) loop

/-- The rows that `stream` makes of a transaction, from the row after `ordinal` on. -/
def converted (rt : Runtime) (tables : List Table) : Nat → List Inside → List (Except Error Row)
  | ordinal, .rows event :: rest =>
      match findTable tables event.table with
      | none => converted rt tables ordinal rest
      | some table =>
          event.convert rt table ordinal ++ converted rt tables (ordinal + event.images.length) rest
  | ordinal, _ :: rest => converted rt tables ordinal rest
  | _, [] => []

def Accepts (rt : Runtime) (read : ReadFile) (item : Except Error Row) (row : Row) : Prop :=
  ∃ source, item = .ok source ∧ Accepted rt.sizing read source row

/-- The transaction has these rows of the configured tables, and each of them can be captured. -/
structure Captures (rt : Runtime) (read : ReadFile) (tables : List Table) (tx : Transaction)
    (rows : List Row) : Prop where
  checked : ∀ entry ∈ tx.inside, ∀ event, entry.2 = .rows event → event.check = .ok ()
  rows : List.Forall₂ (Accepts rt read) (converted rt tables 0 (tx.inside.map Prod.snd)) rows

def Loop.Idle (loop : Loop refs) : Prop :=
  loop.ordinal = 0 ∧ loop.batch = { message := rowsTemplate loop.transaction }

/-- The queue calls for a transaction: its rows in numbered chunks, an end if it has rows, and the position
after it. -/
def Transaction.calls (rt : Runtime) (tx : Transaction) (rows : List Row) : List Call :=
  (numbered (rowsTemplate (encodePosition ⟨tx.file, tx.opens⟩))
      (partitioned (limitsOf rt.sizing.cfg) rt.sizing.rowSize rows)).map .append
    ++ (if rows = [] then []
        else [.append { kind := .transactionEnd, transaction := encodePosition ⟨tx.file, tx.opens⟩ }])
    ++ [.publish (encodePosition ⟨tx.file, tx.closes⟩) false]

def Loop.after (loop : Loop refs) (tx : Transaction) : Loop refs where
  currentFile := tx.file
  transaction := encodePosition ⟨tx.file, tx.closes⟩
  batch := { message := rowsTemplate (encodePosition ⟨tx.file, tx.closes⟩) }
  info := loop.info

variable (rt : Runtime) (read : ReadFile) (inspected : LogPos → Except Error (Inspection refs))

theorem stream_append (first second : List BinlogEvent) (loop : Loop refs) :
    stream rt read inspected (first ++ second) loop
      = stream rt read inspected first loop >>= stream rt read inspected second :=
  List.foldlM_append

/-- Without savepoints there is nothing but rows to batch between `BEGIN` and `XID`. -/
theorem stream_inside (inside : List (LogPos × Inside)) (hplain : ∀ entry ∈ inside, entry.2.isQuery = false)
    (hchecked : ∀ entry ∈ inside, ∀ event, entry.2 = .rows event → event.check = .ok ())
    (loop : Loop refs) :
    let items := converted rt loop.info.tables loop.ordinal (inside.map Prod.snd)
    stream rt read inspected (insideEvents inside) loop
      = Producer.addRows rt.sizing read .capture items loop.batch
        >>= fun b => pure { loop with batch := b, ordinal := loop.ordinal + items.length } := by
  induction inside generalizing loop with
  | nil => rfl
  | cons entry inside ih =>
      obtain ⟨hrows, hinside⟩ := List.forall_mem_cons.mp hplain
      obtain ⟨hcheck, hchecks⟩ := List.forall_mem_cons.mp hchecked
      obtain ⟨pos, item⟩ := entry
      cases item with
      | savepoint name | rollbackTo name => cases hrows
      | other => exact ih hinside hchecks loop
      | rows event =>
          change loop.addRows rt read event >>= stream rt read inspected (insideEvents inside) = _
          simp only [List.map_cons, converted, Loop.addRows]
          cases htable : findTable loop.info.tables event.table with
          | none =>
              rw [pure_bind]
              exact ih hinside hchecks loop
          | some table =>
              have hlength : (event.convert rt table loop.ordinal).length = event.images.length := by
                simp [RowsEvent.convert]
              rw [hcheck event rfl, Producer.addRows, List.foldlM_append]
              change Producer.addRows .. >>= _ >>= _ = _
              rw [bind_assoc, bind_assoc]
              congr 1
              funext b
              rw [pure_bind, ih hinside hchecks, List.length_append, hlength, Nat.add_assoc]
              rfl

variable {rt read inspected} {loop last : Loop refs} {tx : Transaction}

theorem drives_addRows (template : Message) {items : List (Except Error Row)} {rows : List Row}
    (hrows : List.Forall₂ (Accepts rt read) items rows) :
    Drives template {}
      (Producer.addRows rt.sizing read .capture items (batchAt template {})
        >>= fun b => b.flush.mapError Error.capture)
      (collected (limitsOf rt.sizing.cfg) rt.sizing.rowSize rows).flush := by
  refine Drives.bind (Drives.foldlM (fun c item row _ hrow => ?_) hrows (.inl rfl))
    (Drives.mapError _ (Producer.drives_flush template _))
  obtain ⟨source, rfl, haccepted⟩ := hrow
  exact Drives.mapError Error.capture (Producer.drives_add haccepted)

theorem bind_commit {plan : Plan Call Error Batch} {requests : List Call} {message : Message}
    (loop : Loop refs) (hrows : loop.ordinal ≠ 0)
    (hplan : (plan >>= fun b => b.flush.mapError Error.capture) = ⟨requests, .ok { message := message }⟩)
    (closes : LogPos) :
    (plan >>= fun b => pure { loop with batch := b }) >>= Loop.commit closes
      = ⟨requests ++ [.append { kind := .transactionEnd, transaction := loop.transaction },
            .publish (loop.checkpoint closes) false],
          .ok ⟨loop.currentFile, loop.checkpoint closes, { message := rowsTemplate (loop.checkpoint closes) },
            loop.info, 0⟩⟩ := by
  have hcommit (b : Batch) : pure { loop with batch := b } >>= Loop.commit closes
      = b.flush.mapError Error.capture >>= fun b =>
        ⟨[.append { kind := .transactionEnd, transaction := loop.transaction },
          .publish (loop.checkpoint closes) false],
        .ok ⟨loop.currentFile, loop.checkpoint closes, ⟨rowsTemplate (loop.checkpoint closes), b.size⟩,
          loop.info, 0⟩⟩ := by
    rw [pure_bind, Loop.commit, Loop.finish, if_neg hrows, bind_assoc]
    rfl
  rw [bind_assoc, funext hcommit, ← bind_assoc, hplan, Plan.bind_of_ok rfl]

theorem stream_events (loop : Loop refs) (tx : Transaction) :
    stream rt read inspected tx.events loop
      = stream rt read inspected (insideEvents tx.inside) (loop.rename (loop.checkpoint tx.opens))
        >>= Loop.commit tx.closes := by
  have hbegin : queryKind "BEGIN" = .begin := by decide
  rw [Transaction.events, List.cons_append, stream, List.foldlM_cons]
  simp only [Loop.next, hbegin, pure_bind]
  exact (stream_append rt read inspected _ _ _).trans (congrArg _ (funext fun _ => bind_pure _))

/-- A transaction without savepoints is published whole. -/
theorem stream_transaction {rows : List Row} (hidle : loop.Idle) (hfile : loop.currentFile = tx.file)
    (hlimit : 1 ≤ rt.sizing.cfg.batchRows) (hplain : tx.Plain)
    (hcaptures : Captures rt read loop.info.tables tx rows) :
    stream rt read inspected tx.events loop = ⟨tx.calls rt rows, .ok (loop.after tx)⟩ := by
  obtain ⟨currentFile, transaction, batch, info, ordinal⟩ := loop
  obtain ⟨hordinal, hbatch⟩ : ordinal = 0 ∧ batch = { message := rowsTemplate transaction } := hidle
  subst hordinal hbatch
  cases hfile
  set begun := encodePosition ⟨tx.file, tx.opens⟩
  set opened : Loop refs := ⟨tx.file, begun, batchAt (rowsTemplate begun) {}, info, 0⟩
  rw [stream_events]
  change stream rt read inspected (insideEvents tx.inside) opened >>= Loop.commit tx.closes = _
  rw [stream_inside rt read inspected tx.inside hplain hcaptures.checked]
  have hlength := hcaptures.rows.length_eq
  by_cases hnone : rows = []
  · subst hnone
    simp only [opened, List.eq_nil_of_length_eq_zero hlength]
    rfl
  · have hsome : opened.ordinal + (converted rt info.tables 0 (tx.inside.map Prod.snd)).length ≠ 0 :=
      fun hzero => hnone (List.eq_nil_of_length_eq_zero (hlength.symm.trans (Nat.add_eq_zero_iff.mp hzero).2))
    refine (bind_commit { opened with ordinal := _ } hsome
      ((drives_addRows (rowsTemplate begun) hcaptures.rows).partitioned hlimit) tx.closes).trans ?_
    rw [Transaction.calls, if_neg hnone, List.append_assoc]
    rfl

theorem stream_rotate (loop : Loop refs) (tx : Transaction) :
    stream rt read inspected (if tx.file = loop.currentFile then [] else [⟨tx.opens, .rotate tx.file⟩]) loop
      = pure { loop with currentFile := tx.file } := by
  split_ifs with hfile
  · rw [hfile]
    rfl
  · rfl

/-- A binlog without savepoints is consumed. -/
theorem stream_binlog {rows : Transaction → List Row} (hlimit : 1 ≤ rt.sizing.cfg.batchRows)
    (binlog : List Transaction) (loop : Loop refs) (hidle : loop.Idle) (hplain : ∀ tx ∈ binlog, tx.Plain)
    (hcaptures : ∀ tx ∈ binlog, Captures rt read loop.info.tables tx (rows tx)) :
    ∃ last, stream rt read inspected (binlogEvents loop.currentFile binlog) loop
      = ⟨binlog.flatMap fun tx => tx.calls rt (rows tx), .ok last⟩ := by
  induction binlog generalizing loop with
  | nil => exact ⟨loop, rfl⟩
  | cons tx binlog ih =>
      obtain ⟨hhead, htail⟩ := List.forall_mem_cons.mp hplain
      obtain ⟨hrows, hothers⟩ := List.forall_mem_cons.mp hcaptures
      obtain ⟨last, hrest⟩ : ∃ last, stream rt read inspected (binlogEvents tx.file binlog) (loop.after tx)
          = ⟨_, .ok last⟩ := ih (loop.after tx) ⟨rfl, rfl⟩ htail hothers
      have hopened : Loop.Idle { loop with currentFile := tx.file } := hidle
      refine ⟨last, ?_⟩
      rw [binlogEvents, stream_append, stream_rotate, pure_bind, stream_append,
        stream_transaction hopened rfl hlimit hhead hrows, Plan.bind_of_ok rfl]
      exact congrArg (fun plan => Plan.mk (tx.calls rt (rows tx) ++ plan.requests) plan.result) hrest

section Savepoints

def published (calls : List Call) : List String :=
  calls.filterMap fun
    | .publish lsn _ | .publishSource lsn _ | .publishSchema lsn _ => some lsn
    | _ => none

theorem mem_published_append {lsn : String} {first second : List Call} :
    lsn ∈ published (first ++ second) ↔ lsn ∈ published first ∨ lsn ∈ published second := by
  rw [published, List.filterMap_append, List.mem_append]
  rfl

theorem mem_dropWhile {α : Type} {p : α → Bool} {c : α} {text : List α} (hc : p c = false) (h : c ∈ text) :
    c ∈ text.dropWhile p := by
  rw [← List.takeWhile_append_dropWhile (p := p) (l := text)] at h
  rcases List.mem_append.mp h with htake | hdrop
  · exact absurd (List.mem_takeWhile_imp htake) (Bool.eq_false_iff.mp hc)
  · exact hdrop

theorem queryKind_quoted {text : String} (h : '`' ∈ text.toList) : queryKind text = .statement := by
  have hspace : isSpace '`' = false := by decide
  have htrim : '`' ∈ trimSpace text := by
    rw [trimSpace, List.mem_reverse]
    exact mem_dropWhile hspace (List.mem_reverse.mpr (mem_dropWhile hspace h))
  have hquery (keyword : List Char) (hplain : '`' ∉ keyword) : (trimSpace text).map upperChar ≠ keyword :=
    fun heq => hplain (heq ▸ List.mem_map.mpr ⟨_, htrim, by decide⟩)
  rw [queryKind, if_neg (hquery _ (by decide)), if_neg (hquery _ (by decide)), if_neg (hquery _ (by decide))]

theorem refreshSchema_publishes {outcome : Except Error (Inspection refs)} {checkpoint : String}
    {info next : Inspection refs} (h : (refreshSchema rt outcome checkpoint info).result = .ok next) :
    checkpoint ∈ published (refreshSchema rt outcome checkpoint info).requests := by
  cases outcome with
  | error err => cases h
  | ok current =>
      change checkpoint ∈ published (if _ then _ else if _ then _ else _ : Plan Call Error _).requests
      change (if _ then _ else if _ then _ else _ : Plan Call Error _).result = _ at h
      split_ifs at h ⊢
      · cases h
      · exact List.mem_singleton_self _
      · obtain ⟨_, hrefresh, -, hrequests⟩ := Plan.bind_result h
        unfold publishRefresh at hrefresh hrequests
        obtain ⟨_, -, hends, htables⟩ := Plan.bind_result hrefresh
        obtain ⟨_, -, -, hend⟩ := Plan.bind_result hends
        rw [publishRefresh, hrequests, htables, hend]
        simp only [mem_published_append]
        exact .inl (.inr (.inr (List.mem_singleton_self _)))

/-- A statement in a transaction ends `stream` or has its position published. -/
theorem statement_publishes {pos : LogPos} {text : String} (hkind : queryKind text = .statement)
    (h : (loop.next rt read (inspected pos) ⟨pos, .query text⟩).result = .ok last) :
    encodePosition ⟨loop.currentFile, pos⟩
      ∈ published (loop.next rt read (inspected pos) ⟨pos, .query text⟩).requests := by
  simp only [Loop.next, hkind, Loop.statement] at h ⊢
  split_ifs at h ⊢
  · cases h
  · obtain ⟨_, hrefresh, -, hrequests⟩ := Plan.bind_result h
    rw [hrequests]
    exact mem_published_append.mpr (.inl (refreshSchema_publishes hrefresh))

theorem addRows_file {event : RowsEvent} (h : (loop.addRows rt read event).result = .ok last) :
    last.currentFile = loop.currentFile := by
  unfold Loop.addRows at h
  split at h
  · rw [← Except.ok.inj h]
  · obtain ⟨_, -, hrows, -⟩ := Plan.bind_result h
    obtain ⟨b, -, hlast, -⟩ := Plan.bind_result hrows
    rw [← Except.ok.inj hlast]

/-- A savepoint that does not end the stream is published. -/
theorem stream_savepoint (inside : List (LogPos × Inside))
    (hsavepoint : ∃ entry ∈ inside, entry.2.isQuery = true) (loop : Loop refs)
    (h : (stream rt read inspected (insideEvents inside) loop).result = .ok last) :
    ∃ entry ∈ inside, encodePosition ⟨loop.currentFile, entry.1⟩
      ∈ published (stream rt read inspected (insideEvents inside) loop).requests := by
  induction inside generalizing loop with
  | nil =>
      obtain ⟨_, hmem, -⟩ := hsavepoint
      cases hmem
  | cons entry inside ih =>
      obtain ⟨pos, item⟩ := entry
      obtain ⟨middle, hnext, hrest, hrequests⟩ := Plan.bind_result h
      cases item with
      | rows event =>
          have hfile : middle.currentFile = loop.currentFile := addRows_file hnext
          have hlater : ∃ entry ∈ inside, entry.2.isQuery = true := by simpa [Inside.isQuery] using hsavepoint
          obtain ⟨entry, hentry, hpublished⟩ := ih hlater middle hrest
          refine ⟨entry, List.mem_cons_of_mem _ hentry, ?_⟩
          rw [insideEvents, List.map_cons, stream, List.foldlM_cons, hrequests]
          exact mem_published_append.mpr (.inr (hfile ▸ hpublished))
      | other =>
          cases hnext
          obtain ⟨entry, hentry, hpublished⟩ := ih (by simpa [Inside.isQuery] using hsavepoint) loop hrest
          exact ⟨entry, List.mem_cons_of_mem _ hentry, hpublished⟩
      | savepoint name | rollbackTo name =>
          refine ⟨_, List.mem_cons_self, ?_⟩
          rw [insideEvents, List.map_cons, stream, List.foldlM_cons, hrequests]
          exact mem_published_append.mpr (.inl (statement_publishes (queryKind_quoted (by simp)) hnext))

end Savepoints

section Consumption

variable {binlog : List Transaction} {rows : Transaction → List Row}

/-- The position lies in no transaction. -/
def Outside (binlog : List Transaction) (lsn : String) : Prop :=
  ∀ tx ∈ binlog, ∀ pos, tx.opens ≤ pos → pos < tx.closes → lsn ≠ encodePosition ⟨tx.file, pos⟩

/-- The calls put the rows of the transaction into the queue and publish them. -/
def Publishes (rows : Transaction → List Row) (tx : Transaction) (calls : List Call) : Prop :=
  ∃ messages : List Message, messages.flatMap Message.rows = rows tx
    ∧ calls = messages.map .append ++ [.publish (encodePosition ⟨tx.file, tx.closes⟩) false]

def Consumes (binlog : List Transaction) (rows : Transaction → List Row)
    (plan : Plan Call Error (Loop refs)) : Prop :=
  (∃ last, plan.result = .ok last)
    ∧ (∃ groups, plan.requests = groups.flatten ∧ List.Forall₂ (Publishes rows) binlog groups)
    ∧ ∀ lsn ∈ published plan.requests, Outside binlog lsn

theorem encodePosition_inj {p q : Position} (h : encodePosition p = encodePosition q) : p = q := by
  have hparts := (splitOn_encodePosition p).symm.trans (h ▸ splitOn_encodePosition q)
  simp only [List.cons.injEq, true_and, and_true] at hparts
  obtain ⟨hname, hpos⟩ := hparts
  have hfile := congrArg rawUrlDecode hname
  have hdigits := congrArg parseDigits hpos
  rw [rawUrlDecode_encode, rawUrlDecode_encode] at hfile
  rw [parseDigits_pos, parseDigits_pos] at hdigits
  obtain ⟨name, pos⟩ := p
  rw [Position.mk.injEq]
  exact ⟨Option.some.inj hfile, Fin.ext (Option.some.inj hdigits)⟩

theorem closes_outside
    (hapart : ∀ other ∈ binlog, tx.file = other.file →
      tx = other ∨ tx.closes < other.opens ∨ other.closes < tx.opens) :
    Outside binlog (encodePosition ⟨tx.file, tx.closes⟩) := by
  intro other hother pos hopens hcloses h
  obtain ⟨hfile, rfl⟩ := Position.mk.inj (encodePosition_inj h)
  rcases hapart other hother hfile with rfl | hbefore | hafter
  · exact lt_irrefl _ hcloses
  · exact absurd hopens hbefore.not_ge
  · exact absurd hcloses (hafter.trans tx.ordered).not_gt

/-- Where a binlog with a savepoint is consumed, a position inside is published. -/
theorem binlog_savepoint (hlimit : 1 ≤ rt.sizing.cfg.batchRows) (binlog : List Transaction) (loop : Loop refs)
    (hidle : loop.Idle) (hcaptures : ∀ tx ∈ binlog, Captures rt read loop.info.tables tx (rows tx))
    (hsavepoint : ∃ tx ∈ binlog, ¬ tx.Plain)
    (h : (stream rt read inspected (binlogEvents loop.currentFile binlog) loop).result = .ok last) :
    ∃ lsn ∈ published (stream rt read inspected (binlogEvents loop.currentFile binlog) loop).requests,
      ¬ Outside binlog lsn := by
  induction binlog generalizing loop with
  | nil =>
      obtain ⟨_, hmem, -⟩ := hsavepoint
      cases hmem
  | cons tx binlog ih =>
      obtain ⟨hrows, hothers⟩ := List.forall_mem_cons.mp hcaptures
      have hopened : Loop.Idle { loop with currentFile := tx.file } := hidle
      rw [binlogEvents, stream_append, stream_rotate, pure_bind, stream_append] at h ⊢
      by_cases hplain : tx.Plain
      · have hlater : ∃ tx ∈ binlog, ¬ tx.Plain := by simpa [hplain] using hsavepoint
        rw [stream_transaction hopened rfl hlimit hplain hrows, Plan.bind_of_ok rfl] at h ⊢
        obtain ⟨lsn, hlsn, hinside⟩ := ih (loop.after tx) ⟨rfl, rfl⟩ hothers hlater h
        exact ⟨lsn, mem_published_append.mpr (.inr hlsn),
          fun houtside => hinside fun other hother => houtside other (List.mem_cons_of_mem _ hother)⟩
      · obtain ⟨_, hevents, -, hrequests⟩ := Plan.bind_result h
        rw [stream_events] at hevents hrequests ⊢
        obtain ⟨_, hresult, -, hcommit⟩ := Plan.bind_result hevents
        obtain ⟨entry, hentry, hpublished⟩ :=
          stream_savepoint tx.inside (by simpa [Transaction.Plain] using hplain) _ hresult
        refine ⟨_, ?_, fun houtside => houtside tx List.mem_cons_self entry.1 (tx.within entry hentry).1
          (tx.within entry hentry).2 rfl⟩
        rw [hrequests, hcommit]
        simp only [mem_published_append]
        exact .inl (.inl hpublished)

theorem flatMap_numbered (template : Message) (chunks : List (List Row)) :
    (numbered template chunks).flatMap Message.rows = chunks.flatten := by
  rw [numbered, List.flatMap_map, List.flatMap_def]
  exact congrArg List.flatten (List.zipIdx_map_fst _ _)

theorem publishes_calls (hlimit : 1 ≤ rt.sizing.cfg.batchRows) (tx : Transaction) :
    Publishes rows tx (tx.calls rt (rows tx)) := by
  refine ⟨numbered (rowsTemplate (encodePosition ⟨tx.file, tx.opens⟩))
      (partitioned (limitsOf rt.sizing.cfg) rt.sizing.rowSize (rows tx)) ++ if rows tx = [] then [] else
      [{ kind := .transactionEnd, transaction := encodePosition ⟨tx.file, tx.opens⟩ }], ?_, ?_⟩
  · rw [List.flatMap_append, flatMap_numbered, Chunking.flatten_partitioned hlimit]
    split_ifs <;> exact List.append_nil _
  · rw [Transaction.calls, List.map_append]
    split_ifs <;> rfl

/-- **Savepoints stop capture.** Whatever the catalog says, `stream` consumes a binlog of transactions that can be
captured, with all checkpoints between them, exactly if there is no savepoint in it. -/
theorem stream_consumes_iff (rt : Runtime) (read : ReadFile)
    (inspected : LogPos → Except Error (Inspection refs)) (loop : Loop refs) (binlog : List Transaction)
    (rows : Transaction → List Row) (hidle : loop.Idle) (hlimit : 1 ≤ rt.sizing.cfg.batchRows)
    (hapart : ∀ tx ∈ binlog, ∀ other ∈ binlog, tx.file = other.file →
      tx = other ∨ tx.closes < other.opens ∨ other.closes < tx.opens)
    (hcaptures : ∀ tx ∈ binlog, Captures rt read loop.info.tables tx (rows tx)) :
    Consumes binlog rows (stream rt read inspected (binlogEvents loop.currentFile binlog) loop)
      ↔ ∀ tx ∈ binlog, tx.Plain := by
  constructor
  · rintro ⟨⟨last, hlast⟩, -, houtside⟩
    by_contra hsavepoint
    obtain ⟨lsn, hlsn, hinside⟩ :=
      binlog_savepoint hlimit binlog loop hidle hcaptures (by simpa using hsavepoint) hlast
    exact hinside (houtside lsn hlsn)
  · intro hplain
    obtain ⟨last, hstream⟩ := stream_binlog hlimit binlog loop hidle hplain hcaptures
    rw [hstream]
    refine ⟨⟨last, rfl⟩, ⟨binlog.map fun tx => tx.calls rt (rows tx), rfl, ?_⟩, ?_⟩
    · rw [List.forall₂_map_right_iff, List.forall₂_same]
      exact fun tx _ => publishes_calls hlimit tx
    · intro lsn hlsn
      obtain ⟨call, hcall, hsome⟩ := List.mem_filterMap.mp hlsn
      obtain ⟨tx, htx, hcall⟩ := List.mem_flatMap.mp hcall
      obtain ⟨messages, -, hcalls⟩ := publishes_calls hlimit tx
      rw [hcalls] at hcall
      rcases List.mem_append.mp hcall with hcall | hcall
      · obtain ⟨message, -, rfl⟩ := List.mem_map.mp hcall
        cases hsome
      · cases List.mem_singleton.mp hcall
        cases hsome
        exact closes_outside (hapart tx htx)

def insertOrder : Inside :=
  .rows { table := orders.ref, type := .insert, rows := [[.int 7]] }

def ordersTransaction (first second : Inside) : Transaction where
  file := [98]
  opens := 100
  inside := [(140, first), (200, second)]
  closes := 230
  within := by simp only [List.forall_mem_cons]; decide
  ordered := by decide

def ordersStream (tx : Transaction) : Plan Call Error (Loop [orders.ref]) :=
  stream ordersRuntime noFile (fun _ => .ok ordersInspection) (binlogEvents [98] [tx])
    (.opened ordersInspection ⟨[98], 4⟩)

theorem stream_consumes_insert :
    ∃ row : Row, Consumes [ordersTransaction .other insertOrder] (fun _ => [row])
      (ordersStream (ordersTransaction .other insertOrder)) := by
  obtain ⟨row, hrow⟩ : ∃ row, Captures ordersRuntime noFile ordersInspection.tables
      (ordersTransaction .other insertOrder) [row] := by
    refine ⟨_, ?_, .cons ⟨_, rfl, rfl, by decide⟩ .nil⟩
    intro entry hentry event hevent
    simp only [ordersTransaction, List.mem_cons, List.not_mem_nil, or_false] at hentry
    rcases hentry with rfl | rfl
    · cases hevent
    · cases hevent
      rfl
  have hplain : (ordersTransaction .other insertOrder).Plain := by
    simp [ordersTransaction, Transaction.Plain, Inside.isQuery, insertOrder]
  exact ⟨row, (stream_consumes_iff ordersRuntime noFile (fun _ => .ok ordersInspection)
    (.opened ordersInspection ⟨[98], 4⟩) [ordersTransaction .other insertOrder] (fun _ => [row])
    ⟨rfl, rfl⟩ (by decide) (by simp) (List.forall_mem_singleton.mpr hrow)).mpr
      (List.forall_mem_singleton.mpr hplain)⟩

/-- A savepoint before the first row is published as a checkpoint; after a row it ends `stream`. -/
theorem savepoint_inside :
    (∃ lsn ∈ published (ordersStream (ordersTransaction (.savepoint "s") insertOrder)).requests,
      ¬ Outside [ordersTransaction (.savepoint "s") insertOrder] lsn)
    ∧ (ordersStream (ordersTransaction insertOrder (.savepoint "s"))).result = .error .ddl := by
  refine ⟨⟨encodePosition ⟨[98], 140⟩, ?_, fun houtside => ?_⟩, rfl⟩
  · exact List.mem_cons_self
  · exact houtside _ (List.mem_singleton_self _) 140 (by decide) (by decide) rfl

end Consumption

end GoSync.MySql
