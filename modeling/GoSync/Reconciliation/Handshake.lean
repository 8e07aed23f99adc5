import GoSync.App.Scan
import GoSync.Delivery.Sender
import GoSync.Server.Session

/-!
# The reconciliation round

`runReconcile` on the server and the sender and controller of the collector, from the idle frame that starts
a round to its end. The pause of the collector comes from a request for a table, and the resume at the end
takes it for granted.
-/

namespace GoSync.Reconciliation

open Rpc App Delivery Server

variable {Raw Value Hash : Type} [DecidableEq Hash]

/-- A server and a collector at the idle frame that starts a round, when nothing fails: the capture returns
when it is asked to, every configured table can be scanned, and the transactions of both sides go through. -/
structure Meeting (Raw Value Hash : Type) where
  rt : Runtime Raw Value Hash
  settings : ServiceSettings
  env : SessionEnv
  target : Target Raw Value Hash
  session : Session
  codec : Codec Raw
  engine : Engine
  tables : List TableRef
  sourceId : String
  read : ReconcileRequest → Except String Scan
  answering : Delivery.Surroundings
  collector : Collector Raw
  due : env.retiring = false ∧ env.reconcileDue = true
  requestId_ne : env.requestId ≠ ""
  buckets_ne : settings.buckets ≠ 0
  names_ne : ∀ table ∈ rt.cfg.tables, table.schema ≠ "" ∧ table.name ≠ ""
  supported : session.reconcileSupported = true
  idle : session.openBatch = false ∧ session.round = none
  answered : answering.controller = {} ∧ answering.storage = true
  capturing : collector.controller.pausedFor = "" ∧ collector.controller.parentAlive = true
  drained : Controller.drained collector.queue.db.state = true
  captured : ∀ table ∈ rt.cfg.tables, table ∈ tables
  scanned : ∀ table ∈ rt.cfg.tables, ∃ scan,
    read
        { requestId := env.requestId, sourceSchema := table.schema, table := table.name
          buckets := settings.buckets, timeoutSeconds := settings.timeoutSeconds }
      = .ok scan

/-- The two sides with the frames that the server has sent, what it was answered, and the errors that ended
one of them. -/
structure Exchange (Raw Value Hash : Type) where
  target : Target Raw Value Hash
  session : Option Session
  pending : List ServerFrame
  collector : Collector Raw
  sender : Sender
  replies : List (CollectorFrame Raw) := []
  streamError : Option StreamError := none
  senderError : Option SenderError := none

namespace Meeting

variable (m : Meeting Raw Value Hash)

def request (table : TableRef) : ReconcileRequest where
  requestId := m.env.requestId
  sourceSchema := table.schema
  table := table.name
  buckets := m.settings.buckets
  timeoutSeconds := m.settings.timeoutSeconds

def sending : Delivery.Settings where
  sourceId := m.sourceId
  reconcile := some (scanner m.engine m.tables m.read)

def start : Exchange Raw Value Hash :=
  let turn := reactIdle m.rt m.settings m.env m.target m.session
  { target := turn.target, session := turn.session, pending := turn.frames, collector := m.collector
    sender := {}, streamError := turn.error }

def deliver (x : Exchange Raw Value Hash) (frame : CollectorFrame Raw) : Exchange Raw Value Hash :=
  match x.session with
  | none => x
  | some session =>
      let turn := react m.rt m.settings m.env x.target session frame
      { x with
        target := turn.target, session := turn.session, pending := x.pending ++ turn.frames
        replies := x.replies ++ [frame], streamError := turn.error }

def step (x : Exchange Raw Value Hash) : Exchange Raw Value Hash :=
  match x.senderError, x.pending with
  | none, frame :: rest =>
      let answered := answer m.codec m.sending m.answering x.collector x.sender frame
      answered.frames.foldl m.deliver
        { x with
          pending := rest, collector := answered.collector, sender := answered.sender
          senderError := answered.error }
  | _, _ => x

def mismatchesOf (table : TableRef) : Nat :=
  match m.read (m.request table) with
  | .error _ => 0
  | .ok scan =>
      let result := scan.result (m.request table)
      sameDigests result.digests (m.env.digests result)

def mismatches : List TableRef → Nat
  | [] => 0
  | table :: rest => m.mismatchesOf table + mismatches rest

def Repairs (count : Nat) : Prop :=
  count > 0 ∧ m.settings.autoRepair = true ∧ ¬ m.settings.dryRun = true ∧ m.env.repairAllowed = true

/-- The round is over: the collector accepted what the server asked for last, and its capture runs. After a
resume the server pulls on the same stream; a repair ends the stream on both sides. -/
structure Completed (x : Exchange Raw Value Hash) : Prop where
  streamError : x.streamError = none
  unpaused : x.collector.controller.pausedFor = ""
  running : ∃ execution ∈ x.collector.controller.live, x.collector.controller.cancel = some execution
  ending :
    (x.replies.getLast? = some (.resumeAccepted m.env.requestId) ∧ x.senderError = none
        ∧ x.session = some m.session ∧ x.pending = [m.session.pull])
      ∨ (x.replies.getLast? = some (.repairAccepted m.env.requestId)
        ∧ x.senderError = some .repairRestart ∧ x.session = none ∧ x.pending = [])

structure Paused (c : Controller) : Prop where
  pausedFor : c.pausedFor = m.env.requestId
  cancel : c.cancel = none
  parentAlive : c.parentAlive = true

structure Reached (x : Exchange Raw Value Hash) (count : Nat) (rest : List TableRef) : Prop where
  target : x.target = (proceedRound m.settings m.env m.target m.session m.env.requestId count rest).target
  session :
    x.session = (proceedRound m.settings m.env m.target m.session m.env.requestId count rest).session
  pending :
    x.pending = (proceedRound m.settings m.env m.target m.session m.env.requestId count rest).frames
  queue : x.collector.queue = m.collector.queue
  streamError : x.streamError = none
  senderError : x.senderError = none

variable {m} {x : Exchange Raw Value Hash} {count : Nat} {table : TableRef} {rest : List TableRef}

section Tables

omit [DecidableEq Hash] in
theorem proceedRound_error (settings : ServiceSettings) (env : SessionEnv)
    (target : Target Raw Value Hash) (session : Session) (requestId : String) (count : Nat)
    (rest : List TableRef) :
    (proceedRound settings env target session requestId count rest).error = none := by
  cases rest with
  | cons table rest => rfl
  | nil =>
      unfold proceedRound
      split_ifs
      · rfl
      · rfl

omit [DecidableEq Hash] in
theorem proceedRound_round (settings : ServiceSettings) (env : SessionEnv)
    (target : Target Raw Value Hash) (session : Session) (round : Option Round) (requestId : String)
    (count : Nat) (rest : List TableRef) :
    proceedRound settings env target { session with round := round } requestId count rest
      = proceedRound settings env target session requestId count rest := by
  cases rest with
  | cons table rest => rfl
  | nil => rfl

omit [DecidableEq Hash] in
theorem reached_start : m.Reached m.start 0 m.rt.cfg.tables := by
  have hidle : reactIdle m.rt m.settings m.env m.target m.session
      = proceedRound m.settings m.env m.target m.session m.env.requestId 0 m.rt.cfg.tables := by
    unfold reactIdle
    rw [if_neg (by simp [m.due.1]), if_pos ⟨m.supported, by simp [m.idle.1], m.due.2⟩]
  unfold start
  rw [hidle]
  exact ⟨rfl, rfl, rfl, rfl, proceedRound_error _ _ _ _ _ _ _, rfl⟩

omit [DecidableEq Hash] in
theorem reconcile_pauses (table : TableRef) {c : Controller} {st : Queue.State}
    (scan : ReconcileRequest → Except String ReconcileResult)
    (hpaused : c.pausedFor = "" ∨ c.pausedFor = m.env.requestId) (halive : c.parentAlive = true)
    (hdrained : Controller.drained st = true) :
    ∃ next, c.reconcile (some scan) {} st (m.request table)
        = (next, (scan (m.request table)).mapError .scan) ∧ m.Paused next := by
  have hfree : ¬ (c.pausedFor ≠ "" ∧ c.pausedFor ≠ (m.request table).requestId) := by
    rintro ⟨hne, hother⟩
    exact hpaused.elim hne hother
  unfold Controller.reconcile Controller.stop Controller.inspect
  simp only [if_neg hfree, hdrained, not_true_eq_false, if_false]
  cases c.cancel with
  | none => exact ⟨_, rfl, rfl, rfl, halive⟩
  | some execution => exact ⟨_, rfl, rfl, rfl, halive⟩

omit [DecidableEq Hash] in
/-- A collector that has drained its queue answers with its digests. -/
theorem answer_request {scan : Scan} {collector : Collector Raw} (sender : Sender)
    (hengine : m.engine ≠ .files) (htable : table ∈ m.rt.cfg.tables)
    (hscan : m.read (m.request table) = .ok scan)
    (hpaused : collector.controller.pausedFor = "" ∨ collector.controller.pausedFor = m.env.requestId)
    (halive : collector.controller.parentAlive = true)
    (hdrained : Controller.drained collector.queue.db.state = true) :
    ∃ next, m.Paused next
      ∧ answer m.codec m.sending m.answering collector sender (.reconcile (m.request table))
        = { collector := { collector with controller := next }
            sender := { activeReconcile := m.env.requestId }
            frames := [.reconcileResult (scan.result (m.request table))] } := by
  obtain ⟨next, hreconcile, hnext⟩ := reconcile_pauses (m := m) table
    (reconcileTable m.tables m.read) hpaused halive hdrained
  refine ⟨next, hnext, ?_⟩
  have hresult : reconcileTable m.tables m.read (m.request table)
      = .ok (scan.result (m.request table)) := by
    have hcaptured : ¬ (⟨(m.request table).sourceSchema, (m.request table).table⟩ : TableRef) ∉ m.tables :=
      not_not.mpr (m.captured table htable)
    unfold reconcileTable
    rw [if_neg hcaptured, hscan]
    rfl
  have hreconcile : collector.controller.reconcile (scanner m.engine m.tables m.read)
      m.answering.controller collector.queue.db.state (m.request table)
        = (next, .ok (scan.result (m.request table))) := by
    rw [scanner_of_ne hengine, m.answered.1, hreconcile, hresult]
    rfl
  have hframe : resultFrame (m.request table) (.ok (scan.result (m.request table)))
      = scan.result (m.request table) := if_neg (not_not.mpr rfl)
  simp only [answer, answerReconcile, sending, hreconcile, hframe]
  rfl

/-- The server adds the mismatches of a table and asks for the next one. -/
theorem react_result {target : Target Raw Value Hash} {scan : Scan} (htable : table ∈ m.rt.cfg.tables)
    (hscan : m.read (m.request table) = .ok scan) :
    react m.rt m.settings m.env target
        { m.session with round := some (.result m.env.requestId table rest count) }
        (.reconcileResult (scan.result (m.request table)))
      = proceedRound m.settings m.env target m.session m.env.requestId (count + m.mismatchesOf table)
          rest := by
  have hnames := m.names_ne table htable
  have hcolumns : scan.columns.map ScannedColumn.name ≠ [] := by
    rw [Ne, List.map_eq_nil_iff]
    exact scan.columns_ne_nil
  have hallowed : m.rt.cfg.allows (scan.result (m.request table)).sourceSchema
      (scan.result (m.request table)).table = true := Syncer.allows_iff.mpr htable
  have hdigests : reconcileDigests m.rt.cfg (m.env.build m.settings.buckets)
      (scan.result (m.request table)) = .ok (m.env.digests (scan.result (m.request table))) := by
    unfold reconcileDigests
    rw [if_neg (by
        rintro (hschema | hname | hnone)
        · exact hnames.1 hschema
        · exact hnames.2 hname
        · exact hcolumns hnone),
      if_neg (by
        change ¬ (scan.columns.map ScannedColumn.type).length
          ≠ (scan.columns.map ScannedColumn.name).length
        rw [List.length_map, List.length_map]
        exact not_not.mpr rfl),
      if_neg (not_not.mpr hallowed), SessionEnv.build, if_neg m.buckets_ne]
  have hcount : m.mismatchesOf table = sameDigests (scan.result (m.request table)).digests
      (m.env.digests (scan.result (m.request table))) := by
    unfold mismatchesOf
    rw [hscan]
  simp only [react, reactRound]
  rw [if_neg (by
      rintro (hid | hschema | hname)
      · exact hid rfl
      · exact hschema rfl
      · exact hname rfl),
    if_neg (show ¬ (scan.result (m.request table)).error ≠ "" from not_not.mpr rfl), hdigests, hcount]
  exact proceedRound_round _ _ _ _ _ _ _ _

theorem Reached.next (h : m.Reached x count (table :: rest)) (hengine : m.engine ≠ .files)
    (htable : table ∈ m.rt.cfg.tables)
    (hpaused : x.collector.controller.pausedFor = "" ∨ x.collector.controller.pausedFor = m.env.requestId)
    (halive : x.collector.controller.parentAlive = true) :
    m.Reached (m.step x) (count + m.mismatchesOf table) rest
      ∧ m.Paused (m.step x).collector.controller := by
  obtain ⟨scan, hscan⟩ := m.scanned table htable
  have hdrained : Controller.drained x.collector.queue.db.state = true := by
    rw [h.queue]
    exact m.drained
  obtain ⟨next, hnext, hanswer⟩ := answer_request x.sender hengine htable hscan hpaused halive hdrained
  have hsession : x.session
      = some { m.session with round := some (.result m.env.requestId table rest count) } := h.session
  have hpending : x.pending = [.reconcile (m.request table)] := h.pending
  have htarget : x.target = m.target := h.target
  simp only [step, h.senderError, hpending, hanswer, List.foldl_cons, List.foldl_nil, deliver, hsession,
    htarget, react_result htable hscan, List.nil_append]
  exact ⟨⟨rfl, rfl, rfl, h.queue, proceedRound_error _ _ _ _ _ _ _, rfl⟩, hnext⟩

theorem Reached.tables (h : m.Reached x count rest) (hengine : m.engine ≠ .files)
    (htables : ∀ table ∈ rest, table ∈ m.rt.cfg.tables) (hpaused : m.Paused x.collector.controller) :
    m.Reached (m.step^[rest.length] x) (count + m.mismatches rest) []
      ∧ m.Paused (m.step^[rest.length] x).collector.controller := by
  induction rest generalizing x count with
  | nil => exact ⟨h, hpaused⟩
  | cons table rest ih =>
      obtain ⟨hnext, hstill⟩ := h.next hengine (htables table List.mem_cons_self)
        (Or.inr hpaused.pausedFor) hpaused.parentAlive
      have hrest := ih hnext (fun other hother => htables other (List.mem_cons_of_mem _ hother)) hstill
      rw [Nat.add_assoc] at hrest
      exact hrest

end Tables

section Ending

theorem exec_reset (codec : Codec Raw) {queue : Queue.Traced Raw}
    (hdrained : Controller.drained queue.db.state = true) :
    (∃ next, queue.exec codec .resetForSnapshot = .ok next) ↔ queue.db.state.phase = .stream := by
  have hcursors : ¬ (queue.db.state.nextSeq ≠ queue.db.state.readySeq
      ∨ queue.db.state.deliveredSeq ≠ queue.db.state.readySeq) := by
    have hboth := of_decide_eq_true hdrained
    rintro (hnext | hdelivered)
    · exact hnext hboth.1
    · exact hdelivered hboth.2
  by_cases hphase : queue.db.state.phase = .stream
  · refine iff_of_true ?_ hphase
    simp only [Queue.Traced.exec, Queue.exec, Queue.resetForSnapshot, if_neg (not_not.mpr hphase),
      if_neg hcursors]
    exact ⟨_, rfl⟩
  · refine iff_of_false ?_ hphase
    rintro ⟨next, hnext⟩
    simp only [Queue.Traced.exec, Queue.exec, Queue.resetForSnapshot, if_pos hphase] at hnext
    cases hnext

/-- Without a repair the round ends with a resume. -/
theorem Reached.resume (h : m.Reached x count []) (hrepairs : ¬ m.Repairs count)
    (hpaused : m.Paused x.collector.controller) : m.Completed (m.step x) := by
  have hturn : proceedRound m.settings m.env m.target m.session m.env.requestId count []
      = { target := m.target
          session := some { m.session with round := some (.resume m.env.requestId) }
          frames := [.resume m.env.requestId] } := if_neg hrepairs
  have hsession := h.session
  have hpending := h.pending
  rw [hturn] at hsession hpending
  have hresume : x.collector.controller.resume m.env.requestId
      = ({ x.collector.controller with pausedFor := "" }.startLocked, .ok ()) := by
    unfold Controller.resume
    rw [if_neg (not_not.mpr hpaused.pausedFor)]
    exact if_pos ⟨hpaused.parentAlive, hpaused.cancel⟩
  have hback : { m.session with round := none } = m.session := by
    rw [← m.idle.2]
  have hanswer : answer m.codec m.sending m.answering x.collector x.sender (.resume m.env.requestId)
      = { collector :=
            { x.collector with
              controller := { x.collector.controller with pausedFor := "" }.startLocked }
          sender := {}, frames := [.resumeAccepted m.env.requestId] } := by
    simp only [answer, answerResume, sending, reduceCtorEq, if_false, hresume]
  simp only [step, h.senderError, hpending, hanswer, List.foldl_cons, List.foldl_nil, deliver, hsession,
    react, reactRound, if_true, List.nil_append]
  refine ⟨rfl, rfl, ⟨_, List.mem_cons_self, rfl⟩, Or.inl ⟨List.getLast?_concat, rfl, ?_, rfl⟩⟩
  exact congrArg some hback

/-- A repair is accepted exactly on the stream. -/
theorem Reached.repair (h : m.Reached x count []) (hrepairs : m.Repairs count)
    (hpaused : m.Paused x.collector.controller) :
    m.Completed (m.step x) ↔ m.collector.queue.db.state.phase = .stream := by
  have hturn : proceedRound m.settings m.env m.target m.session m.env.requestId count []
      = { target := authorizeRepair m.target
          session := some { m.session with round := some (.repair m.env.requestId) }
          frames := [.repair m.env.requestId s!"{count} mismatched hash buckets"] } := if_pos hrepairs
  have hsession := h.session
  have hpending := h.pending
  rw [hturn] at hsession hpending
  have hadmitted : ¬ (x.collector.controller.pausedFor ≠ m.env.requestId
      ∨ x.collector.controller.cancel ≠ none) := by
    rintro (hother | hrunning)
    · exact hother hpaused.pausedFor
    · exact hrunning hpaused.cancel
  have hdrained : Controller.drained x.collector.queue.db.state = true := by
    rw [h.queue]
    exact m.drained
  rw [← h.queue, ← exec_reset m.codec hdrained]
  simp only [step, h.senderError, hpending, answer, answerRepair, sending, reduceCtorEq, if_false,
    Controller.repair, if_neg hadmitted, m.answered.2, if_true]
  cases hexec : x.collector.queue.exec m.codec .resetForSnapshot with
  | error err =>
      refine iff_of_false ?_ ?_
      · intro hcompleted
        rcases hcompleted.ending with ⟨-, herror, -⟩ | ⟨-, herror, -⟩
        · cases herror
        · cases herror
      · rintro ⟨next, hnext⟩
        cases hnext
  | ok next =>
      refine iff_of_true ?_ ⟨next, rfl⟩
      simp only [hpaused.parentAlive, if_true, List.foldl_cons, List.foldl_nil, deliver, hsession, react,
        reactRound, List.nil_append]
      exact ⟨rfl, rfl, ⟨_, List.mem_cons_self, rfl⟩, Or.inr ⟨List.getLast?_concat, rfl, rfl, rfl⟩⟩

theorem Reached.no_table (h : m.Reached x 0 [])
    (hunpaused : x.collector.controller.pausedFor = "") : ¬ m.Completed (m.step x) := by
  have hpending : x.pending = [.resume m.env.requestId] := by
    rw [h.pending]
    unfold proceedRound
    rw [if_neg (fun hrepairs => absurd hrepairs.1 (lt_irrefl _))]
  have hresume : x.collector.controller.resume m.env.requestId
      = (x.collector.controller, .error .notActive) := by
    unfold Controller.resume
    rw [if_pos (fun hsame => m.requestId_ne (hsame.symm.trans hunpaused))]
  intro hcompleted
  simp only [step, h.senderError, hpending, answer, answerResume, sending, reduceCtorEq, if_false,
    hresume, List.foldl_nil] at hcompleted
  rcases hcompleted.ending with ⟨-, herror, -⟩ | ⟨-, herror, -⟩
  · cases herror
  · cases herror

/-- A collector of files has nothing to answer with. -/
theorem Reached.no_scanner (h : m.Reached x count (table :: rest)) (hengine : m.engine = .files) (n : Nat) :
    ¬ m.Completed (m.step^[n + 1] x) := by
  have hsession : x.session
      = some { m.session with round := some (.result m.env.requestId table rest count) } := h.session
  have hpending : x.pending = [.reconcile (m.request table)] := h.pending
  have hstep : (m.step x).pending = [] ∧ (m.step x).streamError ≠ none := by
    simp only [step, h.senderError, hpending, answer, answerReconcile, sending, hengine, scanner,
      Controller.reconcile, resultFrame, List.foldl_cons, List.foldl_nil, deliver, hsession, react,
      reactRound]
    rw [if_neg (by
        rintro (hid | hschema | hname)
        · exact hid rfl
        · exact hschema rfl
        · exact hname rfl),
      if_pos (by decide)]
    exact ⟨rfl, Option.some_ne_none _⟩
  have hfixed : m.step (m.step x) = m.step x := by
    conv_lhs => rw [step]
    rw [hstep.1]
    cases (m.step x).senderError with
    | none => rfl
    | some err => rfl
  rw [Function.iterate_succ_apply, Function.iterate_fixed hfixed]
  exact fun hcompleted => hstep.2 hcompleted.streamError

end Ending

/-- When nothing fails, a round completes exactly if there is a table to ask for, the engine can scan it,
and a repair, if the digests call for one, meets a queue that streams. -/
theorem round_completes_iff (m : Meeting Raw Value Hash) :
    m.Completed (m.step^[m.rt.cfg.tables.length + 1] m.start)
      ↔ m.rt.cfg.tables ≠ [] ∧ m.engine ≠ .files
        ∧ (m.Repairs (m.mismatches m.rt.cfg.tables) → m.collector.queue.db.state.phase = .stream) := by
  have hstart := reached_start (m := m)
  cases htables : m.rt.cfg.tables with
  | nil =>
      rw [htables] at hstart
      refine iff_of_false ?_ (fun h => h.1 rfl)
      exact hstart.no_table m.capturing.1
  | cons table rest =>
      rw [htables] at hstart
      by_cases hengine : m.engine = .files
      · exact iff_of_false (hstart.no_scanner hengine _) (fun h => h.2.1 hengine)
      · have hmem : ∀ other ∈ table :: rest, other ∈ m.rt.cfg.tables := by
          intro other hother
          rw [htables]
          exact hother
        obtain ⟨hfirst, hpaused⟩ := hstart.next hengine (hmem table List.mem_cons_self)
          (Or.inl m.capturing.1) m.capturing.2
        obtain ⟨hlast, hstill⟩ := hfirst.tables hengine
          (fun other hother => hmem other (List.mem_cons_of_mem _ hother)) hpaused
        rw [Nat.zero_add] at hlast
        rw [Function.iterate_succ_apply', List.length_cons, Function.iterate_succ_apply]
        by_cases hrepairs : m.Repairs (m.mismatches (table :: rest))
        · rw [hlast.repair hrepairs hstill]
          exact ⟨fun hphase => ⟨List.cons_ne_nil _ _, hengine, fun _ => hphase⟩, fun h => h.2.2 hrepairs⟩
        · exact iff_of_true (hlast.resume hrepairs hstill)
            ⟨List.cons_ne_nil _ _, hengine, fun h => absurd h hrepairs⟩

section Instances

def ofTables (engine : Engine) (tables : List TableRef) (phase : Phase)
    (hnames : ∀ table ∈ tables, table.schema ≠ "" ∧ table.name ≠ "") : Meeting Message String Message where
  rt := .plain { id := "s", tables := tables }
  settings := { autoRepair := true }
  env :=
    { reconcileDue := true, requestId := "r1"
      digests := fun _ => [{ bucket := 0, rows := 0, digest := "0" }] }
  target := { db := { syncState := { generation := "g" }, tables := fun _ => none } }
  session := { syncerId := "s", generation := "g", next := 1, reconcileSupported := true }
  codec := .plain
  engine := engine
  tables := tables
  sourceId := "s"
  read := fun _ =>
    .ok
      { columns := [{ name := "id", type := "bigint", primary := true }]
        digests := [{ bucket := 0, rows := 1, digest := "1" }], columns_ne_nil := List.cons_ne_nil _ _ }
  answering := {}
  collector :=
    { controller := .new
      queue :=
        { limits := { maxBytes := 1, reserve := 0 }
          db := { state := { sourceId := "s", generation := "g", phase := phase } } } }
  due := ⟨rfl, rfl⟩
  requestId_ne := by decide
  buckets_ne := by decide
  names_ne := hnames
  supported := rfl
  idle := ⟨rfl, rfl⟩
  answered := ⟨rfl, rfl⟩
  capturing := ⟨rfl, rfl⟩
  drained := rfl
  captured := fun _ hmem => hmem
  scanned := fun _ _ => ⟨_, rfl⟩

def fileOnly : Meeting Message String Message :=
  ofTables .files [] .stream (by decide)

def oneTable (engine : Engine) (phase : Phase) : Meeting Message String Message :=
  ofTables engine [⟨"public", "t"⟩] phase (by decide)

end Instances

/-- A streaming source with a table that differs is repaired. -/
theorem round_completes_repairing :
    (oneTable .mysql .stream).Repairs 1
      ∧ (oneTable .mysql .stream).Completed
        ((oneTable .mysql .stream).step^[2] (oneTable .mysql .stream).start) :=
  ⟨⟨by decide, by decide⟩,
    (round_completes_iff (oneTable .mysql .stream)).mpr ⟨List.cons_ne_nil _ _, by decide, fun _ => rfl⟩⟩

/-- The collector ends the stream when a syncer of files is resumed; the server ends it when the file engine
is asked for a table; and the collector ends it when a queue that has not sealed its snapshot is to be
repaired. -/
theorem round_without_table_fails :
    (fileOnly.step fileOnly.start).senderError = some (.controller .notActive)
      ∧ ((oneTable .files .stream).step^[2] (oneTable .files .stream).start).streamError
        = some (.reconciliation "collector reconciliation failed")
      ∧ ((oneTable .postgres .snapshot).step^[2] (oneTable .postgres .snapshot).start).senderError
        = some (.controller (.queue .notSealed))
      ∧ ¬ fileOnly.Completed (fileOnly.step^[1] fileOnly.start) := by
  refine ⟨by decide, by decide, by decide, ?_⟩
  intro hcompleted
  rcases hcompleted.ending with ⟨-, herror, -⟩ | ⟨-, herror, -⟩
  · exact absurd herror (by decide)
  · exact absurd herror (by decide)

end Meeting

end GoSync.Reconciliation
