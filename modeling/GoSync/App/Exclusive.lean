import GoSync.App.Controller
import GoSync.Lib.Run

/-!
# One capture at a time

Any calls of the controller, with executions that return whenever they like and a queue that others write
to. The controller forgets an execution as soon as it has asked it to return, so a wait that runs out leaves
one that no later call takes into account.
-/

namespace GoSync.App

open Queue Rpc Controller

variable {Raw : Type}

structure System (Raw : Type) where
  controller : Controller
  queue : Traced Raw

/-- A call of the controller, or what happens around it: an execution of `run` returns, the queue is
written to, or the parent context ends. -/
inductive Action where
  | reconcile (env : Controller.Surroundings) (request : ReconcileRequest)
  | resume (requestId : String)
  | repair (storage : Bool) (requestId : String)
  | returns (execution : Nat)
  | queueOp (op : Op)
  | cancelParent

def System.repair (codec : Codec Raw) (storage : Bool) (requestId : String) (sys : System Raw) :
    System Raw :=
  match Controller.repair codec storage sys.queue requestId sys.controller with
  | (controller, .error _) => { sys with controller := controller }
  | (controller, .ok queue) => { controller := controller, queue := queue }

def System.step (codec : Codec Raw) (scan : Scanner) (sys : System Raw) : Action → System Raw
  | .reconcile env request =>
      { sys with
        controller := (Controller.reconcile scan env sys.queue.db.state request sys.controller).1 }
  | .resume requestId => { sys with controller := (Controller.resume requestId sys.controller).1 }
  | .repair storage requestId => sys.repair codec storage requestId
  | .returns execution =>
      { sys with
        controller := { sys.controller with live := sys.controller.live.erase execution } }
  | .queueOp op =>
      match sys.queue.exec codec op with
      | .error _ => sys
      | .ok queue => { sys with queue := queue }
  | .cancelParent => { sys with controller := { sys.controller with parentAlive := false } }

/-- At most one execution is live, every task was executed while none was, and while nothing holds the
pause there is a capture that was started and not asked to return. -/
structure Exclusive (c : Controller) : Prop where
  single : c.live.length ≤ 1
  alone : ∀ entry ∈ c.log, entry.2 = []
  capturing : c.pausedFor = "" → c.parentAlive = true → ∃ execution < c.started, execution ∉ c.cancelled

def Controller.Remembers (c : Controller) : Prop :=
  ∀ execution ∈ c.live, c.cancel = some execution

/-- What a call must meet: no execution is forgotten when a call could start another one or work on the
queue, and a reconciliation has an id. -/
def Settled (sys : System Raw) : Action → Prop
  | .reconcile _ request => request.requestId ≠ "" ∧ Remembers sys.controller
  | .resume requestId | .repair _ requestId =>
      sys.controller.pausedFor = requestId → Remembers sys.controller
  | _ => True

namespace Controller

structure Base (c : Controller) : Prop where
  single : c.live.length ≤ 1
  alone : ∀ entry ∈ c.log, entry.2 = []
  cancelled_lt : ∀ execution ∈ c.cancelled, execution < c.started
  current_lt : ∀ execution, c.cancel = some execution → execution < c.started
  current_kept : ∀ execution, c.cancel = some execution → execution ∉ c.cancelled

structure Sound (c : Controller) : Prop extends Base c where
  capturing : c.pausedFor = "" → c.parentAlive = true → c.cancel ≠ none

variable {c : Controller}

theorem Sound.exclusive (h : Sound c) : Exclusive c where
  single := h.single
  alone := h.alone
  capturing := by
    intro hpaused hparent
    obtain ⟨execution, hcancel⟩ := Option.ne_none_iff_exists'.mp (h.capturing hpaused hparent)
    exact ⟨execution, h.current_lt execution hcancel, h.current_kept execution hcancel⟩

theorem Base.startLocked (h : Base c) (hlive : c.live = []) : Sound c.startLocked where
  single := by
    change (c.started :: c.live).length ≤ 1
    rw [hlive]
    exact le_rfl
  alone := h.alone
  cancelled_lt := fun execution hmem => Nat.lt_succ_of_lt (h.cancelled_lt execution hmem)
  current_lt := by
    intro execution hcancel
    cases hcancel
    exact Nat.lt_succ_self _
  current_kept := by
    intro execution hcancel hmem
    cases hcancel
    exact absurd (h.cancelled_lt _ hmem) (lt_irrefl _)
  capturing := fun _ _ => Option.some_ne_none _

theorem sound_new : Sound new := by
  refine Base.startLocked ⟨?_, ?_, ?_, ?_, ?_⟩ rfl
  · exact Nat.zero_le _
  · exact fun _ hmem => absurd hmem List.not_mem_nil
  · exact fun _ hmem => absurd hmem List.not_mem_nil
  · exact fun _ hcancel => (nomatch hcancel)
  · exact fun _ hcancel => (nomatch hcancel)

theorem Remembers.live_eq_nil (h : Remembers c) (hcancel : c.cancel = none) : c.live = [] := by
  rw [List.eq_nil_iff_forall_not_mem]
  intro execution hmem
  rw [h execution hmem] at hcancel
  cases hcancel

/-- A stop that succeeds leaves no attempt alive. -/
theorem Base.stop (h : Base c) (hremembers : Remembers c) (wait : Wait) {next : Controller}
    {result : Except ControllerError Unit} (hstop : stop wait c = (next, result)) :
    Base next ∧ next.pausedFor = c.pausedFor ∧ (result = .ok () → next.live = []) := by
  unfold Controller.stop at hstop
  cases hcancel : c.cancel with
  | none =>
      rw [hcancel] at hstop
      cases hstop
      exact ⟨h, rfl, fun _ => hremembers.live_eq_nil hcancel⟩
  | some execution =>
      rw [hcancel] at hstop
      have hcancelled : ∀ other ∈ execution :: c.cancelled, other < c.started := by
        intro other hother
        rcases List.mem_cons.mp hother with rfl | hother
        · exact h.current_lt _ hcancel
        · exact h.cancelled_lt other hother
      cases wait with
      | expired =>
          cases hstop
          exact ⟨⟨h.single, h.alone, hcancelled, fun _ hnone => (nomatch hnone),
            fun _ hnone => (nomatch hnone)⟩, rfl, fun hok => (nomatch hok)⟩
      | returned =>
          cases hstop
          have hlength := List.length_erase_le (a := execution) (l := c.live)
          refine ⟨⟨hlength.trans h.single, h.alone, hcancelled, fun _ hnone => (nomatch hnone),
            fun _ hnone => (nomatch hnone)⟩, rfl, fun _ => ?_⟩
          change c.live.erase execution = []
          cases hlive : c.live with
          | nil => rfl
          | cons first rest =>
              have hfirst := hremembers first (hlive ▸ List.mem_cons_self)
              rw [hcancel] at hfirst
              cases hfirst
              have hrest : rest = [] := by
                have hsingle := h.single
                rw [hlive, List.length_cons] at hsingle
                exact List.length_eq_zero_iff.mp (by omega)
              rw [hrest, List.erase_cons_head]

theorem Sound.resume (h : Sound c) {requestId : String}
    (hremembers : c.pausedFor = requestId → Remembers c) : Sound (c.resume requestId).1 := by
  unfold Controller.resume
  by_cases hpaused : c.pausedFor = requestId
  · rw [if_neg (not_not.mpr hpaused)]
    have hbase : Base { c with pausedFor := "" } :=
      ⟨h.single, h.alone, h.cancelled_lt, h.current_lt, h.current_kept⟩
    by_cases hstart : c.parentAlive = true ∧ c.cancel = none
    · change Sound (if c.parentAlive = true ∧ c.cancel = none then _ else _ : Controller × _).1
      rw [if_pos hstart]
      exact hbase.startLocked ((hremembers hpaused).live_eq_nil hstart.2)
    · change Sound (if c.parentAlive = true ∧ c.cancel = none then _ else _ : Controller × _).1
      rw [if_neg hstart]
      exact ⟨hbase, fun _ hparent hnone => hstart ⟨hparent, hnone⟩⟩
  · rw [if_pos hpaused]
    exact h

theorem Sound.inspect (h : Sound c) (hlive : c.live = [])
    (scan : ReconcileRequest → Except String ReconcileResult) (readable : Bool) (st : State)
    (request : ReconcileRequest) : Sound (c.inspect scan readable st request).1 := by
  unfold Controller.inspect
  by_cases hreadable : readable = true
  · rw [if_neg (not_not.mpr hreadable)]
    by_cases hdrained : drained st = true
    · rw [if_neg (not_not.mpr hdrained)]
      refine ⟨⟨h.single, ?_, h.cancelled_lt, h.current_lt, h.current_kept⟩, h.capturing⟩
      intro entry hentry
      rcases List.mem_cons.mp hentry with rfl | hentry
      · exact hlive
      · exact h.alone entry hentry
    · rw [if_pos hdrained]
      exact h.resume fun _ execution hmem => absurd (hlive ▸ hmem) List.not_mem_nil
  · rw [if_pos hreadable]
    exact h

theorem Sound.reconcile (h : Sound c) {request : ReconcileRequest} (hid : request.requestId ≠ "")
    (hremembers : Remembers c) (scan : Scanner) (env : Controller.Surroundings) (st : State) :
    Sound (c.reconcile scan env st request).1 := by
  unfold Controller.reconcile
  cases scan with
  | none => exact h
  | some scan =>
      by_cases hother : c.pausedFor ≠ "" ∧ c.pausedFor ≠ request.requestId
      · simp only [if_pos hother]
        exact h
      · simp only [if_neg hother]
        have hbase : Base { c with pausedFor := request.requestId } :=
          ⟨h.single, h.alone, h.cancelled_lt, h.current_lt, h.current_kept⟩
        cases hstop : stop env.wait { c with pausedFor := request.requestId } with
        | mk next result =>
            obtain ⟨hnext, hpaused, hlive⟩ := hbase.stop hremembers env.wait hstop
            have hsound : Sound next := ⟨hnext, fun hnone => absurd (hpaused.symm.trans hnone) hid⟩
            cases result with
            | error err => exact hsound
            | ok _ => exact hsound.inspect (hlive rfl) scan env.readable st request

theorem Sound.repair (h : Sound c) {requestId : String}
    (hremembers : c.pausedFor = requestId → Remembers c) (codec : Codec Raw) (storage : Bool)
    (queue : Traced Raw) : Sound (c.repair codec storage queue requestId).1 := by
  unfold Controller.repair
  by_cases hrefused : c.pausedFor ≠ requestId ∨ c.cancel ≠ none
  · rw [if_pos hrefused]
    exact h
  · rw [if_neg hrefused]
    rw [not_or, not_not, not_not] at hrefused
    obtain ⟨hpaused, hcancel⟩ := hrefused
    have hlive := (hremembers hpaused).live_eq_nil hcancel
    have halone : ∀ entry ∈ (Task.reset, c.live) :: c.log, entry.2 = [] := by
      intro entry hentry
      rcases List.mem_cons.mp hentry with rfl | hentry
      · exact hlive
      · exact h.alone entry hentry
    cases queue.exec codec (if storage = true then .resetForSnapshot else .failed) with
    | error err => exact ⟨⟨h.single, halone, h.cancelled_lt, h.current_lt, h.current_kept⟩, h.capturing⟩
    | ok queue =>
        have hbase : Base { c with log := (.reset, c.live) :: c.log, pausedFor := "" } :=
          ⟨h.single, halone, h.cancelled_lt, h.current_lt, h.current_kept⟩
        by_cases hparent : c.parentAlive = true
        · change Sound (if c.parentAlive = true then _ else _)
          rw [if_pos hparent]
          exact hbase.startLocked hlive
        · change Sound (if c.parentAlive = true then _ else _)
          rw [if_neg hparent]
          exact ⟨hbase, fun _ halive => absurd halive hparent⟩

end Controller

/-- One step of the controller. -/
theorem sound_step (codec : Codec Raw) (scan : Scanner) (sys : System Raw) (action : Action)
    (h : Sound sys.controller) (hsettled : Settled sys action) :
    Sound (sys.step codec scan action).controller := by
  cases action with
  | reconcile env request => exact h.reconcile hsettled.1 hsettled.2 scan env sys.queue.db.state
  | resume requestId => exact h.resume hsettled
  | repair storage requestId =>
      have hrepair := h.repair hsettled codec storage sys.queue
      simp only [System.step, System.repair]
      cases hresult : Controller.repair codec storage sys.queue requestId sys.controller with
      | mk controller result =>
          rw [hresult] at hrepair
          cases result with
          | error err => exact hrepair
          | ok queue => exact hrepair
  | returns execution =>
      have hlength : (sys.controller.live.erase execution).length ≤ 1 :=
        List.length_erase_le.trans h.single
      exact ⟨⟨hlength, h.alone, h.cancelled_lt, h.current_lt, h.current_kept⟩, h.capturing⟩
  | queueOp op =>
      simp only [System.step]
      cases sys.queue.exec codec op with
      | error err => exact h
      | ok queue => exact h
  | cancelParent =>
      exact ⟨⟨h.single, h.alone, h.cancelled_lt, h.current_lt, h.current_kept⟩,
        fun _ halive => (nomatch halive)⟩

/-- In every run whose calls find no forgotten execution and whose reconciliations have ids, at most one
capture runs at a time, scans and resets have the collector to themselves, and without a pause there is a
capture. -/
theorem one_capture_runs (codec : Codec Raw) (scan : Scanner) (queue : Traced Raw)
    (actions : List Action)
    (hsettled : Run.Along (System.step codec scan) Settled { controller := new, queue := queue } actions) :
    Exclusive (actions.foldl (System.step codec scan) { controller := new, queue := queue }).controller := by
  refine Sound.exclusive (hsettled.invariant (fun sys => Sound sys.controller) ?_ sound_new)
  exact fun sys action _ h hstep => sound_step codec scan sys action h hstep

section Runs

def emptyTable : Scanner :=
  some fun request =>
    .ok { requestId := request.requestId, sourceSchema := request.sourceSchema, table := request.table }

def firstRequest : ReconcileRequest := { requestId := "r1", sourceSchema := "public", table := "t", buckets := 1 }

def freshQueue : Traced Message := { limits := { maxBytes := 1, reserve := 0 }, db := {} }

end Runs

/-- A reconciliation that waits for the capture, and the resume after it. -/
theorem one_capture_runs_reconcile :
    Exclusive ([Action.reconcile {} firstRequest, .resume "r1"].foldl (System.step .plain emptyTable)
      { controller := new, queue := freshQueue }).controller := by
  refine one_capture_runs .plain emptyTable freshQueue _ ⟨⟨by decide, ?_⟩, ?_, trivial⟩
  · exact fun execution hmem => congrArg some (List.mem_singleton.mp hmem).symm
  · exact fun _ execution hmem => absurd hmem List.not_mem_nil

/-- The wait for the capture runs out. If the request is given up, the resume starts a second capture beside
the first one; if it is made again, it scans and resets the queue beside it. A request without an id stops
the capture and holds no pause. -/
theorem two_captures_run :
    let run (actions : List Action) :=
      (actions.foldl (System.step .plain emptyTable) { controller := new, queue := freshQueue }).controller
    let expired := Action.reconcile { wait := .expired } firstRequest
    (run [expired, .resume "r1"]).live = [1, 0]
      ∧ ¬ Exclusive (run [expired, .resume "r1"])
      ∧ (run [expired, .reconcile {} firstRequest, .repair true "r1"]).log = [(.reset, [0]), (.scan, [0])]
      ∧ ¬ Exclusive (run [.reconcile {} { firstRequest with requestId := "" }]) := by
  refine ⟨by decide, ?_, by decide, ?_⟩
  · intro h
    exact absurd h.single (by decide)
  · intro h
    obtain ⟨execution, hlt, hkept⟩ := h.capturing (by decide) (by decide)
    exact hkept (List.mem_singleton.mpr (Nat.lt_one_iff.mp hlt))

end GoSync.App
