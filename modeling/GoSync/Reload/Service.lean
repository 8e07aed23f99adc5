import GoSync.ServerConfig.TargetOverlap
import GoSync.Lib.Run
import Mathlib.Logic.Function.Basic

/-!
# Hot reload

The part of `server.Service` that opens, installs and closes targets. A target is a handle: the place at
which it was opened. A reload is a call with its own local state; several may be under way. Loading the
file, reading the installed configuration, dealing with one syncer, comparing the tables of the targets,
switching, and looking at one replaced target are single steps, and connections come and go between them. The certificate, the log level, the
reconcile schedule and the metrics that a reload also updates are left out.
-/

namespace GoSync.Reload

open ServerConfig

abbrev Handle := Nat

abbrev Targets := List (String × Handle)

inductive Phase where
  | loaded (candidate : Config)
  | opening (candidate current : Config) (old : Targets) (pending : List Syncer) (opened : Targets)
  | checked (candidate : Config) (old opened : Targets)
  | discarding (items : List Handle)
  | closing (old opened : Targets)
  deriving Repr

structure Service where
  /-- The configuration file, or why it cannot be read. -/
  file : Except String Config
  config : Config
  targets : Targets
  /-- The connected syncers, each with the target its connection uses. -/
  connected : String → Option Handle := fun _ => none
  reloadError : String := ""
  reloads : Nat → Option Phase := fun _ => none
  /-- All targets ever opened, each with the configuration it was opened for. -/
  opened : List Syncer
  closed : List Handle := []

namespace Service

def setPhase (s : Service) (reload : Nat) (phase : Option Phase) : Service :=
  { s with reloads := Function.update s.reloads reload phase }

def reject (s : Service) (reload : Nat) (text : String) : Service :=
  { s.setPhase reload none with reloadError := text }

def load (host : Host) (s : Service) (reload : Nat) : Service :=
  match s.reloads reload with
  | some _ => s
  | none =>
      match s.file with
      | .error text => s.reject reload text
      | .ok config =>
          match config.validate host with
          | .error err => s.reject reload err.message
          | .ok candidate => s.setPhase reload (some (.loaded candidate))

def readCurrent (s : Service) (reload : Nat) (keyPair : Option String) : Service :=
  match s.reloads reload with
  | some (.loaded candidate) =>
      if s.config.staticEqual candidate = false then
        s.reject reload "listener, metrics address and log output settings require restart"
      else
        match keyPair with
        | some text => s.reject reload text
        | none =>
            s.setPhase reload (some (.opening candidate s.config s.targets candidate.syncers []))
  | _ => s

def discards (old opened : Targets) : List Handle :=
  (opened.filter fun entry => old.lookup entry.1 ≠ some entry.2).map Prod.snd

def discardingPhase (items : List Handle) : Option Phase :=
  if items = [] then none else some (.discarding items)

def closingPhase (old opened : Targets) : Option Phase :=
  if old = [] then none else some (.closing old opened)

def abandon (s : Service) (reload : Nat) (old opened : Targets) (text : String) : Service :=
  { s.setPhase reload (discardingPhase (discards old opened)) with reloadError := text }

def reusable (current : Config) (syncer : Syncer) : Bool :=
  (current.syncers.find? fun candidate => candidate.id = syncer.id) = some syncer

def openNext (s : Service) (reload : Nat) (failure : Option String) : Service :=
  match s.reloads reload with
  | some (.opening candidate current old (syncer :: pending) opened) =>
      if reusable current syncer then
        -- a missing entry reads as a nil target
        match old.lookup syncer.id with
        | some target =>
            s.setPhase reload
              (some (.opening candidate current old pending (opened ++ [(syncer.id, target)])))
        | none => s.setPhase reload (some (.opening candidate current old pending opened))
      else
        match failure with
        | some text =>
            s.abandon reload old opened s!"validate syncer \"{syncer.id}\": {text}"
        | none =>
            { s.setPhase reload (some (.opening candidate current old pending
                (opened ++ [(syncer.id, s.opened.length)]))) with opened := s.opened ++ [syncer] }
  | _ => s

/-- `validateTargetOverlap`. It asks every target for its instance id, and a closed pool answers with an
error; `overlap` is any other error that it comes to first. -/
def check (s : Service) (reload : Nat) (overlap : Option String) : Service :=
  match s.reloads reload with
  | some (.opening candidate _ old [] opened) =>
      match overlap with
      | some text => s.abandon reload old opened text
      | none =>
          if ∃ entry ∈ opened, entry.2 ∈ s.closed then
            s.abandon reload old opened "closed pool"
          else
            s.setPhase reload (some (.checked candidate old opened))
  | _ => s

def switch (s : Service) (reload : Nat) : Service :=
  match s.reloads reload with
  | some (.checked candidate old opened) =>
      { s.setPhase reload (closingPhase old opened) with
        config := candidate, targets := opened, reloadError := "" }
  | _ => s

def discard (s : Service) (reload : Nat) (item : Handle) : Service :=
  match s.reloads reload with
  | some (.discarding items) =>
      if item ∈ items then
        { s.setPhase reload (discardingPhase (items.erase item)) with closed := item :: s.closed }
      else
        s
  | _ => s

def close (s : Service) (reload : Nat) (id : String) : Service :=
  match s.reloads reload with
  | some (.closing old opened) =>
      match old.lookup id with
      | none => s
      | some item =>
          let next := s.setPhase reload (closingPhase (old.filter fun entry => entry.1 ≠ id) opened)
          if opened.lookup id ≠ some item ∧ s.connected id = none then
            { next with closed := item :: s.closed }
          else
            next
  | _ => s

def acquire (s : Service) (id : String) : Service :=
  match s.targets.lookup id, s.connected id with
  | some target, none => { s with connected := Function.update s.connected id (some target) }
  | _, _ => s

def release (s : Service) (id : String) : Service :=
  match s.connected id with
  | none => s
  | some used =>
      let next := { s with connected := Function.update s.connected id none }
      if s.targets.lookup id ≠ some used then { next with closed := used :: s.closed } else next

inductive Action where
  | writeFile (contents : Except String Config)
  | load (reload : Nat)
  | readCurrent (reload : Nat) (keyPair : Option String)
  | openNext (reload : Nat) (failure : Option String)
  | check (reload : Nat) (overlap : Option String)
  | switch (reload : Nat)
  | discard (reload : Nat) (item : Handle)
  | close (reload : Nat) (id : String)
  | acquire (id : String)
  | release (id : String)

def act (host : Host) (s : Service) : Action → Service
  | .writeFile contents => { s with file := contents }
  | .load reload => s.load host reload
  | .readCurrent reload keyPair => s.readCurrent reload keyPair
  | .openNext reload failure => s.openNext reload failure
  | .check reload overlap => s.check reload overlap
  | .switch reload => s.switch reload
  | .discard reload item => s.discard reload item
  | .close reload id => s.close reload id
  | .acquire id => s.acquire id
  | .release id => s.release id

def run (host : Host) (s : Service) (actions : List Action) : Service :=
  actions.foldl (act host) s

def Action.reload : Action → Option Nat
  | .load reload | .readCurrent reload _ | .openNext reload _ | .check reload _ | .switch reload
  | .discard reload _ | .close reload _ => some reload
  | .writeFile _ | .acquire _ | .release _ => none

section Others

variable {host : Host} {s : Service} {other : Nat}

/-- A reload does not act for another. -/
theorem act_reloads_other {action : Action} (h : action.reload ≠ some other) :
    (s.act host action).reloads other = s.reloads other := by
  have hother : ∀ {reload phase}, action.reload = some reload →
      Function.update s.reloads reload phase other = s.reloads other :=
    fun hreload => Function.update_of_ne (fun hne => h (hreload.trans (congrArg some hne.symm))) _ _
  cases action with
  | writeFile contents => rfl
  | load reload =>
      simp only [act, load]
      split
      · rfl
      · split
        · exact hother rfl
        · split <;> exact hother rfl
  | readCurrent reload keyPair =>
      simp only [act, readCurrent]
      split
      · split_ifs
        · exact hother rfl
        · cases keyPair <;> exact hother rfl
      · rfl
  | openNext reload failure =>
      simp only [act, openNext]
      split
      · split_ifs
        · split <;> exact hother rfl
        · cases failure <;> exact hother rfl
      · rfl
  | check reload overlap =>
      simp only [act, check]
      split
      · cases overlap with
        | some text => exact hother rfl
        | none =>
            dsimp only
            split_ifs <;> exact hother rfl
      · rfl
  | switch reload =>
      simp only [act, switch]
      split
      · exact hother rfl
      · rfl
  | discard reload item =>
      simp only [act, discard]
      split
      · split_ifs
        · exact hother rfl
        · rfl
      · rfl
  | close reload id =>
      simp only [act, close]
      split
      · split
        · rfl
        · split_ifs <;> exact hother rfl
      · rfl
  | acquire id =>
      simp only [act, acquire]
      split <;> rfl
  | release id =>
      simp only [act, release]
      split
      · rfl
      · split_ifs <;> rfl

theorem run_reloads_other {actions : List Action} (h : ∀ action ∈ actions, action.reload ≠ some other) :
    (s.run host actions).reloads other = s.reloads other := by
  induction actions generalizing s with
  | nil => rfl
  | cons action actions ih =>
      calc (s.run host (action :: actions)).reloads other
          = ((s.act host action).run host actions).reloads other := rfl
        _ = (s.act host action).reloads other :=
            ih fun next hnext => h next (List.mem_cons_of_mem _ hnext)
        _ = s.reloads other := act_reloads_other (h action List.mem_cons_self)

end Others

end Service

section Start

def openAll (failure : Syncer → Option String) (opened : List Syncer) (syncer : Syncer) :
    Except (List Syncer × String) (List Syncer) :=
  match failure syncer with
  | some text => .error (opened, s!"open target for syncer \"{syncer.id}\": {text}")
  | none => .ok (opened ++ [syncer])

def handles (opened : List Syncer) : List Handle :=
  List.range opened.length

structure Refused where
  opened : List Syncer
  closed : List Handle
  text : String
  deriving Repr

def start (config : Config) (failure : Syncer → Option String) (overlap : Option String) :
    Except Refused Service :=
  match config.syncers.foldlM (openAll failure) [], overlap with
  | .error (opened, text), _ => .error ⟨opened, handles opened, text⟩
  | .ok opened, some text => .error ⟨opened, handles opened, text⟩
  | .ok opened, none =>
      .ok { file := .ok config, config := config, opened := opened
            targets := (opened.map Syncer.id).zip (handles opened) }

end Start

end GoSync.Reload
