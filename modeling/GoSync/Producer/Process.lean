import GoSync.Capture.Attempts

/-!
# Attempts of the other collectors

A collector makes one attempt after the other, and an attempt is a sequence of parts. What differs
between the sources is where a part can leave the collector and which part follows. Calls of the sender,
crashes and restarts come between any two queue calls.
-/

namespace GoSync.Producer

open Capture (Backlog Call Captured Extends Keeps PublishedGroup Views)
open Queue (Limits Surroundings Traced)

variable {Raw Local ε : Type}

section Inspection

variable {Table : Type} {readTable : TableRef → Except ε Table} {objectId : Table → Int}
  {wrap : TableRef → ε → ε} {duplicate : ε}

def inspectTables (readTable : TableRef → Except ε Table) (objectId : Table → Int)
    (wrap : TableRef → ε → ε) (duplicate : ε) : List Int → List TableRef → Except ε (List Table)
  | _, [] => .ok []
  | seen, ref :: rest => do
      let table ← (readTable ref).mapError (wrap ref)
      if objectId table ∈ seen then
        .error duplicate
      else
        let tables ← inspectTables readTable objectId wrap duplicate (objectId table :: seen) rest
        .ok (table :: tables)

theorem refs_of_inspectTables {ref : Table → TableRef} {refs : List TableRef} {seen : List Int}
    {tables : List Table} (href : ∀ wanted table, readTable wanted = .ok table → ref table = wanted)
    (h : inspectTables readTable objectId wrap duplicate seen refs = .ok tables) :
    tables.map ref = refs := by
  induction refs generalizing seen tables with
  | nil =>
      cases h
      rfl
  | cons wanted rest ih =>
      obtain ⟨table, htable, h⟩ := Except.bind_eq_ok.mp h
      split_ifs at h
      obtain ⟨others, hothers, h⟩ := Except.bind_eq_ok.mp h
      cases h
      rw [List.map_cons, href wanted table (Except.mapError_eq_ok.mp htable), ih hothers]

end Inspection

/-- A collector: its queue and, while an attempt is made, the rest of the part it is in. -/
structure Process (Raw Local ε : Type) where
  queue : Traced Raw
  plan : Option (Plan Call ε Local) := none

namespace Process

def attempt (codec : Codec Raw) (start : Queue.State → Except ε Local) (p : Process Raw Local ε) :
    Process Raw Local ε :=
  match p.plan with
  | some _ => p
  | none =>
      match p.queue.exec codec .recover with
      | .error _ => p
      | .ok queue =>
          match start queue.db.state with
          | .error _ => { queue := queue }
          | .ok here => { queue := queue, plan := some (pure here) }

def proceed (next : Queue.State → Local → Option (Plan Call ε Local)) (p : Process Raw Local ε) :
    Process Raw Local ε :=
  match p.plan with
  | some ⟨[], .ok here⟩ =>
      match next p.queue.db.state here with
      | some plan => { p with plan := some plan }
      | none => p
  | _ => p

inductive Event where
  | perform (env : Surroundings)
  | stop
  | ack (since : String → Option Int) (seq : Nat) (id : String)
  | reopen (limits : Limits)

def perform (codec : Codec Raw) (env : Surroundings) (p : Process Raw Local ε) :
    Process Raw Local ε :=
  match p.plan with
  | some ⟨call :: rest, result⟩ =>
      match p.queue.exec codec (call.op env) with
      | .ok queue => { queue := queue, plan := some ⟨rest, result⟩ }
      | .error err => if call.waits err p.queue.db.state then p else { p with plan := none }
  | _ => p

def happen (codec : Codec Raw) (p : Process Raw Local ε) : Event → Process Raw Local ε
  | .perform env => p.perform codec env
  | .stop => { p with plan := none }
  | .ack since seq id =>
      match p.queue.exec codec (.ack since seq id) with
      | .error _ => p
      | .ok queue => { p with queue := queue }
  | .reopen limits => { queue := { p.queue with limits := limits } }

def opened (limits : Limits) : Process Raw Local ε where
  queue := { limits := limits, db := {} }

end Process

/-- The part in hand keeps the ledger captured, and it ends where the next one can start. -/
def Running (seals : Backlog → Prop) (holds : Local → Backlog → Prop) (b : Backlog) :
    Option (Plan Call ε Local) → Prop
  | none => Captured seals b
  | some plan => Keeps seals b plan holds fun _ _ => True

structure Consistent (codec : Codec Raw) (seals : Backlog → Prop) (holds : Local → Backlog → Prop)
    (p : Process Raw Local ε) (b : Backlog) : Prop where
  keeping : Views codec p.queue b
  running : Running seals holds b p.plan

def Preserves (codec : Codec Raw) (seals : Backlog → Prop) (holds : Local → Backlog → Prop)
    (b : Backlog) (p : Process Raw Local ε) : Prop :=
  ∃ b', Consistent codec seals holds p b' ∧ (b.phase = .stream → Extends b b')

variable {codec : Codec Raw} {seals : Backlog → Prop} {holds : Local → Backlog → Prop}
  {p : Process Raw Local ε} {b : Backlog} {plan : Option (Plan Call ε Local)}

theorem Running.captured (h : Running seals holds b plan) :
    Captured seals b := by
  cases plan with
  | none => exact h
  | some plan => exact Plan.Triple.crash_now h

theorem Running.mono {seals' : Backlog → Prop} {holds' : Local → Backlog → Prop}
    (h : Running seals holds b plan)
    (himp : ∀ b, seals b → seals' b) (hholds : ∀ here b, holds here b → holds' here b) :
    Running seals' holds' b plan := by
  cases plan with
  | none => exact Captured.mono h himp
  | some plan =>
      refine Plan.Triple.mono (Plan.Triple.weaken h fun b' hb' => hb'.mono himp) ?_ fun _ _ _ herr => herr
      exact fun here b' _ hhere => hholds here b' hhere

namespace Consistent

section Steps

variable (h : Consistent codec seals holds p b)
include h

theorem same : Preserves codec seals holds b p :=
  ⟨b, h, .refl⟩

theorem replan
    (hplan : Running seals holds b plan) : Preserves codec seals holds b { p with plan := plan } :=
  ⟨b, ⟨h.keeping, hplan⟩, .refl⟩

theorem attempt {start : Queue.State → Except ε Local}
    (hstart : ∀ queue here, Views codec queue b.settled → start queue.db.state = .ok here →
      holds here b.settled) : Preserves codec seals holds b (p.attempt codec start) := by
  have hextends : b.phase = .stream → Extends b b.settled :=
    fun hphase => ⟨hphase, rfl, .inl rfl⟩
  have hcaptured := h.running.captured.discard
  unfold Process.attempt
  split
  · exact h.same
  split
  · exact h.same
  rename_i queue hexec
  have hkeeping := h.keeping.recover hexec
  split
  · exact ⟨_, ⟨hkeeping, hcaptured⟩, hextends⟩
  · rename_i here hhere
    have hplan : Keeps seals b.settled (pure here : Plan Call ε Local) holds fun _ _ => True :=
      Plan.Triple.pure hcaptured (hstart queue here hkeeping hhere)
    exact ⟨_, ⟨hkeeping, hplan⟩, hextends⟩

theorem proceed {next : Queue.State → Local → Option (Plan Call ε Local)}
    (hnext : ∀ here plan, holds here b → next p.queue.db.state here = some plan →
      Keeps seals b plan holds fun _ _ => True) :
    Preserves codec seals holds b (p.proceed next) := by
  have hrunning := h.running
  unfold Process.proceed
  split
  · rename_i here hplan
    rw [hplan] at hrunning
    split
    · rename_i plan hsome
      exact h.replan (hnext here plan hrunning.2 hsome)
    · exact h.same
  · exact h.same

theorem perform {env : Surroundings} :
    Preserves codec seals holds b (p.perform codec env) := by
  have hrunning := h.running
  unfold Process.perform
  split
  · rename_i call rest result hplan
    rw [hplan] at hrunning
    split
    · rename_i queue hexec
      exact ⟨_, ⟨h.keeping.granted hexec, Plan.Triple.granted hrunning ⟨_, rfl⟩⟩,
        h.keeping.extends hexec⟩
    · split
      · exact h.same
      · exact h.replan h.running.captured
  · exact h.same

theorem happen (event : Process.Event) :
    Preserves codec seals holds b (p.happen codec event) := by
  cases event with
  | perform env => exact h.perform
  | stop => exact h.replan h.running.captured
  | ack since seq id =>
      simp only [Process.happen]
      split
      · exact h.same
      · rename_i queue hexec
        exact ⟨b, ⟨h.keeping.ack hexec, h.running⟩, .refl⟩
  | reopen limits =>
      exact ⟨b, ⟨{ h.keeping with sim := h.keeping.sim }, h.running.captured⟩, .refl⟩

theorem unsealed (hphase : b.phase ≠ .stream) :
    p.queue.groups = [] := by
  rcases h.running.captured.groups with ⟨-, hgroups⟩ | ⟨hstream, -⟩
  · exact List.forall₂_nil_right_iff.mp (hgroups ▸ h.keeping.groups)
  · exact absurd hstream hphase

end Steps

end Consistent

theorem consistent_opened (limits : Limits) :
    Consistent codec seals holds (Process.opened limits : Process Raw Local ε)
      { origin := {}, phase := .unset } := by
  refine ⟨⟨⟨⟨[], [], [], Queue.rep_empty, rfl, rfl⟩, rfl, rfl, rfl, rfl, rfl, rfl⟩, .nil, .nil, rfl,
    rfl, rfl⟩, ?_⟩
  exact Captured.initial _ Phase.noConfusion rfl rfl

section Positions

/-- Positions of a source, and the groups that lead from one to another. -/
structure Positions (Pos : Type) [Preorder Pos] where
  render : Pos → String
  parse : String → Option Pos
  runs : Pos → List PublishedGroup → Pos → Prop
  parse_render : ∀ pos, parse (render pos) = some pos
  position : ∀ {boundary pos groups}, runs boundary groups pos →
    Queue.lastLsn (render boundary) groups = render pos
  last : ∀ {boundary pos groups group}, runs boundary (groups ++ [group]) pos →
    ∃ before, runs boundary groups before ∧ before ≤ pos

variable {Pos : Type} [Preorder Pos] {cursor : Positions Pos} {durable durable' : Pos} {b' : Backlog}

theorem Positions.eq_of_render {pos other : Pos} (h : cursor.render pos = cursor.render other) :
    pos = other :=
  Option.some.inj (by rw [← cursor.parse_render pos, h, cursor.parse_render])

/-- The groups after the first lead from its position to the durable one. -/
structure Leads (cursor : Positions Pos) (b : Backlog) (durable : Pos) : Prop where
  groups : ∃ first rest boundary, b.groups = first :: rest ∧ first.mark.lsn = cursor.render boundary
    ∧ cursor.runs boundary rest durable
  durable : b.durableLsn = cursor.render durable

theorem Leads.parse {queue : Traced Raw} (h : Leads cursor b.settled durable)
    (hviews : Views codec queue b) : cursor.parse queue.db.state.durableLsn = some durable := by
  rw [hviews.durableLsn, ← cursor.parse_render durable, ← h.durable]
  rfl

/-- No group leads back. -/
theorem Leads.advance (h : Leads cursor b.settled durable) (h' : Leads cursor b'.settled durable')
    (hextends : Extends b b') : durable ≤ durable' := by
  obtain ⟨⟨first, rest, boundary, hgroups, hmark, hruns⟩, hdurable⟩ := h
  obtain ⟨⟨first', rest', boundary', hgroups', hmark', hruns'⟩, hdurable'⟩ := h'
  rcases hextends.groups with hsame | ⟨group, hgroup⟩
  · have hstays : b'.settled.durableLsn = b.settled.durableLsn := by
      simp only [Backlog.durableLsn, Backlog.settled, hsame, hextends.origin]
    exact le_of_eq (cursor.eq_of_render (hdurable.symm.trans (hstays.symm.trans hdurable')))
  have hgroups' : b.groups ++ [group] = first' :: rest' := hgroup ▸ hgroups'
  rw [show b.groups = first :: rest from hgroups] at hgroups'
  obtain ⟨rfl, rfl⟩ := List.cons.inj hgroups'
  obtain ⟨before, hbefore, hle⟩ := cursor.last hruns'
  -- Both runs of groups start at the position of the first group.
  have hsame : before = durable := cursor.eq_of_render
    (by rw [← cursor.position hbefore, ← cursor.position hruns, ← hmark, ← hmark'])
  exact hsame ▸ hle

end Positions

end GoSync.Producer
