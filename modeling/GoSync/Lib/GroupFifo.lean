import Mathlib.Data.List.Basic

/-!
# A queue of groups

A producer stages values one by one and exposes all staged values at once, as a group under a mark.
A consumer looks at the oldest exposed value that it has not acknowledged and acknowledges it. The
groups are never changed, so what was exposed up to a state is a list that only grows.

The machine is given by the events an observer sees. `Run` relates a sequence of them to the states
before and after, and is the specification that an implementation has to refine.
-/

structure MarkedGroup (α μ : Type) where
  values : List α
  mark : μ

structure GroupFifo (α μ : Type) where
  groups : List (MarkedGroup α μ) := []
  staged : List α := []
  delivered : Nat := 0

namespace GroupFifo

variable {α μ : Type}

def published (fifo : GroupFifo α μ) : List α :=
  fifo.groups.flatMap MarkedGroup.values

def head (fifo : GroupFifo α μ) : Option α :=
  fifo.published[fifo.delivered]?

def stage (fifo : GroupFifo α μ) (value : α) : GroupFifo α μ :=
  { fifo with staged := fifo.staged ++ [value] }

def expose (fifo : GroupFifo α μ) (mark : μ) : GroupFifo α μ :=
  { fifo with groups := fifo.groups ++ [⟨fifo.staged, mark⟩], staged := [] }

def discard (fifo : GroupFifo α μ) : GroupFifo α μ :=
  { fifo with staged := [] }

def acknowledge (fifo : GroupFifo α μ) : GroupFifo α μ :=
  { fifo with delivered := fifo.delivered + 1 }

@[simp]
theorem published_expose (fifo : GroupFifo α μ) (mark : μ) :
    (fifo.expose mark).published = fifo.published ++ fifo.staged := by
  simp [published, expose]

@[simp]
theorem published_acknowledge (fifo : GroupFifo α μ) :
    fifo.acknowledge.published = fifo.published := rfl

inductive Event (α μ : Type) where
  | stage (value : α)
  | expose (mark : μ)
  | discard
  | peek (value : Option α)
  | acknowledge (value : α)

/-- The operations, with what they show: a consumer only ever sees the head. -/
inductive Step : GroupFifo α μ → Event α μ → GroupFifo α μ → Prop where
  | stage (fifo : GroupFifo α μ) (value : α) : Step fifo (.stage value) (fifo.stage value)
  | expose (fifo : GroupFifo α μ) (mark : μ) : Step fifo (.expose mark) (fifo.expose mark)
  | discard (fifo : GroupFifo α μ) : Step fifo .discard fifo.discard
  | peek (fifo : GroupFifo α μ) : Step fifo (.peek fifo.head) fifo
  | acknowledge {fifo : GroupFifo α μ} {value : α} (hhead : fifo.head = some value) :
      Step fifo (.acknowledge value) fifo.acknowledge

inductive Run : GroupFifo α μ → List (Event α μ) → GroupFifo α μ → Prop where
  | nil (fifo : GroupFifo α μ) : Run fifo [] fifo
  | cons {first second last : GroupFifo α μ} {event : Event α μ} {events : List (Event α μ)}
      (hstep : Step first event second) (hrest : Run second events last) :
      Run first (event :: events) last

theorem Run.append {first second last : GroupFifo α μ} {front back : List (Event α μ)}
    (hfront : Run first front second) (hback : Run second back last) :
    Run first (front ++ back) last := by
  induction hfront with
  | nil => exact hback
  | cons hstep _ ih => exact .cons hstep (ih hback)

def acknowledged : List (Event α μ) → List α
  | [] => []
  | .acknowledge value :: events => value :: acknowledged events
  | _ :: events => acknowledged events

variable {first last : GroupFifo α μ}

theorem Step.groups_extend {event : Event α μ}
    (hstep : Step first event last) : first.groups <+: last.groups := by
  cases hstep with
  | expose => exact List.prefix_append _ _
  | stage => exact List.prefix_rfl
  | discard => exact List.prefix_rfl
  | peek => exact List.prefix_rfl
  | acknowledge => exact List.prefix_rfl

theorem Run.groups_extend {events : List (Event α μ)}
    (hrun : Run first events last) : first.groups <+: last.groups := by
  induction hrun with
  | nil => exact List.prefix_rfl
  | cons hstep _ ih => exact hstep.groups_extend.trans ih

theorem published_extend_of_groups
    (hgroups : first.groups <+: last.groups) : first.published <+: last.published := by
  obtain ⟨rest, hrest⟩ := hgroups
  refine ⟨rest.flatMap MarkedGroup.values, ?_⟩
  rw [published, published, ← hrest, List.flatMap_append]

/-- What is delivered is what was acknowledged, in order. -/
theorem Run.acknowledged_eq {events : List (Event α μ)}
    (hrun : Run first events last) (hle : first.delivered ≤ first.published.length) :
    last.delivered ≤ last.published.length
      ∧ last.published.take last.delivered
        = first.published.take first.delivered ++ acknowledged events := by
  induction hrun with
  | nil => exact ⟨hle, by simp [acknowledged]⟩
  | @cons first second last event events hstep hrest ih =>
      cases hstep with
      | stage value => exact ih hle
      | discard => exact ih hle
      | peek => exact ih hle
      | expose mark =>
          have hlonger : first.delivered ≤ (first.expose mark).published.length := by
            rw [published_expose, List.length_append]
            exact Nat.le_trans hle (Nat.le_add_right _ _)
          obtain ⟨hlast, htake⟩ := ih hlonger
          refine ⟨hlast, htake.trans ?_⟩
          rw [published_expose]
          exact congrArg (· ++ _) (List.take_append_of_le_length hle)
      | @acknowledge value hhead =>
          unfold head at hhead
          obtain ⟨hlt, hvalue⟩ := List.getElem?_eq_some_iff.mp hhead
          obtain ⟨hlast, htake⟩ := ih hlt
          refine ⟨hlast, htake.trans ?_⟩
          change first.published.take (first.delivered + 1) ++ acknowledged events = _
          rw [List.take_add_one, hhead, List.append_assoc]
          rfl

end GroupFifo
