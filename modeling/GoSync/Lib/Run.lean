/-!
# Runs

A system whose steps are a function of the state and an action, and properties of all the steps of a
run. Conditions on single steps are compared through an invariant of the states between them.
-/

namespace Run

variable {σ α : Type} {step : σ → α → σ}

def Along (step : σ → α → σ) (property : σ → α → Prop) : σ → List α → Prop
  | _, [] => True
  | state, action :: rest => property state action ∧ Along step property (step state action) rest

theorem Along.invariant {property : σ → α → Prop} {actions : List α} (invariant : σ → Prop)
    (hstep : ∀ state, ∀ action ∈ actions, invariant state → property state action →
      invariant (step state action)) {state : σ} (hstate : invariant state)
    (h : Along step property state actions) : invariant (actions.foldl step state) := by
  induction actions generalizing state with
  | nil => exact hstate
  | cons action rest ih =>
      refine ih ?_ (hstep state action List.mem_cons_self hstate h.1) h.2
      exact fun other next hmem => hstep other next (List.mem_cons_of_mem _ hmem)

theorem along_iff {first second : σ → α → Prop} {actions : List α} (invariant : σ → Prop)
    (hiff : ∀ state, ∀ action ∈ actions, invariant state →
      (first state action ↔ second state action))
    (hstep : ∀ state, ∀ action ∈ actions, invariant state → first state action →
      invariant (step state action)) {state : σ} (hstate : invariant state) :
    Along step first state actions ↔ Along step second state actions := by
  induction actions generalizing state with
  | nil => exact Iff.rfl
  | cons action rest ih =>
      have hhead := hiff state action List.mem_cons_self hstate
      have hrest (hfirst : first state action) :=
        ih (fun other next hmem => hiff other next (List.mem_cons_of_mem _ hmem))
          (fun other next hmem => hstep other next (List.mem_cons_of_mem _ hmem))
          (hstep state action List.mem_cons_self hstate hfirst)
      constructor
      · rintro ⟨hfirst, hall⟩
        exact ⟨hhead.mp hfirst, (hrest hfirst).mp hall⟩
      · rintro ⟨hsecond, hall⟩
        exact ⟨hhead.mpr hsecond, (hrest (hhead.mpr hsecond)).mpr hall⟩

end Run
