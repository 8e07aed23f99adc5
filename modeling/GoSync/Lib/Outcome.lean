import Mathlib.Data.List.Basic
import Mathlib.Data.List.Forall2

/-!
# Fallible steps

Inversion rules for computations in `Except`: what a successful bind, loop or error translation has
done.
-/

namespace Except

variable {ε δ α β σ : Type}

theorem bind_eq_ok {first : Except ε α} {rest : α → Except ε β} {result : β} :
    (first >>= rest) = .ok result ↔ ∃ value, first = .ok value ∧ rest value = .ok result := by
  cases first with
  | error err =>
      constructor
      · intro h
        cases h
      · rintro ⟨value, h, -⟩
        cases h
  | ok value =>
      constructor
      · intro h
        exact ⟨value, rfl, h⟩
      · rintro ⟨other, hother, h⟩
        cases hother
        exact h

variable {result : Except ε α}

theorem mapError_eq_ok {translate : ε → δ} {value : α} :
    result.mapError translate = .ok value ↔ result = .ok value := by
  cases result with
  | error err => simp [Except.mapError]
  | ok other => simp [Except.mapError]

theorem ok_bind (value : α) (rest : α → Except ε β) : (Except.ok value >>= rest) = rest value :=
  rfl

theorem bind_eq_error {first : Except ε α} {rest : α → Except ε β} {err : ε} :
    (first >>= rest) = .error err
      ↔ first = .error err ∨ ∃ value, first = .ok value ∧ rest value = .error err := by
  cases first with
  | error other =>
      change Except.error other = .error err ↔ _
      simp
  | ok value =>
      change rest value = .error err ↔ _
      simp

theorem isOk_iff : result.isOk = true ↔ ∃ value, result = .ok value := by
  cases result with
  | error err => simp [Except.isOk, Except.toBool]
  | ok value => simp [Except.isOk, Except.toBool]

theorem mapError_eq_error {translate : ε → δ} {err : δ} :
    result.mapError translate = .error err ↔ ∃ cause, result = .error cause ∧ err = translate cause := by
  cases result with
  | error other => simp [Except.mapError, eq_comm]
  | ok other => simp [Except.mapError]

theorem toOption_eq_some {value : α} :
    result.toOption = some value ↔ result = .ok value := by
  cases result with
  | error err => simp [Except.toOption]
  | ok other => simp [Except.toOption]

theorem toOption_map_eq_some {f : α → β} {last : β} :
    result.toOption.map f = some last ↔ ∃ value, result = .ok value ∧ last = f value := by
  simp only [Option.map_eq_some_iff, toOption_eq_some, eq_comm]

variable {step : σ → α → Except ε σ} {items : List α} {state last : σ}

theorem foldlM_cons_eq_ok {item : α} :
    (item :: items).foldlM step state = .ok last
      ↔ ∃ next, step state item = .ok next ∧ items.foldlM step next = .ok last := by
  rw [List.foldlM_cons]
  exact bind_eq_ok

theorem foldlM_append_eq_ok {front back : List α} :
    (front ++ back).foldlM step state = .ok last
      ↔ ∃ next, front.foldlM step state = .ok next ∧ back.foldlM step next = .ok last := by
  rw [List.foldlM_append]
  exact bind_eq_ok

/-- A fold fails where the first step fails. -/
theorem foldlM_eq_error {state : σ} {err : ε} :
    items.foldlM step state = .error err
      ↔ ∃ front item back next, items = front ++ item :: back
        ∧ front.foldlM step state = .ok next ∧ step next item = .error err := by
  induction items generalizing state with
  | nil =>
      change Except.ok state = .error err ↔ _
      simp
  | cons first items ih =>
      rw [List.foldlM_cons, bind_eq_error]
      constructor
      · rintro (hfirst | ⟨next, hfirst, hrest⟩)
        · exact ⟨[], first, items, state, rfl, rfl, hfirst⟩
        · obtain ⟨front, item, back, last, rfl, hfront, hitem⟩ := ih.mp hrest
          exact ⟨first :: front, item, back, last, rfl,
            foldlM_cons_eq_ok.mpr ⟨next, hfirst, hfront⟩, hitem⟩
      · rintro ⟨front, item, back, last, hsplit, hfront, hitem⟩
        cases front with
        | nil =>
            obtain ⟨rfl, rfl⟩ := List.cons.inj hsplit
            cases hfront
            exact .inl hitem
        | cons other front =>
            obtain ⟨rfl, rfl⟩ := List.cons.inj hsplit
            obtain ⟨next, hnext, hfront⟩ := foldlM_cons_eq_ok.mp hfront
            exact .inr ⟨next, hnext, ih.mpr ⟨front, item, back, last, rfl, hfront, hitem⟩⟩

theorem foldlM_invariant (invariant : σ → Prop)
    (hstep : ∀ item ∈ items, ∀ state next, invariant state → step state item = .ok next →
      invariant next) (hstart : invariant state)
    (hloop : items.foldlM step state = .ok last) : invariant last := by
  induction items generalizing state with
  | nil =>
      cases hloop
      exact hstart
  | cons item items ih =>
      obtain ⟨next, hnext, hrest⟩ := foldlM_cons_eq_ok.mp hloop
      refine ih ?_ (hstep item List.mem_cons_self state next hstart hnext) hrest
      intro other hother
      exact hstep other (List.mem_cons_of_mem _ hother)

theorem foldlM_eq_ok_of_imp {step other : σ → α → Except ε σ}
    (himp : ∀ item ∈ items, ∀ state next, step state item = .ok next → other state item = .ok next)
    (h : items.foldlM step state = .ok last) :
    items.foldlM other state = .ok last := by
  induction items generalizing state with
  | nil => exact h
  | cons item items ih =>
      obtain ⟨hitem, hitems⟩ := List.forall_mem_cons.mp himp
      obtain ⟨next, hnext, hrest⟩ := foldlM_cons_eq_ok.mp h
      exact foldlM_cons_eq_ok.mpr ⟨next, hitem state next hnext, ih hitems hrest⟩

theorem exists_of_foldlM_eq_ok (h : items.foldlM step state = .ok last) :
    ∀ item ∈ items, ∃ before after, step before item = .ok after := by
  induction items generalizing state with
  | nil => exact List.forall_mem_nil _
  | cons item items ih =>
      obtain ⟨next, hnext, hrest⟩ := foldlM_cons_eq_ok.mp h
      exact List.forall_mem_cons.mpr ⟨⟨state, next, hnext⟩, ih hrest⟩

theorem foldlM_range {f : σ → α → Except ε σ} (state : Nat → σ) (item : Nat → α)
    (hstep : ∀ i, f (state i) (item i) = .ok (state (i + 1))) (count : Nat) :
    ((List.range count).map item).foldlM f (state 0) = .ok (state count) := by
  induction count with
  | zero => rfl
  | succ count ih =>
      rw [List.range_succ, List.map_append, foldlM_append_eq_ok]
      exact ⟨state count, ih, foldlM_cons_eq_ok.mpr ⟨_, hstep count, rfl⟩⟩

theorem forM_eq_ok {f : α → Except ε Unit} :
    items.forM f = .ok () ↔ ∀ item ∈ items, f item = .ok () := by
  induction items with
  | nil => exact ⟨fun _ _ hmem => (List.not_mem_nil hmem).elim, fun _ => rfl⟩
  | cons item rest ih =>
      change (f item >>= fun _ => rest.forM f) = .ok () ↔ _
      rw [bind_eq_ok, List.forall_mem_cons, ← ih]
      constructor
      · rintro ⟨_, hitem, hrest⟩
        exact ⟨hitem, hrest⟩
      · rintro ⟨hitem, hrest⟩
        exact ⟨_, hitem, hrest⟩

theorem mapError_bind (first : Except ε α) (rest : α → Except ε β) (translate : ε → δ) :
    (first >>= rest).mapError translate
      = first.mapError translate >>= fun value => (rest value).mapError translate := by
  cases first with
  | error err => rfl
  | ok value => rfl

variable {f : α → Except ε β}

theorem mapM_append_eq_ok {front back : List α} {result : List β} :
    (front ++ back).mapM f = .ok result
      ↔ ∃ first second, front.mapM f = .ok first ∧ back.mapM f = .ok second
        ∧ result = first ++ second := by
  rw [List.mapM_append, Except.bind_eq_ok]
  constructor
  · rintro ⟨first, hfirst, h⟩
    obtain ⟨second, hsecond, h⟩ := Except.bind_eq_ok.mp h
    cases h
    exact ⟨first, second, hfirst, hsecond, rfl⟩
  · rintro ⟨first, second, hfirst, hsecond, rfl⟩
    exact ⟨first, hfirst, Except.bind_eq_ok.mpr ⟨second, hsecond, rfl⟩⟩

theorem mapM_eq_ok_iff {results : List β} :
    items.mapM f = .ok results ↔ List.Forall₂ (fun item result => f item = .ok result) items results := by
  induction items generalizing results with
  | nil =>
      rw [List.mapM_nil, List.forall₂_nil_left_iff]
      exact ⟨fun h => (Except.ok.inj h).symm, fun h => congrArg Except.ok h.symm⟩
  | cons item items ih =>
      rw [List.mapM_cons, bind_eq_ok, List.forall₂_cons_left_iff]
      constructor
      · rintro ⟨first, hfirst, h⟩
        obtain ⟨rest, hrest, h⟩ := bind_eq_ok.mp h
        cases h
        exact ⟨first, rest, hfirst, ih.mp hrest, rfl⟩
      · rintro ⟨first, rest, hfirst, hrest, rfl⟩
        exact ⟨first, hfirst, bind_eq_ok.mpr ⟨rest, ih.mpr hrest, rfl⟩⟩

theorem exists_of_mapM_eq_ok {results : List β}
    (h : items.mapM f = .ok results) : ∀ result ∈ results, ∃ item ∈ items, f item = .ok result := by
  induction items generalizing results with
  | nil =>
      cases h
      exact List.forall_mem_nil _
  | cons item items ih =>
      rw [List.mapM_cons] at h
      obtain ⟨first, hfirst, h⟩ := Except.bind_eq_ok.mp h
      obtain ⟨rest, hrest, h⟩ := Except.bind_eq_ok.mp h
      cases h
      refine List.forall_mem_cons.mpr ⟨⟨item, List.mem_cons_self, hfirst⟩, ?_⟩
      intro result hresult
      obtain ⟨other, hother, hsame⟩ := ih hrest result hresult
      exact ⟨other, List.mem_cons_of_mem _ hother, hsame⟩

/-- `mapM` fails with the error of the first item that fails. -/
theorem mapM_eq_error {err : ε} :
    items.mapM f = .error err
      ↔ ∃ front item back, items = front ++ item :: back ∧ (∀ other ∈ front, (f other).isOk)
        ∧ f item = .error err := by
  induction items with
  | nil =>
      change Except.ok [] = .error err ↔ _
      simp
  | cons first items ih =>
      rw [List.mapM_cons, bind_eq_error]
      constructor
      · rintro (hfirst | ⟨value, hfirst, hrest⟩)
        · exact ⟨[], first, items, rfl, by simp, hfirst⟩
        · obtain hrest | ⟨values, -, hpure⟩ := bind_eq_error.mp hrest
          · obtain ⟨front, item, back, rfl, hfront, hitem⟩ := ih.mp hrest
            refine ⟨first :: front, item, back, rfl, ?_, hitem⟩
            exact List.forall_mem_cons.mpr ⟨by rw [hfirst]; rfl, hfront⟩
          · cases hpure
      · rintro ⟨front, item, back, hsplit, hfront, hitem⟩
        cases front with
        | nil =>
            obtain ⟨rfl, rfl⟩ := List.cons.inj hsplit
            exact .inl hitem
        | cons other front =>
            obtain ⟨rfl, rfl⟩ := List.cons.inj hsplit
            obtain ⟨hother, hfront⟩ := List.forall_mem_cons.mp hfront
            cases hvalue : f first with
            | error cause =>
                rw [hvalue] at hother
                exact Bool.noConfusion hother
            | ok value =>
                refine .inr ⟨value, rfl, bind_eq_error.mpr (.inl ?_)⟩
                exact ih.mpr ⟨front, item, back, rfl, hfront, hitem⟩

end Except
