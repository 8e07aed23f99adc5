import Mathlib.Logic.Basic

/-!
# Plans and crash conditions

A plan is what a program does to a store it shares with others: it asks for one change after the
other, and it goes on only if the last one was made. A request that is refused ends the program, so
the result does not depend on the answers and the requests are simply a list.

`Triple` is a Hoare triple for plans with a crash condition: besides the state after the last
request, it speaks about the state after every earlier one, where the program may end as well.
-/

/-- The requests a program makes, and how it ends if all of them are granted. -/
structure Plan (ρ ε α : Type) where
  requests : List ρ
  result : Except ε α

namespace Plan

variable {ρ ε α β σ : Type}

instance : Monad (Plan ρ ε) where
  pure value := ⟨[], .ok value⟩
  bind plan next :=
    match plan.result with
    | .error err => ⟨plan.requests, .error err⟩
    | .ok value => ⟨plan.requests ++ (next value).requests, (next value).result⟩

def request (r : ρ) : Plan ρ ε Unit :=
  ⟨[r], .ok ()⟩

def fail (err : ε) : Plan ρ ε α :=
  ⟨[], .error err⟩

def lift (outcome : Except ε α) : Plan ρ ε α :=
  ⟨[], outcome⟩

def mapError {ε' : Type} (f : ε → ε') (plan : Plan ρ ε α) : Plan ρ ε' α :=
  ⟨plan.requests, plan.result.mapError f⟩

theorem bind_assoc {γ : Type} (plan : Plan ρ ε α) (first : α → Plan ρ ε β)
    (second : β → Plan ρ ε γ) : plan >>= first >>= second = plan >>= fun a => first a >>= second := by
  obtain ⟨requests, result⟩ := plan
  cases result with
  | error err => rfl
  | ok value =>
      cases hfirst : (first value).result with
      | error err => simp [Bind.bind, hfirst]
      | ok middle => simp [Bind.bind, hfirst]

theorem map_id (plan : Plan ρ ε α) : id <$> plan = plan := by
  obtain ⟨requests, result⟩ := plan
  cases result with
  | error err => rfl
  | ok value => simp [Functor.map]

instance : LawfulMonad (Plan ρ ε) :=
  LawfulMonad.mk' (Plan ρ ε) map_id (fun _ _ => rfl) bind_assoc

variable {plan : Plan ρ ε α} {next : α → Plan ρ ε β} {value : α}

theorem bind_of_ok (h : plan.result = .ok value) :
    plan >>= next = ⟨plan.requests ++ (next value).requests, (next value).result⟩ := by
  obtain ⟨requests, result⟩ := plan
  cases h
  rfl

theorem bind_of_error {err : ε}
    (h : plan.result = .error err) : plan >>= next = ⟨plan.requests, .error err⟩ := by
  obtain ⟨requests, result⟩ := plan
  cases h
  rfl

theorem mem_bind {r : ρ} (h : r ∈ (plan >>= next).requests) :
    r ∈ plan.requests ∨ ∃ value, plan.result = .ok value ∧ r ∈ (next value).requests := by
  obtain ⟨requests, result⟩ := plan
  cases result with
  | error err => exact .inl h
  | ok value =>
      rcases List.mem_append.mp h with h | h
      · exact .inl h
      · exact .inr ⟨value, rfl, h⟩

theorem bind_result {value : β} (h : (plan >>= next).result = .ok value) :
    ∃ middle, plan.result = .ok middle ∧ (next middle).result = .ok value
      ∧ (plan >>= next).requests = plan.requests ++ (next middle).requests := by
  obtain ⟨requests, result⟩ := plan
  cases result with
  | error err => cases h
  | ok middle => exact ⟨middle, rfl, h, rfl⟩

section Triple

variable (grant : σ → ρ → σ → Prop) (crash : σ → Prop)

/-- From `s`, granting the requests one by one stays within `crash` and ends in `post`. -/
def Safely (post : σ → Prop) : List ρ → σ → Prop
  | [], s => crash s ∧ post s
  | r :: rest, s => crash s ∧ ∀ s', grant s r s' → Safely post rest s'

/-- From `s`, the plan stays within `crash` and ends in `post` or, if it fails, in `errs`. -/
def Triple (s : σ) (plan : Plan ρ ε α) (post : α → σ → Prop) (errs : ε → σ → Prop) : Prop :=
  Safely grant crash
    (fun s' => match plan.result with
      | .ok value => post value s'
      | .error err => errs err s')
    plan.requests s

variable {grant crash} {post : α → σ → Prop} {errs : ε → σ → Prop} {s s' : σ} {requests : List ρ}
  {done : σ → Prop}

theorem Safely.crash_now (h : Safely grant crash done requests s) : crash s := by
  cases requests with
  | nil => exact h.1
  | cons => exact h.1

theorem Safely.mono {done done' : σ → Prop}
    (h : Safely grant crash done requests s) (himp : ∀ s', crash s' → done s' → done' s') :
    Safely grant crash done' requests s := by
  induction requests generalizing s with
  | nil => exact ⟨h.1, himp s h.1 h.2⟩
  | cons r rest ih => exact ⟨h.1, fun s' hgrant => ih (h.2 s' hgrant)⟩

theorem Safely.weaken {done crash' : σ → Prop}
    (h : Safely grant crash done requests s) (himp : ∀ s', crash s' → crash' s') :
    Safely grant crash' done requests s := by
  induction requests generalizing s with
  | nil => exact ⟨himp s h.1, h.2⟩
  | cons r rest ih => exact ⟨himp s h.1, fun s' hgrant => ih (h.2 s' hgrant)⟩

theorem Safely.append {front back : List ρ}
    (h : Safely grant crash (Safely grant crash done back) front s) :
    Safely grant crash done (front ++ back) s := by
  induction front generalizing s with
  | nil => exact h.2
  | cons r rest ih => exact ⟨h.1, fun s' hgrant => ih (h.2 s' hgrant)⟩

def Granted (grant : σ → ρ → σ → Prop) : List ρ → σ → σ → Prop
  | [], s, last => s = last
  | r :: rest, s, last => ∃ s', grant s r s' ∧ Granted grant rest s' last

theorem Safely.granted {last : σ}
    (h : Safely grant crash done requests s) (hgranted : Granted grant requests s last) :
    crash last ∧ done last := by
  induction requests generalizing s with
  | nil =>
      obtain rfl := hgranted
      exact h
  | cons r rest ih =>
      obtain ⟨s', hgrant, hrest⟩ := hgranted
      exact ih (h.2 s' hgrant) hrest

theorem Triple.pure (hcrash : crash s) (hpost : post value s) :
    Triple grant crash s (Pure.pure value : Plan ρ ε α) post errs :=
  ⟨hcrash, hpost⟩

theorem Triple.fail {err : ε} (hcrash : crash s) (herrs : errs err s) :
    Triple grant crash s (Plan.fail err : Plan ρ ε α) post errs :=
  ⟨hcrash, herrs⟩

theorem Triple.lift {outcome : Except ε α} (hcrash : crash s)
    (hpost : ∀ value, outcome = .ok value → post value s)
    (herrs : ∀ err, outcome = .error err → errs err s) :
    Triple grant crash s (Plan.lift outcome : Plan ρ ε α) post errs := by
  cases outcome with
  | ok value => exact ⟨hcrash, hpost value rfl⟩
  | error err => exact ⟨hcrash, herrs err rfl⟩

theorem Triple.request {post : Unit → σ → Prop} {r : ρ} (hcrash : crash s)
    (hgrant : ∀ s', grant s r s' → crash s' ∧ post () s') :
    Triple grant crash s (Plan.request r : Plan ρ ε Unit) post errs :=
  ⟨hcrash, hgrant⟩

theorem Triple.bind (post : α → σ → Prop) {post' : β → σ → Prop}
    (h : Triple grant crash s plan post errs)
    (hnext : ∀ value s', plan.result = .ok value → crash s' → post value s' →
      Triple grant crash s' (next value) post' errs) :
    Triple grant crash s (plan >>= next) post' errs := by
  obtain ⟨requests, result⟩ := plan
  cases result with
  | error err => exact h
  | ok value =>
      apply Safely.append
      exact h.mono fun s' hcrash hpost => hnext value s' rfl hcrash hpost

theorem Triple.weaken {crash' : σ → Prop}
    (h : Triple grant crash s plan post errs) (himp : ∀ s', crash s' → crash' s') :
    Triple grant crash' s plan post errs :=
  Safely.weaken h himp

theorem Triple.mono {post' : α → σ → Prop} {errs' : ε → σ → Prop}
    (h : Triple grant crash s plan post errs)
    (hpost : ∀ value s', crash s' → post value s' → post' value s')
    (herrs : ∀ err s', crash s' → errs err s' → errs' err s') :
    Triple grant crash s plan post' errs' := by
  apply Safely.mono h
  intro s' hcrash hdone
  cases hresult : plan.result with
  | ok value =>
      rw [hresult] at hdone
      exact hpost value s' hcrash hdone
  | error err =>
      rw [hresult] at hdone
      exact herrs err s' hcrash hdone

theorem Triple.mapError {ε' : Type} {errs : ε' → σ → Prop} {f : ε → ε'}
    (h : Triple grant crash s plan post fun err => errs (f err)) :
    Triple grant crash s (plan.mapError f) post errs := by
  obtain ⟨requests, result⟩ := plan
  cases result with
  | ok value => exact h
  | error err => exact h

theorem Triple.completed {last : σ}
    (h : Triple grant crash s plan post errs) (hresult : plan.result = .ok value)
    (hgranted : Granted grant plan.requests s last) : crash last ∧ post value last := by
  have hlast := Safely.granted h hgranted
  rw [hresult] at hlast
  exact hlast

theorem Triple.crash_now (h : Triple grant crash s plan post errs) : crash s :=
  Safely.crash_now h

theorem Triple.any (plan : Plan ρ ε α) :
    Triple grant (fun _ => True) s plan (fun _ _ => True) fun _ _ => True := by
  obtain ⟨requests, result⟩ := plan
  induction requests generalizing s with
  | nil => cases result <;> exact ⟨trivial, trivial⟩
  | cons r rest ih => exact ⟨trivial, fun s' _ => ih⟩

theorem Triple.granted {r : ρ} {rest : List ρ} {result : Except ε α}
    (h : Triple grant crash s ⟨r :: rest, result⟩ post errs) (hgrant : grant s r s') :
    Triple grant crash s' ⟨rest, result⟩ post errs :=
  h.2 s' hgrant

theorem Triple.foldlM {γ : Type} (inv : List γ → α → σ → Prop) {step : α → γ → Plan ρ ε α}
    (hstep : ∀ item rest value s, crash s → inv (item :: rest) value s →
      Triple grant crash s (step value item) (inv rest) errs)
    (items : List γ) (hcrash : crash s) (hinv : inv items value s) :
    Triple grant crash s (items.foldlM step value) (inv []) errs := by
  induction items generalizing value s with
  | nil => exact Triple.pure hcrash hinv
  | cons item rest ih =>
      rw [List.foldlM_cons]
      exact Triple.bind (inv rest) (hstep item rest value s hcrash hinv) fun value' s' _ => ih

theorem Triple.forM {γ : Type} (inv : List γ → σ → Prop) {step : γ → Plan ρ ε Unit}
    (hstep : ∀ item rest s, crash s → inv (item :: rest) s →
      Triple grant crash s (step item) (fun _ => inv rest) errs)
    (items : List γ) (hcrash : crash s) (hinv : inv items s) :
    Triple grant crash s (items.forM step) (fun _ => inv []) errs := by
  induction items generalizing s with
  | nil => exact Triple.pure hcrash hinv
  | cons item rest ih =>
      exact Triple.bind (fun _ => inv rest) (hstep item rest s hcrash hinv) fun _ s' _ => ih

end Triple

end Plan
