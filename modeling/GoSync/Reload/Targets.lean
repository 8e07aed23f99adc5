import GoSync.Lib.Assoc
import GoSync.Reload.Service

/-!
# Installed targets

Reloads that do not overlap keep the installed targets open and in step with the installed configuration,
and close no target that a connection uses. A reload decides which targets to keep from what it read before
it opened the others; this is still true at the switch only if no other reload has switched in between.
-/

namespace GoSync.Reload

open ServerConfig

def Phase.Busy : Phase → Prop
  | .loaded _ => False
  | _ => True

def Phase.Opening : Phase → Prop
  | .opening .. | .checked .. => True
  | _ => False

namespace Service

variable {host : Host} {s : Service}

def Busy (s : Service) (reload : Nat) : Prop :=
  ∃ phase, s.reloads reload = some phase ∧ phase.Busy

/-- A reload reads the installed configuration while no other one is between its reading and its end. -/
def Alone (s : Service) : Action → Prop
  | .readCurrent reload _ => ∀ other, other ≠ reload → ¬ s.Busy other
  | _ => True

/-- Every installed target is open and was opened for the installed configuration of its syncer, and no
connection uses a closed target. -/
structure Installed (s : Service) : Prop where
  target : ∀ entry ∈ s.targets, entry.2 ∉ s.closed
    ∧ ∃ syncer ∈ s.config.syncers, syncer.id = entry.1 ∧ s.opened[entry.2]? = some syncer
  connection : ∀ id used, s.connected id = some used → used ∉ s.closed

def Belongs (s : Service) (id : String) (target : Handle) : Prop :=
  ∃ syncer, s.opened[target]? = some syncer ∧ syncer.id = id

def Unused (s : Service) (target : Handle) : Prop :=
  (∀ id, (id, target) ∉ s.targets) ∧ ∀ id, s.connected id ≠ some target

structure Prepared (s : Service) (done : List Syncer) (opened : Targets) : Prop where
  keys : opened.map Prod.fst = done.map Syncer.id
  target : ∀ entry ∈ opened, entry.2 ∉ s.closed
    ∧ ∃ syncer ∈ done, syncer.id = entry.1 ∧ s.opened[entry.2]? = some syncer
  origin : ∀ entry ∈ opened, entry ∈ s.targets ∨ s.Unused entry.2

/-- What holds between the local variables of a reload and the service when no other reload is under way. -/
def PhaseSound (s : Service) : Phase → Prop
  | .loaded candidate => (candidate.syncers.map Syncer.id).Nodup
  | .opening candidate current old pending opened =>
      current = s.config ∧ old = s.targets ∧ (candidate.syncers.map Syncer.id).Nodup
        ∧ ∃ done, candidate.syncers = done ++ pending ∧ s.Prepared done opened
  | .checked candidate old opened =>
      old = s.targets ∧ (candidate.syncers.map Syncer.id).Nodup ∧ s.Prepared candidate.syncers opened
  | .discarding items => ∀ item ∈ items, item < s.opened.length ∧ s.Unused item
  | .closing old opened =>
      opened = s.targets ∧ (old.map Prod.fst).Nodup ∧ ∀ entry ∈ old, s.Belongs entry.1 entry.2

structure Coherent (s : Service) : Prop where
  ids : (s.config.syncers.map Syncer.id).Nodup
  keys : s.targets.map Prod.fst = s.config.syncers.map Syncer.id
  installed : ∀ entry ∈ s.targets, entry.2 ∉ s.closed
    ∧ ∃ syncer ∈ s.config.syncers, syncer.id = entry.1 ∧ s.opened[entry.2]? = some syncer
  used : ∀ id target, s.connected id = some target → target ∉ s.closed ∧ s.Belongs id target
  closed_lt : ∀ target ∈ s.closed, target < s.opened.length
  single : ∀ reload other, s.Busy reload → s.Busy other → reload = other
  phases : ∀ reload phase, s.reloads reload = some phase → s.PhaseSound phase

theorem Coherent.toInstalled (h : s.Coherent) : s.Installed where
  target := h.installed
  connection := fun id used hused => (h.used id used hused).1

section Frames

variable {reload : Nat} {phase : Option Phase}

/-- What a step of one reload has to show. -/
theorem Coherent.of_step {next : Service} (h : s.Coherent) (hothers : ∀ other, other ≠ reload → ¬ s.Busy other)
    (hreloads : next.reloads = Function.update s.reloads reload phase)
    (hphase : ∀ found, phase = some found → next.PhaseSound found)
    (ids : (next.config.syncers.map Syncer.id).Nodup)
    (keys : next.targets.map Prod.fst = next.config.syncers.map Syncer.id)
    (installed : ∀ entry ∈ next.targets, entry.2 ∉ next.closed
      ∧ ∃ syncer ∈ next.config.syncers, syncer.id = entry.1 ∧ next.opened[entry.2]? = some syncer)
    (used : ∀ id target, next.connected id = some target → target ∉ next.closed ∧ next.Belongs id target)
    (closed_lt : ∀ target ∈ next.closed, target < next.opened.length) : next.Coherent := by
  have hsame : ∀ other, other ≠ reload → next.reloads other = s.reloads other := by
    intro other hne
    rw [hreloads, Function.update_of_ne hne]
  have hquiet : ∀ other, next.Busy other → other = reload := by
    rintro other ⟨found, hfound, hbusy⟩
    by_contra hne
    exact hothers other hne ⟨found, hsame other hne ▸ hfound, hbusy⟩
  refine ⟨ids, keys, installed, used, closed_lt, ?_, ?_⟩
  · intro first second hfirst hsecond
    rw [hquiet first hfirst, hquiet second hsecond]
  · intro other found hfound
    by_cases hne : other = reload
    · subst hne
      rw [hreloads, Function.update_self] at hfound
      exact hphase found hfound
    · rw [hsame other hne] at hfound
      cases found with
      | loaded candidate => exact h.phases other _ hfound
      | opening | checked | discarding | closing => exact absurd ⟨_, hfound, trivial⟩ (hothers other hne)

theorem Coherent.others_idle (h : s.Coherent) (hbusy : s.Busy reload) :
    ∀ other, other ≠ reload → ¬ s.Busy other :=
  fun other hne hother => hne (h.single other reload hother hbusy)

/-- What a reload relies on survives the steps of others. -/
theorem PhaseSound.mono {next : Service} {found : Phase} (hconfig : next.config = s.config)
    (htargets : next.targets = s.targets) (hopened : next.opened = s.opened)
    (hunused : ∀ target, s.Unused target → next.Unused target)
    (hclosed : ∀ target, (∃ id, (id, target) ∈ s.targets) ∨ s.Unused target → target ∉ s.closed →
      target ∉ next.closed) (h : s.PhaseSound found) : next.PhaseSound found := by
  have hprepares : ∀ {done opened}, s.Prepared done opened → next.Prepared done opened := by
    intro done opened hprepared
    refine ⟨hprepared.keys, fun entry hentry => ?_, fun entry hentry => ?_⟩
    · obtain ⟨hopen, hsyncer⟩ := hprepared.target entry hentry
      rw [hopened]
      refine ⟨hclosed entry.2 ?_ hopen, hsyncer⟩
      exact (hprepared.origin entry hentry).imp_left fun hmem => ⟨entry.1, hmem⟩
    · rw [htargets]
      exact (hprepared.origin entry hentry).imp_right (hunused entry.2)
  cases found with
  | loaded candidate => exact h
  | opening candidate current old pending opened =>
      obtain ⟨hcurrent, hold, hnodup, done, hdone, hprepared⟩ := h
      exact ⟨hcurrent.trans hconfig.symm, hold.trans htargets.symm, hnodup, done, hdone, hprepares hprepared⟩
  | checked candidate old opened =>
      obtain ⟨hold, hnodup, hprepared⟩ := h
      exact ⟨hold.trans htargets.symm, hnodup, hprepares hprepared⟩
  | discarding items =>
      intro item hitem
      rw [hopened]
      exact ⟨(h item hitem).1, hunused item (h item hitem).2⟩
  | closing old opened =>
      obtain ⟨hcurrent, hnodup, hbelongs⟩ := h
      refine ⟨hcurrent.trans htargets.symm, hnodup, ?_⟩
      intro entry hentry
      unfold Belongs
      rw [hopened]
      exact hbelongs entry hentry

theorem Coherent.setPhase (h : s.Coherent) (hothers : ∀ other, other ≠ reload → ¬ s.Busy other)
    (hphase : ∀ found, phase = some found → s.PhaseSound found) (text : String) :
    ({ s.setPhase reload phase with reloadError := text } : Service).Coherent :=
  h.of_step hothers rfl
    (fun found hfound => PhaseSound.mono (s := s) rfl rfl rfl (fun _ hunused => hunused)
      (fun _ _ hopen => hopen) (hphase found hfound))
    h.ids h.keys h.installed h.used h.closed_lt

end Frames

section Steps

theorem nodup_of_validate {config candidate : Config} (h : config.validate host = .ok candidate) :
    (candidate.syncers.map Syncer.id).Nodup := by
  obtain ⟨seen, hchecked⟩ := Config.checked_of_validate h
  rw [← hchecked.ids]
  exact hchecked.ids_nodup

variable {reload : Nat}

theorem Coherent.setLoaded (h : s.Coherent) {phase : Option Phase}
    (hphase : ∀ found, phase = some found → ¬ found.Busy ∧ s.PhaseSound found)
    (text : String) : ({ s.setPhase reload phase with reloadError := text } : Service).Coherent := by
  have hbusy : ∀ other, ({ s.setPhase reload phase with reloadError := text } : Service).Busy other →
      s.Busy other := by
    rintro other ⟨found, hfound, hfoundBusy⟩
    change Function.update s.reloads reload phase other = some found at hfound
    by_cases hne : other = reload
    · rw [hne, Function.update_self] at hfound
      exact absurd hfoundBusy (hphase found hfound).1
    · rw [Function.update_of_ne hne] at hfound
      exact ⟨found, hfound, hfoundBusy⟩
  refine ⟨h.ids, h.keys, h.installed, h.used, h.closed_lt, ?_, ?_⟩
  · intro first second hfirst hsecond
    exact h.single first second (hbusy first hfirst) (hbusy second hsecond)
  · intro other found hfound
    change Function.update s.reloads reload phase other = some found at hfound
    have hsound : s.PhaseSound found := by
      by_cases hne : other = reload
      · rw [hne, Function.update_self] at hfound
        exact (hphase found hfound).2
      · rw [Function.update_of_ne hne] at hfound
        exact h.phases other found hfound
    exact PhaseSound.mono (s := s) rfl rfl rfl (fun _ hunused => hunused) (fun _ _ hopen => hopen) hsound

theorem Coherent.load (h : s.Coherent) (reload : Nat) : (s.load host reload).Coherent := by
  unfold Service.load
  cases hphase : s.reloads reload with
  | some phase => exact h
  | none =>
      have hrejected : ∀ text, (s.reject reload text).Coherent :=
        fun text => h.setLoaded (by simp) text
      cases hfile : s.file with
      | error text => exact hrejected text
      | ok config =>
          cases hvalid : config.validate host with
          | error err =>
              simp only [hvalid]
              exact hrejected err.message
          | ok candidate =>
              simp only [hvalid]
              refine h.setLoaded ?_ s.reloadError
              intro found hfound
              cases hfound
              exact ⟨id, nodup_of_validate hvalid⟩

theorem Coherent.readCurrent (h : s.Coherent) {keyPair : Option String}
    (halone : s.Alone (.readCurrent reload keyPair)) : (s.readCurrent reload keyPair).Coherent := by
  unfold Service.readCurrent
  split
  · rename_i candidate hphase
    have hrejected : ∀ text, (s.reject reload text).Coherent :=
      fun text => h.setPhase halone (by simp) text
    split_ifs
    · exact hrejected _
    · cases keyPair with
      | some text => exact hrejected text
      | none =>
          refine h.setPhase halone ?_ s.reloadError
          intro found hfound
          cases hfound
          have hnodup : (candidate.syncers.map Syncer.id).Nodup := h.phases reload _ hphase
          exact ⟨rfl, rfl, hnodup, [], rfl, ⟨rfl, fun _ hmem => absurd hmem List.not_mem_nil,
            fun _ hmem => absurd hmem List.not_mem_nil⟩⟩
  · exact h

variable {target : Handle} {id : String}

theorem Coherent.belongs (h : s.Coherent) (hmem : (id, target) ∈ s.targets) :
    s.Belongs id target := by
  obtain ⟨-, syncer, -, hid, hopened⟩ := h.installed _ hmem
  exact ⟨syncer, hopened, hid⟩

theorem Belongs.id_unique {id other : String} (h : s.Belongs id target)
    (hother : s.Belongs other target) : id = other := by
  obtain ⟨first, hfirst, rfl⟩ := h
  obtain ⟨second, hsecond, rfl⟩ := hother
  rw [hfirst] at hsecond
  rw [Option.some.inj hsecond]

theorem Belongs.lt (h : s.Belongs id target) :
    target < s.opened.length := by
  obtain ⟨syncer, hopened, -⟩ := h
  exact (List.getElem?_eq_some_iff.mp hopened).1

theorem Coherent.targets_nodup (h : s.Coherent) : (s.targets.map Prod.fst).Nodup := by
  rw [h.keys]
  exact h.ids

variable {opened : Targets}

theorem Coherent.discards_sound (h : s.Coherent) {done : List Syncer}
    (hprepared : s.Prepared done opened) :
    ∀ item ∈ discards s.targets opened, item < s.opened.length ∧ s.Unused item := by
  intro item hitem
  obtain ⟨entry, hentry, rfl⟩ := List.mem_map.mp hitem
  obtain ⟨hmem, hnew⟩ := List.mem_filter.mp hentry
  obtain ⟨-, syncer, -, hid, hopened⟩ := hprepared.target entry hmem
  refine ⟨Belongs.lt ⟨syncer, hopened, hid⟩, (hprepared.origin entry hmem).resolve_left ?_⟩
  intro hinstalled
  have hlookup := Assoc.lookup_of_mem h.targets_nodup hinstalled
  exact absurd hlookup (by simpa using hnew)

theorem Coherent.abandon (h : s.Coherent) {done : List Syncer}
    (hothers : ∀ other, other ≠ reload → ¬ s.Busy other) (hprepared : s.Prepared done opened)
    (text : String) : (s.abandon reload s.targets opened text).Coherent := by
  refine h.setPhase hothers ?_ text
  intro found hfound
  unfold discardingPhase at hfound
  split_ifs at hfound
  cases hfound
  exact h.discards_sound hprepared

variable {syncer : Syncer}

theorem Coherent.reusable_target (h : s.Coherent) (hreusable : reusable s.config syncer = true) :
    ∃ target, s.targets.lookup syncer.id = some target ∧ s.opened[target]? = some syncer := by
  have hfind := of_decide_eq_true hreusable
  have hmem := List.mem_of_find?_eq_some hfind
  have hkey : syncer.id ∈ s.targets.map Prod.fst := by
    rw [h.keys]
    exact List.mem_map.mpr ⟨syncer, hmem, rfl⟩
  obtain ⟨⟨id, target⟩, hentry, rfl⟩ := List.mem_map.mp hkey
  obtain ⟨-, other, hother, hid, hopened⟩ := h.installed _ hentry
  have hsame : other = syncer := List.inj_on_of_nodup_map h.ids hother hmem hid
  exact ⟨target, Assoc.lookup_of_mem h.targets_nodup hentry, hsame ▸ hopened⟩

theorem opened_grows {opened : List Syncer}
    (h : opened[target]? = some syncer) (next : Syncer) : (opened ++ [next])[target]? = some syncer := by
  rw [List.getElem?_append_left (List.getElem?_eq_some_iff.mp h).1, h]

theorem Coherent.fresh (h : s.Coherent) : s.opened.length ∉ s.closed ∧ s.Unused s.opened.length := by
  refine ⟨fun hmem => lt_irrefl _ (h.closed_lt _ hmem), ?_, ?_⟩
  · intro id hmem
    exact lt_irrefl _ (h.belongs hmem).lt
  · intro id hconnected
    exact lt_irrefl _ (h.used id _ hconnected).2.lt

/-- A new target belongs to the reload that opened it. -/
theorem Coherent.openTarget (h : s.Coherent)
    (hothers : ∀ other, other ≠ reload → ¬ s.Busy other) {candidate : Config}
    (hnodup : (candidate.syncers.map Syncer.id).Nodup) {done pending : List Syncer}
    (hdone : candidate.syncers = (done ++ [syncer]) ++ pending) (hprepared : s.Prepared done opened) :
    ({ s.setPhase reload (some (.opening candidate s.config s.targets pending
        (opened ++ [(syncer.id, s.opened.length)]))) with opened := s.opened ++ [syncer] } :
      Service).Coherent := by
  obtain ⟨hopen, hunused⟩ := h.fresh
  refine h.of_step hothers rfl ?_ h.ids h.keys ?_ ?_ ?_
  · intro found hfound
    cases hfound
    refine ⟨rfl, rfl, hnodup, done ++ [syncer], hdone, ?_, ?_, ?_⟩
    · rw [List.map_append, List.map_append, hprepared.keys]
      rfl
    · intro entry hmem
      rcases List.mem_append.mp hmem with hmem | hmem
      · obtain ⟨hentry, other, hother, hid, hfor⟩ := hprepared.target entry hmem
        exact ⟨hentry, other, List.mem_append_left _ hother, hid, opened_grows hfor syncer⟩
      · rw [List.mem_singleton.mp hmem]
        exact ⟨hopen, syncer, by simp, rfl, List.getElem?_concat_length⟩
    · intro entry hmem
      rcases List.mem_append.mp hmem with hmem | hmem
      · exact hprepared.origin entry hmem
      · rw [List.mem_singleton.mp hmem]
        exact Or.inr hunused
  · intro entry hmem
    obtain ⟨hentry, other, hother, hid, hfor⟩ := h.installed entry hmem
    exact ⟨hentry, other, hother, hid, opened_grows hfor syncer⟩
  · intro id target hconnected
    obtain ⟨hused, other, hfor, hid⟩ := h.used id target hconnected
    exact ⟨hused, other, opened_grows hfor syncer, hid⟩
  · intro target hclosed
    have hlt := h.closed_lt target hclosed
    change target < (s.opened ++ [syncer]).length
    rw [List.length_append]
    exact Nat.lt_add_right _ hlt

theorem Coherent.openNext (h : s.Coherent) (reload : Nat) (failure : Option String) :
    (s.openNext reload failure).Coherent := by
  unfold Service.openNext
  split
  · rename_i candidate current old syncer pending opened hphase
    have hothers := h.others_idle ⟨_, hphase, trivial⟩
    obtain ⟨rfl, rfl, hnodup, done, hdone, hprepared⟩ := h.phases reload _ hphase
    have hnext : candidate.syncers = (done ++ [syncer]) ++ pending := by
      rw [hdone, List.append_assoc, List.singleton_append]
    split_ifs with hreusable
    · obtain ⟨target, hlookup, hopened⟩ := h.reusable_target hreusable
      have hentry := Assoc.mem_of_lookup hlookup
      simp only [hlookup]
      refine h.setPhase hothers ?_ s.reloadError
      intro found hfound
      cases hfound
      refine ⟨rfl, rfl, hnodup, done ++ [syncer], hnext, ?_, ?_, ?_⟩
      · rw [List.map_append, List.map_append, hprepared.keys]
        rfl
      · intro entry hmem
        rcases List.mem_append.mp hmem with hmem | hmem
        · obtain ⟨hopen, other, hother, hid, hfor⟩ := hprepared.target entry hmem
          exact ⟨hopen, other, List.mem_append_left _ hother, hid, hfor⟩
        · rw [List.mem_singleton.mp hmem]
          exact ⟨(h.installed _ hentry).1, syncer, by simp, rfl, hopened⟩
      · intro entry hmem
        rcases List.mem_append.mp hmem with hmem | hmem
        · exact hprepared.origin entry hmem
        · rw [List.mem_singleton.mp hmem]
          exact Or.inl hentry
    · cases failure with
      | some text => exact h.abandon hothers hprepared _
      | none => exact h.openTarget hothers hnodup hnext hprepared
  · exact h

theorem Coherent.check (h : s.Coherent) (reload : Nat) (overlap : Option String) :
    (s.check reload overlap).Coherent := by
  unfold Service.check
  split
  · rename_i candidate current old opened hphase
    have hothers := h.others_idle ⟨_, hphase, trivial⟩
    obtain ⟨rfl, rfl, hnodup, done, hdone, hprepared⟩ := h.phases reload _ hphase
    rw [List.append_nil] at hdone
    subst hdone
    cases overlap with
    | some text => exact h.abandon hothers hprepared text
    | none =>
        dsimp only
        split_ifs
        · exact h.abandon hothers hprepared _
        · refine h.setPhase hothers ?_ s.reloadError
          intro found hfound
          cases hfound
          exact ⟨rfl, hnodup, hprepared⟩
  · exact h

theorem Coherent.switch (h : s.Coherent) (reload : Nat) : (s.switch reload).Coherent := by
  unfold Service.switch
  split
  · rename_i candidate old opened hphase
    obtain ⟨rfl, hnodup, hprepared⟩ := h.phases reload _ hphase
    refine h.of_step (h.others_idle ⟨_, hphase, trivial⟩) rfl ?_ hnodup hprepared.keys hprepared.target h.used
      h.closed_lt
    intro found hfound
    unfold closingPhase at hfound
    split_ifs at hfound
    cases hfound
    exact ⟨rfl, h.targets_nodup, fun entry hentry => h.belongs hentry⟩
  · exact h

theorem Coherent.closeTarget (h : s.Coherent) {phase : Option Phase}
    (hothers : ∀ other, other ≠ reload → ¬ s.Busy other) (hlt : target < s.opened.length)
    (hunused : s.Unused target)
    (hphase : ∀ found, phase = some found → ¬ found.Opening ∧ s.PhaseSound found) :
    ({ s.setPhase reload phase with closed := target :: s.closed } : Service).Coherent := by
  refine h.of_step hothers rfl ?_ h.ids h.keys ?_ ?_ ?_
  · intro found hfound
    obtain ⟨hnot, hsound⟩ := hphase found hfound
    cases found with
    | loaded => exact hsound
    | opening | checked => exact absurd trivial hnot
    | discarding => exact hsound
    | closing => exact hsound
  · intro entry hentry
    obtain ⟨hopen, hsyncer⟩ := h.installed entry hentry
    refine ⟨?_, hsyncer⟩
    rw [List.mem_cons, not_or]
    refine ⟨?_, hopen⟩
    rintro rfl
    exact hunused.1 entry.1 hentry
  · intro id used hused
    obtain ⟨hopen, hbelongs⟩ := h.used id used hused
    refine ⟨?_, hbelongs⟩
    rw [List.mem_cons, not_or]
    refine ⟨?_, hopen⟩
    rintro rfl
    exact hunused.2 id hused
  · intro other hother
    rcases List.mem_cons.mp hother with rfl | hother
    · exact hlt
    · exact h.closed_lt other hother

theorem Coherent.discard (h : s.Coherent) (reload : Nat) (item : Handle) :
    (s.discard reload item).Coherent := by
  unfold Service.discard
  split
  · rename_i items hphase
    have hothers := h.others_idle ⟨_, hphase, trivial⟩
    have hitems := h.phases reload _ hphase
    split_ifs with hitem
    · refine h.closeTarget hothers (hitems item hitem).1 (hitems item hitem).2 ?_
      intro found hfound
      unfold discardingPhase at hfound
      split_ifs at hfound
      cases hfound
      exact ⟨id, fun other hother => hitems other (List.mem_of_mem_erase hother)⟩
    · exact h
  · exact h

theorem Coherent.replaced_unused (h : s.Coherent) {item : Handle} (hbelongs : s.Belongs id item)
    (hreplaced : s.targets.lookup id ≠ some item) (hconnected : s.connected id = none) : s.Unused item := by
  constructor
  · intro other hmem
    have hid := hbelongs.id_unique (h.belongs hmem)
    subst hid
    exact hreplaced (Assoc.lookup_of_mem h.targets_nodup hmem)
  · intro other hused
    have hid := hbelongs.id_unique (h.used other item hused).2
    subst hid
    rw [hconnected] at hused
    cases hused

/-- Closing what a reload has replaced. -/
theorem Coherent.close (h : s.Coherent) (reload : Nat) (id : String) : (s.close reload id).Coherent := by
  unfold Service.close
  split
  · rename_i old opened hphase
    have hothers := h.others_idle ⟨_, hphase, trivial⟩
    obtain ⟨rfl, hnodup, hbelongs⟩ := h.phases reload _ hphase
    cases hlookup : old.lookup id with
    | none => exact h
    | some item =>
        dsimp only
        have hrest : ∀ found, closingPhase (old.filter fun entry => entry.1 ≠ id) s.targets = some found →
            ¬ found.Opening ∧ s.PhaseSound found := by
          intro found hfound
          unfold closingPhase at hfound
          split_ifs at hfound
          cases hfound
          refine ⟨fun hopening => hopening, rfl, ?_, ?_⟩
          · exact hnodup.sublist (List.filter_sublist.map _)
          · exact fun entry hentry => hbelongs entry (List.mem_filter.mp hentry).1
        have hitem := hbelongs _ (Assoc.mem_of_lookup hlookup)
        split_ifs with hclose
        · exact h.closeTarget hothers hitem.lt (h.replaced_unused hitem hclose.1 hclose.2) hrest
        · exact h.setPhase hothers (fun found hfound => (hrest found hfound).2) s.reloadError
  · exact h

theorem Coherent.acquire (h : s.Coherent) (id : String) : (s.acquire id).Coherent := by
  unfold Service.acquire
  split
  · rename_i target hlookup hconnected
    have hmem := Assoc.mem_of_lookup hlookup
    have hunused : ∀ other, s.Unused other →
        ({ s with connected := Function.update s.connected id (some target) } : Service).Unused other := by
      intro other hother
      refine ⟨hother.1, ?_⟩
      intro key hkey
      change Function.update s.connected id (some target) key = some other at hkey
      by_cases hne : key = id
      · rw [hne, Function.update_self] at hkey
        cases hkey
        exact hother.1 id hmem
      · rw [Function.update_of_ne hne] at hkey
        exact hother.2 key hkey
    refine ⟨h.ids, h.keys, h.installed, ?_, h.closed_lt, h.single, ?_⟩
    · intro key used hused
      change Function.update s.connected id (some target) key = some used at hused
      by_cases hne : key = id
      · rw [hne, Function.update_self] at hused
        cases hused
        rw [hne]
        exact ⟨(h.installed _ hmem).1, h.belongs hmem⟩
      · rw [Function.update_of_ne hne] at hused
        exact h.used key used hused
    · intro reload found hfound
      exact PhaseSound.mono (s := s) rfl rfl rfl hunused (fun _ _ hopen => hopen) (h.phases reload found hfound)
  · exact h

/-- A connection that ends closes a target that is no longer installed. -/
theorem Coherent.release (h : s.Coherent) (id : String) : (s.release id).Coherent := by
  unfold Service.release
  cases hconnected : s.connected id with
  | none => exact h
  | some used =>
      obtain ⟨hopen, hbelongs⟩ := h.used id used hconnected
      have hothers : ∀ key other, Function.update s.connected id none key = some other →
          s.connected key = some other ∧ other ≠ used := by
        intro key other hkey
        by_cases hne : key = id
        · rw [hne, Function.update_self] at hkey
          cases hkey
        · rw [Function.update_of_ne hne] at hkey
          refine ⟨hkey, ?_⟩
          rintro rfl
          exact hne ((h.used key other hkey).2.id_unique hbelongs)
      have hunused : ∀ target, s.Unused target → (∀ key, Function.update s.connected id none key ≠ some target)
          ∧ target ≠ used := by
        intro target htarget
        refine ⟨fun key hkey => htarget.2 key (hothers key target hkey).1, ?_⟩
        rintro rfl
        exact htarget.2 id hconnected
      dsimp only
      split_ifs with hreplaced
      · have hinstalled : ∀ key, (key, used) ∉ s.targets := by
          intro key hmem
          have hid := hbelongs.id_unique (h.belongs hmem)
          subst hid
          exact hreplaced (Assoc.lookup_of_mem h.targets_nodup hmem)
        refine ⟨h.ids, h.keys, ?_, ?_, ?_, h.single, ?_⟩
        · intro entry hentry
          obtain ⟨hentryOpen, hsyncer⟩ := h.installed entry hentry
          refine ⟨?_, hsyncer⟩
          rw [List.mem_cons, not_or]
          refine ⟨?_, hentryOpen⟩
          rintro rfl
          exact hinstalled entry.1 hentry
        · intro key other hkey
          obtain ⟨hkey, hne⟩ := hothers key other hkey
          obtain ⟨hotherOpen, hother⟩ := h.used key other hkey
          exact ⟨List.not_mem_cons_of_ne_of_not_mem hne hotherOpen, hother⟩
        · intro target htarget
          rcases List.mem_cons.mp htarget with rfl | htarget
          · exact hbelongs.lt
          · exact h.closed_lt target htarget
        · intro reload found hfound
          refine PhaseSound.mono (s := s) rfl rfl rfl ?_ ?_ (h.phases reload found hfound)
          · exact fun target htarget => ⟨htarget.1, (hunused target htarget).1⟩
          · intro target horigin htargetOpen
            refine List.not_mem_cons_of_ne_of_not_mem ?_ htargetOpen
            rcases horigin with ⟨key, hmem⟩ | htarget
            · rintro rfl
              exact hinstalled key hmem
            · exact (hunused target htarget).2
      · refine ⟨h.ids, h.keys, h.installed, ?_, h.closed_lt, h.single, ?_⟩
        · exact fun key other hkey => h.used key other (hothers key other hkey).1
        · intro reload found hfound
          refine PhaseSound.mono (s := s) rfl rfl rfl ?_ (fun _ _ hopen => hopen) (h.phases reload found hfound)
          exact fun target htarget => ⟨htarget.1, (hunused target htarget).1⟩

end Steps

theorem Coherent.act (h : s.Coherent) {action : Action} (halone : s.Alone action) :
    (s.act host action).Coherent := by
  cases action with
  | writeFile contents =>
      refine ⟨h.ids, h.keys, h.installed, h.used, h.closed_lt, h.single, ?_⟩
      intro reload found hfound
      exact PhaseSound.mono (s := s) rfl rfl rfl (fun _ hunused => hunused) (fun _ _ hopen => hopen)
        (h.phases reload found hfound)
  | load reload => exact h.load reload
  | readCurrent reload keyPair => exact h.readCurrent halone
  | openNext reload failure => exact h.openNext reload failure
  | check reload overlap => exact h.check reload overlap
  | switch reload => exact h.switch reload
  | discard reload item => exact h.discard reload item
  | close reload id => exact h.close reload id
  | acquire id => exact h.acquire id
  | release id => exact h.release id

end Service

section Runs

variable {host : Host} {s : Service} {failure : Syncer → Option String} {overlap : Option String}

theorem foldlM_openAll {syncers opened last : List Syncer}
    (h : syncers.foldlM (openAll failure) opened = .ok last) : last = opened ++ syncers := by
  induction syncers generalizing opened with
  | nil =>
      cases h
      rw [List.append_nil]
  | cons syncer syncers ih =>
      obtain ⟨next, hnext, h⟩ := Except.foldlM_cons_eq_ok.mp h
      unfold openAll at hnext
      cases hfailure : failure syncer with
      | some text => simp [hfailure] at hnext
      | none =>
          simp only [hfailure] at hnext
          cases hnext
          rw [ih h, List.append_assoc, List.singleton_append]

theorem start_eq_ok {config : Config} (h : start config failure overlap = .ok s) :
    s = { file := .ok config, config := config, opened := config.syncers
          targets := (config.syncers.map Syncer.id).zip (handles config.syncers) } := by
  unfold start at h
  cases hopened : config.syncers.foldlM (openAll failure) [] with
  | error refused =>
      rw [hopened] at h
      cases h
  | ok opened =>
      rw [hopened] at h
      cases overlap with
      | some text => cases h
      | none =>
          have hall := foldlM_openAll hopened
          rw [List.nil_append] at hall
          subst hall
          exact (Except.ok.inj h).symm

/-- A service that has started is coherent. -/
theorem Service.coherent_start {raw config : Config} (hconfig : raw.validate host = .ok config)
    (h : start config failure overlap = .ok s) : s.Coherent := by
  have hnodup := Service.nodup_of_validate hconfig
  have hlength : (config.syncers.map Syncer.id).length = (handles config.syncers).length := by
    rw [List.length_map, handles, List.length_range]
  have hs := start_eq_ok h
  subst hs
  refine ⟨hnodup, List.map_fst_zip hlength.le, ?_, fun _ _ hused => (nomatch hused),
    fun _ hmem => absurd hmem List.not_mem_nil, ?_, fun _ _ hfound => (nomatch hfound)⟩
  · rintro ⟨id, target⟩ hentry
    refine ⟨List.not_mem_nil, ?_⟩
    obtain ⟨place, hplace, hget⟩ := List.mem_iff_getElem.mp hentry
    rw [List.getElem_zip, Prod.mk.injEq] at hget
    obtain ⟨hid, htarget⟩ := hget
    have hlt : place < config.syncers.length := by
      rw [List.length_zip, List.length_map] at hplace
      omega
    have hplace : place = target := by simpa [handles] using htarget
    subst hplace
    refine ⟨config.syncers[place], List.getElem_mem hlt, ?_, List.getElem?_eq_getElem hlt⟩
    rw [← hid, List.getElem_map]
  · rintro _ _ ⟨_, hfound, -⟩
    cases hfound

/-- In every run whose reloads do not overlap, the installed targets are open and fit the installed
configuration, and no connection uses a closed target. -/
theorem reload_keeps_targets {raw config : Config} (hconfig : raw.validate host = .ok config)
    (hstart : start config failure overlap = .ok s) (actions : List Service.Action)
    (halone : Run.Along (Service.act host) Service.Alone s actions) : (s.run host actions).Installed :=
  (halone.invariant Service.Coherent (fun _ _ _ h hstep => h.act hstep)
    (Service.coherent_start hconfig hstart)).toInstalled

def singleSyncer (targetSchema : String) : Config where
  grpc := { tlsCertFile := "c", tlsKeyFile := "k" }
  adminToken := "a"
  syncers :=
    [{ id := "one", token := "t", postgres := ⟨"host=db", targetSchema, "go_sync_meta"⟩
       tables := [⟨"dbo", "orders"⟩] }]

def singleService (targetSchema : String) : Service where
  file := .ok (singleSyncer targetSchema)
  config := singleSyncer targetSchema
  targets := [("one", 0)]
  opened := (singleSyncer targetSchema).syncers

def singleReload : List Service.Action :=
  [.acquire "one", .writeFile (.ok (singleSyncer "b")), .load 0, .readCurrent 0 none, .openNext 0 none,
    .check 0 none, .switch 0, .close 0 "one", .release "one"]

theorem reload_keeps_targets_one_reload :
    ((singleService "a").run permissive singleReload).Installed
      ∧ ((singleService "a").run permissive singleReload).targets = [("one", 1)]
      ∧ ((singleService "a").run permissive singleReload).closed = [0] := by
  refine ⟨?_, by decide, by decide⟩
  refine reload_keeps_targets (show (singleSyncer "a").validate permissive = .ok (singleSyncer "a") from rfl)
    (show start (singleSyncer "a") (fun _ => none) none = .ok (singleService "a") from rfl) singleReload ?_
  refine ⟨trivial, trivial, trivial, ?_, trivial, trivial, trivial, trivial, trivial, trivial⟩
  rintro other hne ⟨phase, hphase, -⟩
  have hidle : ((singleService "a").run permissive (singleReload.take 3)).reloads other = none :=
    Service.run_reloads_other (by simpa [singleReload, Service.Action.reload] using hne.symm)
  exact absurd (hphase.symm.trans hidle) (Option.some_ne_none phase)

/-- Two reloads: the second one decides to keep the target and finds it open, the first one replaces and
closes it, and the second one installs it again. -/
def overlappingReloads : List Service.Action :=
  [.writeFile (.ok (singleSyncer "b")), .load 0, .writeFile (.ok (singleSyncer "a")), .load 1,
    .readCurrent 1 none, .readCurrent 0 none, .openNext 1 none, .check 1 none, .openNext 0 none,
    .check 0 none, .switch 0, .close 0 "one", .switch 1]

theorem reload_installs_closed_target :
    start (singleSyncer "a") (fun _ => none) none = .ok (singleService "a")
      ∧ ((singleService "a").run permissive overlappingReloads).targets = [("one", 0)]
      ∧ 0 ∈ ((singleService "a").run permissive overlappingReloads).closed :=
  ⟨rfl, by decide, by decide⟩

end Runs

end GoSync.Reload
