import GoSync.Reload.Targets

/-!
# Closed targets

Who closes a replaced target: the reload that replaced it, unless its syncer is connected, and then the
connection, if it is this target that the connection uses. The reload asks for the id of the syncer only.
Where the connection uses another target, nobody closes this one.
-/

namespace GoSync.Reload

open ServerConfig

def Phase.handles : Phase → List Handle
  | .loaded _ => []
  | .opening _ _ _ _ opened | .checked _ _ opened => opened.map Prod.snd
  | .discarding items => items
  | .closing old _ => old.map Prod.snd

namespace Service

variable {host : Host} {s : Service} {target : Handle}

/-- When a reload comes to a replaced target whose syncer is connected, the connection uses this target. -/
def OwnConnection (s : Service) : Action → Prop
  | .close reload id => ∀ old opened item, s.reloads reload = some (.closing old opened) →
      old.lookup id = some item → opened.lookup id ≠ some item → ∀ used, s.connected id = some used →
      used = item
  | _ => True

/-- While no reload is under way, every target that was ever opened is installed, in use or closed. -/
def LeakFree (s : Service) : Prop :=
  (∀ reload, ¬ s.Busy reload) → ∀ target < s.opened.length, (∀ id, (id, target) ∉ s.targets) →
    (∀ id, s.connected id ≠ some target) → target ∈ s.closed

def Accounted (s : Service) (target : Handle) : Prop :=
  target ∈ s.closed ∨ (∃ id, (id, target) ∈ s.targets) ∨ (∃ id, s.connected id = some target)
    ∨ ∃ reload phase, s.reloads reload = some phase ∧ target ∈ phase.handles

def AllAccounted (s : Service) : Prop :=
  ∀ target < s.opened.length, s.Accounted target

theorem AllAccounted.leakFree (h : s.AllAccounted) : s.LeakFree := by
  intro hquiet target hlt htargets hconnected
  rcases h target hlt with hclosed | ⟨id, hmem⟩ | ⟨id, hused⟩ | ⟨reload, phase, hphase, hmem⟩
  · exact hclosed
  · exact absurd hmem (htargets id)
  · exact absurd hused (hconnected id)
  · cases phase with
    | loaded => exact absurd hmem List.not_mem_nil
    | opening | checked | discarding | closing => exact absurd ⟨_, hphase, trivial⟩ (hquiet reload)

variable {reload : Nat}

theorem Accounted.of_step {next : Service} {phase : Option Phase} (h : s.Accounted target)
    (hreloads : next.reloads = Function.update s.reloads reload phase) (hclosed : s.closed ⊆ next.closed)
    (htargets : ∀ id, (id, target) ∈ s.targets → next.Accounted target)
    (hconnected : next.connected = s.connected)
    (hphase : ∀ found, s.reloads reload = some found → target ∈ found.handles → next.Accounted target) :
    next.Accounted target := by
  rcases h with hmem | ⟨id, hmem⟩ | ⟨id, hused⟩ | ⟨other, found, hfound, hmem⟩
  · exact Or.inl (hclosed hmem)
  · exact htargets id hmem
  · exact Or.inr (Or.inr (Or.inl ⟨id, hconnected ▸ hused⟩))
  · by_cases hne : other = reload
    · subst hne
      exact hphase found hfound hmem
    · refine Or.inr (Or.inr (Or.inr ⟨other, found, ?_, hmem⟩))
      rw [hreloads, Function.update_of_ne hne, hfound]

theorem Accounted.setPhase {phase : Option Phase} (h : s.Accounted target)
    (hphase : ∀ found, s.reloads reload = some found → target ∈ found.handles →
      (∃ next, phase = some next ∧ target ∈ next.handles) ∨ ∃ id, (id, target) ∈ s.targets)
    (text : String) : ({ s.setPhase reload phase with reloadError := text } : Service).Accounted target := by
  refine h.of_step rfl (List.Subset.refl _) (fun id hmem => Or.inr (Or.inl ⟨id, hmem⟩)) rfl ?_
  intro found hfound hmem
  rcases hphase found hfound hmem with ⟨next, hnext, hmem⟩ | hinstalled
  · exact Or.inr (Or.inr (Or.inr ⟨reload, next, by rw [← hnext]; exact Function.update_self _ _ _, hmem⟩))
  · exact Or.inr (Or.inl hinstalled)

theorem AllAccounted.load (h : s.AllAccounted) (reload : Nat) : (s.load host reload).AllAccounted := by
  unfold Service.load
  cases hphase : s.reloads reload with
  | some phase => exact h
  | none =>
      have hmoved : ∀ phase text,
          ({ s.setPhase reload phase with reloadError := text } : Service).AllAccounted := by
        intro phase text target hlt
        refine (h target hlt).setPhase ?_ text
        intro found hfound
        rw [hphase] at hfound
        cases hfound
      cases hfile : s.file with
      | error text => exact hmoved none text
      | ok config =>
          cases hvalid : config.validate host with
          | error err =>
              simp only [hvalid]
              exact hmoved none err.message
          | ok candidate =>
              simp only [hvalid]
              exact hmoved (some (.loaded candidate)) s.reloadError

theorem AllAccounted.readCurrent (h : s.AllAccounted) (reload : Nat) (keyPair : Option String) :
    (s.readCurrent reload keyPair).AllAccounted := by
  unfold Service.readCurrent
  split
  · rename_i candidate hphase
    have hmoved : ∀ phase text,
        ({ s.setPhase reload phase with reloadError := text } : Service).AllAccounted := by
      intro phase text target hlt
      refine (h target hlt).setPhase ?_ text
      intro found hfound hmem
      rw [hphase] at hfound
      cases hfound
      exact absurd hmem List.not_mem_nil
    split_ifs
    · exact hmoved none _
    · cases keyPair with
      | some text => exact hmoved none text
      | none => exact hmoved (some _) s.reloadError
  · exact h

theorem AllAccounted.abandon (h : s.AllAccounted) {candidate current : Config}
    {pending : List Syncer} {opened : Targets}
    (hphase : s.reloads reload = some (.opening candidate current s.targets pending opened))
    (text : String) : (s.abandon reload s.targets opened text).AllAccounted := by
  intro target hlt
  refine (h target hlt).setPhase ?_ text
  intro found hfound hmem
  rw [hphase] at hfound
  cases hfound
  obtain ⟨entry, hentry, rfl⟩ := List.mem_map.mp hmem
  by_cases hkept : s.targets.lookup entry.1 = some entry.2
  · exact Or.inr ⟨entry.1, Assoc.mem_of_lookup hkept⟩
  · have hdiscard : entry.2 ∈ discards s.targets opened :=
      List.mem_map.mpr ⟨entry, List.mem_filter.mpr ⟨hentry, by simpa using hkept⟩, rfl⟩
    refine Or.inl ⟨.discarding (discards s.targets opened), ?_, hdiscard⟩
    rw [discardingPhase, if_neg (List.ne_nil_of_mem hdiscard)]

/-- A target that is opened is held until it is installed. -/
theorem AllAccounted.openNext (h : s.AllAccounted) (hcoherent : s.Coherent) (reload : Nat)
    (failure : Option String) : (s.openNext reload failure).AllAccounted := by
  unfold Service.openNext
  split
  · rename_i candidate current old syncer pending opened hphase
    obtain ⟨rfl, rfl, -, done, -, -⟩ := hcoherent.phases reload _ hphase
    have hgrown : ∀ (found : Phase) (more : Targets), s.reloads reload = some found →
        ∀ target ∈ found.handles,
          target ∈ (Phase.opening candidate s.config s.targets pending (opened ++ more)).handles := by
      intro found more hfound target hmem
      rw [hphase] at hfound
      cases hfound
      change target ∈ (opened ++ more).map Prod.snd
      rw [List.map_append]
      exact List.mem_append_left _ hmem
    split_ifs with hreusable
    · obtain ⟨kept, hlookup, -⟩ := hcoherent.reusable_target hreusable
      simp only [hlookup]
      intro target hlt
      refine (h target hlt).setPhase ?_ s.reloadError
      exact fun found hfound hmem => Or.inl ⟨_, rfl, hgrown found _ hfound target hmem⟩
    · cases failure with
      | some text => exact h.abandon hphase _
      | none =>
          intro target hlt
          change target < (s.opened ++ [syncer]).length at hlt
          by_cases hnew : target = s.opened.length
          · refine Or.inr (Or.inr (Or.inr ⟨reload, _, Function.update_self _ _ _, ?_⟩))
            change target ∈ (opened ++ [(syncer.id, s.opened.length)]).map Prod.snd
            simp [hnew]
          · have hold : target < s.opened.length := by
              rw [List.length_append, List.length_singleton] at hlt
              exact lt_of_le_of_ne (Nat.lt_succ_iff.mp hlt) hnew
            refine (h target hold).of_step rfl (List.Subset.refl _)
              (fun id hmem => Or.inr (Or.inl ⟨id, hmem⟩)) rfl ?_
            intro found hfound hmem
            exact Or.inr (Or.inr (Or.inr ⟨reload, _, Function.update_self _ _ _,
              hgrown found _ hfound target hmem⟩))
  · exact h

theorem AllAccounted.check (h : s.AllAccounted) (hcoherent : s.Coherent) (reload : Nat)
    (overlap : Option String) : (s.check reload overlap).AllAccounted := by
  unfold Service.check
  split
  · rename_i candidate current old opened hphase
    obtain ⟨rfl, rfl, -⟩ := hcoherent.phases reload _ hphase
    cases overlap with
    | some text => exact h.abandon hphase text
    | none =>
        dsimp only
        split_ifs
        · exact h.abandon hphase _
        · intro target hlt
          refine (h target hlt).setPhase ?_ s.reloadError
          intro found hfound hmem
          rw [hphase] at hfound
          cases hfound
          exact Or.inl ⟨_, rfl, hmem⟩
  · exact h

theorem AllAccounted.switch (h : s.AllAccounted) (hcoherent : s.Coherent) (reload : Nat) :
    (s.switch reload).AllAccounted := by
  unfold Service.switch
  split
  · rename_i candidate old opened hphase
    obtain ⟨rfl, -⟩ := hcoherent.phases reload _ hphase
    intro target hlt
    refine (h target hlt).of_step rfl (List.Subset.refl _) ?_ rfl ?_
    · intro id hmem
      refine Or.inr (Or.inr (Or.inr ⟨reload, .closing s.targets opened, ?_,
        List.mem_map.mpr ⟨_, hmem, rfl⟩⟩))
      change Function.update s.reloads reload (closingPhase s.targets opened) reload = _
      rw [Function.update_self, closingPhase, if_neg (List.ne_nil_of_mem hmem)]
    · intro found hfound hmem
      rw [hphase] at hfound
      cases hfound
      obtain ⟨entry, hentry, rfl⟩ := List.mem_map.mp hmem
      exact Or.inr (Or.inl ⟨entry.1, hentry⟩)
  · exact h

theorem AllAccounted.discard (h : s.AllAccounted) (reload : Nat) (item : Handle) :
    (s.discard reload item).AllAccounted := by
  unfold Service.discard
  split
  · rename_i items hphase
    split_ifs with hitem
    · intro target hlt
      refine (h target hlt).of_step rfl (List.subset_cons_self _ _)
        (fun id hmem => Or.inr (Or.inl ⟨id, hmem⟩)) rfl ?_
      intro found hfound hmem
      rw [hphase] at hfound
      cases hfound
      by_cases hclosed : target = item
      · exact Or.inl (hclosed ▸ List.mem_cons_self)
      · have hrest : target ∈ items.erase item := (List.mem_erase_of_ne hclosed).mpr hmem
        refine Or.inr (Or.inr (Or.inr ⟨reload, .discarding (items.erase item), ?_, hrest⟩))
        change Function.update s.reloads reload (discardingPhase (items.erase item)) reload = _
        rw [Function.update_self, discardingPhase, if_neg (List.ne_nil_of_mem hrest)]
    · exact h
  · exact h

/-- A target that is not closed here is still installed or in use. -/
theorem AllAccounted.close (h : s.AllAccounted) (hcoherent : s.Coherent) {id : String}
    (hown : s.OwnConnection (.close reload id)) : (s.close reload id).AllAccounted := by
  unfold Service.close
  split
  · rename_i old opened hphase
    obtain ⟨rfl, hnodup, hbelongs⟩ := hcoherent.phases reload _ hphase
    cases hlookup : old.lookup id with
    | none => exact h
    | some item =>
        dsimp only
        -- what is left of the replaced targets after this round
        have hrest : ∀ target ∈ old.map Prod.snd, target ≠ item →
            Function.update s.reloads reload
                (closingPhase (old.filter fun entry => entry.1 ≠ id) s.targets) reload
              = some (.closing (old.filter fun entry => entry.1 ≠ id) s.targets)
            ∧ target ∈ (Phase.closing (old.filter fun entry => entry.1 ≠ id) s.targets).handles := by
          intro target hmem hne
          obtain ⟨entry, hentry, rfl⟩ := List.mem_map.mp hmem
          have hid : entry.1 ≠ id := by
            rintro rfl
            exact hne (Option.some.inj ((Assoc.lookup_of_mem hnodup hentry).symm.trans hlookup))
          have hkept : entry ∈ old.filter fun entry => entry.1 ≠ id :=
            List.mem_filter.mpr ⟨hentry, by simpa using hid⟩
          rw [Function.update_self, closingPhase, if_neg (List.ne_nil_of_mem hkept)]
          exact ⟨rfl, List.mem_map.mpr ⟨entry, hkept, rfl⟩⟩
        split_ifs with hclose
        · intro target hlt
          refine (h target hlt).of_step rfl (List.subset_cons_self _ _)
            (fun id hmem => Or.inr (Or.inl ⟨id, hmem⟩)) rfl ?_
          intro found hfound hmem
          rw [hphase] at hfound
          cases hfound
          by_cases hitem : target = item
          · exact Or.inl (hitem ▸ List.mem_cons_self)
          · obtain ⟨hnext, hheld⟩ := hrest target hmem hitem
            exact Or.inr (Or.inr (Or.inr ⟨reload, _, hnext, hheld⟩))
        · intro target hlt
          refine (h target hlt).of_step rfl (List.Subset.refl _)
            (fun id hmem => Or.inr (Or.inl ⟨id, hmem⟩)) rfl ?_
          intro found hfound hmem
          rw [hphase] at hfound
          cases hfound
          by_cases hitem : target = item
          · -- the round leaves the target open: it is installed, or its connection will close it
            subst hitem
            by_cases hinstalled : s.targets.lookup id = some target
            · exact Or.inr (Or.inl ⟨id, Assoc.mem_of_lookup hinstalled⟩)
            · cases hconnected : s.connected id with
              | none => exact absurd ⟨hinstalled, hconnected⟩ hclose
              | some used =>
                  have hsame := hown old s.targets target hphase hlookup hinstalled used hconnected
                  exact Or.inr (Or.inr (Or.inl ⟨id, hsame ▸ hconnected⟩))
          · obtain ⟨hnext, hheld⟩ := hrest target hmem hitem
            exact Or.inr (Or.inr (Or.inr ⟨reload, _, hnext, hheld⟩))
  · exact h

theorem AllAccounted.acquire (h : s.AllAccounted) (id : String) : (s.acquire id).AllAccounted := by
  unfold Service.acquire
  split
  · rename_i found hlookup hconnected
    intro target hlt
    rcases h target hlt with hclosed | hinstalled | ⟨key, hused⟩ | hheld
    · exact Or.inl hclosed
    · exact Or.inr (Or.inl hinstalled)
    · have hne : key ≠ id := by
        rintro rfl
        rw [hconnected] at hused
        cases hused
      exact Or.inr (Or.inr (Or.inl ⟨key, (Function.update_of_ne hne _ _).trans hused⟩))
    · exact Or.inr (Or.inr (Or.inr hheld))
  · exact h

/-- A connection that ends leaves its target installed or closed. -/
theorem AllAccounted.release (h : s.AllAccounted) (id : String) : (s.release id).AllAccounted := by
  unfold Service.release
  cases hconnected : s.connected id with
  | none => exact h
  | some used =>
      dsimp only
      have hothers : ∀ key target, s.connected key = some target → target ≠ used →
          Function.update s.connected id none key = some target := by
        intro key target hkey hne
        have hid : key ≠ id := by
          rintro rfl
          exact hne (Option.some.inj (hkey.symm.trans hconnected))
        rw [Function.update_of_ne hid, hkey]
      split_ifs with hreplaced
      · intro target hlt
        rcases h target hlt with hclosed | hinstalled | ⟨key, hused⟩ | hheld
        · exact Or.inl (List.mem_cons_of_mem _ hclosed)
        · exact Or.inr (Or.inl hinstalled)
        · by_cases hsame : target = used
          · exact Or.inl (hsame ▸ List.mem_cons_self)
          · exact Or.inr (Or.inr (Or.inl ⟨key, hothers key target hused hsame⟩))
        · exact Or.inr (Or.inr (Or.inr hheld))
      · intro target hlt
        rcases h target hlt with hclosed | hinstalled | ⟨key, hused⟩ | hheld
        · exact Or.inl hclosed
        · exact Or.inr (Or.inl hinstalled)
        · by_cases hsame : target = used
          · refine Or.inr (Or.inl ⟨id, Assoc.mem_of_lookup ?_⟩)
            rw [hsame]
            exact not_not.mp hreplaced
          · exact Or.inr (Or.inr (Or.inl ⟨key, hothers key target hused hsame⟩))
        · exact Or.inr (Or.inr (Or.inr hheld))

theorem AllAccounted.act (h : s.AllAccounted) (hcoherent : s.Coherent) {action : Action}
    (hown : s.OwnConnection action) : (s.act host action).AllAccounted := by
  cases action with
  | writeFile contents => exact h
  | load reload => exact h.load reload
  | readCurrent reload keyPair => exact h.readCurrent reload keyPair
  | openNext reload failure => exact h.openNext hcoherent reload failure
  | check reload overlap => exact h.check hcoherent reload overlap
  | switch reload => exact h.switch hcoherent reload
  | discard reload item => exact h.discard reload item
  | close reload id => exact h.close hcoherent hown
  | acquire id => exact h.acquire id
  | release id => exact h.release id

end Service

section Runs

variable {host : Host} {s : Service} {failure : Syncer → Option String} {overlap : Option String}

theorem refused_closed {config : Config} {refused : Refused}
    (h : start config failure overlap = .error refused) :
    ∀ target < refused.opened.length, target ∈ refused.closed := by
  have hall : ∀ opened : List Syncer, ∀ target < opened.length, target ∈ handles opened :=
    fun opened target hlt => List.mem_range.mpr hlt
  unfold start at h
  cases hopened : config.syncers.foldlM (openAll failure) [] with
  | error found =>
      rw [hopened] at h
      cases h
      exact hall found.1
  | ok opened =>
      rw [hopened] at h
      cases overlap with
      | some text =>
          cases h
          exact hall opened
      | none => cases h

theorem Service.allAccounted_start {config : Config} (h : start config failure overlap = .ok s) :
    s.AllAccounted := by
  have hs := start_eq_ok h
  subst hs
  intro target hlt
  refine Or.inr (Or.inl ⟨config.syncers[target].id, ?_⟩)
  have hids : target < (config.syncers.map Syncer.id).length := by rwa [List.length_map]
  have hhandles : target < (handles config.syncers).length := by rwa [handles, List.length_range]
  refine List.mem_iff_getElem.mpr ⟨target, by rw [List.length_zip]; exact lt_min hids hhandles, ?_⟩
  rw [List.getElem_zip, List.getElem_map]
  simp [handles]

/-- A service that does not start closes what it opened. One that starts leaks no target in any run whose
reloads do not overlap, provided that the connection of a syncer whose replaced target a reload comes to
uses this target. -/
theorem reload_leaks_no_target {raw config : Config} (hconfig : raw.validate host = .ok config)
    (failure : Syncer → Option String) (overlap : Option String) :
    (∀ refused, start config failure overlap = .error refused →
        ∀ target < refused.opened.length, target ∈ refused.closed)
      ∧ ∀ s, start config failure overlap = .ok s → ∀ actions : List Service.Action,
        Run.Along (Service.act host) (fun s action => s.Alone action ∧ s.OwnConnection action) s actions →
        (s.run host actions).LeakFree := by
  refine ⟨fun refused hrefused => refused_closed hrefused, ?_⟩
  intro s hstart actions halong
  have hboth := halong.invariant (fun s => s.Coherent ∧ s.AllAccounted)
    (fun _ _ _ h hstep => ⟨h.1.act hstep.1, h.2.act h.1 hstep.2⟩)
    ⟨Service.coherent_start hconfig hstart, Service.allAccounted_start hstart⟩
  exact hboth.2.leakFree

theorem reload_leaks_no_target_one_reload :
    ((singleService "a").run permissive singleReload).LeakFree
      ∧ ((singleService "a").run permissive singleReload).opened.length = 2
      ∧ ((singleService "a").run permissive singleReload).closed = [0] := by
  refine ⟨?_, by decide, by decide⟩
  have hleaks := reload_leaks_no_target (show (singleSyncer "a").validate permissive = .ok (singleSyncer "a")
    from rfl) (fun _ => none) none
  refine hleaks.2 (singleService "a") rfl singleReload ?_
  refine ⟨⟨trivial, trivial⟩, ⟨trivial, trivial⟩, ⟨trivial, trivial⟩, ⟨?_, trivial⟩, ⟨trivial, trivial⟩,
    ⟨trivial, trivial⟩, ⟨trivial, trivial⟩, ⟨trivial, ?_⟩, ⟨trivial, trivial⟩, trivial⟩
  · rintro other hne ⟨phase, hphase, -⟩
    have hidle : ((singleService "a").run permissive (singleReload.take 3)).reloads other = none :=
      Service.run_reloads_other (by simpa [singleReload, Service.Action.reload] using hne.symm)
    exact absurd (hphase.symm.trans hidle) (Option.some_ne_none phase)
  · intro old opened item hphase hlookup _ used hused
    have hclosing : ((singleService "a").run permissive (singleReload.take 7)).reloads 0
        = some (.closing [("one", 0)] [("one", 1)]) := rfl
    have hconnected : ((singleService "a").run permissive (singleReload.take 7)).connected "one" = some 0 :=
      rfl
    cases hclosing.symm.trans hphase
    cases hconnected.symm.trans hused
    cases hlookup
    rfl

def twoReloads : List Service.Action :=
  [.acquire "one", .writeFile (.ok (singleSyncer "b")), .load 0, .readCurrent 0 none, .openNext 0 none,
    .check 0 none, .switch 0, .close 0 "one", .writeFile (.ok (singleSyncer "c")), .load 1,
    .readCurrent 1 none, .openNext 1 none, .check 1 none, .switch 1, .close 1 "one", .release "one"]

theorem twoReloads_idle {count reload : Nat} (hzero : reload ≠ 0) (hone : reload ≠ 1) :
    ((singleService "a").run permissive (twoReloads.take count)).reloads reload = none := by
  have hreloads : ∀ action ∈ twoReloads,
      action.reload = none ∨ action.reload = some 0 ∨ action.reload = some 1 := by decide
  refine Service.run_reloads_other ?_
  intro action haction hreload
  have hcases := hreloads action (List.mem_of_mem_take haction)
  rw [hreload] at hcases
  simp [hzero, hone] at hcases

theorem reload_leaks_target :
    start (singleSyncer "a") (fun _ => none) none = .ok (singleService "a")
      ∧ Run.Along (Service.act permissive) Service.Alone (singleService "a") twoReloads
      ∧ (∀ reload, ((singleService "a").run permissive twoReloads).reloads reload = none)
      ∧ ((singleService "a").run permissive twoReloads).opened.length = 3
      ∧ ((singleService "a").run permissive twoReloads).targets = [("one", 2)]
      ∧ ((singleService "a").run permissive twoReloads).connected "one" = none
      ∧ ((singleService "a").run permissive twoReloads).closed = [0] := by
  refine ⟨rfl, ⟨trivial, trivial, trivial, ?_, trivial, trivial, trivial, trivial, trivial, trivial, ?_, trivial,
    trivial, trivial, trivial, trivial, trivial⟩, ?_, by decide, by decide, by decide, by decide⟩
  · rintro other hne ⟨phase, hphase, -⟩
    have hidle : ((singleService "a").run permissive (twoReloads.take 3)).reloads other = none := by
      by_cases hone : other = 1
      · subst hone
        rfl
      · exact twoReloads_idle hne hone
    exact absurd (hphase.symm.trans hidle) (Option.some_ne_none phase)
  · rintro other hne ⟨phase, hphase, -⟩
    have hidle : ((singleService "a").run permissive (twoReloads.take 10)).reloads other = none := by
      by_cases hzero : other = 0
      · subst hzero
        rfl
      · exact twoReloads_idle hzero hne
    exact absurd (hphase.symm.trans hidle) (Option.some_ne_none phase)
  · intro reload
    by_cases hzero : reload = 0
    · subst hzero
      rfl
    by_cases hone : reload = 1
    · subst hone
      rfl
    · have hidle : ((singleService "a").run permissive (twoReloads.take 16)).reloads reload = none :=
        twoReloads_idle hzero hone
      exact hidle

end Runs

end GoSync.Reload
