import GoSync.FileWatch.Collector
import GoSync.Lib.Run
import GoSync.Server.FileEvents

/-!
# What scans publish

Folding the events published so far gives a file map. A complete scan publishes what differs between the
manifest and the directory, so the fold ends up with the directory exactly if it had no path wrong that the
scan does not report. After a scan that was cut short the fold is ahead of the manifest, and a path that
is back at its place in the manifest by the next scan is not reported. A name that is no UTF-8 is reported
under another one.
-/

namespace GoSync.FileWatch

open Capture (Backlog Call Captured Keeps PublishedGroup Views)
open Producer (Consistent Preserves Process)
open Server (contentAfter)

variable {Raw : Type} {rt : Runtime} {message : Message}

section Events

def eventOf (message : Message) : Option (Change Name) :=
  match message.kind, message.file with
  | .fileEnd, some file =>
      some (.put (.ofText file.path) file.operation
        { size := file.size, modTimeUnixNano := file.modTimeUnixNano, mode := file.mode,
          sha256 := file.sha256 })
  | .fileDelete, some file => some (.delete (.ofText file.path))
  | _, _ => none

def eventsOf (groups : List PublishedGroup) : List (Change Name) :=
  groups.flatMap fun group => group.values.filterMap eventOf

def Change.coerced : Change Name → Change Name
  | .put name operation state => .put name.coerced operation state
  | .delete name => .delete name.coerced

theorem eventOf_path {event : Change Name} (h : eventOf message = some event) :
    event.path.coerced = event.path := by
  unfold eventOf at h
  split at h
  · cases h
    exact Name.coerced_ofText _
  · cases h
    exact Name.coerced_ofText _
  · cases h

theorem eventsOf_path {groups : List PublishedGroup} {event : Change Name} (h : event ∈ eventsOf groups) :
    event.path.coerced = event.path := by
  obtain ⟨group, -, h⟩ := List.mem_flatMap.mp h
  obtain ⟨message, -, hevent⟩ := List.mem_filterMap.mp h
  exact eventOf_path hevent

theorem eventsOf_snoc (groups : List PublishedGroup) (group : PublishedGroup) :
    eventsOf (groups ++ [group]) = eventsOf groups ++ group.values.filterMap eventOf := by
  rw [eventsOf, List.flatMap_append, List.flatMap_singleton, eventsOf]

def Vouched (rt : Runtime) (messages : List Message) : Prop :=
  ∀ message ∈ messages, ∀ file, message.kind = .fileEnd → message.file = some file →
    hexEncode (rt.digest (messages.foldl contentAfter [])) = file.sha256

def Complete (rt : Runtime) (b : Backlog) : Prop :=
  ∀ group ∈ b.groups, Vouched rt group.values

theorem vouched_of_silent {messages : List Message} (h : messages.filterMap eventOf = []) :
    Vouched rt messages := by
  intro message hmem file hkind hfile
  have hnone := List.filterMap_eq_nil_iff.mp h message hmem
  simp [eventOf, hkind, hfile] at hnone

end Events

variable {reading : Reading}

section Plans

variable {b base : Backlog} {content : List UInt8}

structure Quiet (b : Backlog) : Prop where
  phase : b.phase = .stream
  silent : b.staged.filterMap eventOf = []

structure Gathering (base : Backlog) (content : List UInt8) (b : Backlog) : Prop extends Quiet b where
  groups : b.groups = base.groups
  content : b.staged.foldl contentAfter [] = content

theorem Quiet.stage (h : Quiet b) (now : String) (hnone : eventOf message = none) :
    Quiet (b.stage (b.stamp now message)) := by
  refine ⟨h.phase, ?_⟩
  change (b.staged ++ [b.stamp now message]).filterMap eventOf = []
  rw [List.filterMap_append, h.silent]
  exact List.filterMap_cons_none hnone

theorem Quiet.vouched (h : Quiet b)
    (hdigest : ∀ file, message.kind = .fileEnd → message.file = some file →
      hexEncode (rt.digest (b.staged.foldl contentAfter [])) = file.sha256) :
    Vouched rt (b.staged ++ [message]) := by
  intro other hother file hkind hfile
  rcases List.mem_append.mp hother with hother | hother
  · have hnone := List.filterMap_eq_nil_iff.mp h.silent other hother
    simp [eventOf, hkind, hfile] at hnone
  · obtain rfl := List.mem_singleton.mp hother
    have hsame : contentAfter (b.staged.foldl contentAfter []) other
        = b.staged.foldl contentAfter [] := by
      simp only [contentAfter, hkind]
    rw [List.foldl_append, List.foldl_cons, List.foldl_nil, hsame]
    exact hdigest file hkind hfile

/-- A last message and its publication are one event. -/
theorem keeps_publish {change : Change Name} {lsn : String} (h : Quiet b)
    (hb : Captured (Complete rt) b) (hevent : eventOf message = some change)
    (hdigest : ∀ file, message.kind = .fileEnd → message.file = some file →
      hexEncode (rt.digest (b.staged.foldl contentAfter [])) = file.sha256) :
    Keeps (Complete rt) b
      (do
        Plan.request (.appendOnce message)
        Plan.request (.publish lsn false)
        pure true : Plan Call Error Bool)
      (fun complete b' => complete = true ∧ Quiet b'
        ∧ eventsOf b'.groups = eventsOf b.groups ++ [change])
      fun _ _ => True := by
  apply Plan.Triple.bind (fun _ b' => b'.phase = .stream ∧ b'.groups = b.groups
    ∧ b'.staged.filterMap eventOf = [change] ∧ Vouched rt b'.staged)
  · refine Capture.keeps_appendOnce hb fun now => ⟨h.phase, rfl, ?_, h.vouched hdigest⟩
    change (b.staged ++ [b.stamp now message]).filterMap eventOf = [change]
    rw [List.filterMap_append, h.silent]
    exact List.filterMap_cons_some hevent
  rintro - b₁ - hb₁ ⟨hphase, hgroups, hevents, hvouched⟩
  apply Plan.Triple.bind (fun _ b' => Quiet b' ∧ eventsOf b'.groups = eventsOf b.groups ++ [change])
  · refine Plan.Triple.request hb₁ ?_
    rintro _ ⟨now, rfl⟩
    refine ⟨hb₁.expose hphase fun hcomplete => ?_, ⟨hphase, rfl⟩, ?_⟩
    · exact List.forall_mem_append.mpr ⟨hcomplete, List.forall_mem_singleton.mpr hvouched⟩
    · change eventsOf (b₁.groups ++ [⟨b₁.staged, _⟩]) = _
      rw [eventsOf_snoc, hgroups, hevents]
  rintro - b₂ - hb₂ hpublished
  exact Plan.Triple.pure hb₂ ⟨rfl, hpublished⟩

theorem Gathering.publishChunk {transaction : String} {change : FileChange}
    {chunk : Nat} (h : Gathering base content b) (hb : Captured (Complete rt) b) :
    Keeps (Complete rt) b (publishChunk rt.cfg transaction change reading content chunk)
      (fun content' b' => Gathering base content' b') fun _ _ => True := by
  unfold FileWatch.publishChunk
  apply Plan.Triple.bind (fun _ b' => b = b')
  · exact Plan.Triple.lift hb (fun _ _ => rfl) fun _ _ => trivial
  rintro part _ - - rfl
  apply Plan.Triple.bind (fun _ b' => Gathering base (content ++ part.take rt.cfg.chunkBytes) b')
  · refine Capture.keeps_appendOnce hb fun now => ⟨h.toQuiet.stage now rfl, h.groups, ?_⟩
    change (b.staged ++ [_]).foldl contentAfter [] = _
    rw [List.foldl_append, h.content, List.foldl_cons, List.foldl_nil]
    change content ++ (base64Decode (base64Encode _)).getD [] = _
    rw [base64Decode_encode, Option.getD_some]
  rintro - b₁ - hb₁ hgathering
  exact Plan.Triple.pure hb₁ hgathering

/-- A file is published as one event, or a part of it is left staged. -/
theorem keeps_publishFile {transaction lsn path : String} {operation : FileOperation}
    {state : FileState} (h : Quiet b) (hb : Captured (Complete rt) b) :
    Keeps (Complete rt) b (publishFile rt transaction lsn path operation state reading)
      (fun complete b' => Quiet b' ∧ (complete = true →
        eventsOf b'.groups = eventsOf b.groups ++ [.put (.ofText path) operation state]))
      fun _ _ => True := by
  unfold publishFile
  apply Plan.Triple.bind (fun _ b' => Gathering b [] b')
  · refine Capture.keeps_appendOnce hb fun now => ⟨h.stage now rfl, rfl, ?_⟩
    change (b.staged ++ [_]).foldl contentAfter [] = _
    rw [List.foldl_append]
    rfl
  rintro - b₁ - hb₁ hbegun
  apply Plan.Triple.bind (fun _ b' => b₁ = b')
  · exact Plan.Triple.lift hb₁ (fun _ _ => rfl) fun _ _ => trivial
  rintro - _ - - rfl
  apply Plan.Triple.bind (fun content b' => Gathering b content b')
  · exact Plan.Triple.foldlM (fun _ content b' => Gathering b content b')
      (fun chunk rest content b' hb' hgathering => hgathering.publishChunk hb') _ hb₁ hbegun
  rintro content b₂ - hb₂ hgathered
  split
  · exact Plan.Triple.pure hb₂ ⟨hgathered.toQuiet, fun hno => absurd hno Bool.false_ne_true⟩
  · rename_i hsame
    rw [not_or, not_not, not_not] at hsame
    refine (keeps_publish hgathered.toQuiet hb₂ rfl ?_).mono ?_ fun _ _ _ herr => herr
    · rintro file - hfile
      cases hfile
      rw [hgathered.content]
      exact hsame.2
    · rintro complete b₃ - ⟨-, hquiet, hevents⟩
      refine ⟨hquiet, fun _ => ?_⟩
      rw [hevents, hgathered.groups]
      rfl

theorem keeps_publishChange {transaction lsn : String} {change : Change Name}
    (h : Quiet b) (hb : Captured (Complete rt) b) :
    Keeps (Complete rt) b (publishChange rt transaction lsn reading change)
      (fun complete b' => Quiet b' ∧ (complete = true →
        eventsOf b'.groups = eventsOf b.groups ++ [change.coerced]))
      fun _ _ => True := by
  cases change with
  | put name operation state => exact keeps_publishFile h hb
  | delete name =>
      refine (keeps_publish h hb rfl fun _ hkind => Kind.noConfusion hkind).mono ?_ fun _ _ _ herr => herr
      exact fun _ _ _ hpublished => ⟨hpublished.2.1, fun _ => hpublished.2.2⟩

/-- A new queue starts with an empty snapshot. -/
theorem keeps_openQueue {generation lsn : String} (hb : Captured (Complete rt) b) :
    Keeps (Complete rt) b
      (do
        Plan.request (.initializeQueue (initialState rt generation))
        Plan.request (.appendOnce { kind := .snapshotBegin })
        Plan.request (.appendOnce { kind := .snapshotEnd })
        Plan.request (.publish lsn true)
        pure .opened : Plan Call Error Local)
      (fun here b' => here = .opened ∧ Quiet b') fun _ _ => True := by
  apply Plan.Triple.bind (fun _ b' => b'.groups = [] ∧ b'.staged.filterMap eventOf = [])
  · refine Plan.Triple.request hb ?_
    rintro _ ⟨now, rfl⟩
    exact ⟨Captured.initial _ Phase.noConfusion rfl rfl, rfl, rfl⟩
  have hstage {message : Message} (hnone : eventOf message = none) {b : Backlog}
      (hb : Captured (Complete rt) b) (h : b.groups = [] ∧ b.staged.filterMap eventOf = []) :
      Keeps (Complete rt) b (Plan.request (.appendOnce message) : Plan Call Error Unit)
        (fun _ b' => b'.groups = [] ∧ b'.staged.filterMap eventOf = []) fun _ _ => True := by
    refine Capture.keeps_appendOnce hb fun now => ⟨h.1, ?_⟩
    change (b.staged ++ [b.stamp now message]).filterMap eventOf = []
    rw [List.filterMap_append, h.2]
    exact List.filterMap_cons_none hnone
  rintro - b₁ - hb₁ h₁
  refine Plan.Triple.bind _ (hstage rfl hb₁ h₁) ?_
  rintro - b₂ - hb₂ h₂
  refine Plan.Triple.bind _ (hstage rfl hb₂ h₂) ?_
  rintro - b₃ - hb₃ ⟨hgroups, hsilent⟩
  apply Plan.Triple.bind (fun _ b' => Quiet b')
  · refine Plan.Triple.request hb₃ ?_
    rintro _ ⟨now, rfl⟩
    refine ⟨⟨hb₃.numbered.expose _, .inr ⟨rfl, ?_⟩⟩, rfl, rfl⟩
    have hexposed : (b₃.grant now (.publish lsn true)).settled.groups
        = b₃.groups ++ [⟨b₃.staged, { lsn := lsn }⟩] := rfl
    unfold Complete
    rw [hexposed, hgroups]
    exact List.forall_mem_singleton.mpr (vouched_of_silent hsilent)
  rintro - b₄ - hb₄ hquiet
  exact Plan.Triple.pure hb₄ ⟨rfl, hquiet⟩

end Plans

section Steps

/-- What the ledger holds between two plans; a scan started from `known` when `before` was published. Of the
scans that the collector compares with it is known that they are `regular`. -/
def Holds (rt : Runtime) (regular : Files Name → Prop) (known : Files Name) (before : List (Change Name)) :
    Local → Backlog → Prop
  | .started, b => b.staged.filterMap eventOf = []
  | .opened, b => Quiet b
  | .ready old, b | .changed old, b => Quiet b ∧ regular old
  | .publishing old current rest, b => Quiet b ∧ regular known ∧ old = known
      ∧ ∃ done, changes rt.cfg known current = done ++ rest
        ∧ eventsOf b.groups = before ++ done.map Change.coerced
  | .published current, b => Quiet b ∧ regular known
      ∧ eventsOf b.groups = before ++ (changes rt.cfg known current).map Change.coerced

variable {codec : Codec Raw} {regular : Files Name → Prop} {known : Files Name} {before : List (Change Name)}
  {p : Process Raw Local Error} {b : Backlog}

theorem proceed_openQueue {generation lsn : String}
    (h : Consistent codec (Complete rt) (Holds rt regular known before) p b) :
    Preserves codec (Complete rt) (Holds rt regular known before) b
      (p.proceed (openQueue rt generation lsn)) := by
  refine h.proceed ?_
  intro here plan hhere hplan
  have hcaptured := h.running.captured
  cases here with
  | started =>
      simp only [openQueue, Option.some.injEq] at hplan
      subst hplan
      split
      · refine (keeps_openQueue hcaptured).mono ?_ fun _ _ _ herr => herr
        rintro _ b' - ⟨rfl, hquiet⟩
        exact hquiet
      · rename_i hphase
        rw [not_or, h.keeping.phase] at hphase
        have hstream : b.phase = .stream := by
          cases hb : b.phase with
          | unset => exact absurd hb hphase.1
          | snapshot => exact absurd hb hphase.2
          | stream => rfl
        exact Plan.Triple.pure hcaptured ⟨hstream, hhere⟩
  | _ => cases hplan

/-- The scan goes on with the next change. -/
theorem proceed_publishNext {transaction lsn : String}
    (h : Consistent codec (Complete rt) (Holds rt regular known before) p b) :
    Preserves codec (Complete rt) (Holds rt regular known before) b
      (p.proceed (publishNext rt transaction lsn reading)) := by
  refine h.proceed ?_
  intro here plan hhere hplan
  have hcaptured := h.running.captured
  match here, hhere, hplan with
  | .publishing old current (change :: rest), ⟨hquiet, hregular, hold, done, hdone, hevents⟩, rfl =>
      apply Plan.Triple.bind (fun complete b' => Quiet b' ∧ (complete = true →
        eventsOf b'.groups = eventsOf b.groups ++ [change.coerced]))
      · exact keeps_publishChange hquiet hcaptured
      rintro complete b' - hb' ⟨hquiet', hpublished⟩
      cases complete with
      | false => exact Plan.Triple.pure hb' ⟨hquiet', hold ▸ hregular⟩
      | true =>
          refine Plan.Triple.pure hb' ⟨hquiet', hregular, hold, done ++ [change], ?_, ?_⟩
          · rw [hdone, List.append_assoc]
            rfl
          · rw [hpublished rfl, hevents, List.append_assoc, List.map_append]
            rfl
  | .publishing old current [], ⟨hquiet, hregular, hold, done, hdone, hevents⟩, rfl =>
      refine Plan.Triple.pure hcaptured ⟨hquiet, hregular, ?_⟩
      rw [hevents, hdone, List.append_nil]

def System.published (codec : Codec Raw) (s : System Raw) : List (List Message) :=
  s.collector.queue.groups.map fun group => group.values.filterMap codec.unmarshal

def System.events (codec : Codec Raw) (s : System Raw) : List (Change Name) :=
  (s.published codec).flatMap fun messages => messages.filterMap eventOf

theorem filterMap_decodes {raws : List Raw} {messages : List Message}
    (h : List.Forall₂ (Capture.Decodes codec) raws messages) :
    raws.filterMap codec.unmarshal = messages := by
  induction h with
  | nil => rfl
  | cons hdecodes _ ih => rw [List.filterMap_cons_some hdecodes, ih]

variable {s : System Raw}

theorem published_eq (h : Views codec s.collector.queue b) :
    s.published codec = b.groups.map fun group => group.values := by
  unfold System.published
  have hgroups := h.groups
  generalize s.collector.queue.groups = raws at hgroups
  generalize b.groups = groups at hgroups
  induction hgroups with
  | nil => rfl
  | cons hgroup _ ih => rw [List.map_cons, List.map_cons, ih, filterMap_decodes hgroup.2]

theorem events_eq (h : Views codec s.collector.queue b) :
    s.events codec = eventsOf b.groups := by
  rw [System.events, published_eq h, List.flatMap_map]
  rfl

/-- A system with a note of where the scan in hand started: the manifest it compares with, and the events
that were published by then. -/
structure Watch (Raw : Type) where
  system : System Raw
  known : Files Name := []
  before : List (Change Name) := []

def Watch.act (rt : Runtime) (codec : Codec Raw) (w : Watch Raw) (action : Action) : Watch Raw :=
  match action, w.system.collector.plan with
  | .scan current, some ⟨[], .ok (.ready known)⟩ =>
      { system := w.system.act rt codec (.scan current), known := known
        before := w.system.events codec }
  | action, _ => { w with system := w.system.act rt codec action }

def Watch.Sound (rt : Runtime) (codec : Codec Raw) (regular : Files Name → Prop) (w : Watch Raw) : Prop :=
  ∃ b, Consistent codec (Complete rt) (Holds rt regular w.known w.before) w.system.collector b

variable {current : Files Name}

theorem proceed_takeScan {old : Files Name} {past : List (Change Name)}
    (h : Consistent codec (Complete rt) (Holds rt regular old past) p b)
    (hplan : p.plan = some ⟨[], .ok (.ready known)⟩) :
    Consistent codec (Complete rt) (Holds rt regular known (eventsOf b.groups))
      (p.proceed (takeScan rt current)) b := by
  have hrunning := h.running
  rw [hplan] at hrunning
  obtain ⟨hcaptured, hquiet, hregular⟩ := hrunning
  unfold Process.proceed
  rw [hplan]
  refine ⟨h.keeping, hcaptured, hquiet, hregular, rfl, [], rfl, ?_⟩
  rw [List.map_nil, List.append_nil]

theorem proceed_takeScan_busy
    (hbusy : ∀ known, p.plan ≠ some ⟨[], .ok (.ready known)⟩) : p.proceed (takeScan rt current) = p := by
  unfold Process.proceed
  split
  · rename_i here hplan
    cases here with
    | ready known => exact absurd hplan (hbusy known)
    | _ => rfl
  · rfl

theorem System.recover_consistent
    (h : Consistent codec (Complete rt) (Holds rt regular known before) s.collector b) :
    ∃ b', Consistent codec (Complete rt) (Holds rt regular known before) (s.recover codec).collector b' := by
  unfold System.recover
  split
  · rename_i old hplan
    have hrunning := h.running
    rw [hplan] at hrunning
    obtain ⟨hcaptured, hquiet, hregular⟩ := hrunning
    dsimp only
    split
    · exact ⟨b, h.keeping, hcaptured, hquiet, hregular⟩
    · rename_i queue hexec
      have hsettled : Quiet b.settled := ⟨hquiet.phase, rfl⟩
      exact ⟨b.settled, h.keeping.recover hexec, hcaptured.discard, hsettled, hregular⟩
  · exact ⟨b, h⟩

def System.completing (s : System Raw) : Option (Files Name) :=
  match s.collector.plan with
  | some ⟨[], .ok (.published current)⟩ => some current
  | _ => none

theorem System.completing_eq (h : s.completing = some current) :
    s.collector.plan = some ⟨[], .ok (.published current)⟩ := by
  unfold System.completing at h
  split at h
  · rename_i scanned hplan
    cases h
    exact hplan
  · cases h

theorem System.saveManifest_consistent
    (h : Consistent codec (Complete rt) (Holds rt regular known before) s.collector b)
    (hsaved : ∀ current, s.completing = some current → regular current) :
    Consistent codec (Complete rt) (Holds rt regular known before) s.saveManifest.collector b := by
  unfold System.saveManifest
  split
  · rename_i current hplan
    have hrunning := h.running
    rw [hplan] at hrunning
    obtain ⟨hcaptured, hquiet, -⟩ := hrunning
    exact ⟨h.keeping, hcaptured, hquiet, hsaved current (by rw [System.completing, hplan])⟩
  · exact h

/-- One action of the watcher. -/
theorem Watch.Sound.act {w : Watch Raw} (h : w.Sound rt codec regular) (action : Action)
    (hloaded : ∀ entries, regular (unmarshalFiles entries))
    (hsaved : action = .saveManifest → ∀ current, w.system.completing = some current → regular current) :
    (w.act rt codec action).Sound rt codec regular := by
  obtain ⟨b, hb⟩ := h
  have hof {p : Process Raw Local Error}
      (hp : Preserves codec (Complete rt) (Holds rt regular w.known w.before) b p) :
      ∃ b, Consistent codec (Complete rt) (Holds rt regular w.known w.before) p b :=
    hp.imp fun _ hp => hp.1
  unfold Watch.act
  split
  · rename_i current known hplan
    refine ⟨b, ?_⟩
    change Consistent codec _ (Holds rt regular known (w.system.events codec)) _ b
    rw [events_eq hb.keeping]
    exact proceed_takeScan hb hplan
  · rename_i action _ _ hother
    cases action with
    | attempt =>
        have hattempt : Preserves codec (Complete rt) (Holds rt regular w.known w.before) b
            (w.system.collector.attempt codec fun _ => .ok .started) := by
          refine hb.attempt fun queue here _ hhere => ?_
          cases hhere
          rfl
        exact hof hattempt
    | openQueue generation lsn => exact hof (proceed_openQueue hb)
    | loadManifest =>
        refine hof (hb.proceed fun here plan hhere hplan => ?_)
        cases here with
        | opened =>
            cases hplan
            exact Plan.Triple.pure hb.running.captured ⟨hhere, hloaded _⟩
        | _ => cases hplan
    | scan current =>
        refine ⟨b, ?_⟩
        change Consistent codec _ _ (w.system.collector.proceed (takeScan rt current)) b
        rw [proceed_takeScan_busy fun known hplan => hother current known rfl hplan]
        exact hb
    | publish transaction lsn reading => exact hof (proceed_publishNext hb)
    | recover => exact w.system.recover_consistent hb
    | saveManifest => exact ⟨b, w.system.saveManifest_consistent hb (hsaved rfl)⟩
    | event event => exact hof (hb.happen event)

end Steps

section Convergence

variable {codec : Codec Raw}

def Converges (codec : Codec Raw) (w : Watch Raw) (action : Action) : Prop :=
  match action with
  | .saveManifest => ∀ current, w.system.completing = some current → ∀ path,
      applied (fun _ => none) (w.system.saveManifest.events codec) path = current.lookup path
  | _ => True

def InUtf8 (files : Files Name) : Prop :=
  ∀ path, (files.lookup path).isSome → path.coerced = path

/-- A scan that completes found only names in UTF-8, and every path elsewhere than in the manifest, if
something else than the manifest's state had been published for it. -/
def Unmasked (w : Watch Raw) (action : Action) : Prop :=
  match action with
  | .saveManifest => ∀ current, w.system.completing = some current → InUtf8 current ∧ ∀ path,
      applied (fun _ => none) w.before path ≠ w.known.lookup path →
        current.lookup path ≠ w.known.lookup path
  | _ => True

theorem inUtf8_unmarshalFiles (entries : List (String × FileState)) : InUtf8 (unmarshalFiles entries) := by
  intro path hpath
  obtain ⟨_, hmem, rfl⟩ := List.mem_map.mp (Assoc.lookup_isSome_iff.mp hpath)
  obtain ⟨entry, -, rfl⟩ := List.mem_map.mp hmem
  exact Name.coerced_ofText entry.1

theorem map_coerced {cfg : Settings} {known current : Files Name} (hknown : InUtf8 known)
    (hcurrent : InUtf8 current) :
    (changes cfg known current).map Change.coerced = changes cfg known current := by
  refine (List.map_congr_left ?_).trans (List.map_id _)
  intro change hchange
  have hpath : change.path.coerced = change.path := by
    obtain ⟨name, hname, hof⟩ := List.mem_filterMap.mp (List.mem_filter.mp hchange).1
    rw [changeOf_path hof]
    exact (mem_paths.mp hname).elim (hcurrent name) (hknown name)
  cases change with
  | put name operation state => exact congrArg (Change.put · operation state) hpath
  | delete name => exact congrArg Change.delete hpath

variable (hall : ∀ operation ∈ [FileOperation.create, .update, .delete], rt.cfg.allows operation)

include hall in
/-- A scan converges exactly if the manifest hides nothing from it. -/
theorem Watch.Sound.converges_iff {w : Watch Raw} (h : w.Sound rt codec InUtf8) (action : Action) :
    Converges codec w action ↔ Unmasked w action := by
  obtain ⟨b, hb⟩ := h
  cases action with
  | saveManifest =>
      refine forall_congr' fun current => forall_congr' fun hcompleting => ?_
      have hrunning := hb.running
      rw [w.system.completing_eq hcompleting] at hrunning
      obtain ⟨-, -, hknown, hevents⟩ := hrunning
      have hsaved : w.system.saveManifest.events codec = eventsOf b.groups := by
        rw [← events_eq hb.keeping]
        simp only [System.saveManifest, w.system.completing_eq hcompleting]
        rfl
      rw [hsaved]
      by_cases hcurrent : InUtf8 current
      · rw [and_iff_right hcurrent]
        refine forall_congr' fun path => ?_
        have hfold : applied (fun _ => none) (w.before ++ changes rt.cfg w.known current) path
            = if w.known.lookup path ≠ current.lookup path then current.lookup path
              else applied (fun _ => none) w.before path := by
          rw [applied, List.foldl_append]
          exact applied_changes hall w.known current (applied (fun _ => none) w.before) path
        rw [hevents, map_coerced hknown hcurrent, hfold]
        by_cases hdiffer : w.known.lookup path ≠ current.lookup path
        · rw [if_pos hdiffer]
          exact iff_of_true rfl fun _ => hdiffer.symm
        · rw [if_neg hdiffer]
          rw [not_not] at hdiffer
          rw [hdiffer, ne_eq, ne_eq, not_imp_not]
          exact ⟨fun heq _ => heq, fun himp => himp rfl⟩
      · -- No event can be for a name that is not UTF-8.
        refine iff_of_false (fun hconverges => hcurrent fun path hpath => ?_) fun h => hcurrent h.1
        by_contra hother
        rw [← hconverges path, applied_of_ne] at hpath
        · cases hpath
        · rintro event hevent rfl
          exact hother (eventsOf_path hevent)
  | _ => exact Iff.rfl

theorem Watch.Sound.vouched {w : Watch Raw} {regular : Files Name → Prop} (h : w.Sound rt codec regular) :
    ∀ messages ∈ w.system.published codec, Vouched rt messages := by
  obtain ⟨b, hb⟩ := h
  rw [published_eq hb.keeping, List.forall_mem_map]
  rcases hb.running.captured.groups with ⟨-, hnone⟩ | ⟨-, hcomplete⟩
  · rw [hnone]
    exact List.forall_mem_nil _
  · exact hcomplete

def Watch.opened (limits : Queue.Limits) : Watch Raw where
  system := System.opened limits

theorem sound_opened (limits : Queue.Limits) (regular : Files Name → Prop) :
    (Watch.opened limits : Watch Raw).Sound rt codec regular :=
  ⟨_, Producer.consistent_opened limits⟩

/-- **Convergence of file capture.** In every run, whatever the directory looks like at each scan and
wherever scans are cut short, each scan that completes leaves the file map of the scan, exactly if each of
them finds names in UTF-8 only and no path back in the manifest's state for which something else had been
published. The content published for a file has the digest in its state. -/
theorem scans_converge_iff (rt : Runtime) (codec : Codec Raw)
    (hall : ∀ operation ∈ [FileOperation.create, .update, .delete], rt.cfg.allows operation)
    (limits : Queue.Limits) (actions : List Action) :
    (Run.Along (Watch.act rt codec) (Converges codec) (Watch.opened limits) actions
        ↔ Run.Along (Watch.act rt codec) Unmasked (Watch.opened limits) actions)
      ∧ ∀ messages ∈ (actions.foldl (Watch.act rt codec) (Watch.opened limits)).system.published codec,
          Vouched rt messages := by
  constructor
  · refine Run.along_iff (Watch.Sound rt codec InUtf8) ?_ ?_ (sound_opened limits InUtf8)
    · exact fun w action _ h => h.converges_iff hall action
    · intro w action _ h hconverges
      refine h.act action inUtf8_unmarshalFiles ?_
      rintro rfl current hcompleting
      exact ((h.converges_iff hall .saveManifest).mp hconverges current hcompleting).1
  · have hfinal : (actions.foldl (Watch.act rt codec) (Watch.opened limits)).Sound rt codec fun _ => True :=
      List.foldlRecOn actions (Watch.act rt codec) (sound_opened limits _)
        fun w h action _ => h.act action (fun _ => trivial) fun _ _ _ => trivial
    exact hfinal.vouched

/-- One scan from start to end. -/
theorem scans_converge_one_file :
    let rt : Runtime := { cfg := {}, sourceId := "s", fingerprint := "f", digest := id }
    let state : FileState :=
      { size := 1, modTimeUnixNano := 0, mode := 420, sha256 := hexEncode [7] }
    let reading : Reading := { parts := fun _ => .ok [7], stat := some (1, 0) }
    let perform : Action := .event (.perform { free := some 1000000, now := "now" })
    let limits : Queue.Limits := { maxBytes := 1000, reserve := 0 }
    let scanning := [.attempt, .openQueue "g" "l", perform, perform, perform, perform, .loadManifest,
      .scan [(.ofText "a", state)], .publish "t" "l" reading, perform, perform, perform, perform,
      .publish "t" "l" reading]
    let w := scanning.foldl (Watch.act rt .plain) (Watch.opened limits)
    w.system.completing = some [(.ofText "a", state)]
      ∧ Run.Along (Watch.act rt .plain) (Converges .plain) (Watch.opened limits)
        (scanning ++ [.saveManifest]) := by
  intro rt state reading perform limits scanning w
  -- Nothing was published before the scan, and there was no manifest.
  have hbefore : w.before = [] := by decide
  have hknown : w.known = [] := by decide
  have hcompleting : w.system.completing = some [(.ofText "a", state)] := by decide +kernel
  have hlast : Unmasked w .saveManifest := by
    intro current hcurrent
    obtain rfl := Option.some.inj (hcompleting.symm.trans hcurrent)
    refine ⟨fun path hpath => ?_, fun path hother => ?_⟩
    · rw [List.mem_singleton.mp (Assoc.lookup_isSome_iff.mp hpath)]
      exact Name.coerced_ofText "a"
    · rw [hbefore, hknown] at hother
      exact absurd rfl hother
  refine ⟨hcompleting, (scans_converge_iff rt .plain (by decide) limits _).1.mpr ?_⟩
  exact ⟨trivial, trivial, trivial, trivial, trivial, trivial, trivial, trivial, trivial, trivial, trivial,
    trivial, trivial, trivial, hlast, trivial⟩

/-- A file is published by a scan that a crash ends before the manifest is saved, and it is deleted before
the collector is back. The next scan completes without an event for it. -/
theorem deleted_file_remains :
    let rt : Runtime := { cfg := {}, sourceId := "s", fingerprint := "f", digest := id }
    let state : FileState :=
      { size := 1, modTimeUnixNano := 0, mode := 420, sha256 := hexEncode [7] }
    let reading : Reading := { parts := fun _ => .ok [7], stat := some (1, 0) }
    let perform : Action := .event (.perform { free := some 1000000, now := "now" })
    let actions := [.attempt, .openQueue "g" "l", perform, perform, perform, perform, .loadManifest,
      .scan [(.ofText "a", state)], .publish "t" "l" reading, perform, perform, perform, perform, .event .stop,
      .attempt, .openQueue "h" "l", .loadManifest, .scan [], .publish "t" "l" reading]
    let w := actions.foldl (Watch.act rt .plain) (Watch.opened { maxBytes := 1000, reserve := 0 })
    w.system.completing = some []
      ∧ w.system.saveManifest.events .plain = [.put (.ofText "a") .create state]
      ∧ ¬ Converges .plain w .saveManifest := by
  intro rt state reading perform actions w
  have hevents : w.system.saveManifest.events .plain = [.put (.ofText "a") .create state] := by decide
  have hcompleting : w.system.completing = some [] := by decide
  refine ⟨hcompleting, hevents, fun hconverges => ?_⟩
  have hgone : applied (fun _ => none) (w.system.saveManifest.events .plain) (.ofText "a") = none :=
    hconverges [] hcompleting (.ofText "a")
  rw [hevents] at hgone
  exact absurd hgone (by decide)

end Convergence

end GoSync.FileWatch
