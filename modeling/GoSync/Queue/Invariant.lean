import GoSync.Queue.Store

/-!
# The representation of the queue

The items bucket is always three lists end to end: the acknowledged messages still archived, the
published ones waiting for delivery, and the staged ones that no publish has exposed. `Rep` says so,
and each operation is then an operation on these lists: staging appends to the last one, publishing
joins the last two, recovery empties the last, an acknowledgement moves one message from the second
to the first and eviction drops a front part of the first.

The counters of the state record follow, so `Invariant`, which states them in the record's own terms,
holds after every sequence of calls.
-/

namespace GoSync.Queue

variable {Raw : Type} {codec : Codec Raw} {limits : Limits}

def Labelled (codec : Codec Raw) (sourceId generation : String) (start : Nat)
    (values : List Raw) : Prop :=
  ∀ offset raw, values[offset]? = some raw → ∃ message, codec.unmarshal raw = some message
    ∧ message.seq = start + offset
    ∧ message.id = messageId sourceId generation (start + offset)

variable {sourceId generation : String} {start : Nat}

theorem Labelled.nil :
    Labelled codec sourceId generation start [] := by
  intro offset raw hget
  simp at hget

variable {message : Message}

theorem Labelled.snoc {values : List Raw} {raw : Raw}
    (h : Labelled codec sourceId generation start values)
    (hdecode : codec.unmarshal raw = some message) (hseq : message.seq = start + values.length)
    (hid : message.id = messageId sourceId generation (start + values.length)) :
    Labelled codec sourceId generation start (values ++ [raw]) := by
  intro offset value hget
  rcases lt_trichotomy offset values.length with hlt | heq | hgt
  · rw [List.getElem?_append_left hlt] at hget
    exact h offset value hget
  · subst heq
    simp only [List.getElem?_concat_length, Option.some.injEq] at hget
    subst hget
    exact ⟨message, hdecode, hseq, hid⟩
  · rw [List.getElem?_eq_none (by simp; omega)] at hget
    simp at hget

theorem Labelled.of_append_left
    {front back : List Raw} (h : Labelled codec sourceId generation start (front ++ back)) :
    Labelled codec sourceId generation start front := by
  intro offset raw hget
  obtain ⟨hlt, -⟩ := List.getElem?_eq_some_iff.mp hget
  exact h offset raw (by rwa [List.getElem?_append_left hlt])

theorem Labelled.drop {values : List Raw}
    (h : Labelled codec sourceId generation start values) (count : Nat) :
    Labelled codec sourceId generation (start + count) (values.drop count) := by
  intro offset raw hget
  rw [List.getElem?_drop] at hget
  simpa only [Nat.add_assoc] using h (count + offset) raw hget

/-- The bucket holds the archived, the pending and the staged messages in this order, under
consecutive sequence numbers, and the counters of the state record count them. -/
structure Rep (codec : Codec Raw) (db : Db Raw) (archive pending staged : List Raw) : Prop where
  items : db.items = Bucket.numbered db.state.earliest (archive ++ pending ++ staged)
  delivered : db.state.deliveredSeq + 1 = db.state.earliest + archive.length
  ready : db.state.readySeq = db.state.deliveredSeq + pending.length
  next : db.state.nextSeq = db.state.readySeq + staged.length
  earliest_pos : 1 ≤ db.state.earliest
  fresh : db.state.earliestSeq = 0 → db.state.deliveredSeq = 0
  bytes : db.state.bytes = ((pending ++ staged).map codec.size).sum
  archiveBytes : db.state.archiveBytes = (archive.map codec.size).sum
  labelled : Labelled codec db.state.sourceId db.state.generation db.state.earliest
    (archive ++ pending ++ staged)

theorem rep_empty : Rep codec ({} : Db Raw) [] [] [] :=
  ⟨rfl, rfl, rfl, rfl, le_rfl, fun _ => rfl, rfl, rfl, .nil⟩

section Operations

variable {db db' : Db Raw} {archive pending staged : List Raw}

theorem Rep.initializeQueue {st : State} (hexec : initializeQueue st db = .ok db') :
    Rep codec db' [] [] [] := by
  unfold Queue.initializeQueue at hexec
  split_ifs at hexec
  cases hexec
  exact ⟨rfl, rfl, rfl, rfl, le_rfl, fun _ => rfl, rfl, rfl, .nil⟩

theorem Rep.resetForSnapshot (hexec : resetForSnapshot db = .ok db') :
    Rep codec db' [] [] [] := by
  unfold Queue.resetForSnapshot at hexec
  split_ifs at hexec
  cases hexec
  exact ⟨rfl, rfl, rfl, rfl, le_rfl, fun _ => rfl, rfl, rfl, .nil⟩

variable {lsn : String}

theorem Rep.snapshotPoint (h : Rep codec db archive pending staged)
    (hexec : snapshotPoint lsn db = .ok db') : Rep codec db' archive pending staged := by
  cases hexec
  exact ⟨h.items, h.delivered, h.ready, h.next, h.earliest_pos, h.fresh, h.bytes, h.archiveBytes,
    h.labelled⟩

theorem Rep.clearSourceCleanup {expected : String} (h : Rep codec db archive pending staged)
    (hexec : clearSourceCleanup expected db = .ok db') : Rep codec db' archive pending staged := by
  unfold Queue.clearSourceCleanup at hexec
  split_ifs at hexec
  cases hexec
  exact ⟨h.items, h.delivered, h.ready, h.next, h.earliest_pos, h.fresh, h.bytes, h.archiveBytes,
    h.labelled⟩

theorem append_cases {env : Surroundings} (hexec : append codec limits env message db = .ok db') :
    ∃ raw, codec.marshal (stamp db.state env.now message) = some raw
      ∧ db.state.bytes + codec.size raw ≤ limits.maxBytes
      ∧ db' = { state :=
                  { db.state with
                    nextSeq := db.state.nextSeq + 1
                    bytes := db.state.bytes + codec.size raw }
                items := db.items.put (db.state.nextSeq + 1) raw } := by
  unfold Queue.append at hexec
  split at hexec
  · cases hexec
  · split_ifs at hexec
    split at hexec
    · cases hexec
    · rename_i raw hmarshal
      split_ifs at hexec with hfull
      cases hexec
      refine ⟨raw, hmarshal, ?_, rfl⟩
      rw [not_or] at hfull
      exact not_lt.mp hfull.1

/-- Appending stages one message. -/
theorem Rep.append {env : Surroundings} (h : Rep codec db archive pending staged)
    (hexec : append codec limits env message db = .ok db') :
    ∃ raw, codec.marshal (stamp db.state env.now message) = some raw
      ∧ Rep codec db' archive pending (staged ++ [raw]) := by
  obtain ⟨raw, hmarshal, -, rfl⟩ := append_cases hexec
  have hlast : db.state.nextSeq + 1
      = db.state.earliest + (archive ++ pending ++ staged).length := by
    have := h.delivered
    have := h.ready
    have := h.next
    simp only [List.length_append]
    omega
  refine ⟨raw, hmarshal, ?_, h.delivered, h.ready, ?_, h.earliest_pos, h.fresh, ?_,
    h.archiveBytes, ?_⟩
  · change db.items.put (db.state.nextSeq + 1) raw = _
    rw [h.items, hlast, Bucket.put_numbered_end, ← List.append_assoc]
    rfl
  · simp only [List.length_append, List.length_singleton]
    have := h.next
    omega
  · have := h.bytes
    simp only [List.map_append, List.sum_append, List.map_singleton, List.sum_singleton] at this ⊢
    omega
  · rw [← List.append_assoc]
    exact h.labelled.snoc (codec.unmarshal_marshal _ _ hmarshal) hlast
      (congrArg (messageId db.state.sourceId db.state.generation) hlast)

/-- Publishing moves what is staged behind what is pending. -/
theorem Rep.expose {st : State} (h : Rep codec db archive pending staged)
    (hready : st.readySeq = db.state.nextSeq) (hnext : st.nextSeq = db.state.nextSeq)
    (hdelivered : st.deliveredSeq = db.state.deliveredSeq)
    (hearliest : st.earliestSeq = db.state.earliestSeq) (hbytes : st.bytes = db.state.bytes)
    (harchive : st.archiveBytes = db.state.archiveBytes)
    (hsource : st.sourceId = db.state.sourceId)
    (hgeneration : st.generation = db.state.generation) :
    Rep codec { db with state := st } archive (pending ++ staged) [] := by
  have hfirst : st.earliest = db.state.earliest := by
    rw [State.earliest, State.earliest, hearliest, hdelivered]
  refine ⟨?_, ?_, ?_, ?_, ?_, ?_, ?_, ?_, ?_⟩
  · simp only [hfirst, List.append_nil, ← List.append_assoc]
    exact h.items
  · simp only [hfirst, hdelivered]
    exact h.delivered
  · simp only [hready, hdelivered, List.length_append]
    have := h.ready
    have := h.next
    omega
  · simp only [hready, hnext, List.length_nil, Nat.add_zero]
  · simp only [hfirst]
    exact h.earliest_pos
  · simp only [hearliest, hdelivered]
    exact h.fresh
  · simp only [hbytes, List.append_nil]
    exact h.bytes
  · simp only [harchive]
    exact h.archiveBytes
  · simp only [hfirst, hsource, hgeneration, List.append_nil, ← List.append_assoc]
    exact h.labelled

theorem Rep.publishSource {lsn cleanup : String} {sealSnapshot : Bool}
    (h : Rep codec db archive pending staged)
    (hexec : publishSource lsn sealSnapshot cleanup db = .ok db') :
    Rep codec db' archive (pending ++ staged) [] := by
  unfold Queue.publishSource at hexec
  split at hexec
  · cases hexec
  cases hexec
  exact h.expose rfl rfl rfl rfl rfl rfl rfl rfl

theorem Rep.publishSchema {lsn schemaHash : String} (h : Rep codec db archive pending staged)
    (hexec : publishSchema lsn schemaHash db = .ok db') :
    Rep codec db' archive (pending ++ staged) [] := by
  unfold Queue.publishSchema at hexec
  split_ifs at hexec
  cases hexec
  exact h.expose rfl rfl rfl rfl rfl rfl rfl rfl

theorem foldl_sub_size (entries : Bucket Raw) (bytes : Int) :
    entries.foldl (fun (bytes : Int) entry => bytes - codec.size entry.2) bytes
      = bytes - ((entries.map fun entry => codec.size entry.2).sum : Nat) := by
  induction entries generalizing bytes with
  | nil => simp
  | cons entry rest ih =>
      rw [List.foldl_cons, ih, List.map_cons, List.sum_cons]
      omega

theorem map_size_numbered (start : Nat) (values : List Raw) :
    (Bucket.numbered start values).map (fun entry => codec.size entry.2)
      = values.map codec.size := by
  induction values generalizing start with
  | nil => rfl
  | cons value rest ih =>
      rw [Bucket.numbered_cons, List.map_cons, List.map_cons, ih]

theorem Rep.recover (h : Rep codec db archive pending staged)
    (hexec : recover codec db = .ok db') : Rep codec db' archive pending [] := by
  cases hexec
  have hcut : db.state.readySeq + 1 = db.state.earliest + (archive ++ pending).length := by
    have := h.delivered
    have := h.ready
    simp only [List.length_append]
    omega
  have hseek : db.items.seek (db.state.readySeq + 1)
      = Bucket.numbered (db.state.readySeq + 1) staged := by
    rw [h.items, hcut, Bucket.seek_numbered, List.drop_left]
  refine ⟨?_, h.delivered, h.ready, rfl, h.earliest_pos, h.fresh, ?_, h.archiveBytes, ?_⟩
  · simp only [List.append_nil]
    rw [h.items, hcut, Bucket.foldl_delete_seek, List.take_left]
    rfl
  · have := h.bytes
    simp only [hseek, foldl_sub_size, map_size_numbered, List.append_nil, List.map_append,
      List.sum_append] at this ⊢
    omega
  · rw [List.append_nil]
    exact h.labelled.of_append_left

theorem Rep.of_ready_eq_zero (h : Rep codec db archive pending staged)
    (hready : db.state.readySeq = 0) :
    archive = [] ∧ pending = [] ∧ db.state.earliest = 1 := by
  have h1 := h.delivered
  have h2 := h.ready
  have h3 := h.earliest_pos
  refine ⟨List.eq_nil_of_length_eq_zero (by omega), List.eq_nil_of_length_eq_zero (by omega), ?_⟩
  omega

def Repositioned (codec : Codec Raw) (lsn : String) (old new : Raw) : Prop :=
  ∃ message, codec.unmarshal old = some message
    ∧ codec.unmarshal new = some { message with lsn := lsn }

/-- `finalizeFrom` rewrites the position in each message and nothing else. -/
theorem finalizeFrom_ok :
    ∀ (rest done : List Raw) (bytes bytes' : Nat) (items : Bucket Raw),
      Labelled codec sourceId generation 1 (done ++ rest) →
      bytes ≤ limits.maxBytes →
      finalizeFrom codec limits lsn rest.length (done.length + 1) bytes
        (Bucket.numbered 1 (done ++ rest)) = .ok (bytes', items) →
      ∃ rest', items = Bucket.numbered 1 (done ++ rest')
        ∧ rest'.length = rest.length
        ∧ bytes' = bytes + (rest'.map codec.size).sum
        ∧ bytes' ≤ limits.maxBytes
        ∧ Labelled codec sourceId generation 1 (done ++ rest')
        ∧ List.Forall₂ (Repositioned codec lsn) rest rest' := by
  intro rest
  induction rest with
  | nil =>
      intro done bytes bytes' items hlabelled hbound hloop
      simp only [List.length_nil, finalizeFrom, Except.ok.injEq, Prod.mk.injEq] at hloop
      obtain ⟨rfl, rfl⟩ := hloop
      exact ⟨[], rfl, rfl, by simp, hbound, hlabelled, .nil⟩
  | cons value rest ih =>
      intro done bytes bytes' items hlabelled hbound hloop
      have hat : (done ++ value :: rest)[done.length]? = some value := by simp
      obtain ⟨message, hdecode, hseq, hid⟩ := hlabelled done.length value hat
      have hget : (Bucket.numbered 1 (done ++ value :: rest)).get (done.length + 1)
          = some value := by
        rw [Bucket.get_numbered, if_pos (by omega), Nat.add_sub_cancel, hat]
      rw [List.length_cons, finalizeFrom, hget] at hloop
      simp only [hdecode] at hloop
      split at hloop
      · cases hloop
      rename_i updated hmarshal
      split_ifs at hloop with hfull
      -- The rewritten message keeps its number and its id, so the done part stays labelled.
      have hput : (Bucket.numbered 1 (done ++ value :: rest)).put (done.length + 1) updated
          = Bucket.numbered 1 (done ++ [updated] ++ rest) := by
        rw [Nat.add_comm, Bucket.put_numbered_set 1 done.length _ _ (by simp)]
        simp
      have hlabelled' : Labelled codec sourceId generation 1 (done ++ [updated] ++ rest) := by
        intro offset raw hraw
        by_cases heq : offset = done.length
        · subst heq
          simp only [List.append_assoc, List.cons_append, List.nil_append,
            List.getElem?_append_right le_rfl, Nat.sub_self, List.getElem?_cons_zero,
            Option.some.injEq] at hraw
          subst hraw
          exact ⟨_, codec.unmarshal_marshal _ _ hmarshal, hseq, hid⟩
        · refine hlabelled offset raw ?_
          rw [← hraw]
          rcases lt_or_gt_of_ne heq with hlt | hgt
          · simp [List.getElem?_append_left hlt]
          · obtain ⟨gap, rfl⟩ : ∃ gap, offset = done.length + (gap + 1) :=
              ⟨offset - done.length - 1, by omega⟩
            rw [List.append_assoc, List.getElem?_append_right (by omega),
              List.getElem?_append_right (by omega), Nat.add_sub_cancel_left]
            rfl
      rw [hput] at hloop
      have hstep : (done ++ [updated]).length + 1 = done.length + 1 + 1 := by simp
      obtain ⟨rest', hitems, hlength, hsum, hle, hlab, hmoved⟩ :=
        ih (done ++ [updated]) (bytes + codec.size updated) bytes' items hlabelled'
          (not_lt.mp hfull) (by rw [hstep]; exact hloop)
      refine ⟨updated :: rest', by rw [hitems]; simp, by simp [hlength], ?_, hle, by
        simpa using hlab, .cons ⟨message, hdecode, codec.unmarshal_marshal _ _ hmarshal⟩ hmoved⟩
      rw [hsum, List.map_cons, List.sum_cons]
      omega

/-- The staged snapshot gets its position before anything is published. -/
theorem Rep.finalizeSnapshotLsn (h : Rep codec db archive pending staged)
    (hexec : finalizeSnapshotLsn codec limits lsn db = .ok db') :
    ∃ staged', Rep codec db' [] [] staged' ∧ archive = [] ∧ pending = []
      ∧ List.Forall₂ (Repositioned codec lsn) staged staged' ∧ db'.state.bytes ≤ limits.maxBytes := by
  unfold Queue.finalizeSnapshotLsn at hexec
  split_ifs at hexec with hphase
  rw [not_or, not_not, not_not] at hphase
  obtain ⟨rfl, rfl, hfirst⟩ := h.of_ready_eq_zero hphase.2
  have hdelivered : db.state.deliveredSeq = 0 := by
    have := h.ready
    omega
  have hlength : db.state.nextSeq = staged.length := by
    have := h.next
    omega
  rw [hlength, h.items, hfirst] at hexec
  split at hexec
  · cases hexec
  rename_i bytes items hloop
  cases hexec
  have hlabelled := h.labelled
  rw [hfirst] at hlabelled
  obtain ⟨staged', hitems, hlen, hbytes, hle, hlab, hmoved⟩ :=
    finalizeFrom_ok staged [] 0 bytes items hlabelled (Nat.zero_le _) hloop
  have hearliest : ({ db.state with bytes := bytes, snapshotLsn := lsn } : State).earliest = 1 :=
    hfirst
  refine ⟨staged', ⟨?_, ?_, ?_, ?_, ?_, h.fresh, ?_, h.archiveBytes, ?_⟩, rfl, rfl, hmoved, ?_⟩
  · rw [hearliest]
    exact hitems
  · rw [hearliest]
    exact congrArg (· + 1) hdelivered
  · exact h.ready
  · change db.state.nextSeq = db.state.readySeq + staged'.length
    omega
  · rw [hearliest]
  · simp only [hbytes, List.nil_append, Nat.zero_add]
  · simp only [hearliest]
    exact hlab
  · change (bytes : Int) ≤ limits.maxBytes
    exact_mod_cast hle

/-- The eviction loop drops some front part of the archive and keeps the counters true. It stops
only where nothing is left, or where the oldest message is young enough and the archive small
enough. -/
theorem evict_cases (limits : Limits) (since : String → Option Int) :
    ∀ (archive rest : List Raw) (fuel : Nat) (st : State),
      st.deliveredSeq + 1 = st.earliestSeq + archive.length →
      archive.length ≤ fuel →
      st.archiveBytes = (archive.map codec.size).sum →
      ∃ count, count ≤ archive.length
        ∧ evict codec limits since fuel st (Bucket.numbered st.earliestSeq (archive ++ rest))
          = ({ st with
                earliestSeq := st.earliestSeq + count
                archiveBytes := ((archive.drop count).map codec.size).sum },
              Bucket.numbered (st.earliestSeq + count) (archive.drop count ++ rest))
        ∧ ∀ old ∈ (archive.drop count).head?, expired codec limits since old = false
          ∧ (((archive.drop count).map codec.size).sum : Int) ≤ limits.replayBytes := by
  intro archive
  induction archive with
  | nil =>
      intro rest fuel st hdelivered _ hbytes
      have hstop : evict codec limits since fuel st (Bucket.numbered st.earliestSeq ([] ++ rest))
          = (st, Bucket.numbered st.earliestSeq ([] ++ rest)) := by
        cases fuel with
        | zero => rfl
        | succ fuel =>
            rw [evict, if_neg]
            simp only [List.length_nil] at hdelivered
            omega
      refine ⟨0, le_rfl, ?_, by simp⟩
      rw [hstop]
      rw [List.drop_zero, ← hbytes, Nat.add_zero]
  | cons old archive ih =>
      intro rest fuel st hdelivered hfuel hbytes
      obtain ⟨fuel, rfl⟩ : ∃ fewer, fuel = fewer + 1 :=
        ⟨fuel - 1, by simp only [List.length_cons] at hfuel; omega⟩
      have hget : (Bucket.numbered st.earliestSeq (old :: archive ++ rest)).get st.earliestSeq
          = some old := by
        rw [Bucket.get_numbered, if_pos le_rfl, Nat.sub_self]
        rfl
      rw [evict, if_pos (by simp only [List.length_cons] at hdelivered; omega), hget]
      simp only
      split_ifs with hkeep
      · refine ⟨0, Nat.zero_le _, ?_, ?_⟩
        · rw [List.drop_zero, ← hbytes, Nat.add_zero]
        · intro kept hkept
          simp only [List.drop_zero, List.head?_cons, Option.mem_some_iff] at hkept
          subst hkept
          rw [List.drop_zero, ← hbytes]
          exact hkeep
      · have hdrop := Bucket.delete_numbered_head st.earliestSeq old (archive ++ rest)
        rw [List.cons_append, hdrop]
        obtain ⟨count, hcount, hevict, hkept⟩ := ih rest fuel
          { st with
            archiveBytes := st.archiveBytes - codec.size old
            earliestSeq := st.earliestSeq + 1 }
          (by simp only [List.length_cons] at hdelivered; simp only; omega)
          (by simp only [List.length_cons] at hfuel; omega)
          (by
            simp only [List.map_cons, List.sum_cons] at hbytes
            dsimp only
            omega)
        refine ⟨count + 1, by simpa using hcount, ?_, by simpa using hkept⟩
        rw [hevict]
        simp [Nat.add_assoc, Nat.add_comm 1 count]

/-- A successful acknowledgement names the oldest pending message, archives it, and evicts some
front part of the archive. -/
theorem Rep.ack {since : String → Option Int} {seq : Nat} {id : String}
    (h : Rep codec db archive pending staged)
    (hexec : ack codec limits since seq id db = .ok db') :
    ∃ raw rest message count, pending = raw :: rest
      ∧ codec.unmarshal raw = some message ∧ message.id = id
      ∧ seq = db.state.deliveredSeq + 1
      ∧ count ≤ archive.length + 1
      ∧ db' = { state :=
                  { acknowledged codec db.state raw with
                    earliestSeq := db.state.earliest + count
                    archiveBytes := (((archive ++ [raw]).drop count).map codec.size).sum }
                items := Bucket.numbered (db.state.earliest + count)
                  ((archive ++ [raw]).drop count ++ rest ++ staged) }
      ∧ Rep codec db' ((archive ++ [raw]).drop count) rest staged := by
  unfold Queue.ack at hexec
  split_ifs at hexec with hcontiguous
  rw [not_or, not_not, not_lt] at hcontiguous
  obtain ⟨rfl, hready⟩ := hcontiguous
  have hpending : 0 < pending.length := by
    have := h.ready
    omega
  obtain ⟨raw, rest, rfl⟩ : ∃ raw rest, pending = raw :: rest :=
    List.exists_cons_of_length_pos hpending
  have hat : (archive ++ raw :: rest ++ staged)[archive.length]? = some raw := by
    simp
  have hget : db.items.get (db.state.deliveredSeq + 1) = some raw := by
    rw [h.items, Bucket.get_numbered, h.delivered, if_pos (by omega), Nat.add_sub_cancel_left, hat]
  obtain ⟨message, hdecode, -, -⟩ := h.labelled archive.length raw hat
  simp only [hget, hdecode] at hexec
  split_ifs at hexec with hid
  rw [not_not] at hid
  have hfirst : (acknowledged codec db.state raw).earliestSeq = db.state.earliest := by
    simp only [acknowledged, State.earliest]
    split_ifs with hzero
    · rw [h.fresh hzero]
    · rfl
  have hlist : archive ++ raw :: rest ++ staged = (archive ++ [raw]) ++ (rest ++ staged) := by
    simp
  have harchive : (acknowledged codec db.state raw).archiveBytes
      = ((archive ++ [raw]).map codec.size).sum := by
    have := h.archiveBytes
    simp only [acknowledged, List.map_append, List.sum_append, List.map_singleton,
      List.sum_singleton]
    omega
  have hdelivered : (acknowledged codec db.state raw).deliveredSeq + 1
      = (acknowledged codec db.state raw).earliestSeq + (archive ++ [raw]).length := by
    have := h.delivered
    rw [hfirst, List.length_append, List.length_singleton]
    simp only [acknowledged]
    omega
  obtain ⟨count, hcount, hevict, -⟩ := evict_cases limits since (archive ++ [raw])
    (rest ++ staged)
    ((acknowledged codec db.state raw).deliveredSeq + 1
      - (acknowledged codec db.state raw).earliestSeq)
    (acknowledged codec db.state raw) hdelivered (by omega) harchive
  rw [h.items, ← hfirst, hlist, hevict] at hexec
  simp only [Except.ok.injEq] at hexec
  rw [hfirst] at hexec hdelivered
  simp only [List.length_append, List.length_singleton] at hcount hdelivered
  have hpos := h.earliest_pos
  have hearliest : db'.state.earliest = db.state.earliest + count := by
    rw [← hexec, State.earliest, if_neg (by simp only; omega)]
  refine ⟨raw, rest, message, count, rfl, hdecode, hid, rfl, hcount, ?_, ?_, ?_, ?_, ?_, ?_, ?_,
    ?_, ?_, ?_⟩
  · rw [← hexec]
    simp only [List.append_assoc]
  · rw [hearliest, ← hexec]
    simp only [List.append_assoc]
  · rw [hearliest, ← hexec]
    simp only [List.length_drop, List.length_append, List.length_singleton]
    omega
  · have := h.ready
    rw [← hexec]
    simp only [acknowledged, List.length_cons] at this ⊢
    omega
  · rw [← hexec]
    exact h.next
  · omega
  · intro hzero
    rw [State.earliest, if_pos hzero] at hearliest
    have : db'.state.earliestSeq = db.state.earliest + count := by rw [← hexec]
    omega
  · have := h.bytes
    rw [← hexec]
    simp only [acknowledged, List.cons_append, List.map_cons, List.sum_cons] at this ⊢
    omega
  · rw [← hexec]
  · have hlabelled := h.labelled.drop count
    rw [hearliest, ← hexec]
    rw [hlist, List.drop_append_of_le_length (by simpa using hcount), ← List.append_assoc]
      at hlabelled
    exact hlabelled

end Operations

/-- The queue's representation invariant in the terms of its own record: the order of the three
cursors, the retained range, the keys of the bucket, both byte counters and what an item holds. -/
structure Invariant (codec : Codec Raw) (maxBytes : Nat) (db : Db Raw) : Prop where
  delivered_le_ready : db.state.deliveredSeq ≤ db.state.readySeq
  ready_le_next : db.state.readySeq ≤ db.state.nextSeq
  earliest_pos : 1 ≤ db.state.earliest
  earliest_le : db.state.earliest ≤ db.state.deliveredSeq + 1
  keys : db.items.keys
    = List.range' db.state.earliest (db.state.nextSeq + 1 - db.state.earliest)
  bytes : db.state.bytes = db.items.weight codec.size fun key => db.state.deliveredSeq < key
  bytes_le : db.state.bytes ≤ maxBytes
  archiveBytes :
    db.state.archiveBytes = db.items.weight codec.size fun key => key ≤ db.state.deliveredSeq
  item : ∀ seq raw, db.items.get seq = some raw → ∃ message, codec.unmarshal raw = some message
    ∧ message.seq = seq ∧ message.id = messageId db.state.sourceId db.state.generation seq

variable {archive pending staged : List Raw} {maxBytes : Nat} {db : Db Raw}

/-- A represented queue satisfies the invariant of its record. -/
theorem Rep.invariant (h : Rep codec db archive pending staged) (hbound : db.state.bytes ≤ maxBytes) :
    Invariant codec maxBytes db := by
  have hdelivered := h.delivered
  have hready := h.ready
  have hnext := h.next
  have hsplit : db.items = Bucket.numbered db.state.earliest archive
      ++ Bucket.numbered (db.state.earliest + archive.length) (pending ++ staged) := by
    rw [h.items, List.append_assoc, Bucket.numbered_append]
  refine ⟨by omega, by omega, h.earliest_pos, by omega, ?_, ?_, hbound, ?_, ?_⟩
  · rw [h.items, Bucket.keys_numbered]
    congr 1
    simp only [List.length_append]
    omega
  · rw [hsplit, Bucket.weight_append, Bucket.weight_numbered_none, Bucket.weight_numbered_all,
      h.bytes, Nat.zero_add]
    · intro key hlow _
      simp only [decide_eq_true_eq]
      omega
    · intro key _ hhigh
      simp only [decide_eq_false_iff_not]
      omega
  · rw [hsplit, Bucket.weight_append, Bucket.weight_numbered_all, Bucket.weight_numbered_none,
      h.archiveBytes, Nat.add_zero]
    · intro key hlow _
      simp only [decide_eq_false_iff_not]
      omega
    · intro key _ hhigh
      simp only [decide_eq_true_eq]
      omega
  · intro seq raw hget
    rw [h.items, Bucket.get_numbered] at hget
    split_ifs at hget with hle
    obtain ⟨message, hdecode, hseq, hid⟩ := h.labelled _ _ hget
    rw [Nat.add_sub_cancel' hle] at hseq hid
    exact ⟨message, hdecode, hseq, hid⟩

theorem Invariant.get_isSome (h : Invariant codec maxBytes db)
    {seq : Nat} (hlow : db.state.earliest ≤ seq) (hhigh : seq ≤ db.state.nextSeq) :
    ∃ raw, db.items.get seq = some raw := by
  have hmem : seq ∈ db.items.keys := by
    rw [h.keys, List.mem_range'_1]
    omega
  obtain ⟨⟨key, raw⟩, hentry, rfl⟩ := List.mem_map.mp hmem
  have hsome := List.lookup_isSome_iff.mpr ⟨(key, raw), hentry, beq_self_eq_true key⟩
  exact Option.isSome_iff_exists.mp hsome

theorem Invariant.peek_ne_gap (h : Invariant codec maxBytes db) :
    peek codec db ≠ .error .gap := by
  unfold peek
  split_ifs with hempty
  · simp
  · obtain ⟨raw, hraw⟩ := h.get_isSome h.earliest_le
      (by have := h.ready_le_next; omega)
    obtain ⟨message, hdecode, -, -⟩ := h.item _ _ hraw
    simp [hraw, hdecode]

theorem Invariant.get_ne_gap (h : Invariant codec maxBytes db)
    (seq : Nat) : get codec seq db ≠ .error .gap := by
  unfold get
  split_ifs with hempty
  · simp
  · rw [not_or, not_lt, not_lt] at hempty
    obtain ⟨raw, hraw⟩ := h.get_isSome hempty.1 (hempty.2.trans h.ready_le_next)
    obtain ⟨message, hdecode, -, -⟩ := h.item _ _ hraw
    simp [hraw, hdecode]

structure Store (Raw : Type) where
  limits : Limits
  db : Db Raw

def openEmpty (maxBytes reserve : Nat) : Store Raw where
  limits := { maxBytes := maxBytes, reserve := reserve }
  db := {}

inductive Call where
  | op (op : Op)
  | configureReplay (maxAge maxBytes : Int)

def Store.call (codec : Codec Raw) (store : Store Raw) : Call → Store Raw
  | .configureReplay maxAge maxBytes =>
      { store with limits := { store.limits with replayAge := maxAge, replayBytes := maxBytes } }
  | .op op =>
      match exec codec store.limits op store.db with
      | .ok db => { store with db := db }
      | .error _ => store

/-- Every operation keeps the representation and the quota. -/
theorem Rep.exec {op : Op} {db db' : Db Raw}
    (h : Rep codec db archive pending staged) (hbound : db.state.bytes ≤ limits.maxBytes)
    (hexec : exec codec limits op db = .ok db') :
    db'.state.bytes ≤ limits.maxBytes
      ∧ ∃ archive' pending' staged', Rep codec db' archive' pending' staged' := by
  have hzero : (0 : Int) ≤ limits.maxBytes := Int.natCast_nonneg _
  cases op with
  | initializeQueue st =>
      have hrep : Rep codec db' [] [] [] := Rep.initializeQueue hexec
      exact ⟨by rw [hrep.bytes]; exact hzero, _, _, _, hrep⟩
  | snapshotPoint lsn =>
      have hrep := h.snapshotPoint hexec
      exact ⟨by rw [hrep.bytes, ← h.bytes]; exact hbound, _, _, _, hrep⟩
  | finalizeSnapshotLsn lsn =>
      obtain ⟨staged', hrep, -, -, -, hle⟩ := h.finalizeSnapshotLsn hexec
      exact ⟨hle, _, _, _, hrep⟩
  | append env message =>
      obtain ⟨raw, -, hle, rfl⟩ := append_cases hexec
      obtain ⟨raw', -, hrep⟩ := h.append hexec
      exact ⟨hle, _, _, _, hrep⟩
  | publish lsn sealSnapshot =>
      have hrep := h.publishSource hexec
      refine ⟨?_, _, _, _, hrep⟩
      rw [hrep.bytes, List.append_nil, ← h.bytes]
      exact hbound
  | publishSource lsn sealSnapshot cleanup =>
      have hrep := h.publishSource hexec
      refine ⟨?_, _, _, _, hrep⟩
      rw [hrep.bytes, List.append_nil, ← h.bytes]
      exact hbound
  | publishSchema lsn schemaHash =>
      have hrep := h.publishSchema hexec
      refine ⟨?_, _, _, _, hrep⟩
      rw [hrep.bytes, List.append_nil, ← h.bytes]
      exact hbound
  | clearSourceCleanup expected =>
      have hrep := h.clearSourceCleanup hexec
      exact ⟨by rw [hrep.bytes, ← h.bytes]; exact hbound, _, _, _, hrep⟩
  | recover =>
      have hrep := h.recover hexec
      refine ⟨?_, _, _, _, hrep⟩
      have := h.bytes
      rw [hrep.bytes]
      simp only [List.append_nil, List.map_append, List.sum_append] at this ⊢
      omega
  | resetForSnapshot =>
      have hrep : Rep codec db' [] [] [] := Rep.resetForSnapshot hexec
      exact ⟨by rw [hrep.bytes]; exact hzero, _, _, _, hrep⟩
  | ack since seq id =>
      obtain ⟨raw, rest, message, count, rfl, -, -, -, -, -, hrep⟩ := h.ack hexec
      refine ⟨?_, _, _, _, hrep⟩
      have := h.bytes
      rw [hrep.bytes]
      simp only [List.cons_append, List.map_cons, List.sum_cons] at this
      omega
  | failed => cases hexec

theorem Store.rep_call {store : Store Raw} (call : Call) (h : Rep codec store.db archive pending staged)
    (hbound : store.db.state.bytes ≤ store.limits.maxBytes) :
    (store.call codec call).limits.maxBytes = store.limits.maxBytes
      ∧ (store.call codec call).db.state.bytes ≤ (store.call codec call).limits.maxBytes
      ∧ ∃ archive' pending' staged',
        Rep codec (store.call codec call).db archive' pending' staged' := by
  cases call with
  | configureReplay maxAge maxBytes => exact ⟨rfl, hbound, _, _, _, h⟩
  | op op =>
      cases hexec : exec codec store.limits op store.db with
      | ok db =>
          obtain ⟨hle, hrep⟩ := h.exec hbound hexec
          simp only [Store.call, hexec]
          exact ⟨trivial, hle, hrep⟩
      | error err =>
          simp only [Store.call, hexec]
          exact ⟨trivial, hbound, _, _, _, h⟩

theorem Store.rep_calls (calls : List Call) :
    ∀ (store : Store Raw) (archive pending staged : List Raw),
      Rep codec store.db archive pending staged →
      store.db.state.bytes ≤ store.limits.maxBytes →
      (calls.foldl (Store.call codec) store).limits.maxBytes = store.limits.maxBytes
        ∧ (calls.foldl (Store.call codec) store).db.state.bytes ≤ store.limits.maxBytes
        ∧ ∃ archive' pending' staged',
          Rep codec (calls.foldl (Store.call codec) store).db archive' pending' staged' := by
  induction calls with
  | nil =>
      intro store archive pending staged h hbound
      exact ⟨rfl, hbound, _, _, _, h⟩
  | cons call calls ih =>
      intro store archive pending staged h hbound
      obtain ⟨hlimits, hle, archive', pending', staged', hrep⟩ := store.rep_call call h hbound
      have hrun := ih _ _ _ _ hrep hle
      rw [hlimits] at hrun
      exact hrun

/-- **The queue invariant.** After any sequence of calls on a queue opened in an empty directory,
each succeeding or failing, the record and the bucket satisfy the representation invariant, and
neither `Peek` nor `Get` finds a gap. -/
theorem invariant_of_calls (codec : Codec Raw) (maxBytes reserve : Nat) (calls : List Call) :
    let store := calls.foldl (Store.call codec) (openEmpty maxBytes reserve)
    Invariant codec maxBytes store.db
      ∧ peek codec store.db ≠ .error .gap
      ∧ ∀ seq, get codec seq store.db ≠ .error .gap := by
  have hempty : Rep codec {} [] [] [] := rep_empty
  obtain ⟨-, hle, archive, pending, staged, hrep⟩ :=
    Store.rep_calls calls (openEmpty maxBytes reserve) [] [] [] hempty (Int.natCast_nonneg _)
  have hinv := hrep.invariant hle
  exact ⟨hinv, hinv.peek_ne_gap, hinv.get_ne_gap⟩

end GoSync.Queue
