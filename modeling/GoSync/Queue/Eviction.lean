import GoSync.Queue.Invariant

/-!
# What an acknowledgement evicts

A state record of an older version has no `EarliestSeq`, and its acknowledged messages are gone. The
eviction loop then starts at the first number and passes over what is missing, so it ends as if
`EarliestSeq` had been there (`ack_filled`).
-/

namespace GoSync.Queue

variable {Raw : Type} {codec : Codec Raw} {limits : Limits} {since : String → Option Int}

def Stopped (codec : Codec Raw) (limits : Limits) (since : String → Option Int) (st : State)
    (items : Bucket Raw) : Prop :=
  st.deliveredSeq < st.earliestSeq
    ∨ ∃ old, items.get st.earliestSeq = some old ∧ expired codec limits since old = false
      ∧ st.archiveBytes ≤ limits.replayBytes

theorem evict_stopped : ∀ (fuel : Nat) (st : State) (items : Bucket Raw),
    st.deliveredSeq + 1 - st.earliestSeq ≤ fuel →
      Stopped codec limits since (evict codec limits since fuel st items).1
        (evict codec limits since fuel st items).2 := by
  intro fuel
  induction fuel with
  | zero =>
      intro st items hfuel
      exact .inl (by simp only [evict]; omega)
  | succ fuel ih =>
      intro st items hfuel
      rw [evict]
      split_ifs with hmore
      · split
        · apply ih
          dsimp only
          omega
        · rename_i old hold
          split_ifs with hkeep
          · exact .inr ⟨old, hold, hkeep⟩
          · apply ih
            dsimp only
            omega
      · exact .inl (Nat.not_le.mp hmore)

theorem evict_missing (fuel gap : Nat) (st : State) (items : Bucket Raw)
    (hmissing : ∀ key, st.earliestSeq ≤ key → key < st.earliestSeq + gap → items.get key = none)
    (hgap : st.earliestSeq + gap ≤ st.deliveredSeq + 1) :
    evict codec limits since (fuel + gap) st items
      = evict codec limits since fuel { st with earliestSeq := st.earliestSeq + gap } items := by
  induction gap generalizing st with
  | zero => rfl
  | succ gap ih =>
      rw [← Nat.add_assoc, evict, if_pos (by omega), hmissing _ le_rfl (by omega)]
      dsimp only
      rw [ih]
      · rw [Nat.add_assoc, Nat.add_comm 1 gap]
      · intro key hlow hhigh
        dsimp only at hlow hhigh
        exact hmissing key (by omega) (by omega)
      · dsimp only
        omega

def Db.filled (db : Db Raw) : Db Raw :=
  { db with state := { db.state with earliestSeq := db.state.earliest } }

section Acknowledging

variable {db db' : Db Raw} {maxBytes seq : Nat} {id : String}

theorem Invariant.get_eq_none (h : Invariant codec maxBytes db) (hseq : seq < db.state.earliest) :
    db.items.get seq = none := by
  rw [Bucket.eq_numbered h.keys, Bucket.get_numbered, if_neg (Nat.not_le.mpr hseq)]

/-- `Ack` does not depend on whether the first number is filled in. -/
theorem ack_filled (h : Invariant codec maxBytes db) :
    ack codec limits since seq id db = ack codec limits since seq id db.filled := by
  by_cases hzero : db.state.earliestSeq = 0
  · have hearliest : db.state.earliest = db.state.deliveredSeq + 1 := if_pos hzero
    unfold ack
    have hevict (raw : Raw) :
        evict codec limits since ((acknowledged codec db.state raw).deliveredSeq + 1
            - (acknowledged codec db.state raw).earliestSeq) (acknowledged codec db.state raw) db.items
          = evict codec limits since ((acknowledged codec db.filled.state raw).deliveredSeq + 1
            - (acknowledged codec db.filled.state raw).earliestSeq)
            (acknowledged codec db.filled.state raw) db.items := by
      have hfirst : (acknowledged codec db.state raw).earliestSeq = 1 := if_pos hzero
      have hlast : (acknowledged codec db.state raw).deliveredSeq = db.state.deliveredSeq + 1 := rfl
      have hfilled : acknowledged codec db.filled.state raw
          = { acknowledged codec db.state raw with
              earliestSeq := (acknowledged codec db.state raw).earliestSeq + db.state.deliveredSeq } := by
        rw [hfirst]
        simp [acknowledged, Db.filled, hearliest, Nat.add_comm]
      have hfuel : (acknowledged codec db.state raw).deliveredSeq + 1
          - (acknowledged codec db.state raw).earliestSeq = 1 + db.state.deliveredSeq := by
        omega
      rw [hfuel, evict_missing, hfilled]
      · congr 1
        dsimp only
        omega
      · intro key hlow hhigh
        apply h.get_eq_none
        rw [hfirst] at hhigh
        omega
      · omega
    simp only [hevict]
    rfl
  · have hsame : db.filled = db := by
      simp [Db.filled, State.earliest, hzero]
    rw [hsame]

theorem ack_stopped (hexec : ack codec limits since seq id db = .ok db') :
    Stopped codec limits since db'.state db'.items := by
  unfold ack at hexec
  split_ifs at hexec
  split at hexec
  · cases hexec
  · split at hexec
    · cases hexec
    · split_ifs at hexec
      cases hexec
      exact evict_stopped _ _ _ le_rfl

theorem earliest_filled (h : Invariant codec maxBytes db) :
    db.filled.state.earliest = db.state.earliest := by
  have hpos := h.earliest_pos
  exact if_neg (show ¬ db.state.earliest = 0 by omega)

/-- With its first number filled in, the record represents a queue. -/
theorem Invariant.rep (h : Invariant codec maxBytes db) :
    ∃ archive pending staged, Rep codec db.filled archive pending staged := by
  have hready := h.delivered_le_ready
  have hnext := h.ready_le_next
  have hpos := h.earliest_pos
  have hle := h.earliest_le
  obtain ⟨values, hitems⟩ : ∃ values, db.items = Bucket.numbered db.state.earliest values :=
    ⟨_, Bucket.eq_numbered h.keys⟩
  have hlength : values.length = db.state.nextSeq + 1 - db.state.earliest := by
    have hkeys := congrArg List.length h.keys
    rwa [hitems, Bucket.keys_numbered, List.length_range', List.length_range'] at hkeys
  -- The acknowledged messages, then the published ones, then the staged ones.
  obtain ⟨archive, others, rfl, harchive⟩ : ∃ archive others, values = archive ++ others
      ∧ archive.length = db.state.deliveredSeq + 1 - db.state.earliest :=
    ⟨values.take (db.state.deliveredSeq + 1 - db.state.earliest), _, (List.take_append_drop _ values).symm,
      by rw [List.length_take]; omega⟩
  obtain ⟨pending, staged, rfl, hpending⟩ : ∃ pending staged, others = pending ++ staged
      ∧ pending.length = db.state.readySeq - db.state.deliveredSeq :=
    ⟨others.take (db.state.readySeq - db.state.deliveredSeq), _, (List.take_append_drop _ others).symm,
      by rw [List.length_append] at hlength; rw [List.length_take]; omega⟩
  simp only [List.length_append] at hlength
  have hsplit : db.items = Bucket.numbered db.state.earliest archive
      ++ Bucket.numbered (db.state.earliest + archive.length) (pending ++ staged) := by
    rw [hitems, Bucket.numbered_append]
  refine ⟨archive, pending, staged, ?_, ?_, ?_, ?_, ?_, ?_, ?_, ?_, ?_⟩
  · rw [earliest_filled h, List.append_assoc]
    exact hitems
  · rw [earliest_filled h]
    change db.state.deliveredSeq + 1 = _
    omega
  · change db.state.readySeq = db.state.deliveredSeq + _
    omega
  · change db.state.nextSeq = db.state.readySeq + _
    omega
  · rwa [earliest_filled h]
  · intro hzero
    exact absurd hzero (show db.state.earliest ≠ 0 by omega)
  · change db.state.bytes = _
    rw [h.bytes, hsplit, Bucket.weight_append, Bucket.weight_numbered_none, Bucket.weight_numbered_all,
      Nat.zero_add]
    · intro key hlow _
      simp only [decide_eq_true_eq]
      omega
    · intro key _ hhigh
      simp only [decide_eq_false_iff_not]
      omega
  · change db.state.archiveBytes = _
    rw [h.archiveBytes, hsplit, Bucket.weight_append, Bucket.weight_numbered_all,
      Bucket.weight_numbered_none, Nat.add_zero]
    · intro key hlow _
      simp only [decide_eq_false_iff_not]
      omega
    · intro key _ hhigh
      simp only [decide_eq_true_eq]
      omega
  · rw [earliest_filled h, List.append_assoc]
    intro offset raw hget
    apply h.item
    rw [hitems, Bucket.get_numbered, if_pos (Nat.le_add_right _ _), Nat.add_sub_cancel_left, hget]

/-- What a successful acknowledgement leaves: it has removed a front part of the acknowledged messages,
until the rest is young and small enough. -/
structure Evicted (codec : Codec Raw) (limits : Limits) (since : String → Option Int) (maxBytes : Nat)
    (db db' : Db Raw) : Prop where
  delivered : db'.state.deliveredSeq = db.state.deliveredSeq + 1
  ready : db'.state.readySeq = db.state.readySeq
  earliest_le : db.state.earliest ≤ db'.state.earliest
  acknowledged : db'.state.earliest ≤ db'.state.deliveredSeq + 1
  removed : ∀ seq, seq < db'.state.earliest → db'.items.get seq = none
  kept : ∀ seq, db'.state.earliest ≤ seq → db'.items.get seq = db.items.get seq
  readable : ∀ seq, db'.state.earliest ≤ seq → seq ≤ db'.state.readySeq →
    ∃ message raw, get codec seq db' = .ok (message, raw) ∧ db.items.get seq = some raw
  bounded : (db'.state.earliest = db'.state.deliveredSeq + 1 ∧ db'.state.archiveBytes = 0)
    ∨ ∃ old, db'.items.get db'.state.earliest = some old ∧ expired codec limits since old = false
      ∧ db'.state.archiveBytes ≤ limits.replayBytes
  invariant : Invariant codec maxBytes db'

theorem Invariant.get_eq_ok (h : Invariant codec maxBytes db) (hlow : db.state.earliest ≤ seq)
    (hhigh : seq ≤ db.state.readySeq) :
    ∃ message raw, get codec seq db = .ok (message, raw) ∧ db.items.get seq = some raw := by
  obtain ⟨raw, hraw⟩ := h.get_isSome hlow (hhigh.trans h.ready_le_next)
  obtain ⟨message, hdecode, -, -⟩ := h.item _ _ hraw
  refine ⟨message, raw, ?_, hraw⟩
  rw [get, if_neg (by omega), hraw]
  simp only [hdecode]

/-- What an acknowledgement removes, and when it stops. -/
theorem Invariant.evicted (h : Invariant codec maxBytes db)
    (hexec : ack codec limits since seq id db = .ok db') :
    Evicted codec limits since maxBytes db db' := by
  obtain ⟨archive, pending, staged, hrep⟩ := h.rep
  have hstopped := ack_stopped hexec
  rw [ack_filled h] at hexec
  obtain ⟨raw, rest, message, count, rfl, -, -, -, hcount, hdb, hrep'⟩ := hrep.ack hexec
  rw [earliest_filled h] at hdb
  have hpos := h.earliest_pos
  have hseq : db'.state.earliestSeq = db.state.earliest + count := by rw [hdb]
  have hearliest : db'.state.earliest = db.state.earliest + count := by
    rw [State.earliest, if_neg (by omega), hseq]
  have hdelivered : db'.state.deliveredSeq = db.state.deliveredSeq + 1 := by rw [hdb]; rfl
  have hready : db'.state.readySeq = db.state.readySeq := by rw [hdb]; rfl
  have hold : db.items = Bucket.numbered db.state.earliest ((archive ++ [raw]) ++ (rest ++ staged)) := by
    have hitems := hrep.items
    rw [earliest_filled h] at hitems
    simpa [Db.filled] using hitems
  have hbytes : db'.state.bytes ≤ maxBytes := by
    have hbefore := h.bytes_le
    have hafter : db'.state.bytes = db.state.bytes - codec.size raw := by rw [hdb]; rfl
    omega
  have hinvariant : Invariant codec maxBytes db' := hrep'.invariant hbytes
  have hkept : ∀ seq, db'.state.earliest ≤ seq → db'.items.get seq = db.items.get seq := by
    intro seq hlow
    rw [hearliest] at hlow
    have hdrop : (archive ++ [raw]).drop count ++ rest ++ staged
        = ((archive ++ [raw]) ++ (rest ++ staged)).drop count := by
      rw [List.append_assoc, ← List.drop_append_of_le_length (by simpa using hcount)]
    rw [hrep'.items, hearliest, hold, hdrop, Bucket.get_numbered, Bucket.get_numbered, if_pos hlow,
      if_pos (by omega), List.getElem?_drop]
    congr 1
    omega
  refine ⟨hdelivered, hready, by omega, hinvariant.earliest_le, fun seq => hinvariant.get_eq_none, hkept,
    ?_, ?_, hinvariant⟩
  · intro seq hlow hhigh
    obtain ⟨found, value, hget, hvalue⟩ := hinvariant.get_eq_ok hlow hhigh
    exact ⟨found, value, hget, by rw [← hkept seq hlow, hvalue]⟩
  · rw [Stopped, hseq, ← hearliest] at hstopped
    rcases hstopped with hempty | hyoung
    · left
      have harchive := hrep'.delivered
      have hnone : (archive ++ [raw]).drop count = [] := List.length_eq_zero_iff.mp (by omega)
      refine ⟨by have := hinvariant.earliest_le; omega, ?_⟩
      rw [hrep'.archiveBytes, hnone]
      rfl
    · exact .inr hyoung

/-- When an acknowledgement succeeds. -/
theorem Invariant.ack_isOk (h : Invariant codec maxBytes db) :
    (∃ db', ack codec limits since seq id db = .ok db')
      ↔ seq = db.state.deliveredSeq + 1 ∧ seq ≤ db.state.readySeq
        ∧ ∃ message raw, get codec seq db = .ok (message, raw) ∧ message.id = id := by
  constructor
  · rintro ⟨db', hexec⟩
    unfold ack at hexec
    split_ifs at hexec with hcontiguous
    rw [not_or, not_not, not_lt] at hcontiguous
    obtain ⟨rfl, hready⟩ := hcontiguous
    obtain ⟨message, raw, hget, hraw⟩ := h.get_eq_ok h.earliest_le hready
    obtain ⟨found, hdecode, -, -⟩ := h.item _ _ hraw
    simp only [hraw, hdecode] at hexec
    split_ifs at hexec with hid
    refine ⟨rfl, hready, found, raw, ?_, not_not.mp hid⟩
    have hlow := h.earliest_le
    rw [get, if_neg (by omega), hraw]
    simp only [hdecode]
  · rintro ⟨rfl, hready, message, raw, hget, hid⟩
    have hlow := h.earliest_le
    rw [get, if_neg (by omega)] at hget
    unfold ack
    rw [if_neg (by omega)]
    split at hget
    · cases hget
    · rename_i value hvalue
      split at hget
      · cases hget
      · rename_i found hdecode
        cases hget
        dsimp only
        rw [if_neg (not_not.mpr hid)]
        exact ⟨_, rfl⟩

end Acknowledging

/-- **Eviction.** The loop ends from every state. A valid acknowledgement succeeds and evicts a front part
of the acknowledged messages; any other leaves the store as it was. -/
theorem ack_eviction (codec : Codec Raw) (maxBytes : Nat) (store : Store Raw)
    (since : String → Option Int) (seq : Nat) (id : String) (h : Invariant codec maxBytes store.db) :
    (∀ st items, Stopped codec store.limits since
      (evict codec store.limits since (st.deliveredSeq + 1 - st.earliestSeq) st items).1
      (evict codec store.limits since (st.deliveredSeq + 1 - st.earliestSeq) st items).2)
    ∧ ((seq = store.db.state.deliveredSeq + 1 ∧ seq ≤ store.db.state.readySeq
          ∧ ∃ message raw, get codec seq store.db = .ok (message, raw) ∧ message.id = id) →
        Evicted codec store.limits since maxBytes store.db (store.call codec (.op (.ack since seq id))).db)
    ∧ (¬ (seq = store.db.state.deliveredSeq + 1 ∧ seq ≤ store.db.state.readySeq
          ∧ ∃ message raw, get codec seq store.db = .ok (message, raw) ∧ message.id = id) →
        store.call codec (.op (.ack since seq id)) = store) := by
  refine ⟨fun st items => evict_stopped _ _ _ le_rfl, ?_, ?_⟩
  · intro hvalid
    obtain ⟨db', hexec⟩ := h.ack_isOk.mpr hvalid
    rw [Store.call, exec, hexec]
    exact h.evicted hexec
  · intro hinvalid
    rw [Store.call, exec]
    cases hexec : ack codec store.limits since seq id store.db with
    | error err => rfl
    | ok db' => exact absurd (h.ack_isOk.mp ⟨db', hexec⟩) hinvalid

def thirdMessage : Message :=
  { kind := .transactionRows, seq := 3, id := messageId "s" "g" 3 }

def olderStore : Store Message where
  limits := { maxBytes := 10, reserve := 0 }
  db := { state := { sourceId := "s", generation := "g", deliveredSeq := 2, readySeq := 3, nextSeq := 3
                     bytes := Codec.plain.size thirdMessage }
          items := [(3, thirdMessage)] }

theorem olderStore_invariant : Invariant .plain 10 olderStore.db := by
  refine ⟨by decide, by decide, by decide, by decide, by decide, rfl, by decide, rfl, ?_⟩
  intro seq raw hget
  have hseq : seq = 3 ∧ raw = thirdMessage := by
    by_cases hthree : seq = 3
    · subst hthree
      exact ⟨rfl, (Option.some.inj hget).symm⟩
    · have hnone : olderStore.db.items.get seq = none := by
        have hne : (seq == 3) = false := beq_eq_false_iff_ne.mpr hthree
        simp [olderStore, Bucket.get, List.lookup_cons, hne]
      rw [hnone] at hget
      cases hget
  obtain ⟨rfl, rfl⟩ := hseq
  exact ⟨thirdMessage, rfl, rfl, rfl⟩

theorem ack_eviction_older :
    Invariant .plain 10 olderStore.db
    ∧ Evicted .plain olderStore.limits (fun _ => none) 10 olderStore.db
      (olderStore.call .plain (.op (.ack (fun _ => none) 3 (messageId "s" "g" 3)))).db :=
  ⟨olderStore_invariant,
    (ack_eviction .plain 10 olderStore (fun _ => none) 3 (messageId "s" "g" 3)
      olderStore_invariant).2.1 ⟨rfl, le_rfl, thirdMessage, thirdMessage, rfl, rfl⟩⟩

end GoSync.Queue
