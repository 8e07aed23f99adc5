import GoSync.Server.Frame

/-!
# Exactly-once receive

Whatever is delivered to `store`, how often and in which order, the database only ever moves along
the one sequence of states that storing the messages of a generation once each in order passes
through. The position on it is `received_seq`.

A message outside the list may be delivered as well, as long as it does not carry the number the
server waits for: the server cannot tell which of two messages with the next number is the right one.
-/

namespace GoSync.Server

variable {Raw Value Hash : Type} [DecidableEq Hash]

structure Target (Raw Value Hash : Type) where
  types : TypeCache := []
  db : Db Raw Value Hash

/-- What can happen to a target: a call of `store`, whose commit may take effect and be reported as failed, a
call that fails without an effect for a reason outside the model, a cached read of column types, or a restart
of the server. The target that a reload puts in the place of another one may have read the types before a
column was added, so that it knows only the first ones; a read that breaks off leaves the same. -/
inductive Delivery (Raw : Type) where
  | store (backend : FileEffect → Bool) (message : Message) (raw : Raw) (reported : Bool := true)
  | failed
  | remember (table : String)
  | rememberFirst (count : Nat) (table : String)
  | restart

/-- A failed call leaves the database as it was: its transaction is rolled back. -/
def Target.deliver (rt : Runtime Raw Value Hash) (target : Target Raw Value Hash) :
    Delivery Raw → Target Raw Value Hash
  | .store backend message raw reported =>
      match store rt { types := target.types, backend := backend } message raw target.db with
      | .error _ => target
      | .ok db => { types := typesAfter reported message target.db.syncState target.types, db := db }
  | .failed => target
  | .remember table => { target with types := remember target.types target.db.tables table }
  | .rememberFirst count table =>
      { target with types := rememberFirst count target.types target.db.tables table }
  | .restart => { target with types := [] }

def storeAll (rt : Runtime Raw Value Hash) (messages : List (Message × Raw))
    (db : Db Raw Value Hash) : Except StoreError (Db Raw Value Hash) :=
  messages.foldlM (fun db entry => store rt .plain entry.1 entry.2 db) db

structure Numbered (generation : String) (messages : List (Message × Raw)) : Prop where
  generation : ∀ entry ∈ messages, entry.1.generation = generation
  seq : ∀ index entry, messages[index]? = some entry → entry.1.seq = index + 1

/-- Every call is for a message of the list, or for another message of the generation with a number
that is not the next one. -/
def Drawn (rt : Runtime Raw Value Hash) (generation : String) (messages : List (Message × Raw)) :
    Target Raw Value Hash → List (Delivery Raw) → Prop
  | _, [] => True
  | target, delivery :: rest =>
      (match delivery with
        | .store _ message raw _ => (message, raw) ∈ messages
            ∨ (message.generation = generation
              ∧ message.seq ≠ receivedOf generation target.db + 1)
        | _ => True)
        ∧ Drawn rt generation messages (target.deliver rt delivery) rest

/-- The database is where storing a front part of the messages in order leads, and remembers the hash
of each of them. -/
structure OnTrack (rt : Runtime Raw Value Hash) (generation : String)
    (messages : List (Message × Raw)) (start : Db Raw Value Hash)
    (target : Target Raw Value Hash) : Prop where
  coherent : Coherent target.types target.db.tables
  received_le : receivedOf generation target.db ≤ messages.length
  stored : storeAll rt (messages.take (receivedOf generation target.db)) start = .ok target.db
  bounded : receivedOf generation target.db ≤ maxInt64
  hashed : ∀ index entry, messages[index]? = some entry →
    index < receivedOf generation target.db →
    { generation := generation, seq := index + 1, payloadHash := rt.payloadHash entry.2 }
        ∈ hashesOf generation target.db
      ∧ ∀ row ∈ hashesOf generation target.db, row.generation = generation →
        row.seq = index + 1 → row.payloadHash = rt.payloadHash entry.2

variable {rt : Runtime Raw Value Hash} {generation : String} {messages : List (Message × Raw)}
  {start : Db Raw Value Hash} {target : Target Raw Value Hash}

theorem onTrack_start {types : TypeCache} (hcoherent : Coherent types start.tables)
    (hstart : receivedOf generation start = 0) :
    OnTrack rt generation messages start { types := types, db := start } := by
  refine ⟨hcoherent, ?_, ?_, ?_, ?_⟩
  · exact hstart ▸ Nat.zero_le _
  · change storeAll rt (messages.take (receivedOf generation start)) start = .ok start
    rw [hstart, List.take_zero]
    rfl
  · exact hstart ▸ Nat.zero_le _
  · intro index entry _ hlt
    change index < receivedOf generation start at hlt
    omega

variable {message : Message} {raw : Raw}

/-- A copy changes nothing; the next message extends the prefix. -/
theorem OnTrack.store (h : OnTrack rt generation messages start target)
    (hnumbered : Numbered generation messages) {backend : FileEffect → Bool}
    {db : Db Raw Value Hash} (hdrawn : (message, raw) ∈ messages
      ∨ (message.generation = generation ∧ message.seq ≠ receivedOf generation target.db + 1))
    (hstore : store rt { types := target.types, backend := backend } message raw target.db
      = .ok db) (reported : Bool) :
    OnTrack rt generation messages start
      { types := typesAfter reported message target.db.syncState target.types, db := db } := by
  have hcoherent := h.coherent.store hstore reported
  have hgeneration : message.generation = generation := by
    rcases hdrawn with hmem | ⟨hsame, -⟩
    · exact hnumbered.generation _ hmem
    · exact hsame
  have hplain := store_plain h.coherent hstore
  obtain ⟨hsize, ⟨hsame, hold, rfl⟩ | ⟨current, cleared, hswitch, hseq, hreceive⟩⟩ :=
    store_cases hstore
  · exact ⟨hcoherent, h.received_le, h.stored, h.bounded, h.hashed⟩
  · obtain ⟨hnewGeneration, hnewReceived, -, hfresh, hhash, -⟩ := receive_effect hswitch hreceive
    rw [(switchGeneration_received hswitch).1, hgeneration] at hseq
    rw [hgeneration] at hfresh hhash hnewGeneration
    have hmem : (message, raw) ∈ messages := by
      rcases hdrawn with hmem | ⟨-, hne⟩
      · exact hmem
      · exact absurd hseq hne
    -- The accepted message is the one the list has at this place.
    obtain ⟨index, hindex⟩ := List.getElem?_of_mem hmem
    have hposition : index = receivedOf generation target.db := by
      have hat : message.seq = index + 1 := hnumbered.seq index _ hindex
      omega
    subst hposition
    have hreceived : receivedOf generation db = receivedOf generation target.db + 1 := by
      conv_lhs => rw [receivedOf, if_pos hnewGeneration, hnewReceived, hseq]
    have hlength : receivedOf generation target.db < messages.length :=
      (List.getElem?_eq_some_iff.mp hindex).1
    have hhashes : hashesOf generation db = hashesOf generation target.db
        ++ [{ generation := generation, seq := message.seq, payloadHash := rt.payloadHash raw }] := by
      conv_lhs => rw [hashesOf, if_pos hnewGeneration, hhash]
    refine ⟨hcoherent, ?_, ?_, ?_, ?_⟩
    · change receivedOf generation db ≤ messages.length
      omega
    · change storeAll rt (messages.take (receivedOf generation db)) start = .ok db
      rw [hreceived, List.take_add_one, hindex]
      refine Except.foldlM_append_eq_ok.mpr ⟨target.db, h.stored, ?_⟩
      exact Except.foldlM_cons_eq_ok.mpr ⟨db, hplain, rfl⟩
    · change receivedOf generation db ≤ maxInt64
      omega
    · intro position entry hentry hlt
      change position < receivedOf generation db at hlt
      change _ ∈ hashesOf generation db ∧ ∀ row ∈ hashesOf generation db, _
      rw [hhashes]
      rcases Nat.lt_succ_iff_lt_or_eq.mp (hreceived ▸ hlt) with hbefore | rfl
      · obtain ⟨hin, hunique⟩ := h.hashed position entry hentry hbefore
        refine ⟨List.mem_append_left _ hin, ?_⟩
        intro row hrow hrowGeneration hrowSeq
        rcases List.mem_append.mp hrow with hrow | hrow
        · exact hunique row hrow hrowGeneration hrowSeq
        · rw [List.mem_singleton] at hrow
          subst hrow
          change message.seq = position + 1 at hrowSeq
          omega
      · obtain rfl : (message, raw) = entry := Option.some_injective _ (hindex.symm.trans hentry)
        refine ⟨List.mem_append_right _ ?_, ?_⟩
        · rw [List.mem_singleton, hseq]
        · intro row hrow hrowGeneration hrowSeq
          rcases List.mem_append.mp hrow with hrow | hrow
          · exact absurd (hrowSeq.trans hseq.symm) (hfresh row hrow hrowGeneration)
          · rw [List.mem_singleton] at hrow
            rw [hrow]

theorem OnTrack.deliver (h : OnTrack rt generation messages start target)
    (hnumbered : Numbered generation messages) {delivery : Delivery Raw} {rest : List (Delivery Raw)}
    (hdrawn : Drawn rt generation messages target (delivery :: rest)) :
    OnTrack rt generation messages start (target.deliver rt delivery) := by
  cases delivery with
  | store backend message raw reported =>
      cases hstore : Server.store rt { types := target.types, backend := backend } message raw
          target.db with
      | error err =>
          simp only [Target.deliver, hstore]
          exact h
      | ok db =>
          simp only [Target.deliver, hstore]
          exact h.store hnumbered hdrawn.1 hstore reported
  | failed => exact h
  | remember table =>
      exact ⟨h.coherent.remember table, h.received_le, h.stored, h.bounded, h.hashed⟩
  | rememberFirst count table =>
      exact ⟨h.coherent.rememberFirst count table, h.received_le, h.stored, h.bounded, h.hashed⟩
  | restart => exact ⟨.nil, h.received_le, h.stored, h.bounded, h.hashed⟩

theorem OnTrack.deliveries (hnumbered : Numbered generation messages)
    (deliveries : List (Delivery Raw)) (h : OnTrack rt generation messages start target)
    (hdrawn : Drawn rt generation messages target deliveries) :
    OnTrack rt generation messages start (deliveries.foldl (Target.deliver rt) target) := by
  induction deliveries generalizing target with
  | nil => exact h
  | cons delivery rest ih => exact ih (h.deliver hnumbered hdrawn) hdrawn.2

/-- A repeated message changes nothing. -/
theorem OnTrack.store_again (h : OnTrack rt generation messages start target)
    (hnumbered : Numbered generation messages) (backend : FileEffect → Bool)
    (hmem : (message, raw) ∈ messages) (hseq : message.seq ≤ receivedOf generation target.db) :
    Server.store rt { types := target.types, backend := backend } message raw target.db
      = .ok target.db := by
  obtain ⟨index, hindex⟩ := List.getElem?_of_mem hmem
  have hgeneration : message.generation = generation := hnumbered.generation _ hmem
  have hposition : message.seq = index + 1 := hnumbered.seq index _ hindex
  obtain ⟨-, hunique⟩ := h.hashed index _ hindex (by omega)
  have hsame : target.db.syncState.generation = generation := by
    by_contra hother
    rw [receivedOf, if_neg hother] at hseq
    omega
  have hbounded := h.bounded
  rw [receivedOf, if_pos hsame] at hseq hbounded
  rw [hashesOf, if_pos hsame] at hunique
  unfold Server.store switchGeneration
  rw [if_neg (by omega), if_pos (hgeneration.trans hsame.symm)]
  change (if message.seq ≤ target.db.syncState.received then _ else _) = _
  rw [if_pos hseq, if_neg]
  intro hconflict
  obtain ⟨row, hrow, hdiffers⟩ := List.any_eq_true.mp hconflict
  simp only [decide_eq_true_eq] at hdiffers
  obtain ⟨hrowGeneration, hrowSeq, hhash⟩ := hdiffers
  exact hhash (hunique row hrow (hrowGeneration.trans hgeneration) (hrowSeq.trans hposition))

/-- Another message with its number is refused. -/
theorem OnTrack.store_conflict (h : OnTrack rt generation messages start target)
    (hinjective : Function.Injective rt.payloadHash) (backend : FileEffect → Bool)
    {entry : Message × Raw} {index : Nat}
    (hgeneration : message.generation = generation) (hindex : messages[index]? = some entry)
    (hposition : message.seq = index + 1) (hraw : raw ≠ entry.2)
    (hseq : message.seq ≤ receivedOf generation target.db) :
    Server.store rt { types := target.types, backend := backend } message raw target.db
      = .error (.differentPayload message.seq) := by
  obtain ⟨hin, -⟩ := h.hashed index _ hindex (by omega)
  have hsame : target.db.syncState.generation = generation := by
    by_contra hother
    rw [receivedOf, if_neg hother] at hseq
    omega
  have hbounded := h.bounded
  rw [receivedOf, if_pos hsame] at hseq hbounded
  rw [hashesOf, if_pos hsame] at hin
  unfold Server.store switchGeneration
  rw [if_neg (by omega), if_pos (hgeneration.trans hsame.symm)]
  change (if message.seq ≤ target.db.syncState.received then _ else _) = _
  rw [if_pos hseq, if_pos]
  refine List.any_eq_true.mpr ⟨_, hin, ?_⟩
  simp only [decide_eq_true_eq]
  exact ⟨hgeneration.symm, hposition.symm, fun hhash => hraw (hinjective hhash).symm⟩

theorem store_gap {env : Surroundings} {db : Db Raw Value Hash}
    (hgap : receivedOf message.generation db + 1 < message.seq) :
    ∃ err, Server.store rt env message raw db = .error err := by
  cases hstore : Server.store rt env message raw db with
  | error err => exact ⟨err, rfl⟩
  | ok db' =>
      exfalso
      obtain ⟨-, ⟨hsame, hold, -⟩ | ⟨current, cleared, hswitch, hseq, -⟩⟩ := store_cases hstore
      · rw [receivedOf, if_pos hsame.symm] at hgap
        omega
      · rw [(switchGeneration_received hswitch).1] at hseq
        omega

/-- **Exactly-once receive.** After any deliveries of the messages of a generation, repeated, out of
order or left out, and of other messages under other numbers than the next, the database is the one
that storing the first `received_seq` messages once each in order produces. There, a message stored
before is a no-op, a stored number with another payload and a gap are errors. -/
theorem exactly_once (rt : Runtime Raw Value Hash)
    (hinjective : Function.Injective rt.payloadHash) (generation : String)
    (messages : List (Message × Raw)) (hnumbered : Numbered generation messages)
    (start : Target Raw Value Hash) (hcoherent : Coherent start.types start.db.tables)
    (hstart : receivedOf generation start.db = 0) (deliveries : List (Delivery Raw))
    (hdrawn : Drawn rt generation messages start deliveries) :
    let final := deliveries.foldl (Target.deliver rt) start
    let received := receivedOf generation final.db
    received ≤ messages.length
      ∧ storeAll rt (messages.take received) start.db = .ok final.db
      ∧ (∀ backend message raw, (message, raw) ∈ messages → message.seq ≤ received →
          Server.store rt { types := final.types, backend := backend } message raw final.db
            = .ok final.db)
      ∧ (∀ backend message raw index entry, message.generation = generation →
          messages[index]? = some entry → message.seq = index + 1 → raw ≠ entry.2 →
          message.seq ≤ received →
          Server.store rt { types := final.types, backend := backend } message raw final.db
            = .error (.differentPayload message.seq))
      ∧ (∀ backend message raw, message.generation = generation → received + 1 < message.seq →
          ∃ err, Server.store rt { types := final.types, backend := backend } message raw final.db
            = .error err) := by
  have hfinal : OnTrack rt generation messages start.db
      (deliveries.foldl (Target.deliver rt) start) :=
    OnTrack.deliveries hnumbered deliveries (onTrack_start hcoherent hstart) hdrawn
  refine ⟨hfinal.received_le, hfinal.stored, ?_, ?_, ?_⟩
  · intro backend message raw hmem hseq
    exact hfinal.store_again hnumbered backend hmem hseq
  · intro backend message raw index entry hgeneration hindex hposition hraw hseq
    exact hfinal.store_conflict hinjective backend hgeneration hindex hposition hraw hseq
  · intro backend message raw hgeneration hgap
    subst hgeneration
    exact store_gap hgap

/-- A snapshot of two messages that arrives with its first message repeated and then forged. -/
theorem exactly_once_forged_replay :
    let first : Message := { kind := .snapshotBegin, generation := "g", seq := 1 }
    let last : Message := { kind := .snapshotEnd, generation := "g", seq := 2 }
    let rt := Runtime.plain { id := "s", tables := [] }
    let start : Target Message String Message := { db := { tables := fun _ => none } }
    let store message := Delivery.store (fun _ => true) message message
    let final := [store first, store first, store { first with createdAt := "later" }, .restart,
      store last].foldl (Target.deliver rt) start
    receivedOf "g" final.db = 2
      ∧ storeAll rt [(first, first), (last, last)] start.db = .ok final.db := by
  intro first last rt start store final
  have hnumbered : Numbered "g" [(first, first), (last, last)] := by
    refine ⟨by simp [first, last], ?_⟩
    intro index entry hentry
    match index with
    | 0 => cases hentry; rfl
    | 1 => cases hentry; rfl
    | index + 2 => simp at hentry
  have hdrawn : Drawn rt "g" [(first, first), (last, last)] start
      [store first, store first, store { first with createdAt := "later" }, .restart, store last] := by
    refine ⟨.inl (by simp), .inl (by simp), .inr ⟨rfl, by decide⟩, trivial, .inl (by simp), trivial⟩
  have hreceived : receivedOf "g" final.db = 2 := by decide
  have honce := exactly_once rt Function.injective_id "g" _ hnumbered start .nil rfl _ hdrawn
  refine ⟨hreceived, ?_⟩
  have hstored := honce.2.1
  rw [hreceived] at hstored
  exact hstored

/-- The forged message comes under the next number and before the right one. It is stored, the right one is
refused, and the database is not the one that the two messages lead to. -/
theorem forged_next_message_stored :
    let first : Message := { kind := .snapshotBegin, generation := "g", seq := 1 }
    let last : Message := { kind := .snapshotEnd, generation := "g", seq := 2 }
    let forged : Message := { last with createdAt := "later" }
    let rt := Runtime.plain { id := "s", tables := [] }
    let start : Target Message String Message := { db := { tables := fun _ => none } }
    let store message := Delivery.store (fun _ => true) message message
    let final := [store first, store forged, store last].foldl (Target.deliver rt) start
    let messages := [(first, first), (last, last)]
    Numbered "g" messages ∧ receivedOf "g" final.db = 2
      ∧ (Server.store rt { types := final.types, backend := fun _ => true } last last final.db).isOk = false
      ∧ storeAll rt (messages.take 2) start.db ≠ .ok final.db := by
  intro first last forged rt start store final messages
  refine ⟨⟨by simp [messages, first, last], ?_⟩, by decide, by decide, ?_⟩
  · intro index entry hentry
    match index with
    | 0 => cases hentry; rfl
    | 1 => cases hentry; rfl
    | index + 2 => simp [messages] at hentry
  · intro hstored
    have hhashes : (storeAll rt (messages.take 2) start.db).map (fun db => db.messageHash)
        = .ok final.db.messageHash := by
      rw [hstored]
      rfl
    exact absurd hhashes (by decide)

end GoSync.Server
