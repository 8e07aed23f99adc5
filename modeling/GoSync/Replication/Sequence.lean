import GoSync.Replication.Acceptance

/-!
# Delivery in sequence order

The published messages of a queue, stored one after the other by a server that starts on another
generation.
-/

namespace GoSync.Replication

open Capture (Table Transaction SnapshotGroup Streamed Collector openCollector Decodes DecodesGroup
  Backlog)
open Queue (Checkpoint Limits)
open Server (Replica Tables StoreError Holds InOrder Next acceptAll storeAll maxInt64 ofSource)

variable {Raw Value Hash : Type} {rt : Server.Runtime Raw Value Hash}

section Kinds

variable {crt : Capture.Runtime} {hash : String} {bodies messages : List Message}

theorem ofSource_stamped (h : List.Forall₂ (Capture.Stamped hash) bodies messages)
    (hbodies : ∀ body ∈ bodies, ofSource body.kind = true) :
    ∀ message ∈ messages, ofSource message.kind = true := by
  intro message hmem
  obtain ⟨body, hbody, hstamped⟩ := Capture.forall₂_mem_right h hmem
  rw [(stamped_same hstamped).1]
  exact hbodies body hbody

theorem kind_chunkMessages {template body : Message} {chunks : List (List Row)}
    (h : body ∈ Capture.chunkMessages template chunks) : body.kind = template.kind := by
  obtain ⟨entry, -, rfl⟩ := List.mem_map.mp h
  rfl

/-- After the first message of the snapshot, all published messages are of the kinds the replica
knows. -/
theorem ofSource_streamed {history : List Transaction} {point durable : Capture.Lsn}
    {groups : List (MarkedGroup Message Checkpoint)} {current : String}
    (h : Streamed crt history hash point groups durable current) :
    ∀ message ∈ groups.flatMap MarkedGroup.values, ofSource message.kind = true := by
  induction h with
  | start => simp
  | @transaction _ _ _ _ group _ _ hgroup ih =>
      obtain ⟨_, _, -, -, -, -, hstamped⟩ := hgroup
      have hkinds := ofSource_stamped hstamped (by
        simp only [Capture.transactionMessages, List.mem_append, List.mem_singleton]
        rintro body (hbody | rfl)
        · rw [kind_chunkMessages hbody]
          rfl
        · rfl)
      rw [List.flatMap_append, List.flatMap_singleton]
      exact List.forall_mem_append.mpr ⟨ih, hkinds⟩
  | @refresh _ _ _ _ group _ hgroup ih =>
      obtain ⟨-, -, -, -, hstamped⟩ := hgroup
      have hkinds := ofSource_stamped hstamped (by
        simp only [Capture.refreshMessages, List.mem_append, List.mem_map, List.mem_singleton]
        rintro body (⟨table, -, rfl⟩ | rfl)
        · rfl
        · rfl)
      rw [List.flatMap_append, List.flatMap_singleton]
      exact List.forall_mem_append.mpr ⟨ih, hkinds⟩

theorem ofSource_snapshot {point : String} {group : MarkedGroup Message Checkpoint}
    {opening : Message} {rest : List Message} (h : SnapshotGroup crt hash point group)
    (hvalues : group.values = opening :: rest) :
    ∀ message ∈ rest, ofSource message.kind = true := by
  obtain ⟨_, _, _, -, -, -, -, -, -, hstamped⟩ := h
  rw [hvalues] at hstamped
  refine ofSource_stamped (List.forall₂_cons.mp hstamped).2 ?_
  simp only [List.append_eq, List.mem_append, List.mem_map, List.mem_singleton]
  rintro body ((⟨table, -, rfl⟩ | hbody) | rfl)
  · rfl
  · rw [kind_chunkMessages hbody]
    rfl
  · rfl

end Kinds

section Deliveries

theorem inOrder_zip {generation : String} {count : Nat} {raws : List Raw} {messages : List Message}
    (hdecode : List.Forall₂ (Decodes rt.codec) raws messages)
    (hgeneration : ∀ message ∈ messages, message.generation = generation)
    (hseq : ∀ index message, messages[index]? = some message → message.seq = count + index + 1)
    (hkind : ∀ message ∈ messages, ofSource message.kind = true) :
    InOrder rt generation count (messages.zip raws) := by
  induction hdecode generalizing count with
  | nil => trivial
  | @cons raw message raws messages hdecode _ ih =>
      refine ⟨⟨hgeneration _ List.mem_cons_self, hseq 0 message rfl, hdecode⟩,
        hkind _ List.mem_cons_self, ih ?_ ?_ ?_⟩
      · exact fun other hmem => hgeneration other (List.mem_cons_of_mem _ hmem)
      · intro index other hget
        have hnumber := hseq (index + 1) other hget
        omega
      · exact fun other hmem => hkind other (List.mem_cons_of_mem _ hmem)

variable [DecidableEq Hash]

def deliverAll (rt : Server.Runtime Raw Value Hash) (raws : List Raw) (db : Server.Db Raw Value Hash) :
    Except StoreError (Server.Db Raw Value Hash) :=
  raws.foldlM (fun db raw =>
    match rt.codec.unmarshal raw with
    | none => .error .json
    | some message => Server.store rt .plain message raw db) db

theorem deliverAll_eq_storeAll {raws : List Raw} {messages : List Message}
    (h : List.Forall₂ (Decodes rt.codec) raws messages) (db : Server.Db Raw Value Hash) :
    deliverAll rt raws db = storeAll rt (messages.zip raws) db := by
  induction h generalizing db with
  | nil => rfl
  | @cons raw message raws messages hdecode _ ih =>
      have hmessage : rt.codec.unmarshal raw = some message := hdecode
      rw [deliverAll, storeAll, List.zip_cons_cons, List.foldlM_cons, List.foldlM_cons, hmessage]
      congr 1
      funext next
      exact ih next

def openedReplica (crt : Capture.Runtime) (hash : String) (tables : Tables Value) : Replica Value where
  position := .snapshot crt.cfg.tables [] []
  version := hash
  tables := tables

variable {crt : Capture.Runtime} {history : List Transaction} {b : Backlog} {raws : List Raw}
  {start : Server.Db Raw Value Hash} {first : MarkedGroup Message Checkpoint}
  {rest : List (MarkedGroup Message Checkpoint)} {point : String}

omit [DecidableEq Hash] in
theorem numbered_published (h : Capture.Numbered b) {index : Nat} {message : Message}
    (hget : b.published[index]? = some message) :
    message.generation = b.origin.generation ∧ message.seq = index + 1 := by
  have hlt := (List.getElem?_eq_some_iff.mp hget).1
  obtain ⟨-, hgeneration, hseq, -⟩ := h index message (by rwa [List.getElem?_append_left hlt])
  exact ⟨hgeneration, hseq⟩

/-- A sealed queue opens its generation at a server on another one, and the messages after the first
arrive in order. -/
theorem sealed_opens (hnumbered : Capture.Numbered b) (hgroups : b.groups = first :: rest)
    (hfirst : SnapshotGroup crt b.origin.schemaHash point first)
    (hrest : Streamed crt history b.origin.schemaHash (crt.position point) rest
      (crt.position b.durableLsn) b.hash)
    (hsame : SameTables crt.cfg rt.cfg) (hdecode : List.Forall₂ (Decodes rt.codec) raws b.published)
    (hother : start.syncState.generation ≠ b.origin.generation) :
    ∃ opening messages raw raws' db, b.published = opening :: messages ∧ raws = raw :: raws'
      ∧ Server.store rt .plain opening raw start = .ok db
      ∧ Holds rt b.origin.generation 1 (openedReplica crt b.origin.schemaHash start.tables) db
      ∧ InOrder rt b.origin.generation 1 (messages.zip raws')
      ∧ ∀ last, acceptAll rt messages (openedReplica crt b.origin.schemaHash start.tables) = some last
        ↔ (∀ tx ∈ publishedBy history (crt.position point) (crt.position b.durableLsn),
            tx.changes ≠ [])
          ∧ ∃ tables, groupsEffect rt b.groups start.tables = .ok tables
            ∧ last = { position := .stream, version := b.hash, tables := tables } := by
  obtain ⟨opening, others, hvalues, hkind, htables, hversion, hnonempty, haccepted⟩ :=
    snapshotGroup_accepted_iff rt hfirst fun _ => hsame.storable
  have hpublished : b.published = opening :: (others ++ rest.flatMap MarkedGroup.values) := by
    rw [Backlog.published, hgroups, List.flatMap_cons, hvalues, List.cons_append]
  rw [hpublished] at hdecode
  obtain ⟨raw, raws', -, hrest', rfl⟩ := List.forall₂_cons_right_iff.mp hdecode
  have hplace : ∀ index message,
      (opening :: (others ++ rest.flatMap MarkedGroup.values))[index]? = some message →
      message.generation = b.origin.generation ∧ message.seq = index + 1 := by
    intro index message hget
    rw [← hpublished] at hget
    exact numbered_published hnumbered hget
  obtain ⟨hgeneration, hseq⟩ := hplace 0 opening rfl
  have hopened : ∃ db, Server.store rt .plain opening raw start = .ok db
      ∧ Holds rt opening.generation 1
        { position := .snapshot opening.tables [] [], version := opening.schemaVersion
          tables := start.tables } db :=
    Server.store_snapshotBegin (hgeneration ▸ hother) hkind hseq (hversion ▸ hnonempty)
      (htables ▸ hsame.allowed) (htables ▸ hsame.names.2)
  rw [hgeneration, htables, hversion] at hopened
  obtain ⟨db, hstore, hholds⟩ := hopened
  refine ⟨opening, _, raw, raws', db, hpublished, rfl, hstore, hholds, inOrder_zip hrest' ?_ ?_ ?_, ?_⟩
  · intro message hmem
    obtain ⟨index, hget⟩ := List.getElem?_of_mem hmem
    exact (hplace (index + 1) message hget).1
  · intro index message hget
    have hnumber := (hplace (index + 1) message hget).2
    omega
  · exact List.forall_mem_append.mpr ⟨ofSource_snapshot hfirst hvalues, ofSource_streamed hrest⟩
  · intro last
    rw [acceptAll_append, Option.bind_eq_some_iff, hgroups]
    constructor
    · rintro ⟨middle, hmiddle, hlast⟩
      obtain ⟨before, hbefore, rfl⟩ := (haccepted _ _).mp hmiddle
      obtain ⟨hrows, tables, hafter, rfl⟩ := (streamed_accepted_iff hrest hsame rfl rfl).mp hlast
      exact ⟨hrows, tables, Except.foldlM_cons_eq_ok.mpr ⟨before, hbefore, hafter⟩, rfl⟩
    · rintro ⟨hrows, tables, heffect, rfl⟩
      obtain ⟨before, hbefore, hafter⟩ := Except.foldlM_cons_eq_ok.mp heffect
      exact ⟨_, (haccepted _ _).mpr ⟨before, hbefore, rfl⟩,
        (streamed_accepted_iff hrest hsame rfl rfl).mpr ⟨hrows, tables, hafter, rfl⟩⟩

/-- What is sealed is delivered unless a transaction in it is empty. -/
theorem sealed_delivered_iff (hnumbered : Capture.Numbered b) (hgroups : b.groups = first :: rest)
    (hfirst : SnapshotGroup crt b.origin.schemaHash point first)
    (hrest : Streamed crt history b.origin.schemaHash (crt.position point) rest
      (crt.position b.durableLsn) b.hash)
    (hsame : SameTables crt.cfg rt.cfg) (hdecode : List.Forall₂ (Decodes rt.codec) raws b.published)
    (hother : start.syncState.generation ≠ b.origin.generation) (hbound : raws.length ≤ maxInt64)
    {tables : Tables Value} (heffect : groupsEffect rt b.groups start.tables = .ok tables) :
    (∃ db, deliverAll rt raws start = .ok db ∧ db.tables = tables)
      ↔ ∀ tx ∈ publishedBy history (crt.position point) (crt.position b.durableLsn),
        tx.changes ≠ [] := by
  obtain ⟨opening, messages, raw, raws', db, hpublished, rfl, hstore, hholds, hinOrder, haccepted⟩ :=
    sealed_opens hnumbered hgroups hfirst hrest hsame hdecode hother
  rw [deliverAll_eq_storeAll hdecode, hpublished, List.zip_cons_cons]
  have hsizes := hdecode.length_eq
  rw [hpublished, List.length_cons, List.length_cons] at hsizes
  have hfst : (messages.zip raws').map Prod.fst = messages := List.map_fst_zip (by omega)
  constructor
  · rintro ⟨last, hstored, -⟩
    obtain ⟨middle, hmiddle, hstored⟩ := Except.foldlM_cons_eq_ok.mp hstored
    cases hstore.symm.trans hmiddle
    obtain ⟨-, replica, hreplica, -⟩ := hholds.storeAll hinOrder hstored
    rw [hfst] at hreplica
    exact ((haccepted replica).mp hreplica).1
  · intro hrows
    have hreplica := (haccepted _).mpr ⟨hrows, tables, heffect, rfl⟩
    have hcount : 1 + (messages.zip raws').length ≤ maxInt64 := by
      rw [List.length_zip]
      rw [List.length_cons] at hbound
      omega
    obtain ⟨last, hlast⟩ := hholds.accepted hinOrder hcount (by rwa [hfst])
    obtain ⟨-, replica, hreplica', hend⟩ := hholds.storeAll hinOrder hlast
    rw [hfst, hreplica] at hreplica'
    cases hreplica'
    exact ⟨last, Except.foldlM_cons_eq_ok.mpr ⟨db, hstore, hlast⟩, hend.tables⟩

/-- **What the server accepts.** A collector runs in any way, and a server configured for the same
tables receives what is published, in sequence order. Nothing is published before the snapshot is
sealed. Where the target tables take the published rows and schemas, the server stores all messages
exactly if no published transaction is without rows. -/
theorem delivered_iff_rows (crt : Capture.Runtime) (rt : Server.Runtime Raw Value Hash)
    (hsame : SameTables crt.cfg rt.cfg) (history : List Transaction) (limits : Limits)
    (actions : List Collector.Action) (start : Server.Db Raw Value Hash)
    (hother : start.syncState.generation
      ≠ ((openCollector limits).run crt rt.codec history actions).queue.db.state.generation) :
    let c := (openCollector limits).run crt rt.codec history actions
    (c.queue.db.state.phase ≠ .stream → c.queue.published = [])
      ∧ (c.queue.db.state.phase = .stream →
        ∃ snap groups, List.Forall₂ (DecodesGroup rt.codec) c.queue.groups (snap :: groups)
          ∧ ∀ tables, groupsEffect rt (snap :: groups) start.tables = .ok tables →
            c.queue.published.length ≤ maxInt64 →
            ((∃ db, deliverAll rt c.queue.published start = .ok db ∧ db.tables = tables)
              ↔ ∀ tx ∈ publishedBy history (crt.position snap.mark.lsn)
                  (crt.position c.queue.db.state.durableLsn), tx.changes ≠ [])) := by
  intro c
  have hopen : Capture.Consistent crt rt.codec history (openCollector limits) _ :=
    Capture.consistent_open limits
  obtain ⟨b, h⟩ := hopen.run actions
  have hphase : c.queue.db.state.phase = b.phase := h.1.phase
  have hgeneration : c.queue.db.state.generation = b.origin.generation := h.1.sim.same.generation
  have hdurable : c.queue.db.state.durableLsn = b.durableLsn := h.1.durableLsn
  have hpublished : List.Forall₂ (Decodes rt.codec) c.queue.published b.published := h.1.published
  rw [hphase, hdurable]
  rcases h.2.captured.groups with ⟨hunsealed, hnone⟩ | ⟨hsealed, first, rest, point, hgroups, hfirst, hrest⟩
  · refine ⟨fun _ => ?_, fun hstream => absurd hstream hunsealed⟩
    rw [Backlog.published, hnone, List.flatMap_nil, List.forall₂_nil_right_iff] at hpublished
    exact hpublished
  · refine ⟨fun hne => absurd hsealed hne, fun _ => ⟨first, rest, hgroups ▸ h.1.groups, ?_⟩⟩
    intro tables heffect hbound
    have hpoint : first.mark.lsn = point := by
      obtain ⟨_, _, _, -, -, -, -, -, hmark, -⟩ := hfirst
      rw [hmark]
    rw [hpoint]
    exact sealed_delivered_iff h.2.captured.numbered hgroups hfirst hrest hsame hpublished
      (hgeneration ▸ hother) hbound (hgroups ▸ heffect)

theorem decodesGroup_plain {raws groups : List (MarkedGroup Message Checkpoint)}
    (h : List.Forall₂ (DecodesGroup .plain) raws groups) : raws = groups := by
  have heq : List.Forall₂ (· = ·) raws groups := by
    refine h.imp ?_
    rintro ⟨values, mark⟩ ⟨values', mark'⟩ ⟨rfl, hvalues⟩
    have hsame : List.Forall₂ (· = ·) values values' :=
      hvalues.imp fun _ _ hdecode => Option.some.inj hdecode
    rw [List.forall₂_eq_eq_eq] at hsame
    rw [hsame]
  rwa [List.forall₂_eq_eq_eq] at heq

section OneTable

def oneTable : Capture.Runtime :=
  .plain { sourceId := "s", tables := [⟨"public", "t"⟩] }

def oneTarget : Server.Runtime Message String Message :=
  .plain { id := "s", tables := [⟨"public", "t"⟩] }

def oneTableDb : Server.Db Message String Message where
  tables := fun name => if name = "t" then some { columns := [("id", "integer")] } else none

/-- A snapshot and one transaction with these changes. -/
def streamed (changes : List Capture.Change) : List Collector.Action :=
  let tx : Transaction := { xid := 1, «end» := 2, changes := changes }
  Capture.snapshotTaken oneTable
  ++ [.capture (.stream 0), .capture (.receive { records := tx.records oneTable.lsn } Capture.noFile)]
  ++ List.replicate (changes.length + 2) Capture.performed

def streamedCollector (changes : List Capture.Change) : Collector Message :=
  (openCollector { maxBytes := 100, reserve := 0 }).run oneTable oneTarget.codec
    [{ xid := 1, «end» := 2, changes := changes }] (streamed changes)

end OneTable

/-- A transaction with one insert is delivered. -/
theorem delivered_iff_rows_one_insert :
    (streamedCollector [Capture.insertSeven]).queue.published.length = 5
      ∧ ∃ db, deliverAll oneTarget (streamedCollector [Capture.insertSeven]).queue.published oneTableDb
        = .ok db := by
  have hlength : (streamedCollector [Capture.insertSeven]).queue.published.length = 5 := by decide
  have hphase : (streamedCollector [Capture.insertSeven]).queue.db.state.phase = .stream := by decide
  have happlied : (groupsEffect oneTarget (streamedCollector [Capture.insertSeven]).queue.groups
      oneTableDb.tables).toOption.isSome := by decide
  have hrun := (delivered_iff_rows oneTable oneTarget ⟨rfl, .refl _⟩
    [{ xid := 1, «end» := 2, changes := [Capture.insertSeven] }] { maxBytes := 100, reserve := 0 }
    (streamed [Capture.insertSeven]) oneTableDb (by decide)).2
  change (streamedCollector [Capture.insertSeven]).queue.db.state.phase = .stream → _ at hrun
  obtain ⟨snap, groups, hdecodes, hiff⟩ := hrun hphase
  obtain ⟨tables, htables⟩ := Option.isSome_iff_exists.mp happlied
  have hdecodes : List.Forall₂ (DecodesGroup .plain)
    (streamedCollector [Capture.insertSeven]).queue.groups (snap :: groups) := hdecodes
  rw [decodesGroup_plain hdecodes] at htables
  obtain ⟨db, hdb, -⟩ := (hiff tables (Except.toOption_eq_some.mp htables) (hlength.trans_le (by decide))).mpr
    fun tx hmem => by
      rw [List.mem_singleton.mp (publishedBy_subset hmem)]
      exact List.cons_ne_nil _ _
  exact ⟨hlength, db, hdb⟩

/-- The collector publishes the end of a transaction that touched none of its tables; the server has
no open transaction to end. -/
theorem zero_row_transaction_refused :
    (streamedCollector []).queue.published.map Message.kind
        = [.snapshotBegin, .schema, .snapshotEnd, .transactionEnd]
      ∧ deliverAll oneTarget (streamedCollector []).queue.published oneTableDb
        = .error (.endMismatch (oneTable.lsn.render 2) "") := by
  have hrefused : (match deliverAll oneTarget (streamedCollector []).queue.published oneTableDb with
      | .error err => some err
      | .ok _ => none) = some (.endMismatch (oneTable.lsn.render 2) "") := by decide
  refine ⟨by decide, ?_⟩
  generalize deliverAll oneTarget (streamedCollector []).queue.published oneTableDb = result at hrefused
  cases result with
  | error err => exact congrArg _ (Option.some.inj hrefused)
  | ok db => cases hrefused

end Deliveries

end GoSync.Replication
