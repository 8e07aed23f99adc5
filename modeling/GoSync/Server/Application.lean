import GoSync.Server.ExactlyOnce

/-!
# What is applied to the target tables

The server applies a transaction, a snapshot and a schema refresh with their last message, reading in
pages what it has staged. Here the effects are stated on the messages' contents: rows in the order in
which they were received, schemas in the order of their tables.
-/

namespace GoSync.Server

variable {Raw Value Hash : Type} {rt : Runtime Raw Value Hash}

def sortedSchemas (schemas : List SchemaTable) : List SchemaTable :=
  schemas.insertionSort fun first second => first.schema < second.schema
    ∨ (first.schema = second.schema ∧ first.name ≤ second.name)

def refreshTables (rt : Runtime Raw Value Hash) (schemas : List SchemaTable) (tables : Tables Value) :
    Except TargetError (Tables Value) :=
  activate rt.pg rt.cfg (sortedSchemas schemas) tables

def applyRows (rt : Runtime Raw Value Hash) (rows : List Row) (tables : Tables Value) :
    Except TargetError (Tables Value) :=
  rows.foldlM (fun current row => applyRow rt.pg rt.cfg (targetColumnTypes tables) row current) tables

/-- A snapshot replaces the contents of the tables in its scope. Its rows are read with the column
types from before the activation. -/
def loadSnapshot (rt : Runtime Raw Value Hash) (scope : List TableRef) (schemas : List SchemaTable)
    (rows : List Row) (tables : Tables Value) : Except TargetError (Tables Value) := do
  let activated ← refreshTables rt schemas tables
  let cleared ← scope.reverse.foldlM (fun current table => clearTable rt.pg current table.name) activated
  rows.foldlM (fun current row =>
    applyRow rt.pg rt.cfg (targetColumnTypes tables) { row with operation := .insert } current) cleared

variable {db db' : Db Raw Value Hash}

section Transactions

def inboxRow (entry : Message × Raw) : InboxRow Raw where
  generation := entry.1.generation
  seq := entry.1.seq
  messageId := entry.1.id
  payload := entry.2

variable {types : TypeCache} {committed tables : Tables Value} {message : Message}
  {chunks : List (Message × Raw)} {inbox : List (InboxRow Raw)}

theorem applyPage_append (front back : List (InboxRow Raw))
    (state last : List (InboxRow Raw) × Tables Value) :
    applyPage rt types committed message (front ++ back) state = .ok last
      ↔ ∃ middle, applyPage rt types committed message front state = .ok middle
        ∧ applyPage rt types committed message back middle = .ok last := by
  unfold applyPage
  simp only [Except.bind_eq_ok]
  constructor
  · rintro ⟨batch, hbatch, h⟩
    obtain ⟨first, second, hfirst, hsecond, rfl⟩ := Except.mapM_append_eq_ok.mp hbatch
    obtain ⟨middle, hmiddle, hlast⟩ := Except.foldlM_append_eq_ok.mp h
    exact ⟨middle, ⟨first, hfirst, hmiddle⟩, second, hsecond, hlast⟩
  · rintro ⟨middle, ⟨first, hfirst, hmiddle⟩, second, hsecond, hlast⟩
    exact ⟨first ++ second, Except.mapM_append_eq_ok.mpr ⟨first, second, hfirst, hsecond, rfl⟩,
      Except.foldlM_append_eq_ok.mpr ⟨middle, hmiddle, hlast⟩⟩

theorem mapM_decode {page : List (InboxRow Raw)} {batch : List (Nat × Message)}
    (h : page.mapM (fun row => match rt.codec.unmarshal row.payload with
      | none => Except.error StoreError.json
      | some chunk => .ok (row.seq, chunk)) = .ok batch) :
    batch.map Prod.fst = page.map InboxRow.seq := by
  induction page generalizing batch with
  | nil =>
      cases h
      rfl
  | cons row page ih =>
      rw [List.mapM_cons] at h
      obtain ⟨item, hitem, h⟩ := Except.bind_eq_ok.mp h
      obtain ⟨rest, hrest, h⟩ := Except.bind_eq_ok.mp h
      cases h
      rw [List.map_cons, List.map_cons, ih hrest]
      split at hitem
      · cases hitem
      · cases hitem
        rfl

/-- A page leaves the chunks behind it. -/
theorem applyPage_above {page : List (InboxRow Raw)} {state next : List (InboxRow Raw) × Tables Value}
    {mark : Nat} (h : applyPage rt types committed message page state = .ok next)
    (hpage : ∀ row ∈ page, row.seq ≤ mark) :
    Paging.above InboxRow.seq (some mark)
        (next.1.filter fun row => row.generation = message.generation)
      = Paging.above InboxRow.seq (some mark)
        (state.1.filter fun row => row.generation = message.generation) := by
  unfold applyPage at h
  obtain ⟨batch, hbatch, h⟩ := Except.bind_eq_ok.mp h
  have hseqs : ∀ item ∈ batch, item.1 ≤ mark := by
    intro item hitem
    have hmem : item.1 ∈ page.map InboxRow.seq := by
      rw [← mapM_decode hbatch]
      exact List.mem_map_of_mem hitem
    obtain ⟨row, hrow, hseq⟩ := List.mem_map.mp hmem
    exact hseq ▸ hpage row hrow
  let kept (current : List (InboxRow Raw) × Tables Value) : Prop :=
    Paging.above InboxRow.seq (some mark)
        (current.1.filter fun row => row.generation = message.generation)
      = Paging.above InboxRow.seq (some mark)
        (state.1.filter fun row => row.generation = message.generation)
  refine Except.foldlM_invariant kept ?_ rfl h
  intro item hitem before after hbefore hafter
  split at hafter
  · cases hafter
    exact hbefore
  · obtain ⟨tables, -, hafter⟩ := Except.bind_eq_ok.mp hafter
    cases hafter
    refine Eq.trans ?_ hbefore
    simp only [Paging.above, List.filter_filter]
    apply List.filter_congr
    intro row _
    have hle := hseqs item hitem
    by_cases habove : mark < row.seq
    · have hne : row.seq ≠ item.1 := by omega
      simp [habove, hne]
    · simp [habove]

theorem applyPage_chunk_iff {entry : Message × Raw} {state last : List (InboxRow Raw) × Tables Value}
    (hdecode : rt.codec.unmarshal entry.2 = some entry.1)
    (htransaction : entry.1.transaction = message.transaction) :
    applyPage rt types committed message [inboxRow entry] state = .ok last
      ↔ entry.1.rows.foldlM
          (fun current row => applyRow rt.pg rt.cfg (columnTypes types committed) row current) state.2
          = .ok last.2
        ∧ last.1 = state.1.filter fun row =>
          ¬ (row.generation = message.generation ∧ row.seq = entry.1.seq) := by
  unfold applyPage
  have hbatch : [inboxRow entry].mapM (fun row => match rt.codec.unmarshal row.payload with
      | none => Except.error StoreError.json
      | some chunk => .ok (row.seq, chunk)) = .ok [(entry.1.seq, entry.1)] := by
    simp [inboxRow, hdecode]
  constructor
  · intro h
    obtain ⟨batch, hpage, h⟩ := Except.bind_eq_ok.mp h
    obtain rfl : [(entry.1.seq, entry.1)] = batch := Except.ok.inj (hbatch.symm.trans hpage)
    obtain ⟨next, hnext, hlast⟩ := Except.foldlM_cons_eq_ok.mp h
    rw [if_neg (not_not.mpr htransaction)] at hnext
    obtain ⟨tables, htables, hnext⟩ := Except.bind_eq_ok.mp hnext
    cases hnext
    cases hlast
    exact ⟨Except.mapError_eq_ok.mp htables, rfl⟩
  · rintro ⟨htables, hinbox⟩
    refine Except.bind_eq_ok.mpr ⟨_, hbatch, Except.foldlM_cons_eq_ok.mpr ⟨last, ?_, rfl⟩⟩
    rw [if_neg (not_not.mpr htransaction)]
    refine Except.bind_eq_ok.mpr ⟨last.2, Except.mapError_eq_ok.mpr htables, ?_⟩
    rw [← hinbox]

/-- A page of chunks applies their rows in order. -/
theorem applyPage_chunks_iff {state last : List (InboxRow Raw) × Tables Value}
    (hdecode : ∀ entry ∈ chunks, rt.codec.unmarshal entry.2 = some entry.1)
    (htransaction : ∀ entry ∈ chunks, entry.1.transaction = message.transaction) :
    applyPage rt types committed message (chunks.map inboxRow) state = .ok last
      ↔ (chunks.flatMap fun entry => entry.1.rows).foldlM
          (fun current row => applyRow rt.pg rt.cfg (columnTypes types committed) row current) state.2
          = .ok last.2
        ∧ last.1 = state.1.filter fun row => ∀ entry ∈ chunks,
          ¬ (row.generation = message.generation ∧ row.seq = entry.1.seq) := by
  induction chunks generalizing state with
  | nil =>
      constructor
      · intro h
        cases h
        exact ⟨rfl, by simp⟩
      · rintro ⟨htables, hinbox⟩
        have hsame : state.2 = last.2 := Except.ok.inj htables
        change Except.ok state = Except.ok last
        rw [Except.ok.injEq]
        exact Prod.ext (by simpa using hinbox.symm) hsame
  | cons entry chunks ih =>
      have hfirst := hdecode entry List.mem_cons_self
      have hsame := htransaction entry List.mem_cons_self
      have hrest := fun state => @ih state (fun other hmem => hdecode other (List.mem_cons_of_mem _ hmem))
        (fun other hmem => htransaction other (List.mem_cons_of_mem _ hmem))
      have hfilter (inbox : List (InboxRow Raw)) :
          (inbox.filter fun row => ¬ (row.generation = message.generation ∧ row.seq = entry.1.seq)).filter
            (fun row => ∀ other ∈ chunks,
              ¬ (row.generation = message.generation ∧ row.seq = other.1.seq))
          = inbox.filter fun row => ∀ other ∈ entry :: chunks,
              ¬ (row.generation = message.generation ∧ row.seq = other.1.seq) := by
        rw [List.filter_filter]
        apply List.filter_congr
        intro row _
        rw [Bool.eq_iff_iff, Bool.and_eq_true, decide_eq_true_eq, decide_eq_true_eq,
          decide_eq_true_eq, List.forall_mem_cons]
        exact and_comm
      rw [List.map_cons, ← List.singleton_append, applyPage_append, List.flatMap_cons,
        Except.foldlM_append_eq_ok]
      constructor
      · rintro ⟨middle, hmiddle, hlast⟩
        obtain ⟨htables, hinbox⟩ := (applyPage_chunk_iff hfirst hsame).mp hmiddle
        obtain ⟨hlastTables, hlastInbox⟩ := (hrest _).mp hlast
        exact ⟨⟨middle.2, htables, hlastTables⟩, by rw [hlastInbox, hinbox, hfilter]⟩
      · rintro ⟨⟨tables, htables, hlast⟩, hinbox⟩
        refine ⟨(_, tables), (applyPage_chunk_iff hfirst hsame).mpr ⟨htables, rfl⟩, (hrest _).mpr ⟨hlast, ?_⟩⟩
        rw [hinbox, hfilter]

theorem pairwise_inboxRow (hseq : chunks.Pairwise fun first second => first.1.seq < second.1.seq) :
    (chunks.map inboxRow).Pairwise fun first second => first.seq < second.seq := by
  rw [List.pairwise_map]
  exact hseq

/-- The end of a transaction applies its rows with the column types at hand. -/
theorem applyTransaction_types_iff (hinbox : db.inbox = chunks.map inboxRow)
    (hgeneration : ∀ entry ∈ chunks, entry.1.generation = message.generation)
    (hseq : chunks.Pairwise fun first second => first.1.seq < second.1.seq)
    (hdecode : ∀ entry ∈ chunks, rt.codec.unmarshal entry.2 = some entry.1)
    (htransaction : ∀ entry ∈ chunks, entry.1.transaction = message.transaction) :
    applyTransaction rt types db.tables message db = .ok db'
      ↔ ∃ tables, (chunks.flatMap fun entry => entry.1.rows).foldlM (fun current row =>
          applyRow rt.pg rt.cfg (columnTypes types db.tables) row current) db.tables = .ok tables
        ∧ db' = { db with inbox := [], tables := tables } := by
  have hall : (chunks.map inboxRow).filter (fun row => row.generation = message.generation)
      = chunks.map inboxRow := by
    rw [List.filter_eq_self]
    intro row hrow
    obtain ⟨entry, hentry, rfl⟩ := List.mem_map.mp hrow
    exact decide_eq_true (hgeneration entry hentry)
  have hsorted := pairwise_inboxRow hseq
  have hscan : ∀ final, Paging.scan InboxRow.seq applyPageSize
      (fun state => state.1.filter fun row => row.generation = message.generation)
      (applyPage rt types db.tables message) (db.inbox.length + 1) none (db.inbox, db.tables) = .ok final
      ↔ applyPage rt types db.tables message (chunks.map inboxRow) (db.inbox, db.tables) = .ok final := by
    intro final
    rw [Paging.scan_eq_ok_iff (by decide) applyPage_append (fun _ _ _ _ => applyPage_above), hinbox,
      hall, Paging.above_none, Paging.ordered_of_pairwise (hsorted.imp le_of_lt)]
    · rw [hinbox, hall, Paging.above_none]
      exact Paging.nodup_of_perm (List.Perm.refl _) hsorted
    · rw [hinbox, hall, Paging.above_none]
      exact (Nat.lt_succ_self _).trans_le (Nat.le_mul_of_pos_right _ (by decide))
  -- Every row of the inbox belongs to a chunk, so nothing is left.
  have hempty : (db.inbox.filter fun row => ∀ entry ∈ chunks,
      ¬ (row.generation = message.generation ∧ row.seq = entry.1.seq)) = [] := by
    rw [List.filter_eq_nil_iff, hinbox]
    intro row hrow hleft
    obtain ⟨entry, hentry, rfl⟩ := List.mem_map.mp hrow
    exact of_decide_eq_true hleft entry hentry ⟨hgeneration entry hentry, rfl⟩
  unfold applyTransaction
  rw [Except.bind_eq_ok]
  constructor
  · rintro ⟨⟨inbox, tables⟩, hpages, hdb⟩
    obtain ⟨htables, hleft⟩ := (applyPage_chunks_iff hdecode htransaction).mp ((hscan _).mp hpages)
    cases hdb
    exact ⟨tables, htables, by rw [show inbox = [] from hleft.trans hempty]⟩
  · rintro ⟨tables, htables, rfl⟩
    refine ⟨([], tables), (hscan _).mpr ?_, rfl⟩
    exact (applyPage_chunks_iff hdecode htransaction).mpr ⟨htables, hempty.symm⟩

/-- **The end of a transaction applies its rows.** The inbox holds the chunks of the transaction, in
order, and nothing else. -/
theorem applyTransaction_iff (hinbox : db.inbox = chunks.map inboxRow)
    (hgeneration : ∀ entry ∈ chunks, entry.1.generation = message.generation)
    (hseq : chunks.Pairwise fun first second => first.1.seq < second.1.seq)
    (hdecode : ∀ entry ∈ chunks, rt.codec.unmarshal entry.2 = some entry.1)
    (htransaction : ∀ entry ∈ chunks, entry.1.transaction = message.transaction) :
    applyTransaction rt [] db.tables message db = .ok db'
      ↔ ∃ tables, applyRows rt (chunks.flatMap fun entry => entry.1.rows) db.tables = .ok tables
        ∧ db' = { db with inbox := [], tables := tables } :=
  applyTransaction_types_iff hinbox hgeneration hseq hdecode htransaction

end Transactions

section Schemas

def stageRow (generation version : String) (schema : SchemaTable) : StageRow where
  generation := generation
  schemaVersion := version
  sourceSchema := schema.schema
  tableName := schema.name
  payload := schema

variable {generation version : String} {schemas : List SchemaTable}

theorem stagedSchemas_stageRow (generation version : String) (schemas : List SchemaTable) :
    stagedSchemas generation version (schemas.map (stageRow generation version))
      = sortedSchemas schemas := by
  have hall : (schemas.map (stageRow generation version)).filter
      (fun row => row.generation = generation ∧ row.schemaVersion = version)
      = schemas.map (stageRow generation version) := by
    rw [List.filter_eq_self]
    intro row hrow
    obtain ⟨schema, -, rfl⟩ := List.mem_map.mp hrow
    exact decide_eq_true ⟨rfl, rfl⟩
  rw [stagedSchemas, hall, sortedSchemas]
  refine Eq.trans (List.map_insertionSort _ (fun first second : SchemaTable =>
    first.schema < second.schema ∨ (first.schema = second.schema ∧ first.name ≤ second.name))
    StageRow.payload _ ?_) ?_
  · intro first hfirst second hsecond
    obtain ⟨_, -, rfl⟩ := List.mem_map.mp hfirst
    obtain ⟨_, -, rfl⟩ := List.mem_map.mp hsecond
    exact Iff.rfl
  · rw [List.map_map]
    exact congrArg _ (List.map_id schemas)

/-- **Activating staged schemas.** The stage holds one version only. -/
theorem applyStagedSchemas_iff (hstage : db.schemaStage = schemas.map (stageRow generation version)) :
    applyStagedSchemas rt generation version db = .ok db'
      ↔ schemas.length = rt.cfg.tables.length
        ∧ ∃ tables, refreshTables rt schemas db.tables = .ok tables
          ∧ db' = { db with tables := tables, schemaStage := [] } := by
  have hstaged : stagedSchemas generation version db.schemaStage = sortedSchemas schemas := by
    rw [hstage, stagedSchemas_stageRow]
  have hlength : (sortedSchemas schemas).length = schemas.length := List.length_insertionSort _ _
  have hempty : (db.schemaStage.filter fun row =>
      ¬ (row.generation = generation ∧ row.schemaVersion = version)) = [] := by
    rw [hstage, List.filter_eq_nil_iff]
    intro row hrow hleft
    obtain ⟨schema, -, rfl⟩ := List.mem_map.mp hrow
    exact of_decide_eq_true hleft ⟨rfl, rfl⟩
  unfold applyStagedSchemas
  simp only [hstaged, hlength]
  by_cases hcount : schemas.length = rt.cfg.tables.length
  · rw [if_neg (not_not.mpr hcount), Except.bind_eq_ok]
    constructor
    · rintro ⟨tables, htables, hdb⟩
      cases hdb
      exact ⟨hcount, tables, Except.mapError_eq_ok.mp htables, by rw [hempty]⟩
    · rintro ⟨-, tables, htables, rfl⟩
      exact ⟨tables, Except.mapError_eq_ok.mpr htables, by rw [hempty]⟩
  · simp [hcount]

end Schemas

section Snapshots

def scopeRows (scope : List TableRef) : List ScopeRow :=
  scope.zipIdx.map fun (table, ordinal) => { table := table, ordinal := ordinal }

variable {scope : List TableRef} {chunks : List Message} {generation : String}

theorem snapshotScope_ok {cfg : Syncer} {tables : List TableRef}
    (hallowed : ∀ table ∈ tables, cfg.allows table.schema table.name) (hnodup : tables.Nodup)
    (ordinal : Nat) (rows : List ScopeRow) (hfresh : ∀ row ∈ rows, row.table ∉ tables) :
    snapshotScope cfg ordinal tables rows
      = .ok (rows ++ (tables.zipIdx ordinal).map fun (table, ordinal) =>
          { table := table, ordinal := ordinal }) := by
  induction tables generalizing ordinal rows with
  | nil =>
      rw [snapshotScope, List.zipIdx_nil, List.map_nil, List.append_nil]
  | cons table tables ih =>
      obtain ⟨hnotMem, hrest⟩ := List.nodup_cons.mp hnodup
      have hnew : ¬ (rows.any fun row => row.table = table) = true := by
        rw [List.any_eq_true]
        rintro ⟨row, hrow, hsame⟩
        exact hfresh row hrow (by rw [of_decide_eq_true hsame]; exact List.mem_cons_self)
      rw [snapshotScope, if_neg (not_not.mpr (hallowed table List.mem_cons_self)), if_neg hnew,
        ih (fun other hmem => hallowed other (List.mem_cons_of_mem _ hmem)) hrest]
      · rw [List.append_assoc, List.zipIdx_cons, List.map_cons]
        rfl
      · intro row hrow
        rcases List.mem_append.mp hrow with hrow | hrow
        · exact fun hmem => hfresh row hrow (List.mem_cons_of_mem _ hmem)
        · rw [List.mem_singleton.mp hrow]
          exact hnotMem

theorem ordered_scopeRows (scope : List TableRef) :
    Paging.ordered ScopeRow.ordinal (scopeRows scope) = scopeRows scope := by
  apply Paging.ordered_of_pairwise
  rw [scopeRows, List.pairwise_map]
  have hindex : (scope.zipIdx.map Prod.snd).Pairwise (· ≤ ·) := by
    rw [List.zipIdx_map_snd]
    exact List.pairwise_le_range'
  exact List.pairwise_map.mp hindex

theorem clear_scopeRows (rt : Runtime Raw Value Hash) (scope : List TableRef) (tables : Tables Value) :
    (scopeRows scope).reverse.foldlM (fun current row => clearTable rt.pg current row.table.name) tables
      = scope.reverse.foldlM (fun current table => clearTable rt.pg current table.name) tables := by
  conv_rhs => rw [← List.zipIdx_map_fst 0 scope]
  rw [scopeRows, ← List.map_reverse, ← List.map_reverse, List.foldlM_map, List.foldlM_map]

theorem snapshotRowsOf_payload (message : Message) :
    (snapshotRowsOf message).map SnapshotRow.payload = message.rows := by
  rw [snapshotRowsOf, List.map_map]
  exact List.zipIdx_map_fst 0 message.rows

theorem pairwise_snapshotRows (hseq : chunks.Pairwise fun first second => first.seq < second.seq) :
    (chunks.flatMap snapshotRowsOf).Pairwise fun first second => first.key < second.key := by
  rw [List.pairwise_flatMap]
  refine ⟨?_, ?_⟩
  · intro message _
    rw [snapshotRowsOf, List.pairwise_map]
    have hindex : (message.rows.zipIdx.map Prod.snd).Pairwise (· < ·) := by
      rw [List.zipIdx_map_snd]
      exact List.pairwise_lt_range'
    refine (List.pairwise_map.mp hindex).imp ?_
    intro first second hlt
    exact Prod.Lex.toLex_lt_toLex.mpr (.inr ⟨rfl, hlt⟩)
  · refine hseq.imp ?_
    intro first second hlt row hrow other hother
    obtain ⟨_, -, rfl⟩ := List.mem_map.mp hrow
    obtain ⟨_, -, rfl⟩ := List.mem_map.mp hother
    exact Prod.Lex.toLex_lt_toLex.mpr (.inl hlt)

/-- **The end of a snapshot loads its rows.** -/
theorem publishSnapshot_eq (db : Db Raw Value Hash) {types : TypeCache} {committed : Tables Value}
    (hscope : db.snapshotScope = scopeRows scope)
    (hrows : db.snapshotRows = chunks.flatMap snapshotRowsOf)
    (hgeneration : ∀ message ∈ chunks, message.generation = generation)
    (hseq : chunks.Pairwise fun first second => first.seq < second.seq) :
    publishSnapshot rt types committed generation db = (do
      let cleared ← (scope.reverse.foldlM (fun current table => clearTable rt.pg current table.name)
        db.tables).mapError StoreError.target
      let tables ← ((chunks.flatMap Message.rows).foldlM (fun current row => applyRow rt.pg rt.cfg
        (columnTypes types committed) { row with operation := .insert } current) cleared).mapError .target
      .ok { db with tables := tables, snapshotRows := [], snapshotScope := [] }) := by
  have hall : (db.snapshotRows.filter fun row => row.generation = generation)
      = chunks.flatMap snapshotRowsOf := by
    rw [hrows, List.filter_eq_self]
    intro row hrow
    obtain ⟨message, hmessage, hrow⟩ := List.mem_flatMap.mp hrow
    obtain ⟨_, -, rfl⟩ := List.mem_map.mp hrow
    exact decide_eq_true (hgeneration message hmessage)
  have hpayload : (chunks.flatMap snapshotRowsOf).map SnapshotRow.payload
      = chunks.flatMap Message.rows := by
    rw [List.map_flatMap]
    exact List.flatMap_congr fun message _ => snapshotRowsOf_payload message
  have hfuel : (chunks.flatMap snapshotRowsOf).length
      < ((chunks.flatMap snapshotRowsOf).length + 1) * applyPageSize :=
    (Nat.lt_succ_self _).trans_le (Nat.le_mul_of_pos_right _ (by decide))
  unfold publishSnapshot
  simp only [hall, hscope, ordered_scopeRows, clear_scopeRows,
    Paging.scan_eq (by decide) _ _ (pairwise_snapshotRows hseq) hfuel, ← hpayload, List.foldlM_map]

/-- The scope is cleared backwards and the rows are inserted in order. -/
theorem publishSnapshot_iff (db : Db Raw Value Hash) {db' : Db Raw Value Hash}
    {committed : Tables Value}
    (hscope : db.snapshotScope = scopeRows scope)
    (hrows : db.snapshotRows = chunks.flatMap snapshotRowsOf)
    (hgeneration : ∀ message ∈ chunks, message.generation = generation)
    (hseq : chunks.Pairwise fun first second => first.seq < second.seq) :
    publishSnapshot rt [] committed generation db = .ok db'
      ↔ ∃ cleared tables,
        scope.reverse.foldlM (fun current table => clearTable rt.pg current table.name) db.tables
            = .ok cleared
          ∧ (chunks.flatMap Message.rows).foldlM (fun current row =>
              applyRow rt.pg rt.cfg (targetColumnTypes committed) { row with operation := .insert }
                current) cleared = .ok tables
          ∧ db' = { db with tables := tables, snapshotRows := [], snapshotScope := [] } := by
  rw [publishSnapshot_eq db hscope hrows hgeneration hseq]
  simp only [Except.bind_eq_ok, Except.mapError_eq_ok]
  constructor
  · rintro ⟨cleared, hcleared, tables, htables, hdb⟩
    cases hdb
    exact ⟨cleared, tables, hcleared, htables, rfl⟩
  · rintro ⟨cleared, tables, hcleared, htables, rfl⟩
    exact ⟨cleared, hcleared, tables, htables, rfl⟩

end Snapshots

end GoSync.Server
