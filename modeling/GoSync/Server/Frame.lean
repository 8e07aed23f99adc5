import GoSync.Server.Contents
import GoSync.Server.Store

/-!
# What storing a message can do

One inversion rule for each stage of `store`, and what the stages leave alone: no message changes the
progress row or the hashes before the last stage, and only a snapshot or a schema refresh changes the
catalog. Answers of the file store decide whether a message is accepted, never what it does.
-/

namespace GoSync.Server

variable {Raw Value Hash : Type} {rt : Runtime Raw Value Hash} {types : TypeCache}
  {env : Surroundings} {committed : Tables Value} {message : Message} {raw : Raw}

/-! ### The catalog -/

variable {tables next : Tables Value} {pg : Postgres Value} {name : String}

theorem targetColumnTypes_replaceTable {old table : TargetTable Value} (hold : tables name = some old)
    (hreplace : replaceTable pg tables name table = .ok next) (hcolumns : table.columns = old.columns) :
    targetColumnTypes next = targetColumnTypes tables := by
  unfold replaceTable at hreplace
  simp only at hreplace
  split_ifs at hreplace
  cases hreplace
  funext other
  unfold targetColumnTypes
  by_cases heq : other = name
  · subst heq
    rw [Function.update_self, hold]
    simp only [hcolumns]
  · rw [Function.update_of_ne heq]

theorem targetColumnTypes_clearTable (hclear : clearTable pg tables name = .ok next) :
    targetColumnTypes next = targetColumnTypes tables := by
  unfold clearTable at hclear
  split at hclear
  · cases hclear
  · rename_i table hold
    exact targetColumnTypes_replaceTable hold hclear rfl

theorem targetColumnTypes_insertRow {values : List (Expression Value)}
    (hinsert : insertRow pg tables name values = .ok next) :
    targetColumnTypes next = targetColumnTypes tables := by
  unfold insertRow at hinsert
  split at hinsert
  · cases hinsert
  · rename_i table hold
    split_ifs at hinsert
    exact targetColumnTypes_replaceTable hold hinsert rfl

theorem targetColumnTypes_changeRow {keys : List (Expression Value)}
    {change : List (String × Option Value) → Option (List (String × Option Value))}
    {mismatch : TargetError} (hchange : changeRow pg tables name keys change mismatch = .ok next) :
    targetColumnTypes next = targetColumnTypes tables := by
  unfold changeRow at hchange
  split at hchange
  · cases hchange
  · rename_i table hold
    split_ifs at hchange
    split at hchange
    · cases hchange
    · exact targetColumnTypes_replaceTable hold hchange rfl

variable {cfg : Syncer}

theorem targetColumnTypes_applyRow
    {lookup : String → Except TargetError (List (String × String))} {row : Row}
    (happly : applyRow pg cfg lookup row tables = .ok next) :
    targetColumnTypes next = targetColumnTypes tables := by
  obtain ⟨prepared, -, hexecute⟩ := Except.bind_eq_ok.mp happly
  cases prepared with
  | insert values => exact targetColumnTypes_insertRow hexecute
  | update values predicate => exact targetColumnTypes_changeRow hexecute
  | delete predicate => exact targetColumnTypes_changeRow hexecute

def CatalogGrows (before after : Tables Value) : Prop :=
  ∀ table columns, targetColumnTypes before table = .ok columns →
    ∃ rest, targetColumnTypes after table = .ok (columns ++ rest)

theorem CatalogGrows.of_eq {before after : Tables Value}
    (h : targetColumnTypes after = targetColumnTypes before) : CatalogGrows before after := by
  intro table columns hcolumns
  exact ⟨[], by rw [h, hcolumns, List.append_nil]⟩

theorem CatalogGrows.trans {first second third : Tables Value} (h : CatalogGrows first second)
    (hnext : CatalogGrows second third) : CatalogGrows first third := by
  intro table columns hcolumns
  obtain ⟨rest, hrest⟩ := h table columns hcolumns
  obtain ⟨more, hmore⟩ := hnext table _ hrest
  exact ⟨rest ++ more, by rw [hmore, List.append_assoc]⟩

theorem WidenedBy.catalogGrows {allowed : String → String × String → Prop} {before after : Tables Value}
    (h : WidenedBy allowed before after) : CatalogGrows before after := by
  intro name columns hcolumns
  obtain ⟨added, hafter, -⟩ := h name
  unfold targetColumnTypes at hcolumns ⊢
  split at hcolumns
  · cases hcolumns
  · rename_i table htable
    split_ifs at hcolumns with hempty
    cases hcolumns
    refine ⟨added, ?_⟩
    rw [hafter, htable]
    exact if_neg fun hnone => hempty (List.append_eq_nil_iff.mp hnone).1

/-- What is cached for a table are columns of the catalog, from the first one on. It need not be all of them:
a column may have been added since, or the read broke off. -/
def Coherent (types : TypeCache) (committed : Tables Value) : Prop :=
  ∀ table columns, types.lookup table = some columns →
    ∃ rest, targetColumnTypes committed table = .ok (columns ++ rest)

theorem Coherent.nil : Coherent [] committed := by
  intro table columns hlookup
  simp at hlookup

theorem Coherent.columnTypes (h : Coherent types committed) {table : String}
    {columns : List (String × String)} (hcolumns : columnTypes types committed table = .ok columns) :
    ∃ rest, targetColumnTypes committed table = .ok (columns ++ rest) := by
  unfold Server.columnTypes at hcolumns
  split at hcolumns
  · rename_i cached hlookup
    cases hcolumns
    exact h table columns hlookup
  · exact ⟨[], by rw [hcolumns, List.append_nil]⟩

theorem Coherent.cons (h : Coherent types committed) {table : String}
    {columns : List (String × String)}
    (hcolumns : ∃ rest, targetColumnTypes committed table = .ok (columns ++ rest)) :
    Coherent ((table, columns) :: types) committed := by
  intro other found hfound
  rw [List.lookup_cons] at hfound
  by_cases heq : other = table
  · subst heq
    simp only [beq_self_eq_true, Option.some.injEq] at hfound
    exact hfound ▸ hcolumns
  · simp only [beq_false_of_ne heq] at hfound
    exact h other found hfound

theorem Coherent.remember (h : Coherent types committed) (table : String) :
    Coherent (remember types committed table) committed := by
  unfold Server.remember
  split
  · rename_i columns _ hcolumns
    exact h.cons ⟨[], by rw [hcolumns, List.append_nil]⟩
  · exact h

theorem Coherent.rememberFirst (h : Coherent types committed) (count : Nat) (table : String) :
    Coherent (rememberFirst count types committed table) committed := by
  unfold Server.rememberFirst
  split
  · rename_i columns _ hcolumns
    split_ifs
    · exact h
    · exact h.cons ⟨columns.drop count, by rw [hcolumns, List.take_append_drop]⟩
  · exact h

theorem Coherent.grow {next : Tables Value} (h : Coherent types committed)
    (hgrows : CatalogGrows committed next) : Coherent types next := by
  intro table columns hlookup
  obtain ⟨rest, hrest⟩ := h table columns hlookup
  obtain ⟨more, hmore⟩ := hgrows table _ hrest
  exact ⟨rest ++ more, by rw [hmore, List.append_assoc]⟩

/-! ### The effects of a message -/

variable {current : SyncState}

section Effects

variable {db db' : Db Raw Value Hash} {phase phase' : Phase}

theorem publishSnapshot_frame {generation : String}
    (h : publishSnapshot rt types committed generation db = .ok db') :
    targetColumnTypes db'.tables = targetColumnTypes db.tables
      ∧ db' = { db with tables := db'.tables, snapshotRows := [], snapshotScope := [] } := by
  unfold publishSnapshot at h
  obtain ⟨cleared, hclear, h⟩ := Except.bind_eq_ok.mp h
  obtain ⟨tables, hscan, h⟩ := Except.bind_eq_ok.mp h
  cases h
  refine ⟨?_, rfl⟩
  rw [Except.mapError_eq_ok] at hclear hscan
  let same (tables : Tables Value) : Prop := targetColumnTypes tables = targetColumnTypes db.tables
  have hcleared : same cleared := by
    refine Except.foldlM_invariant same ?_ rfl hclear
    intro row _ state next hstate hnext
    exact (targetColumnTypes_clearTable hnext).trans hstate
  refine Paging.scan_invariant same ?_ _ _ _ _ hcleared hscan
  intro page state next hstate hpage
  refine Except.foldlM_invariant same ?_ hstate hpage
  intro row _ before after hbefore hafter
  exact (targetColumnTypes_applyRow hafter).trans hbefore

theorem applyPage_frame {page : List (InboxRow Raw)}
    {state next : List (InboxRow Raw) × Tables Value}
    (h : applyPage rt types committed message page state = .ok next) :
    targetColumnTypes next.2 = targetColumnTypes state.2 := by
  unfold applyPage at h
  obtain ⟨batch, -, h⟩ := Except.bind_eq_ok.mp h
  let same (current : List (InboxRow Raw) × Tables Value) : Prop :=
    targetColumnTypes current.2 = targetColumnTypes state.2
  refine Except.foldlM_invariant same ?_ rfl h
  intro item _ before after hbefore hafter
  split at hafter
  · cases hafter
    exact hbefore
  · obtain ⟨tables, htables, hafter⟩ := Except.bind_eq_ok.mp hafter
    cases hafter
    rw [Except.mapError_eq_ok] at htables
    refine Except.foldlM_invariant
      (fun current => targetColumnTypes current = targetColumnTypes state.2) ?_ hbefore htables
    intro row _ first second hfirst hsecond
    exact (targetColumnTypes_applyRow hsecond).trans hfirst

theorem applyTransaction_frame (h : applyTransaction rt types committed message db = .ok db') :
    targetColumnTypes db'.tables = targetColumnTypes db.tables
      ∧ db' = { db with tables := db'.tables, inbox := db'.inbox } := by
  unfold applyTransaction at h
  obtain ⟨⟨inbox, tables⟩, hscan, h⟩ := Except.bind_eq_ok.mp h
  cases h
  refine ⟨?_, rfl⟩
  refine Paging.scan_invariant
    (fun state => targetColumnTypes state.2 = targetColumnTypes db.tables) ?_ _ _ _ _ rfl hscan
  intro page state next hstate hpage
  exact (applyPage_frame hpage).trans hstate

theorem applyStagedSchemas_frame {generation version : String}
    (h : applyStagedSchemas rt generation version db = .ok db') :
    db' = { db with tables := db'.tables, schemaStage := db'.schemaStage } := by
  unfold applyStagedSchemas at h
  simp only at h
  split_ifs at h
  obtain ⟨tables, -, h⟩ := Except.bind_eq_ok.mp h
  cases h
  rfl

theorem insertInbox_frame (h : insertInbox message raw db = .ok db') :
    db' = { db with
            inbox := db.inbox ++ [{ generation := message.generation, seq := message.seq,
                                    messageId := message.id, payload := raw }] } := by
  unfold insertInbox at h
  split_ifs at h
  cases h
  rfl

/-- What each kind of message does where it is accepted. -/
theorem applyMessage_cases
    (h : applyMessage rt env committed message raw phase db = .ok (db', phase')) :
    match message.kind with
    | .snapshotBegin => phase' = .snapshot ∧ ∃ scope,
        snapshotScope rt.cfg 0 message.tables [] = .ok scope
          ∧ db' = { db with snapshotRows := [], snapshotScope := scope }
    | .schema => phase' = phase ∧ (phase = .snapshot ∨ phase = .stream)
        ∧ ((message.schemaVersion = "" ∧ db' = db)
          ∨ (message.schemaVersion ≠ "" ∧ ∃ stage,
              stageSchema rt.cfg message db.schemaStage = .ok stage
                ∧ db' = { db with schemaStage := stage }))
    | .snapshotRows => phase' = phase ∧ phase = .snapshot
        ∧ db' = { db with snapshotRows := db.snapshotRows ++ snapshotRowsOf message }
    | .snapshotEnd => phase' = .stream ∧ phase = .snapshot ∧ ∃ activated,
        activateSnapshot rt message db = .ok activated
          ∧ publishSnapshot rt env.types committed message.generation activated = .ok db'
    | .schemaEnd => phase' = phase ∧ phase = .stream
        ∧ applyStagedSchemas rt message.generation message.schemaVersion db = .ok db'
    | .transactionRows => phase' = phase ∧ phase = .stream ∧ insertInbox message raw db = .ok db'
    | .transactionEnd => phase' = phase ∧ phase = .stream
        ∧ applyTransaction rt env.types committed message db = .ok db'
    | .fileBegin | .fileChunk => phase' = phase ∧ phase = .stream
        ∧ insertInbox message raw db = .ok db'
    | .fileEnd => phase' = phase ∧ phase = .stream
        ∧ db' = { db with inbox := db.inbox.filter fun row =>
                    ¬ row.generation = message.generation }
    | .fileDelete => phase' = phase ∧ phase = .stream ∧ db' = db
    | .other _ => False := by
  unfold applyMessage at h
  cases hkind : message.kind with
  | snapshotBegin =>
      simp only [hkind] at h ⊢
      obtain ⟨scope, hscope, h⟩ := Except.bind_eq_ok.mp h
      cases h
      exact ⟨rfl, scope, hscope, rfl⟩
  | schema =>
      simp only [hkind] at h ⊢
      split_ifs at h with hphase hversion
      · rw [← not_or, not_not] at hphase
        obtain ⟨stage, hstage, h⟩ := Except.bind_eq_ok.mp h
        cases h
        exact ⟨rfl, hphase, .inr ⟨hversion, stage, hstage, rfl⟩⟩
      · rw [← not_or, not_not] at hphase
        cases h
        exact ⟨rfl, hphase, .inl ⟨not_not.mp hversion, rfl⟩⟩
  | snapshotRows =>
      simp only [hkind] at h ⊢
      split_ifs at h with hphase hkey
      cases h
      exact ⟨rfl, not_not.mp hphase, rfl⟩
  | snapshotEnd =>
      simp only [hkind] at h ⊢
      split_ifs at h with hphase
      obtain ⟨activated, hactivated, h⟩ := Except.bind_eq_ok.mp h
      obtain ⟨published, hpublished, h⟩ := Except.bind_eq_ok.mp h
      cases h
      exact ⟨rfl, not_not.mp hphase, activated, hactivated, hpublished⟩
  | schemaEnd | transactionRows | transactionEnd =>
      simp only [hkind] at h ⊢
      split_ifs at h with hphase
      obtain ⟨applied, happlied, h⟩ := Except.bind_eq_ok.mp h
      cases h
      exact ⟨rfl, not_not.mp hphase, happlied⟩
  | fileBegin | fileChunk =>
      simp only [hkind] at h ⊢
      split_ifs at h with hphase
      obtain ⟨inserted, hinserted, h⟩ := Except.bind_eq_ok.mp h
      cases h
      exact ⟨rfl, not_not.mp (not_or.mp hphase).1, hinserted⟩
  | fileEnd =>
      simp only [hkind] at h ⊢
      split at h
      · cases h
      split_ifs at h with hphase
      obtain ⟨_, -, h⟩ := Except.bind_eq_ok.mp h
      cases h
      exact ⟨rfl, not_not.mp (not_or.mp hphase).1, rfl⟩
  | fileDelete =>
      simp only [hkind] at h ⊢
      split at h
      · cases h
      split_ifs at h with hphase
      cases h
      exact ⟨rfl, not_not.mp (not_or.mp hphase).1, rfl⟩
  | other name =>
      simp only [hkind] at h
      cases h

theorem activateSnapshot_frame (h : activateSnapshot rt message db = .ok db') :
    db' = { db with tables := db'.tables, schemaStage := db'.schemaStage } := by
  unfold activateSnapshot at h
  split_ifs at h
  · exact applyStagedSchemas_frame h
  · cases h
    rfl

theorem applyStagedSchemas_widened {generation version : String}
    (h : applyStagedSchemas rt generation version db = .ok db') :
    Widened (stagedSchemas generation version db.schemaStage) db.tables db'.tables := by
  unfold applyStagedSchemas at h
  dsimp only at h
  split_ifs at h
  obtain ⟨tables, htables, h⟩ := Except.bind_eq_ok.mp h
  cases h
  exact activate_widened (Except.mapError_eq_ok.mp htables)

theorem activateSnapshot_widened (h : activateSnapshot rt message db = .ok db') :
    Widened (stagedSchemas message.generation message.schemaVersion db.schemaStage) db.tables
      db'.tables := by
  unfold activateSnapshot at h
  split_ifs at h
  · exact applyStagedSchemas_widened h
  · cases h
    exact .refl _ _

/-- What no message touches. -/
theorem applyMessage_frame
    (h : applyMessage rt env committed message raw phase db = .ok (db', phase')) :
    db'.syncState = db.syncState ∧ db'.messageHash = db.messageHash
      ∧ (message.kind ≠ .snapshotEnd → message.kind ≠ .schemaEnd →
          targetColumnTypes db'.tables = targetColumnTypes db.tables)
      ∧ (phase ≠ .stream → message.kind ≠ .snapshotEnd → db'.tables = db.tables) := by
  have hcases := applyMessage_cases h
  cases hkind : message.kind with
  | snapshotBegin =>
      simp only [hkind] at hcases
      obtain ⟨-, scope, -, rfl⟩ := hcases
      exact ⟨rfl, rfl, fun _ _ => rfl, fun _ _ => rfl⟩
  | schema =>
      simp only [hkind] at hcases
      obtain ⟨-, -, ⟨-, rfl⟩ | ⟨-, stage, -, rfl⟩⟩ := hcases
      · exact ⟨rfl, rfl, fun _ _ => rfl, fun _ _ => rfl⟩
      · exact ⟨rfl, rfl, fun _ _ => rfl, fun _ _ => rfl⟩
  | snapshotRows | fileEnd | fileDelete =>
      simp only [hkind] at hcases
      obtain ⟨-, -, rfl⟩ := hcases
      exact ⟨rfl, rfl, fun _ _ => rfl, fun _ _ => rfl⟩
  | snapshotEnd =>
      simp only [hkind] at hcases
      obtain ⟨-, -, activated, hactivated, hpublished⟩ := hcases
      rw [(publishSnapshot_frame hpublished).2, activateSnapshot_frame hactivated]
      exact ⟨rfl, rfl, fun hne => absurd rfl hne, fun _ hne => absurd rfl hne⟩
  | schemaEnd =>
      simp only [hkind] at hcases
      obtain ⟨-, rfl, hactivated⟩ := hcases
      rw [applyStagedSchemas_frame hactivated]
      exact ⟨rfl, rfl, fun _ hne => absurd rfl hne, fun hne => absurd rfl hne⟩
  | transactionRows | fileBegin | fileChunk =>
      simp only [hkind] at hcases
      obtain ⟨-, -, hinserted⟩ := hcases
      rw [insertInbox_frame hinserted]
      exact ⟨rfl, rfl, fun _ _ => rfl, fun _ _ => rfl⟩
  | transactionEnd =>
      simp only [hkind] at hcases
      obtain ⟨-, rfl, happlied⟩ := hcases
      obtain ⟨hcatalog, hdb⟩ := applyTransaction_frame happlied
      rw [hdb]
      exact ⟨rfl, rfl, fun _ _ => hcatalog, fun hne => absurd rfl hne⟩
  | other name =>
      simp only [hkind] at hcases

theorem applyMessage_grows (h : applyMessage rt env committed message raw phase db = .ok (db', phase')) :
    CatalogGrows db.tables db'.tables := by
  have hcases := applyMessage_cases h
  by_cases hsnapshot : message.kind = .snapshotEnd
  · simp only [hsnapshot] at hcases
    obtain ⟨-, -, activated, hactivated, hpublished⟩ := hcases
    exact (WidenedBy.catalogGrows (activateSnapshot_widened hactivated)).trans
      (.of_eq (publishSnapshot_frame hpublished).1)
  by_cases hrefresh : message.kind = .schemaEnd
  · simp only [hrefresh] at hcases
    exact WidenedBy.catalogGrows (applyStagedSchemas_widened hcases.2.2)
  · exact .of_eq ((applyMessage_frame h).2.2.1 hsnapshot hrefresh)

/-! ### The stages of `store` -/

theorem receive_cases (h : receive rt env committed message raw current db = .ok db') :
    ∃ pending openTransaction middle phase,
      checkFile rt.cfg message = .ok ()
        ∧ schemaBarrier message current = .ok pending
        ∧ checkTransaction message current = .ok openTransaction
        ∧ applyMessage rt env committed message raw current.phase db = .ok (middle, phase)
        ∧ (∀ row ∈ db.messageHash, row.generation = message.generation →
            row.seq ≠ message.seq)
        ∧ db' = { middle with
                  messageHash := db.messageHash ++ [{ generation := message.generation,
                                                      seq := message.seq,
                                                      payloadHash := rt.payloadHash raw }]
                  syncState := advance message current phase openTransaction pending } := by
  unfold receive at h
  obtain ⟨⟨⟩, hfile, h⟩ := Except.bind_eq_ok.mp h
  obtain ⟨pending, hpending, h⟩ := Except.bind_eq_ok.mp h
  obtain ⟨openTransaction, hopen, h⟩ := Except.bind_eq_ok.mp h
  obtain ⟨⟨middle, phase⟩, happly, h⟩ := Except.bind_eq_ok.mp h
  have hhash := (applyMessage_frame happly).2.1
  simp only at h
  split_ifs at h with hduplicate
  cases h
  refine ⟨pending, openTransaction, middle, phase, hfile, hpending, hopen, happly, ?_, ?_⟩
  · intro row hrow hgeneration hseq
    rw [hhash] at hduplicate
    apply hduplicate
    rw [List.any_eq_true]
    exact ⟨row, hrow, by simp [hgeneration, hseq]⟩
  · rw [hhash]

theorem switchGeneration_cases {cleared : Db Raw Value Hash}
    (h : switchGeneration message db = .ok (current, cleared)) :
    (message.generation = db.syncState.generation ∧ current = db.syncState ∧ cleared = db)
      ∨ (message.generation ≠ db.syncState.generation ∧ message.seq = 1
        ∧ message.kind = .snapshotBegin
        ∧ current = { generation := message.generation, schemaVersion := message.schemaVersion,
                      repairAuthorized := db.syncState.repairAuthorized }
        ∧ cleared = { db with inbox := [], snapshotRows := [], snapshotScope := [],
                              messageHash := [], schemaStage := [] }) := by
  unfold switchGeneration at h
  split_ifs at h with hsame hfirst
  · cases h
    exact .inl ⟨hsame, rfl, rfl⟩
  · cases h
    rw [not_or, not_not, not_not] at hfirst
    exact .inr ⟨hsame, hfirst.1, hfirst.2, rfl, rfl⟩

theorem store_cases [DecidableEq Hash] (h : store rt env message raw db = .ok db') :
    message.seq ≤ maxInt64
      ∧ ((message.generation = db.syncState.generation ∧ message.seq ≤ db.syncState.received
            ∧ db' = db)
        ∨ ∃ current cleared, switchGeneration message db = .ok (current, cleared)
            ∧ message.seq = current.received + 1
            ∧ receive rt env db.tables message raw current cleared = .ok db') := by
  unfold store at h
  split at h
  · cases h
  rename_i hsize
  refine ⟨not_lt.mp hsize, ?_⟩
  obtain ⟨⟨current, cleared⟩, hswitch, h⟩ := Except.bind_eq_ok.mp h
  simp only at h
  split_ifs at h with hold hpayload hnext
  · cases h
    rcases switchGeneration_cases hswitch with ⟨hsame, rfl, rfl⟩ | ⟨-, hfirst, -, rfl, -⟩
    · exact .inl ⟨hsame, hold, rfl⟩
    · simp [hfirst] at hold
  · exact .inr ⟨current, cleared, hswitch, not_not.mp hnext, h⟩

end Effects

/-! ### Cache and file store -/

def Surroundings.plain : Surroundings where
  types := []
  backend := fun _ => true

theorem expressions_append {known rest : List (String × String)} {columns : List AppliedColumn}
    {placeholders : List Placeholder} (h : expressions known columns = .ok placeholders) :
    expressions (known ++ rest) columns = .ok placeholders := by
  refine Except.mapM_eq_ok_iff.mpr ((Except.mapM_eq_ok_iff.mp h).imp ?_)
  intro column placeholder hplaceholder
  unfold expression at hplaceholder ⊢
  split at hplaceholder
  · cases hplaceholder
  · rename_i type htype
    rw [List.lookup_append, htype]
    exact hplaceholder

/-- A command that could be written with the cached types is the one that the catalog gives. -/
theorem Coherent.command {row : Row} {issued : Sql.Command} (h : Coherent types committed)
    (hissued : Sql.command cfg (Server.columnTypes types committed) row = .ok issued) :
    Sql.command cfg (targetColumnTypes committed) row = .ok issued := by
  unfold Sql.command at hissued ⊢
  split at hissued
  · cases hissued
  rename_i hallowed
  rw [if_neg hallowed]
  obtain ⟨known, hknown, hissued⟩ := Except.bind_eq_ok.mp hissued
  obtain ⟨columns, hcolumns, hissued⟩ := Except.bind_eq_ok.mp hissued
  obtain ⟨keys, hkeys, hissued⟩ := Except.bind_eq_ok.mp hissued
  obtain ⟨rest, hrest⟩ := h.columnTypes hknown
  refine Except.bind_eq_ok.mpr ⟨known ++ rest, hrest, Except.bind_eq_ok.mpr ⟨columns, hcolumns, ?_⟩⟩
  refine Except.bind_eq_ok.mpr ⟨keys, hkeys, ?_⟩
  split at hissued
  · split_ifs at hissued ⊢
    obtain ⟨values, hvalues, hissued⟩ := Except.bind_eq_ok.mp hissued
    exact Except.bind_eq_ok.mpr ⟨values, expressions_append hvalues, hissued⟩
  · split_ifs at hissued ⊢
    obtain ⟨values, hvalues, hissued⟩ := Except.bind_eq_ok.mp hissued
    exact Except.bind_eq_ok.mpr ⟨values, expressions_append hvalues, hissued⟩
  · split_ifs at hissued ⊢
    obtain ⟨values, hvalues, hissued⟩ := Except.bind_eq_ok.mp hissued
    obtain ⟨conditions, hconditions, hissued⟩ := Except.bind_eq_ok.mp hissued
    exact Except.bind_eq_ok.mpr ⟨values, expressions_append hvalues,
      Except.bind_eq_ok.mpr ⟨conditions, expressions_append hconditions, hissued⟩⟩
  · split_ifs at hissued ⊢
    obtain ⟨conditions, hconditions, hissued⟩ := Except.bind_eq_ok.mp hissued
    exact Except.bind_eq_ok.mpr ⟨conditions, expressions_append hconditions, hissued⟩
  · cases hissued

theorem Coherent.applyRow {row : Row} (h : Coherent types committed)
    (happly : applyRow pg cfg (Server.columnTypes types committed) row tables = .ok next) :
    applyRow pg cfg (targetColumnTypes committed) row tables = .ok next := by
  obtain ⟨prepared, hprepared, hexecute⟩ := Except.bind_eq_ok.mp happly
  obtain ⟨issued, hissued, hevaluated⟩ := Except.bind_eq_ok.mp hprepared
  exact Except.bind_eq_ok.mpr
    ⟨prepared, Except.bind_eq_ok.mpr ⟨issued, h.command hissued, hevaluated⟩, hexecute⟩

variable {db db' : Db Raw Value Hash}

theorem Coherent.publishSnapshot {generation : String}
    (h : Coherent types committed) (hpublish : publishSnapshot rt types committed generation db = .ok db') :
    publishSnapshot rt [] committed generation db = .ok db' := by
  unfold Server.publishSnapshot at hpublish ⊢
  obtain ⟨cleared, hclear, hpublish⟩ := Except.bind_eq_ok.mp hpublish
  obtain ⟨tables, hscan, hpublish⟩ := Except.bind_eq_ok.mp hpublish
  refine Except.bind_eq_ok.mpr ⟨cleared, hclear, Except.bind_eq_ok.mpr ⟨tables, ?_, hpublish⟩⟩
  rw [Except.mapError_eq_ok] at hscan ⊢
  refine Paging.scan_eq_ok_of_imp ?_ _ _ _ _ hscan
  exact fun page state next => Except.foldlM_eq_ok_of_imp fun row _ _ _ => h.applyRow

theorem Coherent.applyPage {page : List (InboxRow Raw)} {state next : List (InboxRow Raw) × Tables Value}
    (h : Coherent types committed) (hpage : applyPage rt types committed message page state = .ok next) :
    applyPage rt [] committed message page state = .ok next := by
  unfold Server.applyPage at hpage ⊢
  obtain ⟨batch, hbatch, hpage⟩ := Except.bind_eq_ok.mp hpage
  refine Except.bind_eq_ok.mpr ⟨batch, hbatch, Except.foldlM_eq_ok_of_imp ?_ hpage⟩
  intro item _ before after hitem
  split at hitem
  · rename_i hskipped
    rw [if_pos hskipped]
    exact hitem
  · rename_i htaken
    rw [if_neg htaken]
    obtain ⟨tables, htables, hitem⟩ := Except.bind_eq_ok.mp hitem
    refine Except.bind_eq_ok.mpr ⟨tables, ?_, hitem⟩
    rw [Except.mapError_eq_ok] at htables ⊢
    exact Except.foldlM_eq_ok_of_imp (fun row _ _ _ => h.applyRow) htables

theorem Coherent.applyTransaction (h : Coherent types committed)
    (happly : applyTransaction rt types committed message db = .ok db') :
    applyTransaction rt [] committed message db = .ok db' := by
  unfold Server.applyTransaction at happly ⊢
  obtain ⟨last, hscan, happly⟩ := Except.bind_eq_ok.mp happly
  exact Except.bind_eq_ok.mpr
    ⟨last, Paging.scan_eq_ok_of_imp (fun _ _ _ => h.applyPage) _ _ _ _ hscan, happly⟩

theorem applyFile_plain {backend : FileEffect → Bool} {file : FileChange}
    {inbox : List (InboxRow Raw)} (h : applyFile rt backend message file inbox = .ok ()) :
    applyFile rt Surroundings.plain.backend message file inbox = .ok () := by
  unfold applyFile at h ⊢
  obtain ⟨content, hcontent, -⟩ := Except.bind_eq_ok.mp h
  refine Except.bind_eq_ok.mpr ⟨content, hcontent, ?_⟩
  rw [if_neg (by simp [Surroundings.plain])]

/-- A coherent cache makes no difference. -/
theorem applyMessage_plain {phase phase' : Phase} (hcoherent : Coherent env.types committed)
    (h : applyMessage rt env committed message raw phase db = .ok (db', phase')) :
    applyMessage rt .plain committed message raw phase db = .ok (db', phase') := by
  unfold applyMessage at h ⊢
  cases hkind : message.kind with
  | snapshotEnd =>
      simp only [hkind] at h ⊢
      split_ifs at h ⊢
      obtain ⟨activated, hactivated, h⟩ := Except.bind_eq_ok.mp h
      obtain ⟨published, hpublished, h⟩ := Except.bind_eq_ok.mp h
      refine Except.bind_eq_ok.mpr ⟨activated, hactivated, ?_⟩
      exact Except.bind_eq_ok.mpr ⟨published, hcoherent.publishSnapshot hpublished, h⟩
  | transactionEnd =>
      simp only [hkind] at h ⊢
      split_ifs at h ⊢
      obtain ⟨applied, happlied, h⟩ := Except.bind_eq_ok.mp h
      exact Except.bind_eq_ok.mpr ⟨applied, hcoherent.applyTransaction happlied, h⟩
  | fileEnd =>
      simp only [hkind] at h ⊢
      split at h
      · cases h
      split_ifs at h ⊢ with hphase
      obtain ⟨⟨⟩, happly, h⟩ := Except.bind_eq_ok.mp h
      exact Except.bind_eq_ok.mpr ⟨(), applyFile_plain happly, h⟩
  | fileDelete =>
      simp only [hkind] at h ⊢
      split at h
      · cases h
      split_ifs at h with hphase hbackend
      rw [if_neg hphase, if_neg (by simp [Surroundings.plain])]
      exact h
  | snapshotBegin => simpa only [hkind] using h
  | schema => simpa only [hkind] using h
  | snapshotRows => simpa only [hkind] using h
  | schemaEnd => simpa only [hkind] using h
  | transactionRows => simpa only [hkind] using h
  | fileBegin => simpa only [hkind] using h
  | fileChunk => simpa only [hkind] using h
  | other name => simpa only [hkind] using h

theorem receive_plain (hcoherent : Coherent env.types committed)
    (h : receive rt env committed message raw current db = .ok db') :
    receive rt .plain committed message raw current db = .ok db' := by
  unfold receive at h ⊢
  obtain ⟨⟨⟩, hfile, h⟩ := Except.bind_eq_ok.mp h
  obtain ⟨pending, hpending, h⟩ := Except.bind_eq_ok.mp h
  obtain ⟨openTransaction, hopen, h⟩ := Except.bind_eq_ok.mp h
  obtain ⟨⟨middle, phase⟩, happly, h⟩ := Except.bind_eq_ok.mp h
  refine Except.bind_eq_ok.mpr ⟨(), hfile, ?_⟩
  refine Except.bind_eq_ok.mpr ⟨pending, hpending, ?_⟩
  refine Except.bind_eq_ok.mpr ⟨openTransaction, hopen, ?_⟩
  exact Except.bind_eq_ok.mpr ⟨(middle, phase), applyMessage_plain hcoherent happly, h⟩

theorem store_plain [DecidableEq Hash]
    (hcoherent : Coherent env.types db.tables) (h : store rt env message raw db = .ok db') :
    store rt .plain message raw db = .ok db' := by
  unfold store at h ⊢
  split at h
  · cases h
  rename_i hsize
  rw [if_neg hsize]
  obtain ⟨⟨current, cleared⟩, hswitch, h⟩ := Except.bind_eq_ok.mp h
  refine Except.bind_eq_ok.mpr ⟨(current, cleared), hswitch, ?_⟩
  simp only at h ⊢
  split_ifs at h ⊢ with hold hpayload hnext
  · exact h
  · exact receive_plain hcoherent h

def receivedOf (generation : String) (db : Db Raw Value Hash) : Nat :=
  if db.syncState.generation = generation then db.syncState.received else 0

def hashesOf (generation : String) (db : Db Raw Value Hash) : List (HashRow Hash) :=
  if db.syncState.generation = generation then db.messageHash else []

theorem switchGeneration_received {db cleared : Db Raw Value Hash}
    (h : switchGeneration message db = .ok (current, cleared)) :
    current.received = receivedOf message.generation db
      ∧ cleared.messageHash = hashesOf message.generation db ∧ cleared.tables = db.tables := by
  unfold receivedOf hashesOf
  rcases switchGeneration_cases h with ⟨hsame, rfl, rfl⟩ | ⟨hother, -, -, rfl, rfl⟩
  · rw [if_pos hsame.symm, if_pos hsame.symm]
    exact ⟨rfl, rfl, rfl⟩
  · rw [if_neg (Ne.symm hother), if_neg (Ne.symm hother)]
    exact ⟨rfl, rfl, rfl⟩

theorem receive_effect {db cleared db' : Db Raw Value Hash}
    (hswitch : switchGeneration message db = .ok (current, cleared))
    (h : receive rt env committed message raw current cleared = .ok db') :
    db'.syncState.generation = message.generation
      ∧ db'.syncState.received = message.seq
      ∧ db'.syncState.repairAuthorized = db.syncState.repairAuthorized
      ∧ (∀ row ∈ hashesOf message.generation db, row.generation = message.generation →
          row.seq ≠ message.seq)
      ∧ db'.messageHash = hashesOf message.generation db
          ++ [{ generation := message.generation, seq := message.seq,
                payloadHash := rt.payloadHash raw }]
      ∧ CatalogGrows db.tables db'.tables := by
  obtain ⟨-, hhash, htables⟩ := switchGeneration_received hswitch
  obtain ⟨pending, openTransaction, middle, phase, -, -, -, happly, hfresh, rfl⟩ := receive_cases h
  rw [hhash] at hfresh
  refine ⟨rfl, rfl, ?_, hfresh, ?_, ?_⟩
  · rcases switchGeneration_cases hswitch with ⟨-, rfl, -⟩ | ⟨-, -, -, rfl, -⟩
    · rfl
    · rfl
  · rw [hhash]
  · rw [← htables]
    change CatalogGrows cleared.tables middle.tables
    exact applyMessage_grows happly

theorem Coherent.store [DecidableEq Hash]
    (hcoherent : Coherent env.types db.tables) (h : store rt env message raw db = .ok db')
    (reported : Bool) : Coherent (typesAfter reported message db.syncState env.types) db'.tables := by
  have hkept : Coherent env.types db'.tables := by
    obtain ⟨-, ⟨-, -, rfl⟩ | ⟨current, cleared, hswitch, -, hreceive⟩⟩ := store_cases h
    · exact hcoherent
    · obtain ⟨-, -, -, -, -, hgrows⟩ := receive_effect hswitch hreceive
      exact hcoherent.grow hgrows
  unfold typesAfter
  split_ifs
  · exact hkept
  · exact .nil
  · exact hkept

end GoSync.Server
