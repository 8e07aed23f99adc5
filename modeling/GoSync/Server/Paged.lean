import GoSync.Server.Application

/-!
# Pages

`snapshot_end` and `transaction_end` read what is staged in pages. `transaction_end` removes chunks while it
does so, but only at or below the last sequence number it has read.
-/

namespace GoSync.Server

variable {Raw Value Hash : Type} {rt : Runtime Raw Value Hash} {types : TypeCache} {committed : Tables Value} {message : Message}

def insertStaged (rt : Runtime Raw Value Hash) (types : TypeCache) (committed : Tables Value)
    (tables : Tables Value) (row : SnapshotRow) : Except TargetError (Tables Value) :=
  applyRow rt.pg rt.cfg (columnTypes types committed) { row.payload with operation := .insert } tables

/-- `snapshot_end` without pages: the staged rows are taken as listed. -/
def publishListed (rt : Runtime Raw Value Hash) (types : TypeCache) (committed : Tables Value)
    (listed : List SnapshotRow) (db : Db Raw Value Hash) : Except StoreError (Db Raw Value Hash) := do
  let scope := Paging.ordered ScopeRow.ordinal db.snapshotScope
  let cleared ← (scope.reverse.foldlM
    (fun tables row => clearTable rt.pg tables row.table.name) db.tables).mapError .target
  let tables ← (listed.foldlM (insertStaged rt types committed) cleared).mapError .target
  .ok { db with tables := tables, snapshotRows := [], snapshotScope := [] }

def applyChunk (rt : Runtime Raw Value Hash) (types : TypeCache) (committed : Tables Value)
    (message : Message) (state : List (InboxRow Raw) × Tables Value) (row : InboxRow Raw) :
    Except StoreError (List (InboxRow Raw) × Tables Value) :=
  match rt.codec.unmarshal row.payload with
  | none => .error .json
  | some chunk =>
      if chunk.transaction ≠ message.transaction then
        .ok state
      else do
        let tables ← (chunk.rows.foldlM
          (fun tables row => applyRow rt.pg rt.cfg (columnTypes types committed) row tables)
          state.2).mapError .target
        .ok (state.1.filter fun other =>
              ¬ (other.generation = message.generation ∧ other.seq = row.seq), tables)

/-- `transaction_end` without pages: the chunks are taken as listed. -/
def applyListed (rt : Runtime Raw Value Hash) (types : TypeCache) (committed : Tables Value)
    (message : Message) (listed : List (InboxRow Raw)) (db : Db Raw Value Hash) :
    Except StoreError (Db Raw Value Hash) := do
  let (inbox, tables) ← listed.foldlM (applyChunk rt types committed message) (db.inbox, db.tables)
  .ok { db with inbox := inbox, tables := tables }

theorem applyPage_singleton (row : InboxRow Raw) (state : List (InboxRow Raw) × Tables Value) :
    applyPage rt types committed message [row] state = applyChunk rt types committed message state row := by
  unfold applyPage applyChunk
  rw [List.mapM_cons, List.mapM_nil]
  cases hdecode : rt.codec.unmarshal row.payload with
  | none => rfl
  | some chunk =>
      simp only [Except.ok_bind, pure_bind, List.foldlM_cons, List.foldlM_nil]
      split_ifs with hother
      · rfl
      · cases (chunk.rows.foldlM (fun tables row => applyRow rt.pg rt.cfg (columnTypes types committed) row
            tables) state.2).mapError StoreError.target with
        | error err => rfl
        | ok tables => rfl

theorem applyPage_iff {page : List (InboxRow Raw)} {state last : List (InboxRow Raw) × Tables Value} :
    applyPage rt types committed message page state = .ok last
      ↔ page.foldlM (applyChunk rt types committed message) state = .ok last := by
  induction page generalizing state with
  | nil => rfl
  | cons row page ih =>
      rw [← List.singleton_append, applyPage_append, Except.foldlM_append_eq_ok]
      apply exists_congr
      intro middle
      rw [applyPage_singleton, ih]
      apply and_congr_left'
      rw [Except.foldlM_cons_eq_ok]
      simp [pure, Except.pure]

section Loops

variable {db : Db Raw Value Hash} {staged : List SnapshotRow} {chunks : List (InboxRow Raw)}

def stagedOf (generation : String) (db : Db Raw Value Hash) : List SnapshotRow :=
  db.snapshotRows.filter fun row => row.generation = generation

def chunksOf (generation : String) (inbox : List (InboxRow Raw)) : List (InboxRow Raw) :=
  inbox.filter fun row => row.generation = generation

def Lists {α κ : Type} [LinearOrder κ] (key : α → κ) (listed rows : List α) : Prop :=
  listed.Perm rows ∧ listed.Pairwise fun first second => key first < key second

theorem lt_fuel (count : Nat) : count < (count + 1) * applyPageSize :=
  (Nat.lt_succ_self _).trans_le (Nat.le_mul_of_pos_right _ (by decide))

/-- The pages of a snapshot go through all its rows once. -/
theorem snapshotLoop (hstaged : Lists SnapshotRow.key staged (stagedOf message.generation db))
    (tables : Tables Value) :
    Paging.Loops SnapshotRow.key applyPageSize (fun _ => stagedOf message.generation db)
        (fun page tables => page.foldlM (insertStaged rt types committed) tables) none tables
        (staged.foldlM (insertStaged rt types committed) tables)
      ∧ Paging.scan SnapshotRow.key applyPageSize (fun _ => stagedOf message.generation db)
          (fun page tables => page.foldlM (insertStaged rt types committed) tables)
          ((stagedOf message.generation db).length + 1) none tables
        = staged.foldlM (insertStaged rt types committed) tables := by
  have hnodup := Paging.nodup_of_perm hstaged.1 hstaged.2
  have hscan : Paging.scan SnapshotRow.key applyPageSize (fun _ => stagedOf message.generation db)
      (fun page tables => page.foldlM (insertStaged rt types committed) tables)
      ((stagedOf message.generation db).length + 1) none tables
        = staged.foldlM (insertStaged rt types committed) tables := by
    rw [Paging.scan_foldlM (by decide) _ _ hnodup (lt_fuel _), Paging.ordered_eq_of_perm hstaged.1 hstaged.2]
  refine ⟨?_, hscan⟩
  rw [← hscan]
  apply Paging.loops_scan (by decide)
  · exact fun _ _ _ _ _ _ => rfl
  · rwa [Paging.above_none]
  · rw [Paging.above_none]
    exact lt_fuel _

/-- The pages of a transaction go through all its chunks once. -/
theorem transactionLoop (hchunks : Lists InboxRow.seq chunks (chunksOf message.generation db.inbox)) :
    Paging.Loops InboxRow.seq applyPageSize (fun state => chunksOf message.generation state.1)
        (applyPage rt types committed message) none (db.inbox, db.tables)
        (Paging.scan InboxRow.seq applyPageSize (fun state => chunksOf message.generation state.1)
          (applyPage rt types committed message) (db.inbox.length + 1) none (db.inbox, db.tables))
      ∧ ∀ last, Paging.scan InboxRow.seq applyPageSize (fun state => chunksOf message.generation state.1)
          (applyPage rt types committed message) (db.inbox.length + 1) none (db.inbox, db.tables) = .ok last
        ↔ chunks.foldlM (applyChunk rt types committed message) (db.inbox, db.tables) = .ok last := by
  have hnodup := Paging.nodup_of_perm hchunks.1 hchunks.2
  have hfuel : (chunksOf message.generation db.inbox).length < (db.inbox.length + 1) * applyPageSize :=
    (List.length_filter_le _ _).trans_lt (lt_fuel _)
  -- A page removes only chunks that it has read.
  have hframe : ∀ (page : List (InboxRow Raw)) (state next : List (InboxRow Raw) × Tables Value)
      (mark : Nat), applyPage rt types committed message page state = .ok next →
      (∀ row ∈ page, row.seq ≤ mark) →
      Paging.above InboxRow.seq (some mark) (chunksOf message.generation next.1)
        = Paging.above InboxRow.seq (some mark) (chunksOf message.generation state.1) :=
    fun _ _ _ _ => applyPage_above
  constructor
  · apply Paging.loops_scan (by decide) hframe
    · rwa [Paging.above_none]
    · rwa [Paging.above_none]
  · intro last
    rw [Paging.scan_eq_ok_iff (by decide) applyPage_append hframe,
      Paging.above_none, Paging.ordered_eq_of_perm hchunks.1 hchunks.2, applyPage_iff]
    · rwa [Paging.above_none]
    · rwa [Paging.above_none]

/-- **Pages make no difference.** Both loops end, and they take each staged row, respectively each chunk,
once and by increasing key. -/
theorem paged_application_eq (rt : Runtime Raw Value Hash) (types : TypeCache)
    (committed : Tables Value) (message : Message) (db : Db Raw Value Hash)
    (staged : List SnapshotRow) (chunks : List (InboxRow Raw))
    (hstaged : Lists SnapshotRow.key staged (stagedOf message.generation db))
    (hchunks : Lists InboxRow.seq chunks (chunksOf message.generation db.inbox)) :
    (∀ tables, Paging.Loops SnapshotRow.key applyPageSize (fun _ => stagedOf message.generation db)
        (fun page tables => page.foldlM (insertStaged rt types committed) tables) none tables
        (staged.foldlM (insertStaged rt types committed) tables))
    ∧ publishSnapshot rt types committed message.generation db
        = publishListed rt types committed staged db
    ∧ (∃ result, Paging.Loops InboxRow.seq applyPageSize
          (fun state => chunksOf message.generation state.1) (applyPage rt types committed message) none
          (db.inbox, db.tables) result
        ∧ ∀ last, result = .ok last
          ↔ chunks.foldlM (applyChunk rt types committed message) (db.inbox, db.tables) = .ok last)
    ∧ ∀ db', applyTransaction rt types committed message db = .ok db'
        ↔ applyListed rt types committed message chunks db = .ok db' := by
  refine ⟨fun tables => (snapshotLoop hstaged tables).1, ?_, ⟨_, transactionLoop hchunks⟩, ?_⟩
  · unfold publishSnapshot publishListed
    apply bind_congr
    intro cleared
    change (Except.mapError _ (Paging.scan SnapshotRow.key applyPageSize
      (fun _ => stagedOf message.generation db)
      (fun page tables => page.foldlM (insertStaged rt types committed) tables)
      ((stagedOf message.generation db).length + 1) none cleared) >>= _) = _
    rw [(snapshotLoop hstaged cleared).2]
  · intro db'
    unfold applyTransaction applyListed
    rw [Except.bind_eq_ok, Except.bind_eq_ok]
    apply exists_congr
    intro last
    exact and_congr_left' ((transactionLoop hchunks).2 last)

def wideRow (i : Nat) (operation : Operation) : Row :=
  { schema := "public", table := "t", operation := operation
    columns := [{ name := "x", value := some (toString i) }] }

def wide (count : Nat) : Tables String :=
  Function.update (fun _ => none) "t" (some
    { columns := [("x", "text")], rows := (List.range count).map fun i => [("x", some (toString i))] })

def wideRuntime : Runtime Message String Message :=
  .plain { id := "s", tables := [{ schema := "public", name := "t" }] }

def stagedAt (i : Nat) : SnapshotRow :=
  { generation := "g", seq := i / 100, rowOrdinal := i % 100, payload := wideRow i .read }

def chunkAt (i : Nat) : InboxRow Message :=
  { generation := "g", seq := i, messageId := "m"
    payload := { kind := .transactionRows, transaction := "x", rows := [wideRow i .insert] } }

def wideEnd : Message :=
  { kind := .transactionEnd, generation := "g", transaction := "x" }

def wideDb (count : Nat) : Db Message String Message where
  snapshotScope := [{ table := { schema := "public", name := "t" }, ordinal := 0 }]
  snapshotRows := (List.range count).reverse.map stagedAt
  inbox := (List.range count).reverse.map chunkAt
  tables := wide 0

theorem lists_stagedAt (count : Nat) :
    Lists SnapshotRow.key ((List.range count).map stagedAt) (stagedOf "g" (wideDb count)) := by
  rw [stagedOf, List.filter_eq_self.mpr (by simp [wideDb, stagedAt])]
  refine ⟨(List.reverse_perm _).symm.map _, List.pairwise_map.mpr (List.pairwise_lt_range.imp ?_)⟩
  intro i j hlt
  apply Prod.Lex.toLex_lt_toLex.mpr
  simp only [stagedAt]
  omega

theorem lists_chunkAt (count : Nat) :
    Lists InboxRow.seq ((List.range count).map chunkAt) (chunksOf "g" (wideDb count).inbox) := by
  rw [chunksOf, List.filter_eq_self.mpr (by simp [wideDb, chunkAt])]
  exact ⟨(List.reverse_perm _).symm.map _, List.pairwise_map.mpr List.pairwise_lt_range⟩

theorem applyRow_wide (i : Nat) :
    applyRow wideRuntime.pg wideRuntime.cfg (columnTypes [] (wide 0)) (wideRow i .insert) (wide i)
      = .ok (wide (i + 1)) := by
  have htypes : columnTypes [] (wide 0) "t" = .ok [("x", "text")] := rfl
  have hinsert : insertRow .plain (wide i) "t" [{ name := "x", type := "text", value := some (toString i) }]
      = .ok (wide (i + 1)) := by
    simp [insertRow, wide, replaceTable, Postgres.plain, List.range_succ]
  rw [← hinsert]
  simp [applyRow, statement, Sql.command, keySource, Sql.Command.evaluated, Statement.execute, wideRow,
    wideRuntime, Runtime.plain, Syncer.allows, htypes, transform, appliedColumns, Syncer.fileMapping, expressions, expression, argument, evaluate, cast, Except.ok_bind, Postgres.plain]

theorem applyChunk_wide (count i : Nat) :
    applyChunk wideRuntime [] (wide 0) wideEnd
        (((List.range count).reverse.filter (i ≤ ·)).map chunkAt, wide i) (chunkAt i)
      = .ok (((List.range count).reverse.filter (i + 1 ≤ ·)).map chunkAt, wide (i + 1)) := by
  have hfilter : (((List.range count).reverse.filter (i ≤ ·)).map chunkAt).filter
      (fun other => ¬ (other.generation = "g" ∧ other.seq = i))
        = ((List.range count).reverse.filter (i + 1 ≤ ·)).map chunkAt := by
    rw [List.filter_map, List.filter_filter]
    congr 1
    apply List.filter_congr
    intro j _
    simp only [Function.comp_apply, chunkAt, true_and, Bool.and_eq_decide, decide_eq_true_eq, decide_eq_decide]
    omega
  rw [← hfilter]
  change (Except.mapError _ ([wideRow i .insert].foldlM _ (wide i)) >>= _) = _
  rw [List.foldlM_cons, applyRow_wide]
  rfl

theorem publishListed_wide (count : Nat) :
    publishListed wideRuntime [] (wide 0) ((List.range count).map stagedAt) (wideDb count)
      = .ok { wideDb count with tables := wide count, snapshotRows := [], snapshotScope := [] } := by
  have hcleared : clearTable .plain (wide 0) "t" = .ok (wide 0) := by
    simp [clearTable, wide, replaceTable, Postgres.plain]
  have hrows : ((List.range count).map stagedAt).foldlM (insertStaged wideRuntime [] (wide 0)) (wide 0)
      = .ok (wide count) := Except.foldlM_range wide stagedAt applyRow_wide count
  rw [publishListed]
  change (Except.mapError _ (clearTable .plain (wide 0) "t" >>= pure) >>= _) = _
  rw [hcleared]
  change (Except.mapError _ (List.foldlM _ (wide 0) _) >>= _) = _
  rw [hrows]
  rfl

theorem applyListed_wide (count : Nat) :
    applyListed wideRuntime [] (wide 0) wideEnd ((List.range count).map chunkAt) (wideDb count)
      = .ok { wideDb count with inbox := [], tables := wide count } := by
  have hchunks := Except.foldlM_range _ chunkAt (applyChunk_wide count) count
  have hall : (List.range count).reverse.filter (0 ≤ ·) = (List.range count).reverse :=
    List.filter_eq_self.mpr (by simp)
  have hnone : (List.range count).reverse.filter (count ≤ ·) = [] :=
    List.filter_eq_nil_iff.mpr (by simp)
  rw [hall, hnone] at hchunks
  rw [applyListed]
  change (List.foldlM _ (((List.range count).reverse.map chunkAt), wide 0) _ >>= _) = _
  rw [hchunks]
  rfl

/-- With more rows and chunks than a page holds. -/
theorem paged_application_two_pages :
    (∃ db, publishSnapshot wideRuntime [] (wide 0) "g" (wideDb 600) = .ok db ∧ db.tables = wide 600)
      ∧ ∃ db, applyTransaction wideRuntime [] (wide 0) wideEnd (wideDb 600) = .ok db
        ∧ db.tables = wide 600 ∧ db.inbox = [] := by
  obtain ⟨-, hsnapshot, -, htransaction⟩ := paged_application_eq wideRuntime [] (wide 0) wideEnd (wideDb 600) _ _
    (lists_stagedAt 600) (lists_chunkAt 600)
  exact ⟨⟨_, hsnapshot.trans (publishListed_wide 600), rfl⟩,
    ⟨_, (htransaction _).mpr (applyListed_wide 600), rfl, rfl⟩⟩

end Loops

end GoSync.Server
