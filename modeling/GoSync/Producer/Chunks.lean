import GoSync.Lib.Chunking
import GoSync.Producer.Batch

/-!
# How rows are split into messages

Both kinds of batch make the chunks of `Chunking`. The PostgreSQL batcher also counts the rows before it
adds one; a batch that is full has been flushed by then.
-/

namespace GoSync.Producer

open Capture (Batch Batcher.add Call CaptureError ReadFile Runtime Sizing embedFiles)
open Chunking (Chunker Limits Room Within)

def limitsOf (cfg : Capture.Config) : Limits where
  rows := cfg.batchRows
  bytes := cfg.batchBytes

def numbered (template : Message) (chunks : List (List Row)) : List Message :=
  (chunks.zipIdx template.chunk).map fun (rows, index) => { template with chunk := index, rows := rows }

def batchAt (template : Message) (c : Chunker Row) : Batch where
  message := { template with chunk := template.chunk + c.chunks.length, rows := c.rows }
  size := c.size

section Driving

variable {ε ε' α : Type} {template : Message} {c d : Chunker Row} {plan : Plan Call ε Batch}
  {next : Batch → Plan Call ε Batch}

def Drives (template : Message) (c : Chunker Row) (plan : Plan Call ε Batch) (d : Chunker Row) : Prop :=
  ∃ made, d.chunks = c.chunks ++ made
    ∧ plan = ⟨(numbered { template with chunk := template.chunk + c.chunks.length } made).map .append,
        .ok (batchAt template d)⟩

theorem numbered_append (template : Message) (first second : List (List Row)) :
    numbered template (first ++ second)
      = numbered template first
        ++ numbered { template with chunk := template.chunk + first.length } second := by
  simp [numbered, List.zipIdx_append]

theorem Drives.pure (c : Chunker Row) :
    Drives template c (Pure.pure (batchAt template c) : Plan Call ε Batch) c :=
  ⟨[], (List.append_nil _).symm, rfl⟩

theorem Drives.bind {e : Chunker Row} (h : Drives template c plan d)
    (hnext : Drives template d (next (batchAt template d)) e) : Drives template c (plan >>= next) e := by
  obtain ⟨made, hmade, rfl⟩ := h
  obtain ⟨more, hmore, hplan⟩ := hnext
  refine ⟨made ++ more, by rw [hmore, hmade, List.append_assoc], ?_⟩
  rw [Plan.bind_of_ok rfl, hplan, numbered_append, List.map_append, hmade, List.length_append,
    ← Nat.add_assoc]

theorem Drives.mapError (wrap : ε → ε') (h : Drives template c plan d) :
    Drives template c (plan.mapError wrap) d := by
  obtain ⟨made, hmade, rfl⟩ := h
  exact ⟨made, hmade, rfl⟩

theorem Drives.of_push {row : Row} {size : Nat} (h : Drives template (c.push row size) plan d) :
    Drives template c plan d := h

theorem drives_flush (template : Message) (c : Chunker Row) :
    Drives template c (batchAt template c).flush c.flush := by
  unfold Batch.flush
  by_cases hempty : c.rows = []
  · rw [if_pos (show (batchAt template c).message.rows = [] from hempty), Chunker.flush, if_pos hempty]
    exact Drives.pure c
  · rw [if_neg (show (batchAt template c).message.rows ≠ [] from hempty)]
    refine ⟨[c.rows], by rw [Chunker.flush, if_neg hempty], ?_⟩
    rw [Chunker.flush, if_neg hempty]
    simp [batchAt, numbered, Nat.add_assoc]
    rfl

theorem drives_flushIf {due : Bool} {p : Prop} [Decidable p] (hdue : due = true ↔ p) :
    Drives template c ((batchAt template c).flushIf due) (if p then c.flush else c) := by
  by_cases hp : p
  · rw [if_pos hp, hdue.mpr hp]
    exact drives_flush template c
  · rw [if_neg hp, Bool.eq_false_iff.mpr (mt hdue.mp hp)]
    exact Drives.pure c

theorem Drives.foldlM {limits : Limits} {weight : Row → Nat} {accepted : α → Row → Prop}
    {step : Batch → α → Plan Call ε Batch} {source : List α} {rows : List Row}
    (hstep : ∀ c item row, Room limits c → accepted item row →
      Drives template c (step (batchAt template c) item) (c.add limits weight row))
    (hrows : List.Forall₂ accepted source rows) (hroom : Room limits c) :
    Drives template c (source.foldlM step (batchAt template c))
      (rows.foldl (Chunker.add limits weight) c) := by
  induction hrows generalizing c with
  | nil => exact Drives.pure c
  | cons hrow _ ih =>
      rw [List.foldlM_cons, List.foldl_cons]
      exact (hstep c _ _ hroom hrow).bind (ih (Chunking.room_add c _))

end Driving

def Accepted (sizing : Sizing) (read : ReadFile) (row embedded : Row) : Prop :=
  embedFiles sizing.cfg read row = .ok embedded ∧ sizing.rowSize embedded ≤ sizing.cfg.maxRowBytes

section Kinds

variable {template : Message} {c : Chunker Row} {sizing : Sizing} {read : ReadFile} {row embedded : Row}

theorem drives_addUnless {due : Nat → Batch → Bool}
    (hdue : ∀ size, due size (batchAt template c) = true
      ↔ c.rows ≠ [] ∧ c.size + size > sizing.cfg.batchBytes)
    (hrow : Accepted sizing read row embedded) :
    Drives template c ((batchAt template c).addUnless due sizing read row)
      (c.add (limitsOf sizing.cfg) sizing.rowSize embedded) := by
  unfold Batch.addUnless
  rw [hrow.1, Plan.bind_of_ok rfl, if_neg (Nat.not_lt.mpr hrow.2)]
  apply (drives_flushIf (hdue _)).bind
  apply Drives.of_push
  exact drives_flushIf decide_eq_true_iff

theorem drives_add (hrow : Accepted sizing read row embedded) :
    Drives template c ((batchAt template c).add sizing read row)
      (c.add (limitsOf sizing.cfg) sizing.rowSize embedded) :=
  drives_addUnless (fun _ => decide_eq_true_iff) hrow

/-- The count of the rows before a row is added makes no difference. -/
theorem batcher_drives_add {rt : Runtime} (hroom : Room (limitsOf rt.cfg) c)
    (hrow : Accepted rt.toSizing read row embedded) :
    Drives template c (Batcher.add rt read row (batchAt template c))
      (c.add (limitsOf rt.cfg) rt.rowSize embedded) := by
  refine drives_addUnless (fun size => decide_eq_true_iff.trans ⟨?_, ?_⟩) hrow
  · rintro ⟨hrows, hcount | hheavy⟩
    · exact absurd hcount (Nat.not_le.mpr (hroom.resolve_left hrows).1)
    · exact ⟨hrows, hheavy⟩
  · rintro ⟨hrows, hheavy⟩
    exact ⟨hrows, .inr hheavy⟩

end Kinds

/-- `add` on each row and then `flush`, in the MySQL and both SQL Server packages. -/
def batchAll (sizing : Sizing) (read : ReadFile) (template : Message) (source : List Row) :
    Plan Call CaptureError Batch := do
  let b ← source.foldlM (fun (b : Batch) row => b.add sizing read row)
    { message := { template with rows := [] } }
  b.flush

/-- `add` on each row and then `flush`, in the PostgreSQL package. -/
def batcherAll (rt : Runtime) (read : ReadFile) (template : Message) (source : List Row) :
    Plan Call CaptureError Batch := do
  let b ← source.foldlM (fun b row => Batcher.add rt read row b) { message := { template with rows := [] } }
  b.flush

section Partition

open Chunking (collected partitioned)

variable {rt : Runtime} {read : ReadFile} {template : Message} {source rows : List Row}

theorem drives_batchAll (hrows : List.Forall₂ (Accepted rt.toSizing read) source rows) :
    Drives template {} (batchAll rt.toSizing read template source)
      (collected (limitsOf rt.cfg) rt.rowSize rows).flush :=
  (Drives.foldlM (fun _ _ _ _ hrow => drives_add hrow) hrows (.inl rfl)).bind (drives_flush template _)

theorem drives_batcherAll (hrows : List.Forall₂ (Accepted rt.toSizing read) source rows) :
    Drives template {} (batcherAll rt read template source)
      (collected (limitsOf rt.cfg) rt.rowSize rows).flush :=
  (Drives.foldlM (fun _ _ _ hroom hrow => batcher_drives_add hroom hrow) hrows (.inl rfl)).bind
    (drives_flush template _)

theorem Drives.partitioned {ε : Type} {sizing : Sizing} {plan : Plan Call ε Batch}
    (hlimit : 1 ≤ sizing.cfg.batchRows)
    (h : Drives template {} plan (collected (limitsOf sizing.cfg) sizing.rowSize rows).flush) :
    plan = ⟨(numbered template (partitioned (limitsOf sizing.cfg) sizing.rowSize rows)).map .append,
      .ok { message := { template with
              rows := []
              chunk := template.chunk
                + (partitioned (limitsOf sizing.cfg) sizing.rowSize rows).length } }⟩ := by
  obtain ⟨made, hmade, rfl⟩ := h
  rw [List.nil_append] at hmade
  have hsize : (collected (limitsOf sizing.cfg) sizing.rowSize rows).flush.size = 0 :=
    (Chunking.holds_collected hlimit rows).1.flush.size_eq_zero (Chunking.rows_flush _)
  rw [Chunking.partitioned, hmade, batchAt, hsize, Chunking.rows_flush, hmade]
  rfl

/-- **Chunks partition the rows.** Both kinds of batch split rows that can be batched into the same numbered
messages: none is empty, all are within the limits unless a single row is too heavy, and together they have the
rows in order. -/
theorem batches_partition (rt : Runtime) (read : ReadFile) (template : Message)
    (source rows : List Row) (hlimit : 1 ≤ rt.cfg.batchRows)
    (hrows : List.Forall₂ (Accepted rt.toSizing read) source rows) :
    ∃ chunks : List (List Row), chunks.flatten = rows
      ∧ (∀ chunk ∈ chunks, chunk ≠ [] ∧ chunk.length ≤ rt.cfg.batchRows
        ∧ (chunk.length = 1 ∨ (chunk.map rt.rowSize).sum ≤ rt.cfg.batchBytes))
      ∧ batcherAll rt read template source
        = ⟨(numbered template chunks).map .append, .ok
            { message := { template with rows := [], chunk := template.chunk + chunks.length }, size := 0 }⟩
      ∧ batchAll rt.toSizing read template source
        = ⟨(numbered template chunks).map .append, .ok
            { message := { template with rows := [], chunk := template.chunk + chunks.length }
              size := 0 }⟩ := by
  refine ⟨partitioned (limitsOf rt.cfg) rt.rowSize rows, Chunking.flatten_partitioned hlimit rows,
    ?_, (drives_batcherAll hrows).partitioned hlimit, (drives_batchAll hrows).partitioned hlimit⟩
  intro chunk hmem
  have hwithin := Chunking.within_partitioned hlimit rows chunk hmem
  exact ⟨hwithin.nonempty, hwithin.rows, hwithin.bytes⟩

def threeRows : List Row :=
  List.replicate 3 { schema := "public", table := "t", operation := .insert }

def pairsRuntime : Runtime :=
  .plain { sourceId := "s", tables := [], batchRows := 2 }

theorem batches_partition_three :
    ∃ chunks : List (List Row), chunks.flatten = threeRows
      ∧ (∀ chunk ∈ chunks, chunk ≠ [] ∧ chunk.length ≤ 2
        ∧ (chunk.length = 1 ∨ (chunk.map fun _ => 1).sum ≤ 2 ^ 20))
      ∧ (batcherAll pairsRuntime (fun _ _ _ => .error "") { kind := .snapshotRows } threeRows).requests
        = (numbered { kind := .snapshotRows } chunks).map .append := by
  obtain ⟨chunks, hflatten, hwithin, hbatcher, -⟩ :=
    batches_partition pairsRuntime (fun _ _ _ => .error "") { kind := .snapshotRows } threeRows threeRows
      (by decide) (.cons ⟨rfl, by decide⟩ (.cons ⟨rfl, by decide⟩ (.cons ⟨rfl, by decide⟩ .nil)))
  exact ⟨chunks, hflatten, hwithin, congrArg Plan.requests hbatcher⟩

end Partition

end GoSync.Producer
