import GoSync.MySql.Collector

/-!
# Checkpoints

A checkpoint is the text of a binlog position. `SHOW MASTER STATUS` reports positions of 64 bits, and a
checkpoint has room for 32.
-/

namespace GoSync.MySql

open Capture (Backlog Grants ReadFile)


/-- The boundary of a snapshot, from the position that `SHOW MASTER STATUS` reports. -/
def statusBoundary (file : FileName) (pos64 : UInt64) : Position where
  name := file
  pos := ⟨pos64.toNat % 2 ^ 32, Nat.mod_lt _ (by decide)⟩

/-- `mysql:v1:<base64url>:<decimal>`, with a position after the header of a file. -/
def IsCheckpoint (raw : String) : Prop :=
  ∃ file digits value, raw.toList = "mysql:v1:".toList ++ file ++ ':' :: digits
    ∧ file ≠ [] ∧ file.length % 4 ≠ 1 ∧ (∀ c ∈ file, (base64UrlDigit c).isSome)
    ∧ parseDigits digits = some value
    ∧ 4 ≤ value ∧ value < 2 ^ 32

def isLineBreak (c : Char) : Bool :=
  c = '\r' ∨ c = '\n'

section Decoding

variable {p : Position} {raw : String}

theorem decodePosition_encodePosition (hname : p.name ≠ []) (hpos : 4 ≤ p.pos.val) :
    decodePosition (encodePosition p) = .ok p := by
  have hfile : parseFile (rawUrlEncode p.name) = .ok p.name := by
    rw [parseFile, rawUrlDecode_encode]
    exact if_neg hname
  have hdigits : parsePos (decimal 20 p.pos.val) = .ok p.pos := by
    rw [parsePos, parseDigits_pos]
    dsimp only
    rw [dif_pos p.pos.isLt, if_neg (Nat.not_lt.mpr hpos)]
  rw [decodePosition, splitOn_encodePosition]
  dsimp only
  rw [if_neg (by simp), hfile, hdigits]
  rfl

theorem decodePosition_parts (h : decodePosition raw = .ok p) :
    ∃ file digits, raw.toList = "mysql:v1:".toList ++ file ++ ':' :: digits
      ∧ rawUrlDecode file = some p.name ∧ p.name ≠ [] ∧ parseDigits digits = some p.pos.val
      ∧ 4 ≤ p.pos.val := by
  unfold decodePosition at h
  split at h
  · rename_i source version file digits hparts
    split_ifs at h with hheader
    rw [not_or, not_not, not_not] at hheader
    obtain ⟨rfl, rfl⟩ := hheader
    obtain ⟨name, hname, h⟩ := Except.bind_eq_ok.mp h
    obtain ⟨pos, hpos, h⟩ := Except.bind_eq_ok.mp h
    cases h
    have hfile : rawUrlDecode file = some name ∧ name ≠ [] := by
      unfold parseFile at hname
      split at hname
      · cases hname
      · rename_i found hfound
        split_ifs at hname with hempty
        cases hname
        exact ⟨hfound, hempty⟩
    refine ⟨file, digits, ?_, hfile.1, hfile.2, ?_⟩
    · have hjoined : [':'].intercalate (raw.toList.splitOn ':') = raw.toList := List.intercalate_splitOn ':'
      rw [← hjoined, hparts]
      simp [List.intercalate]
    · unfold parsePos at hpos
      split at hpos
      · cases hpos
      · rename_i value hvalue
        split_ifs at hpos with hlt hsmall
        cases hpos
        exact ⟨hvalue, Nat.not_lt.mp hsmall⟩
  · cases h

theorem decode_eq_some {a : Alphabet} {text : List Char} {bytes : List UInt8}
    (h : a.decode text = some bytes) : text.length % 4 ≠ 1 ∧ ∀ c ∈ text, (a.digit c).isSome := by
  induction text using Alphabet.decode.induct generalizing bytes with
  | case1 => exact ⟨by decide, List.forall_mem_nil _⟩
  | case2 c => cases h
  | case3 a b =>
      simp only [Alphabet.decode, Option.bind_eq_bind, Option.bind_eq_some_iff] at h
      obtain ⟨_, ha, _, hb, -⟩ := h
      simp [ha, hb]
  | case4 a b c =>
      simp only [Alphabet.decode, Option.bind_eq_bind, Option.bind_eq_some_iff] at h
      obtain ⟨_, ha, _, hb, _, hc, -⟩ := h
      simp [ha, hb, hc]
  | case5 a b c d rest ih =>
      simp only [Alphabet.decode, Option.bind_eq_bind, Option.bind_eq_some_iff] at h
      obtain ⟨_, ha, _, hb, _, hc, _, hd, _, hrest, -⟩ := h
      obtain ⟨hlength, hothers⟩ := ih hrest
      refine ⟨?_, by simpa [ha, hb, hc, hd] using hothers⟩
      simpa [Nat.add_assoc] using hlength

/-- Of the texts that can be decoded, the checkpoints are those without line breaks. -/
theorem isCheckpoint_iff (h : decodePosition raw = .ok p) :
    IsCheckpoint raw ↔ ∀ c ∈ raw.toList, isLineBreak c = false := by
  have hheader : ∀ c ∈ "mysql:v1:".toList, isLineBreak c = false := by
    have hall : ("mysql:v1:".toList.all fun c => isLineBreak c = false) = true := by decide
    exact fun c hc => of_decide_eq_true (List.all_eq_true.mp hall c hc)
  have hbase (c : Char) (hc : (base64UrlDigit c).isSome) : isLineBreak c = false := by
    rw [← Bool.not_eq_true, isLineBreak, decide_eq_true_iff]
    rintro (rfl | rfl)
    · exact absurd hc (by decide)
    · exact absurd hc (by decide)
  constructor
  · rintro ⟨file, digits, value, hraw, -, -, hfile, hdigits, -⟩
    have hdigit : ∀ c ∈ digits, isLineBreak c = false := by
      intro c hc
      unfold parseDigits at hdigits
      split_ifs at hdigits with hbad
      rw [not_or, not_not] at hbad
      have hcdigit := List.all_eq_true.mp hbad.2 c hc
      rw [← Bool.not_eq_true, isLineBreak, decide_eq_true_iff]
      rintro (rfl | rfl)
      · exact absurd hcdigit (by decide)
      · exact absurd hcdigit (by decide)
    intro c hc
    rw [hraw, List.mem_append, List.mem_append, List.mem_cons] at hc
    rcases hc with (hc | hc) | rfl | hc
    · exact hheader c hc
    · exact hbase c (hfile c hc)
    · decide
    · exact hdigit c hc
  · intro hbreaks
    obtain ⟨file, digits, hraw, hfile, hname, hdigits, hpos⟩ := decodePosition_parts h
    have hplain (c : Char) (hc : isLineBreak c = true) : c ∉ file := fun hmem =>
      Bool.noConfusion (hc.symm.trans (hbreaks c (by rw [hraw]; simp [hmem])))
    rw [rawUrlDecode, withoutBreaks_eq_self (hplain _ rfl) (hplain _ rfl)] at hfile
    obtain ⟨hlength, hbase⟩ := decode_eq_some hfile
    refine ⟨file, digits, p.pos.val, hraw, ?_, hlength, hbase, hdigits, hpos, p.pos.isLt⟩
    rintro rfl
    exact hname (Option.some.inj hfile).symm

end Decoding

section Snapshots

variable {refs : List TableRef} {rt : Runtime} {read : ReadFile} {info : Inspection refs}
  {input : SnapshotInput refs} {b last : Backlog}

theorem snapshot_checkpoint (hresult : (snapshot rt read info input).result = .ok ())
    (hrun : Plan.Granted Grants (snapshot rt read info input).requests b last) :
    last.durableLsn = encodePosition input.boundary ∧ last.snapshotLsn = encodePosition input.boundary := by
  unfold snapshot at hresult hrun
  split_ifs at hresult hrun with hlock
  · cases hcurrent : input.current with
    | error err =>
        rw [hcurrent] at hresult
        cases hresult
    | ok current =>
        rw [hcurrent] at hresult hrun
        rw [Plan.bind_of_ok rfl] at hresult hrun
        split_ifs at hresult hrun with hchanged
        · cases hresult
        · exact Producer.snapshot_stores hresult hrun
  · cases hresult

def Denotes (raw : String) (file : FileName) (pos64 : UInt64) : Prop :=
  ∃ p, decodePosition raw = .ok p ∧ p.name = file ∧ p.pos.val = pos64.toNat

theorem decodePosition_encodePosition_iff {p : Position} :
    decodePosition (encodePosition p) = .ok p ↔ p.name ≠ [] ∧ 4 ≤ p.pos.val := by
  constructor
  · intro h
    obtain ⟨file, digits, -, -, hname, -, hpos⟩ := decodePosition_parts h
    exact ⟨hname, hpos⟩
  · rintro ⟨hname, hpos⟩
    exact decodePosition_encodePosition hname hpos

theorem denotes_encodePosition_iff {file : FileName} {pos64 : UInt64} (hfile : file ≠ [])
    (hpos : 4 ≤ pos64.toNat) :
    Denotes (encodePosition (statusBoundary file pos64)) file pos64 ↔ pos64.toNat < 2 ^ 32 := by
  constructor
  · rintro ⟨p, -, -, hsame⟩
    rw [← hsame]
    exact p.pos.isLt
  · intro hlt
    have hmod : (statusBoundary file pos64).pos.val = pos64.toNat := Nat.mod_eq_of_lt hlt
    refine ⟨statusBoundary file pos64, ?_, rfl, hmod⟩
    apply decodePosition_encodePosition
    · exact hfile
    · rw [hmod]
      exact hpos

end Snapshots

/-- A snapshot has completed, of a server that reported `file` and `pos64`. -/
structure Taken (rt : Runtime) (read : ReadFile) (info : Inspection refs) (input : SnapshotInput refs)
    (file : FileName) (pos64 : UInt64) (b last : Backlog) : Prop where
  boundary : input.boundary = statusBoundary file pos64
  completed : (snapshot rt read info input).result = .ok ()
  granted : Plan.Granted Grants (snapshot rt read info input).requests b last

/-- **Checkpoints stand for positions.** A snapshot stores the position that the server reported exactly if it
has 32 bits; a position is read back from its checkpoint exactly if it has a file and lies after the header;
and a text that is read at all is a checkpoint exactly if it has no line breaks. -/
theorem checkpoints_denote_iff (refs : List TableRef) (rt : Runtime) (read : ReadFile)
    (info : Inspection refs) (input : SnapshotInput refs) (file : FileName) (pos64 : UInt64)
    (b last : Backlog) (p q : Position) (raw : String) :
    (file ≠ [] → 4 ≤ pos64.toNat → Taken rt read info input file pos64 b last →
      ((Denotes last.durableLsn file pos64 ∧ Denotes last.snapshotLsn file pos64)
        ↔ pos64.toNat < 2 ^ 32))
    ∧ (decodePosition (encodePosition p) = .ok p ↔ p.name ≠ [] ∧ 4 ≤ p.pos.val)
    ∧ (decodePosition raw = .ok q →
      (IsCheckpoint raw ↔ ∀ c ∈ raw.toList, isLineBreak c = false)) := by
  refine ⟨?_, decodePosition_encodePosition_iff, fun h => isCheckpoint_iff h⟩
  intro hfile hpos htaken
  obtain ⟨hdurable, hpoint⟩ := snapshot_checkpoint htaken.completed htaken.granted
  rw [hdurable, hpoint, htaken.boundary, and_self]
  exact denotes_encodePosition_iff hfile hpos

section Orders

def orders : Table where
  schema := "shop"
  name := "orders"
  columns := [{ name := "id", type := "int", columnType := "int", primaryKey := true }]

def ordersRuntime : Runtime where
  sizing := { cfg := { sourceId := "s", tables := [orders.ref] }, rowSize := fun _ => 1 }
  schemaHash := fun _ => "h"
  schemaHash_ne_empty := by simp
  print := fun _ => ""

def ordersInspection : Inspection [orders.ref] where
  tables := [orders]
  covers := rfl
  columns := by simp [orders]

def ordersInput (pos64 : UInt64) : SnapshotInput [orders.ref] where
  token := "g"
  current := .ok ordersInspection
  boundary := statusBoundary [98] pos64
  contents := fun _ => [[some "1"], [some "2"]]

def noFile : ReadFile :=
  fun _ _ _ => .error ""

def ordersLedger (pos64 : UInt64) : Backlog :=
  (snapshot ordersRuntime noFile ordersInspection (ordersInput pos64)).requests.foldl (Backlog.grant "now")
    { origin := {}, phase := .snapshot }

theorem orders_taken (pos64 : UInt64) :
    Taken ordersRuntime noFile ordersInspection (ordersInput pos64) [98] pos64
      { origin := {}, phase := .snapshot } (ordersLedger pos64) where
  boundary := rfl
  completed := rfl
  granted := Capture.granted_grant _ "now" _

end Orders

theorem checkpoints_denote_orders :
    Taken ordersRuntime noFile ordersInspection (ordersInput 120) [98] 120
      { origin := {}, phase := .snapshot } (ordersLedger 120)
    ∧ Denotes (ordersLedger 120).durableLsn [98] 120
    ∧ decodePosition "mysql:v1:Yg:120" = .ok ⟨[98], 120⟩ ∧ IsCheckpoint "mysql:v1:Yg:120" := by
  have hdecoded : decodePosition "mysql:v1:Yg:120" = .ok ⟨[98], 120⟩ := by decide +kernel
  have hall : ("mysql:v1:Yg:120".toList.all fun c => isLineBreak c = false) = true := by decide
  obtain ⟨hdenotes, -, hform⟩ := checkpoints_denote_iff _ ordersRuntime noFile ordersInspection
    (ordersInput 120) [98] 120 _ (ordersLedger 120) ⟨[98], 120⟩ ⟨[98], 120⟩ "mysql:v1:Yg:120"
  exact ⟨orders_taken 120, ((hdenotes (by decide) (by decide) (orders_taken 120)).mpr (by decide)).1, hdecoded,
    (hform hdecoded).mpr fun c hc => of_decide_eq_true (List.all_eq_true.mp hall c hc)⟩

/-- The position `2 ^ 32 + 120` is stored as `120`; a checkpoint with a line break is accepted. -/
theorem checkpoint_truncated :
    (∃ last, Taken ordersRuntime noFile ordersInspection (ordersInput 4294967416) [98]
        4294967416 { origin := {}, phase := .snapshot } last
      ∧ decodePosition last.durableLsn = .ok ⟨[98], 120⟩)
    ∧ ∃ raw, decodePosition raw = .ok ⟨[98], 120⟩ ∧ ¬ IsCheckpoint raw := by
  constructor
  · refine ⟨ordersLedger 4294967416, orders_taken _, ?_⟩
    obtain ⟨hdurable, -⟩ := snapshot_checkpoint (orders_taken 4294967416).completed
      (orders_taken 4294967416).granted
    rw [hdurable]
    exact decodePosition_encodePosition (by decide) (by decide)
  · have hdecoded : decodePosition "mysql:v1:Y\ng:120" = .ok ⟨[98], 120⟩ := by decide +kernel
    refine ⟨_, hdecoded, fun hcheckpoint => ?_⟩
    exact absurd ((isCheckpoint_iff hdecoded).mp hcheckpoint '\n' (by decide)) (by decide)

end GoSync.MySql
