import GoSync.App.Scan
import GoSync.MySql.Rows
import GoSync.Reconcile.Multiset
import GoSync.SqlServerLegacy.Rows

/-!
# Scans

The loops that feed a table to a builder: the `Reconcile` functions of the SQL Server and MySQL collectors,
from the values that their projections return, and `reconcileDigests` of the target, from the texts of the
columns that the source reported.
-/

namespace GoSync.Reconcile

open Rpc

def Digest.wire (digest : Digest) : BucketDigest where
  bucket := digest.bucket
  rows := digest.rows
  digest := digest.hash

inductive ScanError where
  | reconcile (err : Error)
  | sqlServer (err : SqlServer.Error)
  | legacy (err : SqlServerLegacy.Error)
  | mysql (schema table : String) (err : MySql.Error)
  deriving DecidableEq, Repr

section Sources

def scanRows {α : Type} (rt : Runtime) (make : α → Except ScanError Row) (buckets : Nat)
    (values : List α) : Except ScanError (List Digest) := do
  let builder ← (newBuilder buckets).mapError .reconcile
  let builder ← values.foldlM
    (fun builder value => do
      let row ← make value
      (builder.add rt row).mapError .reconcile)
    builder
  pure builder.digests

def sqlServerRow (format : SqlServer.FormatFloat) (table : SqlServer.Table)
    (values : List (Option String)) : Except ScanError Row := do
  let columns ← (SqlServer.toColumns format table values).mapError .sqlServer
  let key ← (SqlServer.rowKey table columns).mapError .sqlServer
  pure { schema := table.schema, table := table.name, identity := table.rowIdentity
         operation := .other "", key := key, columns := columns }

/-- `sqlserver.Reconcile`. -/
def scanSqlServer (rt : Runtime) (format : SqlServer.FormatFloat) (table : SqlServer.Table) :
    Nat → List (List (Option String)) → Except ScanError (List Digest) :=
  scanRows rt (sqlServerRow format table)

/-- `sqlserverlegacy.Reconcile`. -/
def scanLegacy (rt : Runtime) (print : SqlServerLegacy.Printing) (table : SqlServerLegacy.Table) :
    Nat → List (List (Option (List UInt8))) → Except ScanError (List Digest) :=
  scanRows rt fun values => (SqlServerLegacy.snapshotRow print table values).mapError .legacy

/-- `mysql.Reconcile`. -/
def scanMySql (rt : Runtime) (print : List UInt8 → String) (table : MySql.Table) :
    Nat → List (List MySql.Value) → Except ScanError (List Digest) :=
  scanRows rt fun values =>
    (MySql.makeRow print table { operation := .read, after := some values } 0).mapError
      (.mysql table.schema table.name)

end Sources

section Target

def targetRow (source : ReconcileResult) (values : List (Option String)) : Row :=
  let columns := ((source.columns.zip source.columnTypes).zip values).map fun ((name, type), value) =>
    ({ name := name, type := type, value := value } : Column)
  if source.primaryKeys = [] then
    { schema := source.sourceSchema, table := source.table, operation := .other "", identity := .fullRow
      key := columns, columns := columns }
  else
    { schema := source.sourceSchema, table := source.table, operation := .other ""
      key := columns.filter fun column => column.name ∈ source.primaryKeys, columns := columns }

def targetDigests (rt : Runtime) (buckets : Nat) (values : List (List (Option String)))
    (source : ReconcileResult) : Except String (List Digest) :=
  (digests rt (values.map (targetRow source)) buckets).mapError Error.message

end Target

/-- A scan that reads every row digests them all. -/
theorem scanRows_eq {α ι : Type} {rt : Runtime} {make : α → Except ScanError Row} {items : List ι}
    {value : ι → α} {row : ι → Row} (hmake : ∀ item ∈ items, make (value item) = .ok (row item))
    (buckets : Nat) :
    scanRows rt make buckets (items.map value)
      = (digests rt (items.map row) buckets).mapError .reconcile := by
  have hfold : ∀ builder : Builder,
      (items.map value).foldlM
          (fun builder value => do
            let row ← make value
            (builder.add rt row).mapError .reconcile)
          builder
        = ((items.map row).foldlM (Builder.add rt) builder).mapError .reconcile := by
    induction items with
    | nil => exact fun _ => rfl
    | cons item items ih =>
        rw [List.forall_mem_cons] at hmake
        intro builder
        rw [List.map_cons, List.foldlM_cons, List.map_cons, List.foldlM_cons, hmake.1, Except.ok_bind]
        cases hadd : builder.add rt (row item) with
        | error err => rfl
        | ok next => exact ih hmake.2 next
  rw [scanRows, digests]
  cases newBuilder buckets with
  | error err => rfl
  | ok builder =>
      rw [Except.ok_bind]
      change ((items.map value).foldlM _ builder >>= _) = Except.mapError _ (_ >>= _)
      rw [hfold]
      cases (items.map row).foldlM (Builder.add rt) builder <;> rfl

end GoSync.Reconcile
