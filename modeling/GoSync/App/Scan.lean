import GoSync.App.Controller

/-!
# Scanners

The `Reconcile` functions of the source engines read one table in a transaction and report its columns and
the digests of its rows. They are one function up to how a table is read. The file engine has none.
-/

namespace GoSync.App

open Rpc

structure ScannedColumn where
  name : String
  type : String
  primary : Bool := false
  deriving DecidableEq, Repr

/-- What is read of a table. A table without columns is refused by every engine. -/
structure Scan where
  columns : List ScannedColumn
  digests : List BucketDigest
  columns_ne_nil : columns ≠ []

def Scan.result (request : ReconcileRequest) (scan : Scan) : ReconcileResult where
  requestId := request.requestId
  sourceSchema := request.sourceSchema
  table := request.table
  columns := scan.columns.map ScannedColumn.name
  primaryKeys := (scan.columns.filter ScannedColumn.primary).map ScannedColumn.name
  digests := scan.digests
  columnTypes := scan.columns.map ScannedColumn.type

/-- The `Reconcile` of a database engine, with the tables of its configuration. -/
def reconcileTable (tables : List TableRef) (read : ReconcileRequest → Except String Scan)
    (request : ReconcileRequest) : Except String ReconcileResult :=
  if (⟨request.sourceSchema, request.table⟩ : TableRef) ∉ tables then
    .error "reconciliation table is outside the configured capture scope"
  else
    (read request).map (Scan.result request)

def scanner (engine : Engine) (tables : List TableRef)
    (read : ReconcileRequest → Except String Scan) : Controller.Scanner :=
  match engine with
  | .files => none
  | .postgres | .mysql | .sqlserver | .sqlserverLegacy => some (reconcileTable tables read)

theorem scanner_of_ne {engine : Engine} (h : engine ≠ .files) (tables : List TableRef)
    (read : ReconcileRequest → Except String Scan) :
    scanner engine tables read = some (reconcileTable tables read) := by
  cases engine with
  | files => exact absurd rfl h
  | postgres | mysql | sqlserver | sqlserverLegacy => rfl

end GoSync.App
