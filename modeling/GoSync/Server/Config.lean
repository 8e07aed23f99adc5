import GoSync.Event

/-!
# Syncer configuration

The part of `serverconfig.Syncer` that the target reads while it stores messages. Identity, token,
connection string and schema names of the one syncer a model is about are left out.
-/

namespace GoSync.Server

structure FileColumn where
  sourceSchema : String
  table : String
  sourceColumn : String
  contentColumn : String
  deriving DecidableEq, Repr

structure FileStorage where
  configured : Bool := false
  events : List FileOperation := [.create, .update, .delete]
  maxFileBytes : Int := 2 ^ 30
  deriving DecidableEq, Repr

structure Syncer where
  id : String
  tables : List TableRef
  fileColumns : List FileColumn := []
  autoAddColumns : Bool := false
  fileStorage : FileStorage := {}
  deriving DecidableEq, Repr

def Syncer.allows (cfg : Syncer) (schema table : String) : Bool :=
  cfg.tables.any fun candidate => candidate.schema = schema ∧ candidate.name = table

def Syncer.fileMapping (cfg : Syncer) (schema table column : String) : Option String :=
  (cfg.fileColumns.find? fun candidate =>
    candidate.sourceSchema = schema ∧ candidate.table = table
      ∧ candidate.sourceColumn = column).map FileColumn.contentColumn

def Syncer.allowsFileOperation (cfg : Syncer) (operation : FileOperation) : Bool :=
  cfg.fileStorage.configured && cfg.fileStorage.events.contains operation

theorem Syncer.allows_iff {cfg : Syncer} {schema table : String} :
    cfg.allows schema table = true ↔ ({ schema := schema, name := table } : TableRef) ∈ cfg.tables := by
  simp only [allows, List.any_eq_true, decide_eq_true_eq]
  constructor
  · rintro ⟨⟨candidateSchema, candidateName⟩, hmem, rfl, rfl⟩
    exact hmem
  · intro hmem
    exact ⟨_, hmem, rfl, rfl⟩

end GoSync.Server
