import GoSync.Lib.Outcome
import GoSync.Lib.SlashPath
import GoSync.Server.Config

/-!
# Server configuration

`serverconfig.Config` and its validation. Validation also fills in defaults, so it returns the
configuration it accepts. What it asks of the standard library about texts and files is a parameter.
-/

namespace GoSync.ServerConfig

open Server (FileColumn)

structure Url where
  scheme : String
  host : String
  user : Bool
  deriving DecidableEq, Repr

structure Host where
  splitHostPort : String → Bool
  /-- The text of the error, if the pair cannot be loaded. -/
  loadX509KeyPair : String → String → Option String
  parseUrl : String → Option Url
  /-- Nanoseconds. -/
  parseDuration : String → Option Int
  parseClock : String → Bool
  loadLocation : String → Bool
  toLower : String → String
  toLower_nul : ∀ text, '\x00' ∉ text.toList → '\x00' ∉ (toLower text).toList

structure GRPC where
  listenAddr : String := ":7443"
  tlsCertFile : String
  tlsKeyFile : String
  maxMessageBytes : Int := 32 * 2 ^ 20
  deriving DecidableEq, Repr

structure VictoriaMetrics where
  url : String := ""
  interval : String := "30s"
  timeout : String := "15s"
  headers : List (String × String) := []
  deriving DecidableEq, Repr

structure Postgres where
  dsn : String
  targetSchema : String
  metadataSchema : String := ""
  deriving DecidableEq, Repr

structure FileStorage where
  backend : String := ""
  directory : String := ""
  endpoint : String := ""
  region : String := ""
  bucket : String := ""
  pathPrefix : String := ""
  accessKey : String := ""
  secretKey : String := ""
  sessionToken : String := ""
  secure : Bool := false
  events : List String := []
  maxFileBytes : Int := 0
  deriving DecidableEq, Repr

structure Syncer where
  id : String
  token : String
  postgres : Postgres
  tables : List TableRef
  fileColumns : List FileColumn := []
  autoAddColumns : Bool := false
  fileStorage : FileStorage := {}
  deriving DecidableEq, Repr

structure Reconcile where
  dailyAt : String := "02:00"
  timezone : String := "Asia/Shanghai"
  buckets : Int := 256
  timeout : String := "30m"
  repairMinInterval : String := "24h"
  autoRepair : Bool := true
  dryRun : Bool := false
  deriving DecidableEq, Repr

structure Log where
  file : String := ""
  level : String := "info"
  maxSizeMB : Int := 100
  maxBackups : Int := 10
  maxAgeDays : Int := 30
  compress : Bool := true
  deriving DecidableEq, Repr

structure Config where
  grpc : GRPC
  adminToken : String
  metricsAddr : String := "127.0.0.1:9100"
  victoriaMetrics : VictoriaMetrics := {}
  reconcile : Reconcile := {}
  log : Log := {}
  syncers : List Syncer
  deriving DecidableEq, Repr

inductive Error where
  | listenAddr
  | maxMessageBytes
  | tlsRequired
  | tlsKeyPair (text : String)
  | tlsPaths
  | adminTokenRequired
  | adminToken
  | metricsAddr
  | victoriaUrl
  | victoriaDurations
  | victoriaHeaders
  | dailyAt
  | timezone
  | buckets
  | reconcileDuration (name : String)
  | dryRun
  | syncer
  | duplicateId (id : String)
  | schema (id : String)
  | noTables (id : String)
  | maxFileBytes (id : String)
  | fileEvent (id : String)
  | filePaths (id : String)
  | directory (id : String)
  | objectStorage (id : String)
  | credentials (id : String)
  | endpoint (id : String)
  | ossEndpoint (id : String)
  | backend (id : String)
  | overlappingStorage (owner id : String)
  | table (id : String)
  | duplicateTable (id name : String)
  | sharedTable (other id : String)
  | fileColumn (id : String)
  | fileMapping (id : String)
  deriving DecidableEq, Repr

def Error.message : Error → String
  | .listenAddr => "grpc.listen_addr must be host:port"
  | .maxMessageBytes => "grpc.max_message_bytes must be at least 1 MiB"
  | .tlsRequired => "grpc TLS certificate and key are required"
  | .tlsKeyPair text => "load grpc TLS key pair: " ++ text
  | .tlsPaths => "grpc TLS paths must not contain nul"
  | .adminTokenRequired => "admin_token is required"
  | .adminToken => "admin_token is invalid"
  | .metricsAddr => "metrics_addr must be host:port"
  | .victoriaUrl => "victoria_metrics.url must be an http(s) URL without credentials"
  | .victoriaDurations => "VictoriaMetrics interval and timeout must be at least 1s"
  | .victoriaHeaders => "VictoriaMetrics headers are invalid"
  | .dailyAt => "reconcile.daily_at must use HH:MM"
  | .timezone => "reconcile.timezone is invalid"
  | .buckets => "reconcile.buckets must be between 1 and 65536"
  | .reconcileDuration name => s!"reconcile.{name} must be at least 1m"
  | .dryRun => "reconcile.dry_run and reconcile.auto_repair cannot both be true"
  | .syncer => "each syncer requires a valid id, token and postgres.dsn"
  | .duplicateId id => s!"duplicate syncer id \"{id}\""
  | .schema id => s!"syncer \"{id}\" has an invalid PostgreSQL schema"
  | .noTables id => s!"syncer \"{id}\" has no tables"
  | .maxFileBytes id =>
      s!"syncer \"{id}\" file_storage.max_file_bytes must be between 1 MiB and 1 TiB"
  | .fileEvent id => s!"syncer \"{id}\" has invalid or duplicate file_storage event"
  | .filePaths id => s!"syncer \"{id}\" has invalid file_storage paths"
  | .directory id => s!"syncer \"{id}\" file_storage.directory must be absolute"
  | .objectStorage id =>
      s!"syncer \"{id}\" object storage requires endpoint, bucket, access_key and secret_key"
  | .credentials id => s!"syncer \"{id}\" has invalid object storage credentials"
  | .endpoint id => s!"syncer \"{id}\" has an invalid object storage endpoint"
  | .ossEndpoint id => s!"syncer \"{id}\" OSS endpoint must be an http(s) URL without credentials"
  | .backend id => s!"syncer \"{id}\" file_storage.backend must be directory, s3 or oss"
  | .overlappingStorage owner id =>
      s!"syncers \"{owner}\" and \"{id}\" have overlapping file storage"
  | .table id => s!"syncer \"{id}\" has an invalid table"
  | .duplicateTable id name => s!"syncer \"{id}\" maps duplicate target table \"{name}\""
  | .sharedTable other id => s!"syncers \"{other}\" and \"{id}\" share a target table"
  | .fileColumn id => s!"syncer \"{id}\" has an invalid file column mapping"
  | .fileMapping id => s!"syncer \"{id}\" file mapping references an invalid table or column"

def require (condition : Bool) (err : Error) : Except Error Unit :=
  if condition then .ok () else .error err

theorem require_eq_ok {condition : Bool} {err : Error} {result : Unit} :
    require condition err = .ok result ↔ condition = true := by
  cases condition <;> simp [require]

section Texts

def identifier (text : String) : Bool :=
  match text.toList with
  | [] => false
  | first :: rest =>
      (first.isAlpha || first = '_') && rest.length ≤ 62
        && rest.all fun c => c.isAlphanum || c = '_' || c = '$'

def syncerID (text : String) : Bool :=
  1 ≤ text.toList.length && text.toList.length ≤ 128
    && text.toList.all fun c => c.isAlphanum || c = '_' || c = '.' || c = '-'

def breaksLine (text : String) : Bool :=
  text.toList.any fun c => c = '\r' || c = '\n'

def containsNul (text : String) : Bool :=
  '\x00' ∈ text.toList

end Texts

def Host.plainUrl (host : Host) (text : String) : Bool :=
  match host.parseUrl text with
  | none => false
  | some u => u.host ≠ "" ∧ (u.scheme = "http" ∨ u.scheme = "https") ∧ u.user = false

def Host.atLeast (host : Host) (least : Int) (text : String) : Bool :=
  match host.parseDuration text with
  | none => false
  | some duration => least ≤ duration

/-- The two durations are visited in the order of a Go map; the first one in the order of the fields is
named here. -/
def Reconcile.validate (host : Host) (r : Reconcile) : Except Error Unit := do
  require (host.parseClock r.dailyAt) .dailyAt
  require (host.loadLocation r.timezone) .timezone
  require (1 ≤ r.buckets ∧ r.buckets ≤ 65536) .buckets
  require (host.atLeast (60 * 10 ^ 9) r.timeout) (.reconcileDuration "timeout")
  require (host.atLeast (60 * 10 ^ 9) r.repairMinInterval) (.reconcileDuration "repair_min_interval")
  require (¬ (r.dryRun ∧ r.autoRepair)) .dryRun

section Storage

def FileStorage.normalize (host : Host) (f : FileStorage) : FileStorage :=
  { f with
    backend := host.toLower f.backend
    events := if f.events = [] then ["create", "update", "delete"] else f.events
    maxFileBytes := if f.maxFileBytes = 0 then 2 ^ 30 else f.maxFileBytes }

def FileStorage.checkBackend (host : Host) (f : FileStorage) (syncer : String) : Except Error Unit :=
  if f.backend = "directory" then
    require (SlashPath.isRooted f.directory.toList) (.directory syncer)
  else if f.backend = "s3" ∨ f.backend = "oss" then do
    require (f.endpoint ≠ "" ∧ f.bucket ≠ "" ∧ f.accessKey ≠ "" ∧ f.secretKey ≠ "")
      (.objectStorage syncer)
    require (¬ breaksLine (f.accessKey ++ f.secretKey ++ f.sessionToken)) (.credentials syncer)
    require (¬ breaksLine f.endpoint) (.endpoint syncer)
    require (f.backend = "s3" ∨ host.plainUrl f.endpoint) (.ossEndpoint syncer)
  else
    .error (.backend syncer)

def FileStorage.checkPaths (f : FileStorage) : Bool :=
  ¬ containsNul (f.pathPrefix ++ f.directory ++ f.endpoint ++ f.bucket)
    ∧ ¬ SlashPath.isRooted f.pathPrefix.toList ∧ ¬ ['.', '.'] <:+: f.pathPrefix.toList

def FileStorage.validate (host : Host) (f : FileStorage) (syncer : String) :
    Except Error FileStorage :=
  if f.backend = "" then
    .ok f
  else do
    let f := f.normalize host
    require (2 ^ 20 ≤ f.maxFileBytes ∧ f.maxFileBytes ≤ 2 ^ 40) (.maxFileBytes syncer)
    require ((f.events.all fun operation => operation ∈ ["create", "update", "delete"])
      && decide f.events.Nodup) (.fileEvent syncer)
    require f.checkPaths (.filePaths syncer)
    f.checkBackend host syncer
    pure f

def fileStorageKey (host : Host) (storage : FileStorage) : List Char :=
  if storage.backend = "directory" then
    "directory\x00".toList
      ++ SlashPath.clean (SlashPath.join [storage.directory.toList, storage.pathPrefix.toList])
  else
    "object\x00".toList ++ (host.toLower storage.endpoint).toList ++ '\x00' :: storage.bucket.toList
      ++ '\x00' :: SlashPath.clean ('/' :: storage.pathPrefix.toList)

def contains (parent child : List Char) : Bool :=
  match SlashPath.rel parent child with
  | none => false
  | some way => !SlashPath.leadsUp way

def filePathsOverlap (a b : List Char) : Bool :=
  contains a b || contains b a

def prefixesOverlap (a b : List Char) : Bool :=
  a = b ∨ b ++ ['/'] <+: a ∨ a ++ ['/'] <+: b

def storageKeysOverlap (a b : List Char) : Bool :=
  let aParts := a.splitOn '\x00'
  let bParts := b.splitOn '\x00'
  let aLast := aParts.getLastD []
  let bLast := bParts.getLastD []
  if aParts.length ≠ bParts.length ∨ aParts.dropLast ≠ bParts.dropLast then
    false
  else if aParts.head? = some "directory".toList then
    filePathsOverlap aLast bLast
  else
    prefixesOverlap (SlashPath.trim aLast) (SlashPath.trim bLast)

end Storage

structure Seen where
  ids : List String := []
  targets : List (String × String) := []
  files : List (List Char × String) := []
  deriving Repr

def targetKey (postgres : Postgres) (table : String) : String :=
  postgres.dsn ++ "\x00" ++ postgres.targetSchema ++ "\x00" ++ table

def Syncer.checkTable (s : Syncer) (seen : List String × List (String × String)) (table : TableRef) :
    Except Error (List String × List (String × String)) := do
  require (identifier table.schema && identifier table.name) (.table s.id)
  require (table.name ∉ seen.1) (.duplicateTable s.id table.name)
  match seen.2.lookup (targetKey s.postgres table.name) with
  | some other => .error (.sharedTable other s.id)
  | none =>
      pure (seen.1 ++ [table.name], seen.2 ++ [(targetKey s.postgres table.name, s.id)])

def Syncer.checkFileColumn (s : Syncer) (rule : FileColumn) : Except Error Unit := do
  require (identifier rule.sourceSchema && identifier rule.table && identifier rule.sourceColumn
    && identifier rule.contentColumn) (.fileColumn s.id)
  require ((s.tables.any fun table => table.name = rule.table)
    && decide (rule.sourceColumn ≠ rule.contentColumn)) (.fileMapping s.id)

/-- Storages are visited in the order of a Go map; the owner named here is the first in the order of the
syncers. -/
def Syncer.checkStorage (host : Host) (s : Syncer) (files : List (List Char × String)) :
    Except Error (List (List Char × String)) :=
  if s.fileStorage.backend = "" then
    .ok files
  else
    match files.find? fun existing => storageKeysOverlap existing.1 (fileStorageKey host s.fileStorage) with
    | some existing => .error (.overlappingStorage existing.2 s.id)
    | none => .ok (files ++ [(fileStorageKey host s.fileStorage, s.id)])

def Postgres.normalize (postgres : Postgres) : Postgres :=
  { postgres with
    metadataSchema :=
      if postgres.metadataSchema = "" then "go_sync_meta" else postgres.metadataSchema }

def checkSyncer (host : Host) (state : Seen × List Syncer) (s : Syncer) :
    Except Error (Seen × List Syncer) := do
  require (syncerID s.id && s.token ≠ "" && s.postgres.dsn ≠ "" && !breaksLine s.token
    && s.token.utf8ByteSize ≤ 4096) .syncer
  require (s.id ∉ state.1.ids) (.duplicateId s.id)
  let postgres := s.postgres.normalize
  require (identifier postgres.targetSchema && identifier postgres.metadataSchema) (.schema s.id)
  require (s.tables ≠ [] ∨ s.fileStorage.backend ≠ "") (.noTables s.id)
  let storage ← s.fileStorage.validate host s.id
  let s := { s with postgres := postgres, fileStorage := storage }
  let files ← s.checkStorage host state.1.files
  let tables ← s.tables.foldlM s.checkTable ([], state.1.targets)
  s.fileColumns.forM s.checkFileColumn
  pure (⟨state.1.ids ++ [s.id], tables.2, files⟩, state.2 ++ [s])

def GRPC.validate (host : Host) (g : GRPC) : Except Error Unit := do
  require (host.splitHostPort g.listenAddr) .listenAddr
  require (2 ^ 20 ≤ g.maxMessageBytes) .maxMessageBytes
  require (g.tlsCertFile ≠ "" ∧ g.tlsKeyFile ≠ "") .tlsRequired
  match host.loadX509KeyPair g.tlsCertFile g.tlsKeyFile with
  | some text => .error (.tlsKeyPair text)
  | none => require (¬ containsNul (g.tlsCertFile ++ g.tlsKeyFile)) .tlsPaths

def VictoriaMetrics.validate (host : Host) (v : VictoriaMetrics) : Except Error Unit := do
  require (v.url = "" ∨ host.plainUrl v.url) .victoriaUrl
  require (v.url = "" ∨ (host.atLeast (10 ^ 9) v.interval ∧ host.atLeast (10 ^ 9) v.timeout))
    .victoriaDurations
  require (v.headers.all fun header => header.1 ≠ "" && !breaksLine (header.1 ++ header.2))
    .victoriaHeaders

def Config.validate (host : Host) (c : Config) : Except Error Config := do
  c.grpc.validate host
  require (c.adminToken ≠ "") .adminTokenRequired
  require (!breaksLine c.adminToken && c.adminToken.utf8ByteSize ≤ 4096) .adminToken
  require (c.metricsAddr = "" ∨ host.splitHostPort c.metricsAddr) .metricsAddr
  c.victoriaMetrics.validate host
  c.reconcile.validate host
  let (_, syncers) ← c.syncers.foldlM (checkSyncer host) ({}, [])
  pure { c with syncers := syncers }

def Config.staticEqual (c other : Config) : Bool :=
  c.grpc.listenAddr = other.grpc.listenAddr ∧ c.grpc.maxMessageBytes = other.grpc.maxMessageBytes
    ∧ c.metricsAddr = other.metricsAddr ∧ { c.log with level := "" } = { other.log with level := "" }

end GoSync.ServerConfig
