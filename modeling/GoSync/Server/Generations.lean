import GoSync.Server.Session

/-!
# Generations of a target

A target changes its generation only on a session that was admitted under an authorized repair, and such an
admission uses the authorization up. It is used up before anything of the new generation is stored, so a
stream that ends in between takes the authorization with it.
-/

namespace GoSync.Server

open Rpc

variable {Raw Value Hash : Type} [DecidableEq Hash]

section Turns

variable {rt : Runtime Raw Value Hash} {service : ServiceSettings} {env : SessionEnv}
  {target : Target Raw Value Hash} {session : Session} {frame : CollectorFrame Raw}

omit [DecidableEq Hash] in
theorem greet_cases (target : Target Raw Value Hash) (frame : CollectorFrame Raw) :
    (greet target frame).target = target ∧ (greet target frame).session = none
      ∨ ∃ hello session, frame = .hello hello ∧ session.generation = hello.generation
        ∧ (greet target frame).session = some session
        ∧ ((greet target frame).target = target
            ∧ (target.db.syncState.generation = "" ∨ target.db.syncState.generation = hello.generation)
          ∨ (greet target frame).target = (consumeRepairAuthorization target).1
            ∧ target.db.syncState.repairAuthorized = true ∧ target.db.syncState.generation ≠ ""
            ∧ target.db.syncState.generation ≠ hello.generation) := by
  cases frame with
  | hello hello =>
      by_cases hother : target.db.syncState.generation ≠ "" ∧ target.db.syncState.generation ≠ hello.generation
      · by_cases hflag : target.db.syncState.repairAuthorized = true
        · right
          rw [greet, admission, if_pos hother, consumeRepairAuthorization, if_pos hflag]
          exact ⟨hello, _, rfl, rfl, rfl, .inr ⟨rfl, hflag, hother⟩⟩
        · left
          rw [greet, admission, if_pos hother, consumeRepairAuthorization, if_neg hflag]
          exact ⟨rfl, rfl⟩
      · right
        rw [greet, admission, if_neg hother]
        rw [not_and_or, not_not, not_not] at hother
        exact ⟨hello, _, rfl, rfl, rfl, .inl ⟨rfl, hother⟩⟩
  | _ => exact .inl ⟨rfl, rfl⟩

structure Turn.Quiet (target : Target Raw Value Hash) (session : Session) (turn : Turn Raw Value Hash) :
    Prop where
  kept : turn.target = target ∨ turn.target = authorizeRepair target ∧ turn.session.isSome
  stays : ∀ s, turn.session = some s → s.generation = session.generation

structure Turn.Stored (rt : Runtime Raw Value Hash) (target : Target Raw Value Hash) (session : Session)
    (message : Message) (raw : Raw) (turn : Turn Raw Value Hash) : Prop where
  generation : message.generation = session.generation
  stored : ∃ backend, store rt { types := target.types, backend := backend } message raw target.db
    = .ok turn.target.db
  stays : ∀ s, turn.session = some s → s.generation = session.generation

end Turns

def Db.authorized (b : Bool) (db : Db Raw Value Hash) : Db Raw Value Hash :=
  { db with syncState := { db.syncState with repairAuthorized := b } }

/-- The server of one target while any collectors connect to it; `session` holds the lease. -/
structure Host (Raw Value Hash : Type) where
  target : Target Raw Value Hash
  session : Option Session := none

namespace Host

/-- What happens to a host. The frames are arbitrary. A stream whose lease is gone stores nothing any more,
but it can still authorize a repair or use one up; and what the service has cached after a restart, a reload
or a commit that was not reported is left open. -/
inductive Action (Raw : Type) where
  | greet (frame : CollectorFrame Raw)
  | react (env : SessionEnv) (frame : CollectorFrame Raw)
  | drop
  | stray (authorized : Bool)
  | cache (types : TypeCache)

def took (turn : Turn Raw Value Hash) : Host Raw Value Hash :=
  { target := turn.target, session := turn.session }

def stray (authorized : Bool) (host : Host Raw Value Hash) : Host Raw Value Hash :=
  { host with target := { host.target with db := host.target.db.authorized authorized } }

def step (rt : Runtime Raw Value Hash) (service : ServiceSettings) (host : Host Raw Value Hash) :
    Action Raw → Host Raw Value Hash
  | .greet frame =>
      match host.session with
      | none => took (Server.greet host.target frame)
      | some _ => host
  | .react env frame =>
      match host.session with
      | none => host
      | some session => took (Server.react rt service env host.target session frame)
  | .drop => { host with session := none }
  | .stray authorized => host.stray authorized
  | .cache types => { host with target := { host.target with types := types } }

def run (rt : Runtime Raw Value Hash) (service : ServiceSettings) (host : Host Raw Value Hash)
    (actions : List (Action Raw)) : Host Raw Value Hash :=
  actions.foldl (step rt service) host

def generation (host : Host Raw Value Hash) : String :=
  host.target.db.syncState.generation

/-- One generation has replaced another. -/
def changes (host next : Host Raw Value Hash) : Nat :=
  if host.generation ≠ "" ∧ next.generation ≠ host.generation then 1 else 0

/-- What a change of the generation leaves behind: a stored opening message and nothing else of the old
generation, with the target tables as they were. -/
structure Opened (message : Message) (raw : Raw) (rt : Runtime Raw Value Hash)
    (before after : Db Raw Value Hash) : Prop where
  opening : message.kind = .snapshotBegin ∧ message.seq = 1
  generation : after.syncState.generation = message.generation ∧ after.syncState.received = 1
  phase : after.syncState.phase = .snapshot
  inbox : after.inbox = []
  rows : after.snapshotRows = []
  staged : after.schemaStage = []
  scope : snapshotScope rt.cfg 0 message.tables [] = .ok after.snapshotScope
  hashes : after.messageHash
    = [{ generation := message.generation, seq := 1, payloadHash := rt.payloadHash raw }]
  tables : after.tables = before.tables

variable {rt : Runtime Raw Value Hash} {service : ServiceSettings} {host : Host Raw Value Hash}

section Stored

variable {env : Surroundings} {message : Message} {raw : Raw} {db db' : Db Raw Value Hash}

theorem store_opened (hstore : store rt env message raw db = .ok db') :
    (message.generation = db.syncState.generation ∧ db'.syncState.generation = db.syncState.generation
        ∨ message.generation ≠ db.syncState.generation ∧ Opened message raw rt db db')
      ∧ db'.syncState.repairAuthorized = db.syncState.repairAuthorized := by
  obtain ⟨-, ⟨hsame, -, rfl⟩ | ⟨current, cleared, hswitch, hseq, hreceive⟩⟩ := store_cases hstore
  · exact ⟨.inl ⟨hsame, rfl⟩, rfl⟩
  obtain ⟨hgeneration, -, hflag, -⟩ := receive_effect hswitch hreceive
  refine ⟨?_, hflag⟩
  rcases switchGeneration_cases hswitch with ⟨hsame, -, -⟩ | ⟨hother, hfirst, hkind, rfl, rfl⟩
  · exact .inl ⟨hsame, hgeneration.trans hsame⟩
  · obtain ⟨pending, transaction, middle, phase, -, -, -, happly, -, rfl⟩ := receive_cases hreceive
    have hcases := applyMessage_cases happly
    simp only [hkind] at hcases
    obtain ⟨hphase, scope, hscope, rfl⟩ := hcases
    refine .inr ⟨hother, ⟨hkind, hfirst⟩, ⟨rfl, hfirst⟩, hphase, rfl, rfl, rfl, hscope, ?_, rfl⟩
    simp [hfirst]

end Stored

section Steps

/-- What a step is. -/
inductive Stepped (rt : Runtime Raw Value Hash) (host : Host Raw Value Hash) :
    Action Raw → Host Raw Value Hash → Prop where
  | same {action : Action Raw} : Stepped rt host action host
  | greeted (frame : CollectorFrame Raw) (hnone : host.session = none) :
      Stepped rt host (.greet frame) (took (Server.greet host.target frame))
  | quiet {action : Action Raw} {session : Session} {turn : Turn Raw Value Hash}
      (hsession : host.session = some session) (hturn : turn.Quiet host.target session) :
      Stepped rt host action (took turn)
  | stored {action : Action Raw} {session : Session} {turn : Turn Raw Value Hash} {message : Message}
      {raw : Raw} (hsession : host.session = some session)
      (hturn : turn.Stored rt host.target session message raw) : Stepped rt host action (took turn)
  | dropped : Stepped rt host .drop { host with session := none }
  | strayed (authorized : Bool) : Stepped rt host (.stray authorized) (host.stray authorized)
  | cached (types : TypeCache) : Stepped rt host (.cache types)
      { host with target := { host.target with types := types } }

variable {action : Action Raw} {next : Host Raw Value Hash}

/-- What a step does to the database: it stores a message of the session's generation, or nothing but the
authorization is written. -/
theorem Stepped.db_cases (h : Stepped rt host action next) :
    (∃ b, next.target.db = host.target.db.authorized b)
      ∨ ∃ session env message raw, host.session = some session ∧ message.generation = session.generation
        ∧ store rt env message raw host.target.db = .ok next.target.db := by
  have hsame : ∃ b, host.target.db = host.target.db.authorized b := ⟨_, rfl⟩
  cases h with
  | same | dropped | cached => exact .inl hsame
  | strayed authorized => exact .inl ⟨authorized, rfl⟩
  | greeted frame hnone =>
      left
      rw [took]
      rcases greet_cases host.target frame with ⟨htarget, -⟩
        | ⟨_, _, -, -, -, ⟨htarget, -⟩ | ⟨htarget, hflag, -⟩⟩
      · rw [htarget]
        exact hsame
      · rw [htarget]
        exact hsame
      · rw [htarget, consumeRepairAuthorization, if_pos hflag]
        exact ⟨false, rfl⟩
  | @quiet _ _ turn hsession hturn =>
      left
      rw [took]
      rcases hturn.kept with hkept | ⟨hkept, -⟩
      · rw [hkept]
        exact hsame
      · rw [hkept]
        exact ⟨true, rfl⟩
  | stored hsession hturn =>
      obtain ⟨backend, hstore⟩ := hturn.stored
      exact .inr ⟨_, _, _, _, hsession, hturn.generation, hstore⟩

theorem Stepped.changes (h : Stepped rt host action next) (hchanges : next.generation ≠ host.generation) :
    ∃ session message raw, host.session = some session ∧ message.generation = session.generation
      ∧ Opened message raw rt host.target.db next.target.db := by
  rcases h.db_cases with ⟨b, hdb⟩ | ⟨session, env, message, raw, hsession, hmessage, hstore⟩
  · exact absurd (congrArg (fun db => db.syncState.generation) hdb) hchanges
  · rcases (store_opened hstore).1 with ⟨-, hsame⟩ | ⟨-, hopened⟩
    · exact absurd hsame hchanges
    · exact ⟨session, message, raw, hsession, hmessage, hopened⟩

end Steps

section Accounting

variable {next : Host Raw Value Hash}

end Accounting

end Host

end GoSync.Server
