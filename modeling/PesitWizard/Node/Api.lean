import PesitWizard.App.Http
import PesitWizard.Node.Cluster
import PesitWizard.Node.Model

/-! The requests that change the configuration of a node. -/

namespace PesitWizard.Node

open App

inductive EntityKind
  | partner | virtualFile | remotePartner | connector

namespace EntityKind

def table : EntityKind → String
  | partner => "partners"
  | virtualFile => "virtual_files"
  | remotePartner => "remote_partners"
  | connector => "connectors"

def name : EntityKind → String
  | partner => "Partner"
  | virtualFile => "Virtual file"
  | remotePartner => "Remote partner"
  | connector => "Connector"

end EntityKind

namespace Entity

def touch (e : Entity) (now : String) (created : Bool) : Entity :=
  { e with
    createdAt := if created || e.createdAt.isNone then some now else e.createdAt
    updatedAt := some now }

def validate (e : Entity) : Except ApiError Unit :=
  if isBlank e.id then .error (.badRequest "id is required") else .ok ()

end Entity

structure Written where
  store : JsonStore
  published : Option ConfigChange

def publish (nodeId op table key : String) (doc : Option Value) : Option ConfigChange :=
  if table ∈ CLUSTER_TABLES then some ⟨nodeId, op, table, key, doc⟩ else none

section Entities

variable (nodeId now : String) (kind : EntityKind)

def create (s : JsonStore) (body : Entity) : Except ApiError Written := do
  body.validate
  if s.exists kind.table body.id then .error (.conflict s!"{kind.name} '{body.id}' already exists")
  else
    let body := body.touch now true
    let doc := toValue body
    .ok ⟨s.put kind.table body.id doc, publish nodeId "put" kind.table body.id (some doc)⟩

def update (s : JsonStore) (id : String) (body : Entity) : Except ApiError Written := do
  match ← (fetch s kind.table id : Except ApiError (Option Entity)) with
  | none => .error (.notFound s!"{kind.name} '{id}' not found")
  | some _ =>
    let body := { body with id := id }
    body.validate
    let doc := toValue (body.touch now false)
    .ok ⟨s.put kind.table id doc, publish nodeId "put" kind.table id (some doc)⟩

def delete (s : JsonStore) (id : String) : Except ApiError Written :=
  if s.exists kind.table id then .ok ⟨s.delete kind.table id, publish nodeId "delete" kind.table id none⟩
  else .error (.notFound s!"{kind.name} '{id}' not found")

end Entities

section Listeners

variable (now : String)

def validateServer (cfg : PesitServerConfig) : Except ApiError Unit :=
  if isBlank cfg.serverId then .error (.badRequest "serverId is required")
  else if cfg.port = 0 then .error (.badRequest "port is required")
  else if cfg.maxEntitySize < 64 then .error (.badRequest "maxEntitySize must be at least 64")
  else if 16 < cfg.syncWindow then .error (.badRequest "syncWindow must be between 0 and 16")
  else .ok ()

def createServer (s : JsonStore) (cfg : PesitServerConfig) : Except ApiError JsonStore := do
  validateServer cfg
  if s.exists "servers" cfg.serverId then .error (.conflict s!"server '{cfg.serverId}' already exists")
  else
    let others : List PesitServerConfig ← fetchAll s "servers"
    if others.any fun o => o.port == cfg.port && o.bindAddress == cfg.bindAddress then
      .error (.conflict s!"port {cfg.port} is already used by another server")
    else
      let (id, s) := s.nextCounter "server_id"
      let cfg := { cfg with
        id := some id, createdAt := some now, updatedAt := some now, status := .stopped }
      .ok (s.put "servers" cfg.serverId (toValue cfg))

def updateServer (s : JsonStore) (id : String) (cfg : PesitServerConfig) :
    Except ApiError JsonStore := do
  match ← (fetch s "servers" id : Except ApiError (Option PesitServerConfig)) with
  | none => .error (.notFound s!"server '{id}' not found")
  | some old =>
    let cfg := { cfg with serverId := id }
    validateServer cfg
    let cfg := { cfg with
      id := old.id, createdAt := old.createdAt, lastStartedAt := old.lastStartedAt,
      lastStoppedAt := old.lastStoppedAt, status := old.status, updatedAt := some now }
    .ok (s.put "servers" id (toValue cfg))

def deleteServer (s : JsonStore) (id : String) : Except ApiError JsonStore :=
  if s.exists "servers" id then .ok (s.delete "servers" id) else
    .error (.notFound s!"server '{id}' not found")

def setStatus (s : JsonStore) (serverId : String) (status : ServerStatus) : JsonStore :=
  match (s.get "servers" serverId : Option (Option PesitServerConfig)) with
  | some (some c) =>
    let c := { c with status := status, updatedAt := some now }
    let c := match status with
      | .running => { c with lastStartedAt := some now }
      | .stopped => { c with lastStoppedAt := some now }
      | _ => c
    s.put "servers" serverId (toValue c)
  | _ => s

structure Bootstrap where
  partners : List Entity
  files : List Entity
  remotePartners : List Entity
  servers : List PesitServerConfig

def bootEntity (kind : EntityKind) (s : JsonStore) (e : Entity) : JsonStore :=
  s.put kind.table e.id
    (toValue { e with createdAt := some (e.createdAt.getD now), updatedAt := some now })

def bootRemotePartner (s : JsonStore) (e : Entity) : JsonStore :=
  s.put "remote_partners" e.id (toValue { e with createdAt := some (e.createdAt.getD now) })

def bootServer (s : JsonStore) (cfg : PesitServerConfig) : JsonStore :=
  let (id, s) := match cfg.id with
    | some id => (id, s)
    | none => s.nextCounter "server_id"
  s.put "servers" cfg.serverId (toValue { cfg with
    id := some id, createdAt := some (cfg.createdAt.getD now), updatedAt := some now })

def bootstrap (s : JsonStore) (boot : Bootstrap) : JsonStore :=
  let s := boot.partners.foldl (bootEntity now .partner) s
  let s := boot.files.foldl (bootEntity now .virtualFile) s
  let s := boot.remotePartners.foldl (bootRemotePartner now) s
  boot.servers.foldl (bootServer now) s

end Listeners

end PesitWizard.Node
