import PesitWizard.App.Http
import PesitWizard.Client.Model

/-! The requests that change the servers and the identities for the transfers that a
node starts itself. -/

namespace PesitWizard.Client

open App

def findServer (s : JsonStore) (id : String) : Except ApiError PesitServer := do
  match ← (fetch s "remote_servers" id : Except ApiError (Option PesitServer)) with
  | some server => .ok server
  | none =>
    let all : List PesitServer ← fetchAll s "remote_servers"
    match all.find? fun o => o.name == id with
    | some server => .ok server
    | none => .error (.notFound s!"server '{id}' not found")

def validateServer (server : PesitServer) : Except ApiError Unit :=
  if isBlank server.name then .error (.badRequest "name is required")
  else if isBlank server.host then .error (.badRequest "host is required")
  else if server.port = 0 then .error (.badRequest "port is required")
  else .ok ()

def refreshTlsFlags (server : PesitServer) : PesitServer :=
  { server with
    truststoreConfigured := server.caFile.isSome
    keystoreConfigured := server.certFile.isSome && server.keyFile.isSome }

def putServer (s : JsonStore) (server : PesitServer) : JsonStore :=
  s.put "remote_servers" server.id (toValue server)

section Servers

variable (now : String)

def createServer (id : String) (s : JsonStore) (server : PesitServer) : Except ApiError JsonStore := do
  validateServer server
  let all : List PesitServer ← fetchAll s "remote_servers"
  if all.any fun o => o.name == server.name then
    .error (.conflict s!"server '{server.name}' already exists")
  else
    let server := refreshTlsFlags { server with id := id, createdAt := some now, updatedAt := some now }
    let s :=
      if server.defaultServer then
        (all.filter PesitServer.defaultServer).foldl (fun s o => putServer s { o with
          defaultServer := false }) s
      else s
    .ok (putServer s server)

def updateServer (s : JsonStore) (id : String) (server : PesitServer) : Except ApiError JsonStore := do
  let old ← findServer s id
  validateServer server
  let server := { server with id := old.id, createdAt := old.createdAt, updatedAt := some now }
  let server := if server.caFile.isNone then { server with caFile := old.caFile } else server
  let server :=
    if server.certFile.isNone then
      { server with certFile := old.certFile, keyFile := old.keyFile } else server
  .ok (putServer s (refreshTlsFlags server))

def deleteServer (s : JsonStore) (id : String) : Except ApiError JsonStore := do
  let old ← findServer s id
  .ok (s.delete "remote_servers" old.id)

def setDefault (s : JsonStore) (id : String) : Except ApiError JsonStore := do
  let target ← findServer s id
  let all : List PesitServer ← fetchAll s "remote_servers"
  .ok (all.foldl (fun s o =>
    if o.defaultServer == (o.id == target.id) then s
    else putServer s { o with defaultServer := o.id == target.id, updatedAt := some now }) s)

def uploadTruststore (s : JsonStore) (id path : String) : Except ApiError JsonStore := do
  let server ← findServer s id
  let server := refreshTlsFlags { server with caFile := some path, tlsEnabled := true }
  .ok (putServer s { server with updatedAt := some now })

def deleteTruststore (s : JsonStore) (id : String) : Except ApiError JsonStore := do
  let server ← findServer s id
  .ok (putServer s (refreshTlsFlags { server with caFile := none }))

def uploadKeystore (s : JsonStore) (id path : String) : Except ApiError JsonStore := do
  let server ← findServer s id
  let server := refreshTlsFlags { server with certFile := some path, keyFile := some path }
  .ok (putServer s { server with updatedAt := some now })

def registerCliServer (s : JsonStore) (server : PesitServer) : JsonStore :=
  putServer s { server with createdAt := some now, updatedAt := some now }

end Servers

section Partners

variable (now : String)

def createPartner (id : String) (s : JsonStore) (partner : Partner) : Except ApiError JsonStore := do
  if isBlank partner.partnerId then .error (.badRequest "partnerId is required")
  else
    let all : List Partner ← fetchAll s "client_partners"
    if all.any fun o => o.partnerId == partner.partnerId then
      .error (.conflict s!"partner '{partner.partnerId}' already exists")
    else
      let partner := { partner with id := id, createdAt := some now, updatedAt := some now }
      .ok (s.put "client_partners" partner.id (toValue partner))

def updatePartner (s : JsonStore) (id : String) (partner : Partner) : Except ApiError JsonStore := do
  match ← (fetch s "client_partners" id : Except ApiError (Option Partner)) with
  | none => .error (.notFound s!"partner '{id}' not found")
  | some old =>
    let partner := { partner with id := old.id, createdAt := old.createdAt, updatedAt := some now }
    .ok (s.put "client_partners" partner.id (toValue partner))

def deletePartner (s : JsonStore) (id : String) : Except ApiError JsonStore :=
  if s.exists "client_partners" id then .ok (s.delete "client_partners" id)
  else .error (.notFound s!"partner '{id}' not found")

end Partners

end PesitWizard.Client
