import PesitWizard.App.Store

/-! The configuration documents for the transfers that a node starts itself. -/

namespace PesitWizard.Client

open App

structure PesitServer where
  id : String
  name : String
  host : String
  port : ℕ
  tlsEnabled : Bool
  caFile : Option String
  certFile : Option String
  keyFile : Option String
  truststoreConfigured : Bool
  keystoreConfigured : Bool
  defaultServer : Bool
  createdAt : Option String
  updatedAt : Option String
  extra : Extra ["id", "name", "host", "port", "tlsEnabled", "caFile", "certFile", "keyFile",
    "truststoreConfigured", "keystoreConfigured", "defaultServer", "createdAt", "updatedAt"]

namespace PesitServer

def fields (s : PesitServer) : List (String × Value) :=
  [("id", .string s.id), ("name", .string s.name), ("host", .string s.host), ("port", .ofNat s.port),
    ("tlsEnabled", .bool s.tlsEnabled), ("caFile", .ofOption s.caFile),
    ("certFile", .ofOption s.certFile), ("keyFile", .ofOption s.keyFile),
    ("truststoreConfigured", .bool s.truststoreConfigured),
    ("keystoreConfigured", .bool s.keystoreConfigured), ("defaultServer", .bool s.defaultServer),
    ("createdAt", .ofOption s.createdAt), ("updatedAt", .ofOption s.updatedAt)] ++ s.extra.fields

instance : Document PesitServer where
  toValue s := .object s.fields
  ofValue v := do
    let fields ← v.asObject
    let id ← Value.readString fields "id" ""
    let name ← Value.readString fields "name" ""
    let host ← Value.readString fields "host" ""
    let port ← Value.readNat fields "port" 5000
    let tlsEnabled ← Value.readBool fields "tlsEnabled" false
    let caFile ← Value.readOption fields "caFile"
    let certFile ← Value.readOption fields "certFile"
    let keyFile ← Value.readOption fields "keyFile"
    let truststoreConfigured ← Value.readBool fields "truststoreConfigured" false
    let keystoreConfigured ← Value.readBool fields "keystoreConfigured" false
    let defaultServer ← Value.readBool fields "defaultServer" false
    let createdAt ← Value.readOption fields "createdAt"
    let updatedAt ← Value.readOption fields "updatedAt"
    pure ⟨id, name, host, port, tlsEnabled, caFile, certFile, keyFile, truststoreConfigured,
      keystoreConfigured, defaultServer, createdAt, updatedAt, .rest fields⟩
  ofValue_toValue s := by
    rw [Value.asObject, Option.bind_eq_bind, Option.bind_some]
    rw [Value.readString_of_field rfl, Value.readString_of_field rfl, Value.readString_of_field rfl,
      Value.readNat_of_field rfl, Value.readBool_of_field rfl, Value.readOption_of_field rfl,
      Value.readOption_of_field rfl, Value.readOption_of_field rfl, Value.readBool_of_field rfl,
      Value.readBool_of_field rfl, Value.readBool_of_field rfl, Value.readOption_of_field rfl,
      Value.readOption_of_field rfl, fields, Extra.rest_append (by simp)]
    rfl

end PesitServer

structure Partner where
  id : String
  partnerId : String
  createdAt : Option String
  updatedAt : Option String
  extra : Extra ["id", "partnerId", "createdAt", "updatedAt"]

namespace Partner

def fields (p : Partner) : List (String × Value) :=
  [("id", .string p.id), ("partnerId", .string p.partnerId), ("createdAt", .ofOption p.createdAt),
    ("updatedAt", .ofOption p.updatedAt)] ++ p.extra.fields

instance : Document Partner where
  toValue p := .object p.fields
  ofValue v := do
    let fields ← v.asObject
    let id ← Value.readString fields "id" ""
    let partnerId ← Value.readString fields "partnerId" ""
    let createdAt ← Value.readOption fields "createdAt"
    let updatedAt ← Value.readOption fields "updatedAt"
    pure ⟨id, partnerId, createdAt, updatedAt, .rest fields⟩
  ofValue_toValue p := by
    rw [Value.asObject, Option.bind_eq_bind, Option.bind_some]
    rw [Value.readString_of_field rfl, Value.readString_of_field rfl, Value.readOption_of_field rfl,
      Value.readOption_of_field rfl, fields, Extra.rest_append (by simp)]
    rfl

end Partner

end PesitWizard.Client
