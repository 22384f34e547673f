import PesitWizard.App.Http

/-! What the certificate interface keeps in the store: the access to a vault, the revoked certificates
and how each keystore was issued. -/

namespace PesitWizard.Node

open App

structure RevokedEntry where
  serial : String
  revokedAt : String

namespace RevokedEntry

def toValue (e : RevokedEntry) : Value :=
  .object [("serial", .string e.serial), ("revokedAt", .string e.revokedAt)]

def ofValue (v : Value) : Option RevokedEntry := do
  let fields ← v.asObject
  let serial ← (Value.field fields "serial").bind Value.asStr
  let revokedAt ← (Value.field fields "revokedAt").bind Value.asStr
  pure ⟨serial, revokedAt⟩

end RevokedEntry

namespace PkiState

def revokedList (s : JsonStore) : List RevokedEntry :=
  match (s.tables "pki").find "revoked" with
  | some (.array items) => (items.mapM RevokedEntry.ofValue).getD []
  | _ => []

def normalizeSerial (serial : String) : String :=
  String.ofList
    ((serial.toList.filter fun c => c.isDigit || ('a' ≤ c && c ≤ 'f') || ('A' ≤ c && c ≤ 'F')).map
    Char.toLower)

def revoke (now : String) (s : JsonStore) (serial : String) : Except ApiError JsonStore :=
  let norm := normalizeSerial serial
  let list := revokedList s
  if norm.isEmpty then .error (.internal "invalid serial")
  else if list.any fun e => e.serial == norm then .ok s
  else .ok (s.put "pki" "revoked"
    (.array ((list ++ [(⟨norm, now⟩ : RevokedEntry)]).map RevokedEntry.toValue)))

def setVault (s : JsonStore) (cfg : Value) : JsonStore := s.put "pki" "vault" cfg

def clearVault (s : JsonStore) : JsonStore := s.delete "pki" "vault"

structure IssueMeta where
  backend : String
  commonName : String
  sans : List String
  ttlDays : ℕ
  serverAuth : Bool
  clientAuth : Bool

def IssueMeta.toValue (m : IssueMeta) : Value :=
  .object [("backend", .string m.backend), ("commonName", .string m.commonName),
    ("sans", .array (m.sans.map .string)), ("ttlDays", .ofNat m.ttlDays),
    ("serverAuth", .bool m.serverAuth), ("clientAuth", .bool m.clientAuth)]

def issue (s : JsonStore) (name : String) (m : IssueMeta) : JsonStore :=
  s.put "pki" ("ks:" ++ name) m.toValue

end PkiState

end PesitWizard.Node
