import PesitWizard.Core.Diag
import PesitWizard.Node.Material

/-! Backups of a node as one signed bundle: how it is made, and what it takes to be restored. -/

namespace PesitWizard.Node

open App PesitWizard.Core Library Pki

/-- The bytes of a document, the signatures of a CA on bytes, and their text in base 64. -/
structure Signing where
  canonical : Value → Bytes
  signBytes : LocalCa → Bytes → Option Bytes
  verifyBytes : String → Bytes → Bytes → Except String Bool
  encode : Bytes → String
  decode : String → Option Bytes
  decode_encode : ∀ b, decode (encode b) = some b

namespace Signing

variable (σ : Signing)

/-- The key of a CA goes with its certificate. -/
def Genuine (ca : LocalCa) : Prop :=
  ∀ data sig, σ.signBytes ca data = some sig → σ.verifyBytes ca.certPem data sig = .ok true

def unsigned (map : List (String × Value)) : List (String × Value) :=
  map.filter fun f => f.1 ≠ "signature"

def signature (value : String) : Value :=
  .object [("algorithm", .string "ecdsa-p256-sha256"), ("value", .string value)]

def signData (pki : PkiMaterial) (data : Bytes) : Option Bytes :=
  pki.ca.bind fun ca => σ.signBytes ca data

def signBundle (pki : Option PkiMaterial) : Value → Value
  | .object map =>
    match pki.bind fun p => σ.signData p (σ.canonical (.object (unsigned map))) with
    | some sig => .object (unsigned map ++ [("signature", signature (σ.encode sig))])
    | none => .object (unsigned map)
  | bundle => bundle

def orError {α : Type} (v : Option α) (text : String) : Except String α := v.elim (.error text) .ok

def caOf (bundle : Value) : Option String :=
  (((bundle.get "pki").bind fun p => p.get "ca").bind fun c => c.get "certificate").bind Value.asStr

def verifyBundle (bundle : Value) : Except String Unit :=
  match bundle.get "signature" with
  | none => .ok ()
  | some sigObj => do
    let value ← orError ((sigObj.get "value").bind Value.asStr) "signature has no value"
    let sig ← orError (σ.decode value) "signature is not valid base64"
    let cert ← orError (caOf bundle) "signed bundle carries no CA certificate to verify against"
    let map ← orError bundle.asObject "bundle is not an object"
    if ← σ.verifyBytes cert (σ.canonical (.object (unsigned map))) sig then .ok ()
    else .error "bundle signature does not verify against its CA"

variable {I : Type} (inspect : Inspector I)

def exportBundle (generatedAt node : String) (store : JsonStore) (pki : Option PkiMaterial) : Value :=
  σ.signBundle pki (.object [("version", .ofNat 1), ("generatedAt", .string generatedAt),
    ("node", .string node), ("tables", dump store),
    ("pki", (pki.map fun p => p.exportMaterial inspect).getD .null)])

def givenPki (bundle : Value) : Option Value :=
  match bundle.get "pki" with
  | some .null => none
  | v => v

def restore (describe : PkiError → String) (store : JsonStore)
    (pki : Option PkiMaterial) (bundle : Value) (ends : ℕ → WriteEnd × WriteEnd) :
    (JsonStore × Option PkiMaterial) × Except ApiError ℕ :=
  match σ.verifyBundle bundle with
  | .error e => ((store, pki), .error (.badRequest s!"backup rejected: {e}"))
  | .ok () =>
    let applied := applyTables store (((bundle.get "tables").bind Value.asObject).getD [])
    match pki, givenPki bundle with
    | some p, some v =>
      match p.importMaterial inspect v ends with
      | (p, .error e) => ((applied.1, some p), .error (.internal (describe e)))
      | (p, .ok ()) => ((applied.1, some p), .ok applied.2)
    | _, _ => ((applied.1, pki), .ok applied.2)

variable {σ inspect} {s : PkiMaterial}

lemma unsigned_append (map : List (String × Value)) (v : Value) :
    unsigned (unsigned map ++ [("signature", v)]) = unsigned map := by
  simp [unsigned]

lemma field_unsigned (map : List (String × Value)) : Value.field (unsigned map) "signature" = none := by
  rw [Value.field, Option.map_eq_none_iff, List.find?_eq_none]
  intro f hf
  simpa using (List.mem_filter.mp hf).2

lemma field_signed (map : List (String × Value)) (v : Value) :
    Value.field (unsigned map ++ [("signature", v)]) "signature" = some v := by
  have hnone := Option.map_eq_none_iff.mp (field_unsigned map)
  rw [Value.field, List.find?_append, hnone]
  rfl

/-- A bundle that is signed by the CA that it carries is accepted, and so is one that is not signed. -/
lemma verifyBundle_signBundle {map : List (String × Value)}
    (hca : ∀ ca, s.ca = some ca →
      caOf (σ.signBundle (some s) (.object map)) = some ca.certPem ∧ σ.Genuine ca) :
    σ.verifyBundle (σ.signBundle (some s) (.object map)) = .ok () := by
  cases hsign : σ.signData s (σ.canonical (.object (unsigned map))) with
  | none =>
    have hbundle : σ.signBundle (some s) (.object map) = .object (unsigned map) := by
      rw [signBundle, Option.bind_some, hsign]
    have hget : (Value.object (unsigned map)).get "signature" = none := field_unsigned map
    rw [hbundle, verifyBundle, hget]
  | some sig =>
    have hbundle : σ.signBundle (some s) (.object map) =
        .object (unsigned map ++ [("signature", signature (σ.encode sig))]) := by
      rw [signBundle, Option.bind_some, hsign]
    have hget : (Value.object (unsigned map ++ [("signature", signature (σ.encode sig))])).get
        "signature" = some (signature (σ.encode sig)) := field_signed map _
    obtain ⟨ca, hs, hsig⟩ := Option.bind_eq_some_iff.mp hsign
    obtain ⟨hcert, hgenuine⟩ := hca ca hs
    rw [hbundle] at hcert
    have hvalue : ((signature (σ.encode sig)).get "value").bind Value.asStr = some (σ.encode sig) := rfl
    rw [hbundle, verifyBundle, hget]
    simp only [hvalue, hcert, orError, Option.elim_some, σ.decode_encode, Value.asObject,
      unsigned_append, bind, Except.bind, hgenuine _ _ hsig, if_true]

lemma get_signBundle {map : List (String × Value)} {name : String} (hname : name ≠ "signature")
    (pki : Option PkiMaterial) :
    (σ.signBundle pki (.object map)).get name = Value.field map name := by
  have hfield : Value.field (unsigned map) name = Value.field map name := by
    rw [Value.field, Value.field, unsigned, List.find?_filter]
    congr 2
    funext f
    by_cases hf : f.1 = name
    · simp [hf, hname]
    · simp [hf]
  rw [signBundle]
  split
  · refine Eq.trans ?_ hfield
    change Value.field (unsigned map ++ [("signature", _)]) name = _
    rw [Value.field, List.find?_append, Value.field]
    cases List.find? (fun f => decide (f.1 = name)) (unsigned map) with
    | none => simp [Ne.symm hname]
    | some f => rfl
  · exact hfield

/-- A backup of a node whose files have never been cut is accepted, and restored on another node it gives
all the certificates and keys back, with the CA, and the tables that were dumped. -/
theorem backup_restored {describe : PkiError → String} {dir : FilePath}
    (h : Moves (PkiMaterial.step inspect describe)
      (PkiMaterial.Careful inspect σ.Genuine) (.empty dir) s)
    (generatedAt node : String) (store : JsonStore) (other : FilePath) :
    ∃ t, σ.restore inspect describe .empty (some (.empty other))
    (σ.exportBundle inspect generatedAt node store (some s))
        (fun _ => (.done, .done)) =
      (((applyTables .empty (CONFIG_TABLES.map fun n => (n, Value.array (store.list n)))).1, some t),
        .ok (applyTables .empty (CONFIG_TABLES.map fun n => (n, Value.array (store.list n)))).2) ∧
      (∀ i, t.Holds i ↔ s.Holds i) ∧ t.ca = s.ca := by
  have horderly := PkiMaterial.orderly_of_moves h
  obtain ⟨t, himport, hholds, hca⟩ := horderly.intact.imported other
  have hpki : (σ.exportBundle inspect generatedAt node store (some s)).get "pki" =
      some (s.exportMaterial inspect) :=
    (get_signBundle (by decide) _).trans rfl
  have htables :
      (σ.exportBundle inspect generatedAt node store (some s)).get "tables" = some (dump store) :=
    (get_signBundle (by decide) _).trans rfl
  have haccepted : σ.verifyBundle (σ.exportBundle inspect generatedAt node store (some s)) = .ok () := by
    refine verifyBundle_signBundle ?_
    rintro ⟨cert, key⟩ hs
    have hload : PkiMaterial.loadCa s.files = some ⟨cert, key⟩ := horderly.inUse.symm.trans hs
    refine ⟨?_, horderly.genuine (.ca cert key) (PkiMaterial.loadCa_eq_some.mp hload)⟩
    have hget : (s.exportMaterial inspect).get "ca" = some (Item.ca cert key).toValue := by
      have hget : (s.exportMaterial inspect).get "ca" =
          some ((s.exportedCa.map Item.toValue).getD .null) := rfl
      rw [hget, PkiMaterial.exportedCa, hload]
      rfl
    rw [caOf]
    change ((((σ.exportBundle inspect generatedAt node store (some s)).get "pki").bind _).bind _).bind
      _ = _
    rw [hpki, Option.bind_some, hget]
    rfl
  refine ⟨t, ?_, hholds, hca.trans horderly.inUse.symm⟩
  have hgiven :
      givenPki (σ.exportBundle inspect generatedAt node store (some s)) =
      some (s.exportMaterial inspect) := by
    rw [givenPki, hpki]
    rfl
  rw [restore, haccepted, hgiven, htables]
  dsimp only
  rw [himport]
  rfl

end Signing

def sampleInspector : Inspector Unit where
  pem content := if content.data = "CERTIFICATE".toByteArray.data then .ok () else .error .noCert
  all content := if content.data = "CERTIFICATE".toByteArray.data then .ok [()] else .error .noCert

lemma byte_ofNat (n : UInt8) : UInt8.ofNat (Char.ofNat n.toNat).toNat = n := by
  have hvalid : n.toNat.isValidChar := .inl (n.toNat_lt.trans (by decide))
  rw [Char.ofNat, dif_pos hvalid]
  exact UInt8.ofNat_toNat

def sampleSigning : Signing where
  canonical _ := []
  signBytes _ data := some (0 :: data)
  verifyBytes _ data sig := .ok (sig = 0 :: data)
  encode b := .ofList (b.map fun n => Char.ofNat n.toNat)
  decode text := some (text.toList.map fun c => UInt8.ofNat c.toNat)
  decode_encode b := by
    rw [String.toList_ofList, List.map_map]
    exact congrArg some ((List.map_congr_left fun n _ => byte_ofNat n).trans (List.map_id b))

def sampleMaterial : PkiMaterial :=
  [MaterialMove.generateCa ⟨"CERTIFICATE", "PRIVATE KEY"⟩ (.done, .done),
    .putKeystore "node" "CERTIFICATE" "PRIVATE KEY" (.done, .done)].foldl
    (after (PkiMaterial.step sampleInspector fun _ => "")) (.empty (.ofString "pki"))

lemma sampleMaterial_moves : Moves (PkiMaterial.step sampleInspector fun _ => "")
    (PkiMaterial.Careful sampleInspector sampleSigning.Genuine)
    (.empty (.ofString "pki")) sampleMaterial := by
  apply moves_foldl_of_each
  refine ⟨⟨.inl rfl, ?_, (), rfl⟩, .inl rfl, trivial⟩
  intro data sig hsig
  obtain rfl := Option.some.inj hsig
  exact congrArg Except.ok (decide_eq_true rfl)

theorem backup_restored_sample : ∃ t : PkiMaterial,
    (sampleSigning.restore sampleInspector (fun _ => "") .empty (some (.empty (.ofString "other")))
      (sampleSigning.exportBundle sampleInspector "now" "1.0.0" .empty (some sampleMaterial)) fun _ =>
      (.done, .done)).1.2 =
        some t ∧
      t.store.pair "node" = some ("CERTIFICATE".toByteArray, "PRIVATE KEY".toByteArray) ∧
      t.ca = some ⟨"CERTIFICATE", "PRIVATE KEY"⟩ := by
  obtain ⟨t, hrestore, hholds, hca⟩ :=
    Signing.backup_restored sampleMaterial_moves "now" "1.0.0" .empty (.ofString "other")
  refine ⟨t, by rw [hrestore], ?_, ?_⟩
  · refine (hholds (Item.keystore "node" "CERTIFICATE" "PRIVATE KEY").bytes).mpr ?_
    change sampleMaterial.store.pair "node" = _
    decide +kernel
  · rw [hca]
    decide +kernel

end PesitWizard.Node
