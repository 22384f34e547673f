import PesitWizard.App.Http
import PesitWizard.Library.Moves
import PesitWizard.Node.Backup
import PesitWizard.Pki.CertStore

/-! The certificates and keys of a node: the files that hold them, and the backups that carry them. -/

namespace PesitWizard.Node

open App Library Pki

structure LocalCa where
  certPem : String
  keyPem : String
  deriving DecidableEq

inductive PkiError
  | io
  | gen (e : Pki.StoreError)

/-- What an import writes, and an export reads, at a time: texts, or what files hold. -/
inductive Item (T : Type)
  | ca (cert key : T)
  | keystore (name : String) (cert key : T)
  | truststore (name : String) (bundle : T)

inductive Place
  | ca
  | keystore (name : String)
  | truststore (name : String)
  deriving DecidableEq

namespace Item

def place {T : Type} : Item T → Place
  | ca _ _ => .ca
  | keystore name _ _ => .keystore name
  | truststore name _ => .truststore name

def bytes : Item String → Item ByteArray
  | ca cert key => .ca cert.toByteArray key.toByteArray
  | keystore name cert key => .keystore name cert.toByteArray key.toByteArray
  | truststore name bundle => .truststore name bundle.toByteArray

lemma place_bytes (i : Item String) : i.bytes.place = i.place := by
  cases i <;> rfl

lemma bytes_inj {i j : Item String} : i.bytes = j.bytes ↔ i = j := by
  refine ⟨fun h => ?_, fun h => h ▸ rfl⟩
  cases i with
  | ca cert key =>
    cases j with
    | ca cert' key' =>
      obtain ⟨hcert, hkey⟩ := Item.ca.inj h
      rw [String.toByteArray_inj.mp hcert, String.toByteArray_inj.mp hkey]
    | _ => cases h
  | keystore name cert key =>
    cases j with
    | keystore name' cert' key' =>
      obtain ⟨rfl, hcert, hkey⟩ := Item.keystore.inj h
      rw [String.toByteArray_inj.mp hcert, String.toByteArray_inj.mp hkey]
    | _ => cases h
  | truststore name bundle =>
    cases j with
    | truststore name' bundle' =>
      obtain ⟨rfl, hbundle⟩ := Item.truststore.inj h
      rw [String.toByteArray_inj.mp hbundle]
    | _ => cases h

def toValue : Item String → Value
  | ca cert key => .object [("certificate", .string cert), ("privateKey", .string key)]
  | keystore name cert key =>
    .object [("name", .string name), ("certificate", .string cert), ("privateKey", .string key)]
  | truststore name bundle => .object [("name", .string name), ("certificates", .string bundle)]

def text (v : Value) (name : String) : Option String := (v.get name).bind Value.asStr

def ofCa (v : Value) :
    Option (Item String) := do pure (.ca (← text v "certificate") (← text v "privateKey"))

def ofKeystore (v : Value) : Option (Item String) := do
  pure (.keystore (← text v "name") (← text v "certificate") (← text v "privateKey"))

def ofTruststore (v : Value) :
    Option (Item String) := do pure (.truststore (← text v "name") (← text v "certificates"))

end Item

/-- The directory of the certificates, and the CA that is in use. -/
structure PkiMaterial where
  files : Folder
  store : CertStore
  ca : Option LocalCa

namespace PkiMaterial

variable {I : Type} (inspect : Inspector I)

def empty (dir : FilePath) : PkiMaterial := ⟨.empty, .open dir, none⟩

def loadCa (files : Folder) : Option LocalCa := do
  let cert ← (files.find "ca.crt.pem").bind readToString
  let key ← (files.find "ca.key.pem").bind readToString
  pure ⟨cert, key⟩

def reopen (s : PkiMaterial) : PkiMaterial := { s with ca := loadCa s.files }

def exportedCa (s : PkiMaterial) : Option (Item String) :=
  (loadCa s.files).map fun ca => .ca ca.certPem ca.keyPem

def exportedKeystores (s : PkiMaterial) : List (Item String) :=
  (s.store.listKeystores inspect).filterMap fun m => do
    let _ ← s.store.keystoreFiles m.name
    let cert ← (s.store.keystores.find (CertStore.keyCert m.name)).bind readToString
    let key ← (s.store.keystores.find (CertStore.keyKey m.name)).bind readToString
    pure (.keystore m.name cert key)

def exportedTruststores (s : PkiMaterial) : List (Item String) :=
  (s.store.listTruststores inspect).filterMap fun m => do
    let _ ← s.store.truststoreFile m.name
    let bundle ← (s.store.truststores.find (CertStore.trustPath m.name)).bind readToString
    pure (.truststore m.name bundle)

def exportMaterial (s : PkiMaterial) : Value :=
  .object [("ca", (s.exportedCa.map Item.toValue).getD .null),
    ("keystores", .array ((s.exportedKeystores inspect).map Item.toValue)),
    ("truststores", .array ((s.exportedTruststores inspect).map Item.toValue))]

def putItem (s : PkiMaterial) (ends : WriteEnd × WriteEnd) :
    Item String → PkiMaterial × Except PkiError Unit
  | .ca cert key =>
    match s.files.write "ca.crt.pem" cert ends.1 with
    | (false, f) => ({ s with files := f }, .error .io)
    | (true, f) =>
      match f.write "ca.key.pem" key ends.2 with
      | (false, f) => ({ s with files := f }, .error .io)
      | (true, f) => ({ s with files := f, ca := some ⟨cert, key⟩ }, .ok ())
  | .keystore name cert key =>
    let r := s.store.putKeystore inspect name cert key ends
    ({ s with store := r.1 }, (r.2.map fun _ => ()).mapError .gen)
  | .truststore name bundle =>
    let r := s.store.putTruststore inspect name bundle ends.1
    ({ s with store := r.1 }, (r.2.map fun _ => ()).mapError .gen)

def importedItems (v : Value) : List (Item String) :=
  ((v.get "ca").bind Item.ofCa).toList ++ ((v.get "keystores").elim [] Value.items).filterMap
    Item.ofKeystore ++ ((v.get "truststores").elim [] Value.items).filterMap Item.ofTruststore

def importItems (s : PkiMaterial) (ends : ℕ → WriteEnd × WriteEnd) :
    List (Item String) → PkiMaterial × Except PkiError Unit
  | [] => (s, .ok ())
  | i :: is =>
    match s.putItem inspect (ends 0) i with
    | (s, .error e) => (s, .error e)
    | (s, .ok ()) => s.importItems (fun n => ends (n + 1)) is

def importMaterial (s : PkiMaterial) (v : Value) (ends : ℕ → WriteEnd × WriteEnd) :
    PkiMaterial × Except PkiError Unit :=
  s.importItems inspect ends (importedItems v)

def generateCa (describe : PkiError → String) (s : PkiMaterial) (ca : LocalCa)
    (ends : WriteEnd × WriteEnd) :
    PkiMaterial × Except ApiError I :=
  match s.putItem inspect ends (.ca ca.certPem ca.keyPem) with
  | (t, .error e) => (t, .error (.internal (describe e)))
  | (t, .ok ()) =>
    match inspect.pem ca.certPem.toByteArray with
    | .error e => ({ t with ca := s.ca }, .error (.internal (describe (.gen (.cert e)))))
    | .ok info => (t, .ok info)

/-- What is on the disk: nothing else is read of it. -/
def Holds (s : PkiMaterial) : Item ByteArray → Prop
  | .ca cert key => s.files.find "ca.crt.pem" = some cert ∧ s.files.find "ca.key.pem" = some key
  | .keystore name cert key => s.store.pair name = some (cert, key)
  | .truststore name bundle => s.store.bundle name = some bundle

/-- Its certificates can be read. -/
def Legible : Item ByteArray → Prop
  | .ca _ _ => True
  | .keystore _ cert _ => ∃ info, inspect.pem cert = .ok info
  | .truststore _ bundle => ∃ certs, inspect.all bundle = .ok certs

def Keyed : Item String → Prop
  | .keystore _ _ key => holdsKey key = true
  | _ => True

/-- The store takes it. -/
def Storable : Item String → Prop
  | .ca _ _ => True
  | .keystore name cert key =>
    sanitize name = .ok name ∧ holdsKey key = true ∧ ∃ info, inspect.pem cert.toByteArray = .ok info
  | .truststore name bundle =>
    sanitize name = .ok name ∧ ∃ certs, inspect.all bundle.toByteArray = .ok certs

variable {inspect} {s t : PkiMaterial} {i : Item String}

lemma Holds.eq {i j : Item ByteArray} (h : s.Holds i) (h' : s.Holds j) (hplace : i.place = j.place) :
    i = j := by
  cases i <;> cases j <;> simp only [Item.place, Place.keystore.injEq, Place.truststore.injEq,
    reduceCtorEq] at hplace
  · obtain rfl := Option.some.inj (h.1.symm.trans h'.1)
    obtain rfl := Option.some.inj (h.2.symm.trans h'.2)
    rfl
  · subst hplace
    obtain ⟨rfl, rfl⟩ := Prod.mk.inj (Option.some.inj (h.symm.trans h'))
    rfl
  · subst hplace
    obtain rfl := Option.some.inj (h.symm.trans h')
    rfl

lemma bind_readToString {o : Option ByteArray} {text : String} :
    o.bind readToString = some text ↔ o = some text.toByteArray := by
  rw [Option.bind_eq_some_iff]
  constructor
  · rintro ⟨content, rfl, h⟩
    rw [readToString_eq_some.mp h]
  · rintro rfl
    exact ⟨_, rfl, readToString_eq_some.mpr rfl⟩

lemma loadCa_eq_some {ca : LocalCa} :
    loadCa s.files = some ca ↔ s.Holds (.ca ca.certPem.toByteArray ca.keyPem.toByteArray) := by
  rw [Holds, ← bind_readToString, ← bind_readToString]
  constructor
  · intro h
    obtain ⟨cert, hcert, h⟩ := Option.bind_eq_some_iff.mp h
    obtain ⟨key, hkey, h⟩ := Option.bind_eq_some_iff.mp h
    obtain rfl := Option.some.inj h
    exact ⟨hcert, hkey⟩
  · rintro ⟨hcert, hkey⟩
    simp [loadCa, hcert, hkey]

section Import

lemma putItem_done (h : Storable inspect i) :
    ∃ t, s.putItem inspect (.done, .done) i = (t, .ok ()) ∧
      (∀ j, t.Holds j ↔ if j.place = i.place then j = i.bytes else s.Holds j) ∧
      (s.ca = loadCa s.files → t.ca = loadCa t.files) := by
  cases i with
  | ca cert key =>
    refine ⟨{ s with
      files := (s.files.put "ca.crt.pem" cert.toByteArray).put "ca.key.pem" key.toByteArray
      ca := some ⟨cert, key⟩ }, rfl, ?_, ?_⟩
    · intro j
      cases j with
      | ca cert' key' =>
        simp only [Item.place, if_true, Holds, Table.find_put, Item.bytes, Item.ca.injEq]
        simp only [String.reduceEq, if_false, Option.some.injEq]
        exact and_congr eq_comm eq_comm
      | keystore name cert key => exact Iff.rfl
      | truststore name bundle => exact Iff.rfl
    · intro _
      refine (loadCa_eq_some.mpr ?_).symm
      simp [Holds]
  | keystore name cert key =>
    obtain ⟨hname, hkey, info, hcert⟩ := h
    obtain ⟨u, hu, hpair, htrust⟩ := CertStore.putKeystore_done (s := s.store) hname hkey hcert
    refine ⟨{ s with store := u }, ?_, ?_, fun hca => hca⟩
    · rw [putItem, hu]
      rfl
    · intro j
      cases j with
      | ca cert' key' => exact Iff.rfl
      | keystore n cert' key' =>
        simp only [Holds, hpair, Item.place, Place.keystore.injEq, Item.bytes, Item.keystore.injEq]
        by_cases hn : n = name
        · rw [if_pos hn, if_pos hn, Option.some.injEq, Prod.mk.injEq]
          constructor
          · rintro ⟨rfl, rfl⟩
            exact ⟨hn, rfl, rfl⟩
          · rintro ⟨-, rfl, rfl⟩
            exact ⟨rfl, rfl⟩
        · rw [if_neg hn, if_neg hn]
      | truststore n bundle =>
        have hbundle : u.bundle n = s.store.bundle n := CertStore.bundle_congr (by rw [htrust])
        simp only [Holds, Item.place, reduceCtorEq, if_false, hbundle]
  | truststore name bundle =>
    obtain ⟨hname, certs, hcerts⟩ := h
    obtain ⟨u, hu, hbundle, hkeys⟩ := CertStore.putTruststore_done (s := s.store) hname hcerts
    refine ⟨{ s with store := u }, ?_, ?_, fun hca => hca⟩
    · rw [putItem, hu]
      rfl
    · intro j
      cases j with
      | ca cert' key' => exact Iff.rfl
      | keystore n cert key =>
        have hpair : u.pair n = s.store.pair n := CertStore.pair_congr (by rw [hkeys]) (by rw [hkeys])
        simp only [Holds, Item.place, reduceCtorEq, if_false, hpair]
      | truststore n bundle' =>
        simp only [Holds, hbundle, Item.place, Place.truststore.injEq, Item.bytes, Item.truststore.injEq]
        by_cases hn : n = name
        · rw [if_pos hn, if_pos hn, Option.some.injEq]
          exact ⟨fun h => ⟨hn, h.symm⟩, fun h => h.2.symm⟩
        · rw [if_neg hn, if_neg hn]

lemma putItem_ok {ends : WriteEnd × WriteEnd} (h : s.putItem inspect ends i = (t, .ok ())) :
    Storable inspect i := by
  cases i with
  | ca cert key => trivial
  | keystore name cert key =>
    rw [putItem] at h
    cases hput : s.store.putKeystore inspect name cert key ends with
    | mk u r =>
      rw [hput] at h
      cases r with
      | error e => cases h
      | ok m => exact CertStore.putKeystore_ok hput
  | truststore name bundle =>
    rw [putItem] at h
    cases hput : s.store.putTruststore inspect name bundle ends.1 with
    | mk u r =>
      rw [hput] at h
      cases r with
      | error e => cases h
      | ok m => exact CertStore.putTruststore_ok hput

lemma importItems_ok {ends : ℕ → WriteEnd × WriteEnd} {is : List (Item String)}
    (h : s.importItems inspect ends is = (t, .ok ())) : ∀ i ∈ is, Storable inspect i := by
  induction is generalizing s ends with
  | nil => simp
  | cons i is ih =>
    rw [importItems] at h
    split at h
    · cases h
    · rename_i u hput
      exact List.forall_mem_cons.mpr ⟨putItem_ok hput, ih h⟩

/-- What is imported takes the place of what there was. -/
lemma importItems_done {is : List (Item String)} (hstorable : ∀ i ∈ is, Storable inspect i)
    (hone : ∀ i ∈ is, ∀ j ∈ is, i.place = j.place → i = j) :
    ∃ t, s.importItems inspect (fun _ => (.done, .done)) is = (t, .ok ()) ∧
      (∀ j, t.Holds j ↔ (∃ i ∈ is, j = i.bytes) ∨ (∀ i ∈ is, i.place ≠ j.place) ∧ s.Holds j) ∧
      (s.ca = loadCa s.files → t.ca = loadCa t.files) := by
  induction is generalizing s with
  | nil => exact ⟨s, rfl, by simp, fun hca => hca⟩
  | cons i is ih =>
    rw [List.forall_mem_cons] at hstorable
    obtain ⟨u, hput, hu, huca⟩ := putItem_done (s := s) hstorable.1
    obtain ⟨t, himport, ht, htca⟩ := ih (s := u) hstorable.2 fun i hi j hj =>
      hone i (List.mem_cons_of_mem _ hi) j (List.mem_cons_of_mem _ hj)
    refine ⟨t, ?_, fun j => ?_, fun hca => htca (huca hca)⟩
    · rw [importItems, hput]
      exact himport
    · rw [ht, hu, List.exists_mem_cons_iff, List.forall_mem_cons]
      by_cases hplace : j.place = i.place
      · rw [if_pos hplace]
        constructor
        · rintro (hj | ⟨-, rfl⟩)
          · exact .inl (.inr hj)
          · exact .inl (.inl rfl)
        · rintro ((rfl | hj) | ⟨⟨hne, -⟩, -⟩)
          · by_cases hmem : i ∈ is
            · exact .inl ⟨i, hmem, rfl⟩
            · refine .inr ⟨fun k hk heq => hmem ?_, rfl⟩
              rw [Item.place_bytes] at heq
              rwa [← hone k (List.mem_cons_of_mem _ hk) i List.mem_cons_self heq]
          · exact .inl hj
          · exact absurd hplace.symm hne
      · have hj : j ≠ i.bytes := by
          rintro rfl
          exact hplace (Item.place_bytes i)
        rw [if_neg hplace]
        simp [hj, Ne.symm hplace]

end Import

section Export

def exported (inspect : Inspector I) (s : PkiMaterial) : List (Item String) :=
  s.exportedCa.toList ++ s.exportedKeystores inspect ++ s.exportedTruststores inspect

lemma mem_exportedKeystores :
    i ∈ s.exportedKeystores inspect ↔ ∃ name cert key, i = .keystore name cert key ∧
    s.Holds i.bytes ∧ Legible inspect i.bytes := by
  rw [exportedKeystores, List.mem_filterMap]
  constructor
  · rintro ⟨m, hm, hi⟩
    obtain ⟨name, content, info, hname, hcontent, hpem, rfl⟩ := CertStore.mem_listKeystores.mp hm
    obtain ⟨-, -, hi⟩ := Option.bind_eq_some_iff.mp hi
    obtain ⟨cert, hcert, hi⟩ := Option.bind_eq_some_iff.mp hi
    obtain ⟨key, hkey, hi⟩ := Option.bind_eq_some_iff.mp hi
    obtain rfl := Option.some.inj hi
    have hcert := bind_readToString.mp hcert
    obtain rfl := Option.some.inj (hcontent.symm.trans hcert)
    exact ⟨name, cert, key, rfl,
      CertStore.pair_eq_some.mpr ⟨hname, hcert, bind_readToString.mp hkey⟩, info, hpem⟩
  · rintro ⟨name, cert, key, rfl, hholds, info, hpem⟩
    obtain ⟨hname, hcert, hkey⟩ := CertStore.pair_eq_some.mp hholds
    refine ⟨s.store.keystoreMeta name info, CertStore.mem_listKeystores.mpr ⟨name, _, info, hname,
      hcert, hpem, rfl⟩, ?_⟩
    obtain ⟨files, hfiles⟩ :=
      Option.isSome_iff_exists.mp (CertStore.keystoreFiles_isSome.mpr ⟨_, hholds⟩)
    have hcert := bind_readToString.mpr hcert
    have hkey := bind_readToString.mpr hkey
    simp [CertStore.keystoreMeta, hfiles, hcert, hkey]

lemma mem_exportedTruststores :
    i ∈ s.exportedTruststores inspect ↔ ∃ name text, i = .truststore name text ∧
    s.Holds i.bytes ∧ Legible inspect i.bytes := by
  rw [exportedTruststores, List.mem_filterMap]
  constructor
  · rintro ⟨m, hm, hi⟩
    obtain ⟨name, content, certs, hname, hcontent, hall, rfl⟩ := CertStore.mem_listTruststores.mp hm
    obtain ⟨-, -, hi⟩ := Option.bind_eq_some_iff.mp hi
    obtain ⟨text, htext, hi⟩ := Option.bind_eq_some_iff.mp hi
    obtain rfl := Option.some.inj hi
    have htext := bind_readToString.mp htext
    obtain rfl := Option.some.inj (hcontent.symm.trans htext)
    exact ⟨name, text, rfl, CertStore.bundle_eq_some.mpr ⟨hname, htext⟩, certs, hall⟩
  · rintro ⟨name, text, rfl, hholds, certs, hall⟩
    obtain ⟨hname, htext⟩ := CertStore.bundle_eq_some.mp hholds
    refine ⟨⟨name, certs, _⟩, CertStore.mem_listTruststores.mpr ⟨name, _, certs, hname,
      htext, hall, rfl⟩, ?_⟩
    obtain ⟨file, hfile⟩ := Option.isSome_iff_exists.mp (CertStore.truststoreFile_isSome.mpr ⟨_, hholds⟩)
    have htext := bind_readToString.mpr htext
    simp [hfile, htext]

lemma mem_exportedCa : i ∈ s.exportedCa.toList ↔ ∃ cert key, i = .ca cert key ∧ s.Holds i.bytes := by
  rw [Option.mem_toList, exportedCa, Option.map_eq_some_iff]
  constructor
  · rintro ⟨ca, hca, rfl⟩
    exact ⟨_, _, rfl, loadCa_eq_some.mp hca⟩
  · rintro ⟨cert, key, rfl, hholds⟩
    exact ⟨⟨cert, key⟩, loadCa_eq_some.mpr hholds, rfl⟩

lemma mem_exported : i ∈ exported inspect s ↔ s.Holds i.bytes ∧ Legible inspect i.bytes := by
  rw [exported, List.mem_append, List.mem_append, mem_exportedCa, mem_exportedKeystores,
    mem_exportedTruststores]
  constructor
  · rintro ((⟨cert, key, rfl, h⟩ | ⟨name, cert, key, rfl, h⟩) | ⟨name, text, rfl, h⟩)
    · exact ⟨h, trivial⟩
    · exact h
    · exact h
  · rintro h
    cases i with
    | ca cert key => exact .inl (.inl ⟨cert, key, rfl, h.1⟩)
    | keystore name cert key => exact .inl (.inr ⟨name, cert, key, rfl, h⟩)
    | truststore name text => exact .inr ⟨name, text, rfl, h⟩

lemma exported_eq {j : Item String} (hi : i ∈ exported inspect s) (hj : j ∈ exported inspect s)
    (hplace : i.place = j.place) : i = j := by
  apply Item.bytes_inj.mp
  apply (mem_exported.mp hi).1.eq (mem_exported.mp hj).1
  rw [Item.place_bytes, Item.place_bytes, hplace]

lemma filterMap_toValue {f : Value → Option (Item String)} {is : List (Item String)}
    (h : ∀ i ∈ is, f i.toValue = some i) : (is.map Item.toValue).filterMap f = is := by
  rw [List.filterMap_map]
  induction is with
  | nil => rfl
  | cons i is ih =>
    rw [List.forall_mem_cons] at h
    rw [List.filterMap_cons_some (by exact h.1), ih h.2]

lemma importedItems_exportMaterial : importedItems (s.exportMaterial inspect) = exported inspect s := by
  have hca : ((s.exportMaterial inspect).get "ca").bind Item.ofCa = s.exportedCa := by
    have hget : (s.exportMaterial inspect).get "ca" =
        some ((s.exportedCa.map Item.toValue).getD .null) := rfl
    rw [hget, exportedCa]
    cases loadCa s.files <;> rfl
  have hkeystores : (s.exportMaterial inspect).get "keystores" =
      some (.array ((s.exportedKeystores inspect).map Item.toValue)) := rfl
  have htruststores : (s.exportMaterial inspect).get "truststores" =
      some (.array ((s.exportedTruststores inspect).map Item.toValue)) := rfl
  have hks : ∀ i ∈ s.exportedKeystores inspect, Item.ofKeystore i.toValue = some i := by
    intro i hi
    obtain ⟨name, cert, key, rfl, -⟩ := mem_exportedKeystores.mp hi
    rfl
  have hts : ∀ i ∈ s.exportedTruststores inspect, Item.ofTruststore i.toValue = some i := by
    intro i hi
    obtain ⟨name, text, rfl, -⟩ := mem_exportedTruststores.mp hi
    rfl
  rw [importedItems, hca, hkeystores, htruststores, Option.elim_some, Option.elim_some,
    Value.items, Value.items, filterMap_toValue hks, filterMap_toValue hts]
  rfl

lemma storable_of_holds (h : s.Holds i.bytes) (hlegible : Legible inspect i.bytes) (hkeyed : Keyed i) :
    Storable inspect i := by
  cases i with
  | ca cert key => trivial
  | keystore name cert key => exact ⟨(CertStore.pair_eq_some.mp h).1, hkeyed, hlegible⟩
  | truststore name text => exact ⟨(CertStore.bundle_eq_some.mp h).1, hlegible⟩

lemma keyed_of_storable (h : Storable inspect i) : Keyed i := by
  cases i with
  | ca cert key => trivial
  | keystore name cert key => exact h.2.1
  | truststore name text => trivial

lemma not_holds_empty {j : Item ByteArray} (dir : FilePath) : ¬ (empty dir).Holds j := by
  cases j with
  | ca cert key => simp [Holds, empty]
  | keystore name cert key =>
    intro h
    have := (CertStore.pair_eq_some.mp h).2.1
    simp [empty, CertStore.open] at this
  | truststore name text =>
    intro h
    have := (CertStore.bundle_eq_some.mp h).2
    simp [empty, CertStore.open] at this

/-- What the files hold is as it is to be: they are texts, the certificates can be read, and
the keys are keys. -/
def Intact (inspect : Inspector I) (s : PkiMaterial) : Prop :=
  ∀ j, s.Holds j → Legible inspect j ∧ ∃ i : Item String, j = i.bytes ∧ Keyed i

lemma Intact.imported (h : s.Intact inspect) (dir : FilePath) :
    ∃ t, (empty dir).importMaterial inspect (s.exportMaterial inspect)
    (fun _ => (.done, .done)) = (t, .ok ()) ∧
      (∀ j, t.Holds j ↔ s.Holds j) ∧ t.ca = loadCa s.files := by
  have hstorable : ∀ i ∈ exported inspect s, Storable inspect i := by
    intro i hi
    obtain ⟨hholds, hlegible⟩ := mem_exported.mp hi
    obtain ⟨-, i', hbytes, hkeyed⟩ := h _ hholds
    obtain rfl := Item.bytes_inj.mp hbytes
    exact storable_of_holds hholds hlegible hkeyed
  obtain ⟨t, himport, ht, hca⟩ :=
    importItems_done (s := empty dir) hstorable fun i hi j hj => exported_eq hi hj
  have hholds : ∀ j, t.Holds j ↔ s.Holds j := by
    intro j
    rw [ht]
    constructor
    · rintro (⟨i, hi, rfl⟩ | ⟨-, hempty⟩)
      · exact (mem_exported.mp hi).1
      · exact absurd hempty (not_holds_empty dir)
    · intro hj
      obtain ⟨hlegible, i, rfl, -⟩ := h j hj
      exact .inl ⟨i, mem_exported.mpr ⟨hj, hlegible⟩, rfl⟩
  refine ⟨t, ?_, hholds, (hca rfl).trans ?_⟩
  · rw [importMaterial, importedItems_exportMaterial, himport]
  · apply Option.ext
    intro ca
    rw [loadCa_eq_some, loadCa_eq_some]
    exact hholds _

/-- A keystore that is exported without a private key is refused, and with it all that comes after it. -/
lemma import_refused (hi : i ∈ exported inspect s) (hkeyed : ¬ Keyed i) (u : PkiMaterial)
    (ends : ℕ → WriteEnd × WriteEnd) :
    ∃ t e, u.importMaterial inspect (s.exportMaterial inspect) ends = (t, .error e) := by
  cases himport : u.importMaterial inspect (s.exportMaterial inspect) ends with
  | mk t r =>
    cases r with
    | error e => exact ⟨t, e, rfl⟩
    | ok done =>
      rw [importMaterial, importedItems_exportMaterial] at himport
      exact absurd (keyed_of_storable (importItems_ok himport i hi)) hkeyed

/-- A backup of the certificates can be restored, and brings all of them back, exactly if each file that
it is taken from is intact. One key that is cut makes every import of it fail. -/
theorem material_restored_iff (inspect : Inspector I) (s : PkiMaterial) (dir : FilePath) :
    ((∃ t, (empty dir).importMaterial inspect (s.exportMaterial inspect)
      (fun _ => (.done, .done)) = (t, .ok ()) ∧
      ∀ j, t.Holds j ↔ s.Holds j) ↔ s.Intact inspect) ∧
      ∀ name cert key, s.Holds (Item.keystore name cert key).bytes →
      Legible inspect (Item.keystore name cert key).bytes →
        holdsKey key = false → ∀ (u : PkiMaterial) (ends : ℕ → WriteEnd × WriteEnd),
          ∃ t e, u.importMaterial inspect (s.exportMaterial inspect) ends = (t, .error e) := by
  refine ⟨⟨?_, ?_⟩, ?_⟩
  · rintro ⟨t, himport, hholds⟩ j hj
    rw [importMaterial, importedItems_exportMaterial] at himport
    have hstorable := importItems_ok himport
    obtain ⟨u, hu, hcontents, -⟩ :=
      importItems_done (s := empty dir) hstorable fun i hi j hj => exported_eq hi hj
    obtain rfl : u = t := congrArg Prod.fst (hu.symm.trans himport)
    rcases (hcontents j).mp ((hholds j).mpr hj) with ⟨i, hi, rfl⟩ | ⟨-, hempty⟩
    · exact ⟨(mem_exported.mp hi).2, i, rfl, keyed_of_storable (hstorable i hi)⟩
    · exact absurd hempty (not_holds_empty dir)
  · intro h
    obtain ⟨t, himport, hholds, -⟩ := h.imported dir
    exact ⟨t, himport, hholds⟩
  · intro name cert key hholds hlegible hkey u ends
    refine import_refused (mem_exported.mpr ⟨hholds, hlegible⟩) ?_ u ends
    rw [Keyed, hkey]
    exact Bool.false_ne_true

end Export

end PkiMaterial

inductive MaterialMove
  | generateCa (ca : LocalCa) (ends : WriteEnd × WriteEnd)
  | putKeystore (name cert key : String) (ends : WriteEnd × WriteEnd)
  | putTruststore (name bundle : String) (last : WriteEnd)
  | deleteKeystore (name : String) (certFails keyFails : Bool)
  | deleteTruststore (name : String) (fails : Bool)
  | importMaterial (v : Value) (ends : ℕ → WriteEnd × WriteEnd)
  | reopen

namespace PkiMaterial

variable {I : Type} (inspect : Inspector I) (describe : PkiError → String)

def step (s : PkiMaterial) : MaterialMove → Option PkiMaterial
  | .generateCa ca ends => some (s.generateCa inspect describe ca ends).1
  | .putKeystore name cert key ends => some (s.putItem inspect ends (.keystore name cert key)).1
  | .putTruststore name bundle last => some (s.putItem inspect (last, .done) (.truststore name bundle)).1
  | .deleteKeystore name certFails keyFails =>
    some { s with store := (s.store.deleteKeystore name certFails keyFails).1 }
  | .deleteTruststore name fails => some { s with store := (s.store.deleteTruststore name fails).1 }
  | .importMaterial v ends => some (s.importMaterial inspect v ends).1
  | .reopen => some s.reopen

/-- Of what belongs together, all is written or nothing. -/
def Uncut (ends : WriteEnd × WriteEnd) : Prop := ends = (.done, .done) ∨ ends.1 = .failed none

def Genuine (good : LocalCa → Prop) : Item String → Prop
  | .ca cert key => good ⟨cert, key⟩
  | _ => True

/-- No write that fails leaves a file that is cut, or a certificate without its new key, and the CAs that
come in are good. -/
def Careful (good : LocalCa → Prop) (_ : PkiMaterial) : MaterialMove → Prop
  | .generateCa ca ends => Uncut ends ∧ good ca ∧ ∃ info, inspect.pem ca.certPem.toByteArray = .ok info
  | .putKeystore _ _ _ ends => Uncut ends
  | .putTruststore _ _ last => Uncut (last, .done)
  | .importMaterial v ends => (∀ n, Uncut (ends n)) ∧ ∀ i ∈ importedItems v, Genuine good i
  | _ => True

structure Orderly (good : LocalCa → Prop) (s : PkiMaterial) : Prop where
  intact : s.Intact inspect
  genuine : ∀ i : Item String, s.Holds i.bytes → Genuine good i
  inUse : s.ca = loadCa s.files

variable {inspect describe} {good : LocalCa → Prop} {s t : PkiMaterial} {i : Item String}

lemma legible_of_storable (h : Storable inspect i) : Legible inspect i.bytes := by
  cases i with
  | ca cert key => trivial
  | keystore name cert key => exact h.2.2
  | truststore name text => exact h.2

lemma putItem_cases {ends : WriteEnd × WriteEnd} (hends : Uncut ends) (i : Item String) :
    (s.putItem inspect ends i).1 = s ∨ ends = (.done, .done) ∧ Storable inspect i := by
  cases i with
  | ca cert key =>
    obtain rfl | hfirst := hends
    · exact .inr ⟨rfl, trivial⟩
    · rw [putItem, hfirst]
      exact .inl rfl
  | keystore name cert key =>
    rcases s.store.putKeystore_cases name cert key ends with h | ⟨hfirst, h⟩
    · exact .inl (congrArg (fun u => { s with store := u }) h)
    · exact .inr ⟨hends.resolve_right hfirst, h⟩
  | truststore name text =>
    rcases s.store.putTruststore_cases name text ends.1 with h | ⟨hfirst, h⟩
    · exact .inl (congrArg (fun u => { s with store := u }) h)
    · exact .inr ⟨hends.resolve_right hfirst, h⟩

namespace Orderly

lemma putItem (h : Orderly inspect good s) {ends : WriteEnd × WriteEnd} (hends : Uncut ends)
    (hgenuine : Genuine good i) :
    Orderly inspect good (s.putItem inspect ends i).1 := by
  obtain heq | ⟨rfl, hstorable⟩ := putItem_cases (s := s) hends i
  · rwa [heq]
  · obtain ⟨t, hput, ht, hca⟩ := putItem_done (s := s) hstorable
    rw [hput]
    refine ⟨fun j hj => ?_, fun j hj => ?_, hca h.inUse⟩
    · have hj := (ht j).mp hj
      split at hj
      · subst hj
        exact ⟨legible_of_storable hstorable, i, rfl, keyed_of_storable hstorable⟩
      · exact h.intact j hj
    · have hj := (ht j.bytes).mp hj
      split at hj
      · obtain rfl := Item.bytes_inj.mp hj
        exact hgenuine
      · exact h.genuine j hj

lemma importItems (h : Orderly inspect good s) {is : List (Item String)}
    (hgenuine : ∀ i ∈ is, Genuine good i) {ends : ℕ → WriteEnd × WriteEnd}
    (hends : ∀ n, Uncut (ends n)) :
    Orderly inspect good (s.importItems inspect ends is).1 := by
  induction is generalizing s ends with
  | nil => exact h
  | cons i is ih =>
    rw [List.forall_mem_cons] at hgenuine
    have hput := h.putItem (hends 0) hgenuine.1
    rw [PkiMaterial.importItems]
    split
    · rename_i t e heq
      rwa [heq] at hput
    · rename_i t heq
      rw [heq] at hput
      exact ih hput hgenuine.2 fun n => hends (n + 1)

/-- What only takes files away. -/
lemma mono (h : Orderly inspect good s) (hholds : ∀ i, t.Holds i → s.Holds i)
    (hca : t.ca = loadCa t.files) :
    Orderly inspect good t :=
  ⟨fun i hi => h.intact i (hholds i hi), fun i hi => h.genuine i (hholds i.bytes hi), hca⟩

lemma generateCa (h : Orderly inspect good s) {ca : LocalCa} {ends : WriteEnd × WriteEnd}
    (hends : Uncut ends) (hgood : good ca) {info : I}
    (hinfo : inspect.pem ca.certPem.toByteArray = .ok info) :
    Orderly inspect good (s.generateCa inspect describe ca ends).1 := by
  have hput := h.putItem (i := .ca ca.certPem ca.keyPem) hends hgood
  rw [PkiMaterial.generateCa]
  split
  · rename_i t e heq
    rwa [heq] at hput
  · rename_i t heq
    rw [heq] at hput
    rw [hinfo]
    exact hput

lemma step (h : Orderly inspect good s) {m : MaterialMove} (hcareful : Careful inspect good s m)
    (hm : PkiMaterial.step inspect describe s m = some t) : Orderly inspect good t := by
  cases m with
  | generateCa ca ends =>
    obtain rfl := Option.some.inj hm
    obtain ⟨hends, hgood, info, hinfo⟩ := hcareful
    exact h.generateCa hends hgood hinfo
  | putKeystore name cert key ends =>
    obtain rfl := Option.some.inj hm
    exact h.putItem hcareful trivial
  | putTruststore name bundle last =>
    obtain rfl := Option.some.inj hm
    exact h.putItem hcareful trivial
  | deleteKeystore name certFails keyFails =>
    obtain rfl := Option.some.inj hm
    refine h.mono (fun i hi => ?_) h.inUse
    cases i with
    | ca cert key => exact hi
    | keystore n cert key => exact CertStore.deleteKeystore_pair _ _ hi
    | truststore n text =>
      have htrust := CertStore.deleteKeystore_truststores s.store name certFails keyFails
      exact (CertStore.bundle_congr (by rw [htrust])).symm.trans hi
  | deleteTruststore name fails =>
    obtain rfl := Option.some.inj hm
    refine h.mono (fun i hi => ?_) h.inUse
    cases i with
    | ca cert key => exact hi
    | keystore n cert key =>
      have hkeys := CertStore.deleteTruststore_keystores s.store name fails
      exact (CertStore.pair_congr (by rw [hkeys]) (by rw [hkeys])).symm.trans hi
    | truststore n text => exact CertStore.deleteTruststore_bundle _ hi
  | importMaterial v ends =>
    obtain rfl := Option.some.inj hm
    exact h.importItems hcareful.2 hcareful.1
  | reopen =>
    obtain rfl := Option.some.inj hm
    exact h.mono (fun i hi => by cases i <;> exact hi) rfl

end Orderly

lemma orderly_of_moves {dir : FilePath}
    (h : Moves (step inspect describe) (Careful inspect good) (empty dir) s) :
    Orderly inspect good s :=
  h.invariant (fun _ _ _ hs hok hm => hs.step hok hm)
    ⟨fun _ hi => absurd hi (not_holds_empty dir), fun _ hi => absurd hi (not_holds_empty dir), rfl⟩

end PkiMaterial

end PesitWizard.Node
