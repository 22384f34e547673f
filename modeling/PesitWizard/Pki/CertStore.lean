import Mathlib.Data.List.Sort
import Mathlib.Data.String.Basic
import PesitWizard.Library.FilePath
import PesitWizard.Library.Table

/-! The store of certificates: a directory of keystores and one of truststores, with files that are
named after them. -/

namespace PesitWizard.Pki

open Library

inductive CertError
  | noCert
  | parse (text : String)

/-- What is read off certificates. -/
structure Inspector (I : Type) where
  pem : ByteArray → Except CertError I
  all : ByteArray → Except CertError (List I)

inductive StoreError
  | io
  | cert (e : CertError)
  | name (name : String)
  | missingKey

structure KeystoreMeta (I : Type) where
  name : String
  info : I
  certPath : FilePath
  keyPath : FilePath

structure TruststoreMeta (I : Type) where
  name : String
  certs : List I
  path : FilePath

def sanitize (name : String) : Except StoreError String :=
  if (name ≠ "" ∧ name.utf8ByteSize ≤ 128 ∧ name.toList.all fun c => c.isAlphanum || c = '-' || c =
    '_' || c = '.') ∧
      name ≠ "." ∧ name ≠ ".." then .ok name
  else .error (.name name)

/-- The files of a directory, by their names. -/
abbrev Folder := Table String ByteArray

def readToString (content : ByteArray) : Option String := String.fromUTF8? content

lemma readToString_eq_some {content : ByteArray} {text : String} :
    readToString content = some text ↔ content = text.toByteArray := by
  unfold readToString String.fromUTF8?
  constructor
  · intro h
    split at h
    · obtain rfl := Option.some.inj h
      rfl
    · cases h
  · rintro rfl
    exact dif_pos text.isValidUTF8

/-- How a write ends: it goes through, or it fails, and may have cut the file by then. -/
inductive WriteEnd
  | done
  | failed (left : Option ByteArray)

namespace Folder

def write (f : Folder) (file text : String) : WriteEnd → Bool × Folder
  | .done => (true, f.put file text.toByteArray)
  | .failed none => (false, f)
  | .failed (some left) => (false, f.put file left)

def «exists» (f : Folder) (file : String) : Bool := (f.find file).isSome

end Folder

def stripSuffix (suffix file : String) : Option String :=
  if suffix.toList <:+ file.toList then
    some (.ofList (file.toList.take (file.toList.length - suffix.toList.length)))
  else none

def listNames (f : Folder) (suffix : String) : List String :=
  (f.keys.filterMap (stripSuffix suffix)).insertionSort (· ≤ ·)

def holdsKey (keyPem : String) : Bool :=
  keyPem.toList.tails.any fun rest => "PRIVATE KEY".toList.isPrefixOf rest

structure CertStore where
  dir : FilePath
  keystores : Folder
  truststores : Folder

namespace CertStore

variable {I : Type} (inspect : Inspector I)

def «open» (dir : FilePath) : CertStore := ⟨dir, .empty, .empty⟩

def keyCert (name : String) : String := name ++ ".crt.pem"

def keyKey (name : String) : String := name ++ ".key.pem"

def trustPath (name : String) : String := name ++ ".pem"

def keystorePath (s : CertStore) (file : String) : FilePath :=
  (s.dir.join (.ofString "keystores")).join (.ofString file)

def truststorePath (s : CertStore) (file : String) : FilePath :=
  (s.dir.join (.ofString "truststores")).join (.ofString file)

def keystoreMeta (s : CertStore) (name : String) (info : I) : KeystoreMeta I :=
  ⟨name, info, s.keystorePath (keyCert name), s.keystorePath (keyKey name)⟩

def putKeystore (s : CertStore) (name certPem keyPem : String) (ends : WriteEnd × WriteEnd) :
    CertStore × Except StoreError (KeystoreMeta I) :=
  match sanitize name with
  | .error e => (s, .error e)
  | .ok name =>
    if !holdsKey keyPem then (s, .error .missingKey)
    else
      match inspect.pem certPem.toByteArray with
      | .error e => (s, .error (.cert e))
      | .ok info =>
        match s.keystores.write (keyCert name) certPem ends.1 with
        | (false, f) => ({ s with keystores := f }, .error .io)
        | (true, f) =>
          match f.write (keyKey name) keyPem ends.2 with
          | (false, f) => ({ s with keystores := f }, .error .io)
          | (true, f) => ({ s with keystores := f }, .ok (s.keystoreMeta name info))

def putTruststore (s : CertStore) (name bundlePem : String) (last : WriteEnd) :
    CertStore × Except StoreError (TruststoreMeta I) :=
  match sanitize name with
  | .error e => (s, .error e)
  | .ok name =>
    match inspect.all bundlePem.toByteArray with
    | .error e => (s, .error (.cert e))
    | .ok certs =>
      match s.truststores.write (trustPath name) bundlePem last with
      | (false, f) => ({ s with truststores := f }, .error .io)
      | (true, f) => ({ s with truststores := f }, .ok ⟨name, certs, s.truststorePath (trustPath name)⟩)

def keystore (s : CertStore) (name : String) : Option (KeystoreMeta I) := do
  let name ← (sanitize name).toOption
  let cert ← s.keystores.find (keyCert name)
  let info ← (inspect.pem cert).toOption
  pure (s.keystoreMeta name info)

def truststore (s : CertStore) (name : String) : Option (TruststoreMeta I) := do
  let name ← (sanitize name).toOption
  let data ← s.truststores.find (trustPath name)
  let certs ← (inspect.all data).toOption
  pure ⟨name, certs, s.truststorePath (trustPath name)⟩

def listKeystores (s : CertStore) : List (KeystoreMeta I) :=
  (listNames s.keystores ".crt.pem").filterMap (s.keystore inspect)

def listTruststores (s : CertStore) : List (TruststoreMeta I) :=
  (listNames s.truststores ".pem").filterMap (s.truststore inspect)

def keystoreFiles (s : CertStore) (name : String) : Option (FilePath × FilePath) := do
  let name ← (sanitize name).toOption
  if s.keystores.exists (keyCert name) ∧ s.keystores.exists (keyKey name) then
    some (s.keystorePath (keyCert name), s.keystorePath (keyKey name))
  else none

def truststoreFile (s : CertStore) (name : String) : Option FilePath := do
  let name ← (sanitize name).toOption
  if s.truststores.exists (trustPath name) then some (s.truststorePath (trustPath name)) else none

def deleteKeystore (s : CertStore) (name : String) (certFails keyFails : Bool) :
    CertStore × Except StoreError Bool :=
  match sanitize name with
  | .error e => (s, .error e)
  | .ok name =>
    let existed := s.keystores.exists (keyCert name)
    if certFails then (s, .error .io)
    else
      let s := { s with keystores := s.keystores.erase (keyCert name) }
      if keyFails then (s, .error .io)
      else ({ s with keystores := s.keystores.erase (keyKey name) }, .ok existed)

def deleteTruststore (s : CertStore) (name : String) (fails : Bool) :
    CertStore × Except StoreError Bool :=
  match sanitize name with
  | .error e => (s, .error e)
  | .ok name =>
    let existed := s.truststores.exists (trustPath name)
    if fails then (s, .error .io) else
      ({ s with truststores := s.truststores.erase (trustPath name) }, .ok existed)

/-- What the files of a keystore hold, if there are both. -/
def pair (s : CertStore) (name : String) : Option (ByteArray × ByteArray) := do
  let name ← (sanitize name).toOption
  let cert ← s.keystores.find (keyCert name)
  let key ← s.keystores.find (keyKey name)
  pure (cert, key)

def bundle (s : CertStore) (name : String) : Option ByteArray := do
  let name ← (sanitize name).toOption
  s.truststores.find (trustPath name)

end CertStore

lemma stripSuffix_eq_some {suffix file name : String} :
    stripSuffix suffix file = some name ↔ file = name ++ suffix := by
  rw [stripSuffix]
  constructor
  · intro h
    split at h
    · rename_i hsuffix
      obtain ⟨front, hfront⟩ := hsuffix
      obtain rfl := Option.some.inj h
      rw [← String.toList_inj, ← hfront]
      simp
    · cases h
  · rintro rfl
    rw [if_pos]
    · simp
    · simp

lemma sanitize_ok {name n : String} (h : sanitize name = .ok n) : n = name := by
  rw [sanitize] at h
  split at h
  · exact (Except.ok.inj h).symm
  · cases h

lemma mem_listNames {f : Folder} {suffix name : String} :
    name ∈ listNames f suffix ↔ name ++ suffix ∈ f.keys := by
  rw [listNames, (List.perm_insertionSort _ _).mem_iff, List.mem_filterMap]
  constructor
  · rintro ⟨file, hfile, hstrip⟩
    rwa [← stripSuffix_eq_some.mp hstrip]
  · intro h
    exact ⟨_, h, stripSuffix_eq_some.mpr rfl⟩

namespace CertStore

variable {I : Type} {inspect : Inspector I} {s s' : CertStore} {name n : String}

lemma append_inj_left {a b suffix : String} : a ++ suffix = b ++ suffix ↔ a = b := by
  rw [← String.toList_inj, String.toList_append, String.toList_append, List.append_left_inj,
    String.toList_inj]

lemma keyCert_inj : keyCert n = keyCert name ↔ n = name := append_inj_left

lemma keyKey_inj : keyKey n = keyKey name ↔ n = name := append_inj_left

lemma trustPath_inj : trustPath n = trustPath name ↔ n = name := append_inj_left

lemma keyCert_ne_keyKey : keyCert n ≠ keyKey name := by
  intro h
  rw [← String.toList_inj, keyCert, keyKey, String.toList_append, String.toList_append] at h
  exact absurd (List.append_inj_right' h rfl) (by decide)

lemma sanitized {α : Type} {f : String → Option α} {x : α}
    (h : ((sanitize name).toOption.bind f) = some x) :
    sanitize name = .ok name ∧ f name = some x := by
  cases hname : sanitize name with
  | error e =>
    rw [hname] at h
    cases h
  | ok m =>
    rw [hname] at h
    obtain rfl := sanitize_ok hname
    exact ⟨rfl, h⟩

lemma pair_eq_some {cert key : ByteArray} : s.pair name = some (cert, key) ↔
    sanitize name = .ok name ∧ s.keystores.find (keyCert name) = some cert ∧
    s.keystores.find (keyKey name) = some key := by
  constructor
  · intro h
    obtain ⟨hname, h⟩ := sanitized h
    obtain ⟨c, hc, h⟩ := Option.bind_eq_some_iff.mp h
    obtain ⟨k, hk, h⟩ := Option.bind_eq_some_iff.mp h
    obtain ⟨rfl, rfl⟩ := Prod.mk.inj (Option.some.inj h)
    exact ⟨hname, hc, hk⟩
  · rintro ⟨hname, hc, hk⟩
    simp [pair, hname, hc, hk, Except.toOption]

lemma bundle_eq_some {text : ByteArray} :
    s.bundle name = some text ↔ sanitize name = .ok name ∧
    s.truststores.find (trustPath name) = some text := by
  constructor
  · intro h
    exact sanitized h
  · rintro ⟨hname, ht⟩
    simp [bundle, hname, ht, Except.toOption]

lemma pair_congr (hcert : s'.keystores.find (keyCert n) = s.keystores.find (keyCert n))
    (hkey : s'.keystores.find (keyKey n) = s.keystores.find (keyKey n)) : s'.pair n = s.pair n := by
  apply Option.ext
  rintro ⟨cert, key⟩
  rw [pair_eq_some, pair_eq_some, hcert, hkey]

lemma bundle_congr (h : s'.truststores.find (trustPath n) = s.truststores.find (trustPath n)) :
    s'.bundle n = s.bundle n := by
  apply Option.ext
  intro text
  rw [bundle_eq_some, bundle_eq_some, h]

/-- A keystore that is written whole replaces the one of its name, and no other. -/
lemma putKeystore_done {info : I} {cert key : String} (hname : sanitize name = .ok name)
    (hkey : holdsKey key = true) (hcert : inspect.pem cert.toByteArray = .ok info) :
    ∃ t, s.putKeystore inspect name cert key (.done, .done) = (t, .ok (s.keystoreMeta name info)) ∧
      (∀ n, t.pair n = if n = name then some (cert.toByteArray, key.toByteArray) else s.pair n) ∧
      t.truststores = s.truststores := by
  refine ⟨{ s with
    keystores := (s.keystores.put (keyCert name) cert.toByteArray).put (keyKey name) key.toByteArray },
    ?_, ?_, rfl⟩
  · simp [putKeystore, hname, hkey, hcert, Folder.write]
  · intro n
    by_cases hn : n = name
    · subst hn
      rw [if_pos rfl, pair_eq_some]
      refine ⟨hname, ?_, ?_⟩
      · rw [Table.find_put, if_neg keyCert_ne_keyKey, Table.find_put, if_pos rfl]
      · rw [Table.find_put, if_pos rfl]
    · have hc : keyCert n ≠ keyCert name := fun h => hn (keyCert_inj.mp h)
      have hk : keyKey n ≠ keyKey name := fun h => hn (keyKey_inj.mp h)
      rw [if_neg hn]
      apply pair_congr
      · rw [Table.find_put, if_neg keyCert_ne_keyKey, Table.find_put, if_neg hc]
      · rw [Table.find_put, if_neg hk, Table.find_put, if_neg keyCert_ne_keyKey.symm]

lemma putTruststore_done {certs : List I} {text : String} (hname : sanitize name = .ok name)
    (htext : inspect.all text.toByteArray = .ok certs) :
    ∃ t, s.putTruststore inspect name text .done =
    (t, .ok ⟨name, certs, s.truststorePath (trustPath name)⟩) ∧
      (∀ n, t.bundle n = if n = name then some text.toByteArray else s.bundle n) ∧
      t.keystores = s.keystores := by
  refine ⟨{ s with truststores := s.truststores.put (trustPath name) text.toByteArray }, ?_, ?_, rfl⟩
  · simp [putTruststore, hname, htext, Folder.write]
  · intro n
    by_cases hn : n = name
    · subst hn
      rw [if_pos rfl, bundle_eq_some]
      refine ⟨hname, ?_⟩
      rw [Table.find_put, if_pos rfl]
    · have ht : trustPath n ≠ trustPath name := fun h => hn (trustPath_inj.mp h)
      rw [if_neg hn]
      apply bundle_congr
      rw [Table.find_put, if_neg ht]

lemma mem_listKeystores {m : KeystoreMeta I} :
    m ∈ s.listKeystores inspect ↔ ∃ name cert info, sanitize name = .ok name ∧
    s.keystores.find (keyCert name) = some cert ∧ inspect.pem cert = .ok info ∧
    m = s.keystoreMeta name info := by
  rw [listKeystores, List.mem_filterMap]
  constructor
  · rintro ⟨name, -, hm⟩
    obtain ⟨hname, hm⟩ := sanitized hm
    obtain ⟨cert, hcert, hm⟩ := Option.bind_eq_some_iff.mp hm
    obtain ⟨info, hinfo, hm⟩ := Option.bind_eq_some_iff.mp hm
    cases hpem : inspect.pem cert with
    | error e =>
      rw [hpem] at hinfo
      cases hinfo
    | ok x =>
      rw [hpem] at hinfo
      obtain rfl := Option.some.inj hinfo
      exact ⟨name, cert, x, hname, hcert, hpem, (Option.some.inj hm).symm⟩
  · rintro ⟨name, cert, info, hname, hcert, hpem, rfl⟩
    refine ⟨name, mem_listNames.mpr (Table.mem_keys.mpr ⟨cert, hcert⟩), ?_⟩
    simp [keystore, hname, hcert, hpem, Except.toOption]

lemma mem_listTruststores {m : TruststoreMeta I} : m ∈ s.listTruststores inspect ↔ ∃ name text certs,
    sanitize name = .ok name ∧ s.truststores.find (trustPath name) = some text ∧
    inspect.all text = .ok certs ∧
      m = ⟨name, certs, s.truststorePath (trustPath name)⟩ := by
  rw [listTruststores, List.mem_filterMap]
  constructor
  · rintro ⟨name, -, hm⟩
    obtain ⟨hname, hm⟩ := sanitized hm
    obtain ⟨text, htext, hm⟩ := Option.bind_eq_some_iff.mp hm
    obtain ⟨certs, hcerts, hm⟩ := Option.bind_eq_some_iff.mp hm
    cases hall : inspect.all text with
    | error e =>
      rw [hall] at hcerts
      cases hcerts
    | ok x =>
      rw [hall] at hcerts
      obtain rfl := Option.some.inj hcerts
      exact ⟨name, text, x, hname, htext, hall, (Option.some.inj hm).symm⟩
  · rintro ⟨name, text, certs, hname, htext, hall, rfl⟩
    refine ⟨name, mem_listNames.mpr (Table.mem_keys.mpr ⟨text, htext⟩), ?_⟩
    simp [truststore, hname, htext, hall, Except.toOption]

lemma keystoreFiles_isSome : (s.keystoreFiles name).isSome = true ↔ ∃ p, s.pair name = some p := by
  rw [Option.isSome_iff_exists]
  constructor
  · rintro ⟨files, h⟩
    obtain ⟨hname, h⟩ := sanitized h
    split at h
    · rename_i hboth
      obtain ⟨cert, hcert⟩ := Option.isSome_iff_exists.mp hboth.1
      obtain ⟨key, hkey⟩ := Option.isSome_iff_exists.mp hboth.2
      exact ⟨(cert, key), pair_eq_some.mpr ⟨hname, hcert, hkey⟩⟩
    · cases h
  · rintro ⟨⟨cert, key⟩, h⟩
    obtain ⟨hname, hcert, hkey⟩ := pair_eq_some.mp h
    simp [keystoreFiles, hname, Folder.exists, hcert, hkey, Except.toOption]

lemma truststoreFile_isSome :
    (s.truststoreFile name).isSome = true ↔ ∃ text, s.bundle name = some text := by
  rw [Option.isSome_iff_exists]
  constructor
  · rintro ⟨file, h⟩
    obtain ⟨hname, h⟩ := sanitized h
    split at h
    · rename_i hexists
      obtain ⟨text, htext⟩ := Option.isSome_iff_exists.mp hexists
      exact ⟨text, bundle_eq_some.mpr ⟨hname, htext⟩⟩
    · cases h
  · rintro ⟨text, h⟩
    obtain ⟨hname, htext⟩ := bundle_eq_some.mp h
    simp [truststoreFile, hname, Folder.exists, htext, Except.toOption]

/-- What is stored has been checked before. -/
lemma putKeystore_ok {cert key : String} {ends : WriteEnd × WriteEnd} {k : KeystoreMeta I}
    (h : s.putKeystore inspect name cert key ends = (s', .ok k)) :
    sanitize name = .ok name ∧ holdsKey key = true ∧
    ∃ info, inspect.pem cert.toByteArray = .ok info := by
  rw [putKeystore] at h
  split at h
  · cases h
  · rename_i n hname
    obtain rfl := sanitize_ok hname
    split at h
    · cases h
    · rename_i hkey
      refine ⟨hname, by simpa using hkey, ?_⟩
      split at h
      · cases h
      · rename_i info hcert
        exact ⟨info, hcert⟩

lemma putTruststore_ok {text : String} {last : WriteEnd} {m : TruststoreMeta I}
    (h : s.putTruststore inspect name text last = (s', .ok m)) :
    sanitize name = .ok name ∧ ∃ certs, inspect.all text.toByteArray = .ok certs := by
  rw [putTruststore] at h
  split at h
  · cases h
  · rename_i n hname
    obtain rfl := sanitize_ok hname
    split at h
    · cases h
    · rename_i certs htext
      exact ⟨hname, certs, htext⟩

/-- What is refused, and what fails at its first write without a trace, leaves the store as it is. -/
lemma putKeystore_cases (s : CertStore) (name cert key : String) (ends : WriteEnd × WriteEnd) :
    (s.putKeystore inspect name cert key ends).1 = s ∨ ends.1 ≠ .failed none ∧ sanitize name = .ok name ∧
      holdsKey key = true ∧ ∃ info, inspect.pem cert.toByteArray = .ok info := by
  rw [putKeystore]
  split
  · exact .inl rfl
  · rename_i n hname
    obtain rfl := sanitize_ok hname
    split
    · exact .inl rfl
    · rename_i hkey
      split
      · exact .inl rfl
      · rename_i info hcert
        by_cases hends : ends.1 = .failed none
        · rw [hends]
          exact .inl rfl
        · exact .inr ⟨hends, hname, by simpa using hkey, info, hcert⟩

lemma putTruststore_cases (s : CertStore) (name text : String) (last : WriteEnd) :
    (s.putTruststore inspect name text last).1 = s ∨ last ≠ .failed none ∧ sanitize name = .ok name ∧
      ∃ certs, inspect.all text.toByteArray = .ok certs := by
  rw [putTruststore]
  split
  · exact .inl rfl
  · rename_i n hname
    obtain rfl := sanitize_ok hname
    split
    · exact .inl rfl
    · rename_i certs htext
      by_cases hlast : last = .failed none
      · rw [hlast]
        exact .inl rfl
      · exact .inr ⟨hlast, hname, certs, htext⟩

lemma deleteKeystore_find (certFails keyFails : Bool) {file : String} {text : ByteArray}
    (h : (s.deleteKeystore name certFails keyFails).1.keystores.find file = some text) :
    s.keystores.find file = some text := by
  rw [deleteKeystore] at h
  split at h
  · exact h
  · cases certFails with
    | true => exact h
    | false =>
      cases keyFails with
      | true => exact (Table.find_erase_some h).2
      | false => exact (Table.find_erase_some (Table.find_erase_some h).2).2

lemma deleteKeystore_pair (certFails keyFails : Bool) {p : ByteArray × ByteArray}
    (h : (s.deleteKeystore name certFails keyFails).1.pair n = some p) : s.pair n = some p := by
  obtain ⟨cert, key⟩ := p
  obtain ⟨hn, hcert, hkey⟩ := pair_eq_some.mp h
  exact pair_eq_some.mpr ⟨hn, deleteKeystore_find _ _ hcert, deleteKeystore_find _ _ hkey⟩

lemma deleteKeystore_truststores (s : CertStore) (name : String) (certFails keyFails : Bool) :
    (s.deleteKeystore name certFails keyFails).1.truststores = s.truststores := by
  rw [deleteKeystore]
  split
  · rfl
  · cases certFails <;> cases keyFails <;> rfl

lemma deleteTruststore_bundle (fails : Bool) {text : ByteArray}
    (h : (s.deleteTruststore name fails).1.bundle n = some text) :
    s.bundle n = some text := by
  obtain ⟨hn, htext⟩ := bundle_eq_some.mp h
  rw [bundle_eq_some]
  rw [deleteTruststore] at htext
  split at htext
  · exact ⟨hn, htext⟩
  · cases fails with
    | true => exact ⟨hn, htext⟩
    | false => exact ⟨hn, (Table.find_erase_some htext).2⟩

lemma deleteTruststore_keystores (s : CertStore) (name : String) (fails : Bool) :
    (s.deleteTruststore name fails).1.keystores = s.keystores := by
  rw [deleteTruststore]
  split
  · rfl
  · cases fails <;> rfl

end CertStore

end PesitWizard.Pki
