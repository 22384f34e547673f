import PesitWizard.Core.Diag
import PesitWizard.Library.Hex
import PesitWizard.Node.Pki

/-! The serials of the revoked certificates as the revocation list and as the online
responder give them. -/

namespace PesitWizard.Node

open App PesitWizard.Core Library

structure Revoked where
  serialHex : String
  revokedAtUnix : ℤ

inductive CertStatus
  | good
  | revoked (revocationTime : ℤ)
deriving DecidableEq

namespace Ocsp

def normSerial (hex : String) : String :=
  let trimmed := ((hex.toList.filter Hex.isDigit).map Char.toUpper).dropWhile fun c => c = '0'
  if trimmed.isEmpty then "0" else String.ofList trimmed

def bytesToHex (bytes : Bytes) : String :=
  String.ofList (bytes.flatMap fun b => [Hex.upper (b.toNat / 16), Hex.upper (b.toNat % 16)])

def status (revoked : List Revoked) (serialNumber : Bytes) : CertStatus :=
  match revoked.find? fun r => normSerial r.serialHex == normSerial (bytesToHex serialNumber) with
  | some r => .revoked r.revokedAtUnix
  | none => .good

def respond (revoked : List Revoked) (requestList : List Bytes) : List (Bytes × CertStatus) :=
  requestList.map fun serialNumber => (serialNumber, status revoked serialNumber)

end Ocsp

namespace PkiState

def fromStrRadix16 (s : List Char) : Option UInt8 := do
  let ds ← (match s with | '+' :: rest => rest | _ => s).mapM Hex.digit?
  if ds ≠ [] ∧ Numeral.value 16 ds < 256 then some (UInt8.ofNat (Numeral.value 16 ds)) else none

def hexToBytes (hex : String) : Option Bytes :=
  let h := (normalizeSerial hex).toList
  if h.isEmpty ∨ h.length % 2 ≠ 0 then none
  else (List.range' 0 (h.length / 2) 2).mapM fun i => fromStrRadix16 ((h.drop i).take 2)

structure CrlParams where
  revoked : List (Bytes × ℤ)
  number : ℕ
  days : ℕ

section Times

-- How a date is read, in milliseconds.
variable (parseMillis : String → Option ℤ)

def seconds (at_ : String) : ℤ := ((parseMillis at_).map fun ms => ms.tdiv 1000).getD 0

def buildCrl (s : JsonStore) : CrlParams × JsonStore :=
  let revoked :=
    (revokedList s).filterMap fun e => (hexToBytes e.serial).map fun bytes =>
      (bytes, seconds parseMillis e.revokedAt)
  let (number, s) := s.nextCounter "crl_number"
  (⟨revoked, number, 7⟩, s)

def ocspRespond (s : JsonStore) (requestList : List Bytes) : List (Bytes × CertStatus) :=
  Ocsp.respond ((revokedList s).map fun e => ⟨e.serial, seconds parseMillis e.revokedAt⟩) requestList

end Times

def attempt (s : JsonStore) (call : String × String) : JsonStore :=
  match revoke call.1 s call.2 with
  | .ok s' => s'
  | .error _ => s

def revokeAll (s : JsonStore) (calls : List (String × String)) : JsonStore := calls.foldl attempt s

def number (hex : String) : ℕ := Numeral.value 16 (Hex.digits hex.toList)

lemma normalizeSerial_toList (s : String) :
    (normalizeSerial s).toList = (s.toList.filter Hex.isDigit).map Char.toLower := String.toList_ofList

lemma normalizeSerial_isDigit (s : String) : ∀ c ∈ (normalizeSerial s).toList, Hex.isDigit c = true := by
  intro c hc
  rw [normalizeSerial_toList] at hc
  obtain ⟨d, hd, rfl⟩ := List.mem_map.mp hc
  exact Hex.isDigit_toLower (List.mem_filter.mp hd).2

lemma digits_normalizeSerial (s : String) :
    Hex.digits (normalizeSerial s).toList = Hex.digits s.toList := by
  rw [normalizeSerial_toList, Hex.digits_toLower]

lemma number_normalizeSerial (s : String) : number (normalizeSerial s) = number s := by
  rw [number, digits_normalizeSerial, number]

lemma normalizeSerial_length (s : String) :
    (normalizeSerial s).toList.length = (Hex.digits s.toList).length := by
  rw [normalizeSerial_toList, List.length_map, Hex.digits, List.length_map]

lemma fromStrRadix16_pair {c d : Char} (hc : Hex.isDigit c = true) (hd : Hex.isDigit d = true) :
    fromStrRadix16 [c, d] = some (UInt8.ofNat (Hex.value c * 16 + Hex.value d)) := by
  have hplus : c ≠ '+' := by
    rintro rfl
    exact absurd hc (by decide)
  have hlt := Hex.value_lt hc
  have hlt' := Hex.value_lt hd
  have hval : Numeral.value 16 [Hex.value c, Hex.value d] = Hex.value c * 16 + Hex.value d := by
    simp [Numeral.value]
  unfold fromStrRadix16
  split
  · next heq => exact absurd (List.cons.inj heq).1 hplus
  · simp only [List.mapM_cons, List.mapM_nil, Hex.digit?_eq hc, Hex.digit?_eq hd]
    have hbound : Hex.value c * 16 + Hex.value d < 256 := by omega
    simp [hval, hbound]

def halves (bytes : Bytes) : List ℕ := bytes.flatMap fun b => [b.toNat / 16, b.toNat % 16]

lemma mapM_pairs {n : ℕ} {h : List Char} (hlen : h.length = 2 * n)
    (hdig : ∀ c ∈ h, Hex.isDigit c = true) :
    ∃ bytes, ((List.range' 0 n 2).mapM fun i => fromStrRadix16 ((h.drop i).take 2)) = some bytes ∧
      halves bytes = h.map Hex.value := by
  induction n generalizing h with
  | zero =>
    obtain rfl := List.eq_nil_of_length_eq_zero hlen
    exact ⟨[], rfl, rfl⟩
  | succ n ih =>
    obtain ⟨c, d, t, rfl⟩ : ∃ c d t, h = c :: d :: t := by
      match h, hlen with
      | c :: d :: t, _ => exact ⟨c, d, t, rfl⟩
    have hc := hdig c (by simp)
    have hd := hdig d (by simp)
    obtain ⟨bytes, hbytes, hhalves⟩ :=
      ih (h := t) (by simp at hlen; omega) (fun e he => hdig e (by simp [he]))
    have hshift :
        List.range' (0 + 2) n 2 = (List.range' 0 n 2).map (2 + ·) := by rw [List.map_add_range']
    refine ⟨UInt8.ofNat (Hex.value c * 16 + Hex.value d) :: bytes, ?_, ?_⟩
    · rw [List.range'_succ, List.mapM_cons, hshift, List.mapM_map]
      have hrest : ((fun i => fromStrRadix16 (((c :: d :: t).drop i).take 2)) ∘ (2 + ·)) =
          fun i => fromStrRadix16 ((t.drop i).take 2) := by
        funext i
        simp only [Function.comp_apply, Nat.add_comm 2 i, List.drop_succ_cons]
      rw [hrest, hbytes]
      simp [fromStrRadix16_pair hc hd]
    · have hlt := Hex.value_lt hc
      have hlt' := Hex.value_lt hd
      rw [halves, List.flatMap_cons, ← halves, hhalves]
      simp only [UInt8.toNat_ofNat', List.map_cons, List.cons_append, List.nil_append,
        List.cons.injEq, and_true]
      omega

lemma hexToBytes_iff {hex : String} {n : ℕ} :
    (∃ bytes, hexToBytes hex = some bytes ∧ BigEndian.ofBeBytes bytes = n) ↔
      (Hex.digits hex.toList ≠ [] ∧ (Hex.digits hex.toList).length % 2 = 0) ∧ number hex = n := by
  have hlen := normalizeSerial_length hex
  have hdig := normalizeSerial_isDigit hex
  have hnil : (normalizeSerial hex).toList.isEmpty = true ↔ Hex.digits hex.toList = [] := by
    rw [List.isEmpty_iff, ← List.length_eq_zero_iff, hlen, List.length_eq_zero_iff]
  by_cases h : (normalizeSerial hex).toList.isEmpty = true ∨ (normalizeSerial hex).toList.length % 2 ≠ 0
  · have hnone : hexToBytes hex = none := by rw [hexToBytes, if_pos h]
    rw [hnil, hlen] at h
    constructor
    · rintro ⟨bytes, hbytes, -⟩
      rw [hnone] at hbytes
      cases hbytes
    · rintro ⟨⟨hne, heven⟩, -⟩
      exact absurd h (by simp [hne, heven])
  · have heven : (normalizeSerial hex).toList.length % 2 = 0 := not_not.mp (not_or.mp h).2
    have hcut : (normalizeSerial hex).toList.length =
        2 * ((normalizeSerial hex).toList.length / 2) := by omega
    obtain ⟨bytes, hbytes, hhalves⟩ := mapM_pairs hcut hdig
    have hsome : hexToBytes hex = some bytes := by rw [hexToBytes, if_neg h, hbytes]
    have hnum : BigEndian.ofBeBytes bytes = number hex := by
      have hfilter := List.filter_eq_self.mpr hdig
      rw [← number_normalizeSerial, number, Hex.digits, hfilter, ← hhalves, halves, Numeral.value_bytes]
    rw [hnil, hlen, not_or, not_not] at h
    constructor
    · rintro ⟨bytes', hbytes', rfl⟩
      obtain rfl : bytes = bytes' := by rwa [hsome, Option.some.injEq] at hbytes'
      exact ⟨h, hnum.symm⟩
    · rintro ⟨-, rfl⟩
      exact ⟨bytes, hsome, hnum⟩

end PkiState

namespace Ocsp

open PkiState

lemma trim_map_upper {ds : List ℕ} (hds : ∀ d ∈ ds, d < 16) :
    (ds.map Hex.upper).dropWhile (fun c => c = '0') = (Numeral.trim ds).map Hex.upper := by
  induction ds with
  | nil => rfl
  | cons d ds ih =>
    have hzero : Hex.upper d = '0' ↔ d = 0 :=
      ⟨fun h => Hex.upper_injective (hds d List.mem_cons_self) (by decide) h, fun h => by rw [h]; rfl⟩
    have hrest := ih fun e he => hds e (List.mem_cons_of_mem d he)
    by_cases hd : d = 0
    · rw [List.map_cons, List.dropWhile_cons_of_pos (by simpa using hzero.mpr hd), hrest,
        Numeral.trim, Numeral.trim, List.dropWhile_cons_of_pos (by simpa using hd)]
    · rw [List.map_cons, List.dropWhile_cons_of_neg (by simpa using mt hzero.mp hd), Numeral.trim,
        List.dropWhile_cons_of_neg (by simpa using hd), List.map_cons]

lemma normSerial_eq (hex : String) :
    normSerial hex = if Numeral.trim (Hex.digits hex.toList) = [] then "0"
      else String.ofList ((Numeral.trim (Hex.digits hex.toList)).map Hex.upper) := by
  have hupper :
      (hex.toList.filter Hex.isDigit).map Char.toUpper = (Hex.digits hex.toList).map Hex.upper := by
    rw [Hex.digits, List.map_map]
    apply List.map_congr_left
    intro c hc
    exact Hex.toUpper_eq (List.mem_filter.mp hc).2
  simp only [normSerial, hupper, trim_map_upper (Hex.digits_lt hex.toList), List.isEmpty_iff,
    List.map_eq_nil_iff]

lemma upper_map_injective {ds es : List ℕ} (hds : ∀ d ∈ ds, d < 16) (hes : ∀ e ∈ es, e < 16)
    (h : ds.map Hex.upper = es.map Hex.upper) : ds = es := by
  induction ds generalizing es with
  | nil => exact (List.map_eq_nil_iff.mp h.symm).symm
  | cons d ds ih =>
    cases es with
    | nil => cases h
    | cons e es =>
      obtain ⟨hhead, htail⟩ := List.cons.inj h
      have hde := Hex.upper_injective (hds d List.mem_cons_self) (hes e List.mem_cons_self) hhead
      rw [hde, ih (fun x hx => hds x (List.mem_cons_of_mem d hx))
        (fun x hx => hes x (List.mem_cons_of_mem e hx)) htail]

lemma trim_map_ne {ds : List ℕ} (hds : ∀ d ∈ ds, d < 16) :
    "0" ≠ String.ofList ((Numeral.trim ds).map Hex.upper) := by
  intro h
  have hlist : (Numeral.trim ds).map Hex.upper = [0].map Hex.upper := (String.ofList_injective h).symm
  have hzero := upper_map_injective (fun d hd => hds d (Numeral.trim_subset ds hd)) (by decide) hlist
  exact Numeral.trim_ne_zero_cons ds [] hzero

lemma normSerial_eq_iff (a b : String) : normSerial a = normSerial b ↔ number a = number b := by
  have ha := Hex.digits_lt a.toList
  have hb := Hex.digits_lt b.toList
  rw [number, number, ← Numeral.trim_eq_iff (by decide) ha hb, normSerial_eq, normSerial_eq]
  by_cases hna : Numeral.trim (Hex.digits a.toList) = [] <;>
    by_cases hnb : Numeral.trim (Hex.digits b.toList) = []
  · simp [hna, hnb]
  · rw [if_pos hna, if_neg hnb, hna]
    exact ⟨fun h => absurd h (trim_map_ne hb), fun h => absurd h.symm hnb⟩
  · rw [if_neg hna, if_pos hnb, hnb]
    exact ⟨fun h => absurd h.symm (trim_map_ne ha), fun h => absurd h hna⟩
  · rw [if_neg hna, if_neg hnb, String.ofList_inj]
    constructor
    · exact upper_map_injective (fun d hd => ha d (Numeral.trim_subset _ hd)) fun e he =>
        hb e (Numeral.trim_subset _ he)
    · exact congrArg (List.map Hex.upper)

lemma number_bytesToHex (bytes : Bytes) : number (bytesToHex bytes) = BigEndian.ofBeBytes bytes := by
  have hdigits : Hex.digits (bytesToHex bytes).toList = halves bytes := by
    rw [bytesToHex, String.toList_ofList]
    induction bytes with
    | nil => rfl
    | cons b bytes ih =>
      have hb := b.toNat_lt
      have hhi : b.toNat / 16 < 16 := by omega
      have hlo : b.toNat % 16 < 16 := by omega
      rw [List.flatMap_cons, halves, List.flatMap_cons, ← halves, ← ih]
      simp [Hex.digits, Hex.isDigit_upper hhi, Hex.isDigit_upper hlo, Hex.value_upper hhi,
        Hex.value_upper hlo]
  rw [number, hdigits, halves, Numeral.value_bytes]

lemma status_revoked_iff {revoked : List Revoked} {serialNumber : Bytes} :
    (∃ t, status revoked serialNumber = .revoked t) ↔
      ∃ r ∈ revoked, number r.serialHex = BigEndian.ofBeBytes serialNumber := by
  have hsame (r : Revoked) : (normSerial r.serialHex == normSerial (bytesToHex serialNumber)) = true ↔
      number r.serialHex = BigEndian.ofBeBytes serialNumber := by
    rw [beq_iff_eq, normSerial_eq_iff, number_bytesToHex]
  unfold status
  constructor
  · rintro ⟨t, ht⟩
    split at ht
    · next r hr =>
        exact ⟨r, List.mem_of_find?_eq_some hr, (hsame r).mp (List.find?_eq_some_iff_append.mp hr).1⟩
    · cases ht
  · rintro ⟨r, hr, hnum⟩
    split
    · next r' _ => exact ⟨r'.revokedAtUnix, rfl⟩
    · next hnone => exact absurd ((hsame r).mpr hnum) (List.find?_eq_none.mp hnone r hr)

lemma mem_respond {revoked : List Revoked} {before after : List Bytes} {serialNumber : Bytes}
    {status' : CertStatus} :
    (serialNumber, status') ∈ respond revoked (before ++ serialNumber :: after) ↔
    status revoked serialNumber = status' := by
  rw [respond, List.mem_map]
  constructor
  · rintro ⟨x, -, hx⟩
    cases hx
    rfl
  · rintro rfl
    exact ⟨serialNumber, by simp, rfl⟩

end Ocsp

namespace PkiState

lemma mapM_toValue (list : List RevokedEntry) :
    (list.map RevokedEntry.toValue).mapM RevokedEntry.ofValue = some list := by
  induction list with
  | nil => rfl
  | cons e list ih =>
    rw [List.map_cons, List.mapM_cons, ih]
    rfl

lemma revokedList_put (s : JsonStore) (list : List RevokedEntry) :
    revokedList (s.put "pki" "revoked" (.array (list.map RevokedEntry.toValue))) = list := by
  simp only [revokedList, JsonStore.put_tables, if_pos, Table.find_put, mapM_toValue, Option.getD_some]

lemma mem_attempt {s : JsonStore} {call : String × String} {serial : String} :
    (∃ e ∈ revokedList (attempt s call), e.serial = serial) ↔
      (∃ e ∈ revokedList s, e.serial = serial) ∨
      (normalizeSerial call.2 ≠ "" ∧ normalizeSerial call.2 = serial) := by
  unfold attempt revoke
  by_cases hempty : (normalizeSerial call.2).isEmpty = true
  · have hnorm : normalizeSerial call.2 = "" := by simpa using hempty
    simp [hnorm]
  · have hnorm : normalizeSerial call.2 ≠ "" := by simpa using hempty
    rw [if_neg hempty]
    by_cases hany : ((revokedList s).any fun e => e.serial == normalizeSerial call.2) = true
    · obtain ⟨e, he, heq⟩ := List.any_eq_true.mp hany
      rw [if_pos hany]
      constructor
      · exact Or.inl
      · rintro (h | ⟨-, rfl⟩)
        · exact h
        · exact ⟨e, he, by simpa using heq⟩
    · rw [if_neg hany]
      simp only [revokedList_put, List.mem_append, List.mem_singleton, or_and_right,
        exists_or, exists_eq_left]
      exact or_congr_right ⟨fun h => ⟨hnorm, h⟩, And.right⟩

lemma mem_revokeAll {s : JsonStore} {calls : List (String × String)} {serial : String} :
    (∃ e ∈ revokedList (revokeAll s calls), e.serial = serial) ↔
      (∃ e ∈ revokedList s, e.serial = serial) ∨
        ∃ call ∈ calls, normalizeSerial call.2 ≠ "" ∧ normalizeSerial call.2 = serial := by
  induction calls generalizing s with
  | nil => simp [revokeAll]
  | cons call calls ih =>
    rw [revokeAll, List.foldl_cons, ← revokeAll, ih, mem_attempt, List.exists_mem_cons_iff, or_assoc]

lemma exists_revoked_iff (calls : List (String × String)) (p : String → Prop) :
    (∃ e ∈ revokedList (revokeAll .empty calls), p e.serial) ↔
      ∃ call ∈ calls, normalizeSerial call.2 ≠ "" ∧ p (normalizeSerial call.2) := by
  have hempty : revokedList .empty = [] := rfl
  constructor
  · rintro ⟨e, he, hp⟩
    obtain ⟨e', he', -⟩ | ⟨call, hcall, hne, heq⟩ := mem_revokeAll.mp ⟨e, he, rfl⟩
    · rw [hempty] at he'
      cases he'
    · exact ⟨call, hcall, hne, by rwa [heq]⟩
  · rintro ⟨call, hcall, hne, hp⟩
    obtain ⟨e, he, heq⟩ := mem_revokeAll.mpr (.inr ⟨call, hcall, hne, rfl⟩)
    exact ⟨e, he, by rwa [heq]⟩

variable {parseMillis : String → Option ℤ} {calls : List (String × String)} {serialNumber : Bytes}

lemma reported_iff {before after : List Bytes} :
    (∃ t, (serialNumber, .revoked t) ∈
        ocspRespond parseMillis (revokeAll .empty calls) (before ++ serialNumber :: after)) ↔
      ∃ call ∈ calls, normalizeSerial call.2 ≠ "" ∧
      number call.2 = BigEndian.ofBeBytes serialNumber := by
  simp only [ocspRespond, Ocsp.mem_respond, Ocsp.status_revoked_iff, List.mem_map]
  have hiff := exists_revoked_iff calls fun h => number h = BigEndian.ofBeBytes serialNumber
  simp only [number_normalizeSerial] at hiff
  rw [← hiff]
  constructor
  · rintro ⟨-, ⟨e, he, rfl⟩, hnum⟩
    exact ⟨e, he, hnum⟩
  · rintro ⟨e, he, hnum⟩
    exact ⟨_, ⟨e, he, rfl⟩, hnum⟩

lemma normalizeSerial_eq_empty (serial : String) :
    normalizeSerial serial = "" ↔ Hex.digits serial.toList = [] := by
  rw [← String.toList_eq_nil_iff, ← List.length_eq_zero_iff, normalizeSerial_length,
    List.length_eq_zero_iff]

lemma listed_iff :
    (∃ r ∈ (buildCrl parseMillis (revokeAll .empty calls)).1.revoked,
        BigEndian.ofBeBytes r.1 = BigEndian.ofBeBytes serialNumber) ↔
      ∃ call ∈ calls, normalizeSerial call.2 ≠ "" ∧ (normalizeSerial call.2).length % 2 = 0 ∧
        number call.2 = BigEndian.ofBeBytes serialNumber := by
  have hiff := exists_revoked_iff calls
    fun h => ∃ bytes, hexToBytes h = some bytes ∧ BigEndian.ofBeBytes bytes =
    BigEndian.ofBeBytes serialNumber
  have hmem : (∃ r ∈ (buildCrl parseMillis (revokeAll .empty calls)).1.revoked,
      BigEndian.ofBeBytes r.1 = BigEndian.ofBeBytes serialNumber) ↔
      ∃ e ∈ revokedList (revokeAll .empty calls), ∃ bytes, hexToBytes e.serial = some bytes ∧
        BigEndian.ofBeBytes bytes = BigEndian.ofBeBytes serialNumber := by
    simp only [buildCrl, List.mem_filterMap, Option.map_eq_some_iff]
    constructor
    · rintro ⟨-, ⟨e, he, bytes, hbytes, rfl⟩, hnum⟩
      exact ⟨e, he, bytes, hbytes, hnum⟩
    · rintro ⟨e, he, bytes, hbytes, hnum⟩
      exact ⟨_, ⟨e, he, bytes, hbytes, rfl⟩, hnum⟩
  rw [hmem, hiff]
  simp only [hexToBytes_iff, digits_normalizeSerial, number_normalizeSerial, ne_eq,
    normalizeSerial_eq_empty, ← String.length_toList, normalizeSerial_length]
  constructor
  · rintro ⟨call, hcall, hne, ⟨-, heven⟩, hnum⟩
    exact ⟨call, hcall, hne, heven, hnum⟩
  · rintro ⟨call, hcall, hne, heven, hnum⟩
    exact ⟨call, hcall, hne, ⟨hne, heven⟩, hnum⟩

/-- The list and the responder agree about a certificate unless its serial was revoked in an odd
number of digits only. -/
theorem crl_agrees_iff (parseMillis : String → Option ℤ) (calls : List (String × String))
    (serialNumber : Bytes) (before after : List Bytes) :
    ((∃ r ∈ (buildCrl parseMillis (revokeAll .empty calls)).1.revoked,
          BigEndian.ofBeBytes r.1 = BigEndian.ofBeBytes serialNumber) ↔
        ∃ t, (serialNumber, .revoked t) ∈
          ocspRespond parseMillis (revokeAll .empty calls) (before ++ serialNumber :: after)) ↔
      ((∃ call ∈ calls, (normalizeSerial call.2).length % 2 = 1 ∧
        number call.2 = BigEndian.ofBeBytes serialNumber) →
        ∃ call ∈ calls, normalizeSerial call.2 ≠ "" ∧ (normalizeSerial call.2).length % 2 = 0 ∧
          number call.2 = BigEndian.ofBeBytes serialNumber) := by
  rw [listed_iff, reported_iff]
  constructor
  · rintro hiff ⟨call, hcall, hodd, hnum⟩
    refine hiff.mpr ⟨call, hcall, ?_, hnum⟩
    rintro hempty
    rw [hempty] at hodd
    exact absurd hodd (by decide)
  · intro h
    constructor
    · rintro ⟨call, hcall, hne, -, hnum⟩
      exact ⟨call, hcall, hne, hnum⟩
    · rintro ⟨call, hcall, hne, hnum⟩
      rcases Nat.mod_two_eq_zero_or_one (normalizeSerial call.2).length with heven | hodd
      · exact ⟨call, hcall, hne, heven, hnum⟩
      · exact h ⟨call, hcall, hodd, hnum⟩

/-- Revoked as "ABC", the certificate with the serial 0ABC is not in the list. -/
theorem crl_disagrees :
    ¬ ∀ (parseMillis : String → Option ℤ) (calls : List (String × String)) (serialNumber : Bytes),
      (∃ r ∈ (buildCrl parseMillis (revokeAll .empty calls)).1.revoked,
          BigEndian.ofBeBytes r.1 = BigEndian.ofBeBytes serialNumber) ↔
        ∃ t, (serialNumber, .revoked t) ∈ ocspRespond parseMillis (revokeAll .empty calls)
        [serialNumber] := by
  intro h
  have hreported : ∃ t, ([0x0A, 0xBC], .revoked t) ∈
      ocspRespond (fun _ => none) (revokeAll .empty [("2026-01-01", "ABC")]) [[0x0A, 0xBC]] := by
    apply (@reported_iff _ _ _ [] []).mpr
    exact ⟨_, List.mem_singleton_self _, by decide +kernel, by decide +kernel⟩
  obtain ⟨call, hcall, -, heven, -⟩ := listed_iff.mp ((h _ _ _).mpr hreported)
  obtain rfl := List.mem_singleton.mp hcall
  exact absurd heven (by decide +kernel)

end PkiState

end PesitWizard.Node
