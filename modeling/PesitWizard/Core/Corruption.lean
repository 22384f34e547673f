import PesitWizard.Core.Entity
import PesitWizard.Core.Undetected

/-! One byte of an entity of one FPDU and its check bytes is changed on the way. Splitting fails wherever
the change is; which diagnostic it fails with depends on whether the length field is where the change is,
since the length is read before the check bytes are found. -/

namespace PesitWizard.Core

open Library.BigEndian Library.Scan Library.Fletcher

namespace Crc

/-- A change of one byte to another value, other than between 0 and 255. -/
def Altered (v : Bytes) (i : ℕ) (b : UInt8) : Prop :=
  ∃ hi : i < v.length, b ≠ v[i] ∧ ¬ (v[i] = 0 ∧ b = 255 ∨ v[i] = 255 ∧ b = 0)

instance (v : Bytes) (i : ℕ) (b : UInt8) : Decidable (Altered v i b) :=
  inferInstanceAs (Decidable (∃ _ : i < v.length, _))

lemma verify_altered {v : Bytes} (hv : verify v = true) {i : ℕ} {b : UInt8} (h : Altered v i b) :
    verify (v.set i b) = false := by
  obtain ⟨hi, hne, hx⟩ := h
  rw [← Bool.not_eq_true, verify_set hv hi, eq_comm, residue_eq_iff]
  rintro (heq | h)
  · exact hne heq.symm
  · exact hx h

/-- Both sums are back at zero after a message that verifies, so what follows it is
checked on its own. -/
lemma verify_append {u v : Bytes} (hu : verify u = true) (hv : verify v = true) :
    verify (u ++ v) = true := by
  have hlen := crcLen_le_of_verify hu
  obtain ⟨hu1, hu2⟩ := (verify_iff hlen).mp hu
  obtain ⟨hv1, hv2⟩ := (verify_iff (crcLen_le_of_verify hv)).mp hv
  have hr : residues (u ++ v) = residues u ++ residues v := List.map_append
  rw [verify_iff (by rw [List.length_append]; omega), hr, List.sum_append, weighted_append,
    hu1, hu2, hv1, hv2]
  simp

end Crc

namespace Frame

lemma lengthField_image (crc : Bool) {f : Fpdu} (hlen : f.encodedLen ≤ 65535) :
    Fpdu.lengthField (image crc f) = f.encodedLen := by
  have hbe : ofBe16 (UInt8.ofNat (f.encodedLen / 256)) (UInt8.ofNat f.encodedLen) = f.encodedLen :=
    ofBe16_be16 (by omega)
  cases crc <;> exact hbe

lemma lengthField_set (v : Bytes) {i : ℕ} (hi : 2 ≤ i) (b : UInt8) :
    Fpdu.lengthField (v.set i b) = Fpdu.lengthField v := by
  match v, i, hi with
  | [], _, _ => rfl
  | [_], i + 2, _ => rfl
  | _ :: _ :: _, i + 2, _ => rfl

lemma splitEntity_verifies {e : Bytes} {slices : List Bytes}
    (h : splitEntity e true = .ok slices) (hne : e ≠ []) :
    Crc.verify e = true := by
  have hchunks := splitEntity_chunks h
  generalize e.length = total at hchunks
  clear h
  induction hchunks with
  | nil => exact absurd rfl hne
  | @cons xs rest slice slices _ hr _ ih =>
    obtain ⟨check, rfl, hc⟩ := readFpdu_ok hr
    cases rest with
    | nil =>
      rw [List.append_nil]
      exact hc.verifies rfl
    | cons x rest => exact Crc.verify_append (hc.verifies rfl) (ih (List.cons_ne_nil x rest))

lemma cutFpdu_invalid (crc : Bool) (total : ℕ) {n : ℕ} {rest : Bytes}
    (h : n < headerLen ∨ rest.length < n) :
    ∃ err, cutFpdu crc total n rest = .error err ∧ err.diag = .remoteProtocolError := by
  rw [cutFpdu, if_pos h]
  exact ⟨_, rfl, rfl⟩

lemma cutFpdu_unverified (total : ℕ) {n : ℕ} {rest : Bytes} (hn : headerLen ≤ n) (hle : n ≤ rest.length)
    (h : Crc.verify (rest.take (n + Crc.crcLen)) = false) :
    ∃ err, cutFpdu true total n rest = .error err ∧ err.diag = .transmissionError := by
  rw [cutFpdu, if_neg (by omega), if_pos rfl]
  split
  · exact ⟨_, rfl, rfl⟩
  · rw [h]
    exact ⟨_, rfl, rfl⟩

lemma cutFpdu_verified {total n : ℕ} {rest : Bytes} (hn : headerLen ≤ n)
    (hle : n + Crc.crcLen ≤ rest.length) (h : Crc.verify (rest.take (n + Crc.crcLen)) = true) :
    cutFpdu true total n rest = .ok (rest.take n, rest.drop (n + Crc.crcLen)) := by
  rw [cutFpdu, if_neg (by omega), if_pos rfl, if_neg (by omega), h, if_pos rfl]

/-- The offset an error message names is the only thing that depends on where in the
entity the reader is. -/
lemma readFpdu_total (crc : Bool) (total total' : ℕ) (xs : Bytes) :
    (∃ p, readFpdu crc total xs = .ok p ∧ readFpdu crc total' xs = .ok p) ∨
    ∃ err err', readFpdu crc total xs = .error err ∧ readFpdu crc total' xs = .error err' ∧
    err.diag = err'.diag := by
  by_cases hxs : xs.length < headerLen
  · exact .inr ⟨_, _, readFpdu_short hxs, readFpdu_short hxs, rfl⟩
  · rw [readFpdu_eq (by omega), readFpdu_eq (by omega), cutFpdu, cutFpdu]
    split
    · exact .inr ⟨_, _, rfl, rfl, rfl⟩
    · split
      · split
        · exact .inr ⟨_, _, rfl, rfl, rfl⟩
        · split
          · exact .inl ⟨_, rfl, rfl⟩
          · exact .inr ⟨_, _, rfl, rfl, rfl⟩
      · exact .inl ⟨_, rfl, rfl⟩

lemma scanAll_total {crc : Bool} {total : ℕ} (total' : ℕ) {xs : Bytes} {out : List Bytes}
    (out' : List Bytes) {err : DecodeError}
    (h : scanAll (readFpdu crc total) (fun out fpdu => .ok (out ++ [fpdu])) xs out = .error err) :
    ∃ err', scanAll (readFpdu crc total') (fun out fpdu => .ok (out ++ [fpdu])) xs out' = .error err' ∧
      err.diag = err'.diag := by
  induction hn : xs.length using Nat.strongRecOn generalizing xs out out' with
  | _ n ih =>
    by_cases hne : xs = []
    · subst hne
      cases h
    · rcases readFpdu_total crc total total' xs with ⟨⟨slice, rest⟩, hr, hr'⟩ | ⟨e, e', he, he', hd⟩
      · rw [scanAll_read (readFpdu_consumes crc total) hne hr] at h
        rw [scanAll_read (readFpdu_consumes crc total') hne hr']
        exact ih rest.length (hn ▸ readFpdu_consumes crc total _ _ _ hr) _ h rfl
      · rw [scanAll_error hne he] at h
        rw [scanAll_error hne he']
        exact ⟨e', rfl, Except.error.inj h ▸ hd⟩

section Altered

variable {f : Fpdu} {e : Bytes} {i : ℕ} {b : UInt8}

lemma singleEntity_length (he : singleEntity f true = .ok e) :
    f.Encodable ∧ e.length = f.encodedLen + Crc.crcLen ∧ Fpdu.lengthField e = f.encodedLen ∧
    Crc.verify e = true := by
  obtain ⟨henc, rfl⟩ := singleEntity_iff.mp he
  exact ⟨henc, image_length true f, lengthField_image true henc.1, Crc.verify_compute _⟩

lemma splitEntity_first (he : singleEntity f true = .ok e) {err : DecodeError}
    (h : cutFpdu true (e.set i b).length (Fpdu.lengthField (e.set i b)) (e.set i b) = .error err) :
    splitEntity (e.set i b) true = .error err := by
  obtain ⟨-, hlen, -, -⟩ := singleEntity_length he
  have hge := headerLen_le_encodedLen f
  have hset : (e.set i b).length = e.length := List.length_set
  have hsix : headerLen = 6 := rfl
  have hne : e.set i b ≠ [] := List.ne_nil_of_length_pos (by omega)
  exact scanAll_error hne (by rw [readFpdu_eq (by omega), h]) _

lemma splitEntity_altered (he : singleEntity f true = .ok e) (h : Crc.Altered e i b) :
    ∃ err, splitEntity (e.set i b) true = .error err := by
  obtain ⟨-, -, -, hv⟩ := singleEntity_length he
  cases hs : splitEntity (e.set i b) true with
  | error err => exact ⟨err, rfl⟩
  | ok slices =>
    obtain ⟨hi, -⟩ := id h
    have hne : e.set i b ≠ [] := List.ne_nil_of_length_pos (by rw [List.length_set]; omega)
    have hver := splitEntity_verifies hs hne
    rw [Crc.verify_altered hv h] at hver
    cases hver

/-- Behind the length field the change leaves the FPDU where it was, and its check
bytes do not verify. -/
lemma splitEntity_altered_body (he : singleEntity f true = .ok e) (h : Crc.Altered e i b) (hi : 2 ≤ i) :
    ∃ err, splitEntity (e.set i b) true = .error err ∧ err.diag = .transmissionError := by
  obtain ⟨-, hlen, hfield, hv⟩ := singleEntity_length he
  have hge := headerLen_le_encodedLen f
  have hset : (e.set i b).length = f.encodedLen + Crc.crcLen := by rw [List.length_set, hlen]
  have hfield' : Fpdu.lengthField (e.set i b) = f.encodedLen := by rw [lengthField_set e hi b, hfield]
  have hle : f.encodedLen ≤ (e.set i b).length := by omega
  obtain ⟨err, herr, hd⟩ := cutFpdu_unverified (e.set i b).length hge hle
    (by rw [← hset, List.take_length, Crc.verify_altered hv h])
  exact ⟨err, splitEntity_first he (hfield'.symm ▸ herr), hd⟩

/-- With a valid length in the changed field, what follows the FPDU it cuts off is split when the check
bytes found there verify by accident. -/
lemma splitEntity_altered_length (he : singleEntity f true = .ok e) (h : Crc.Altered e i b)
    (hn : headerLen ≤ Fpdu.lengthField (e.set i b)) (hle : Fpdu.lengthField (e.set i b) ≤ e.length)
    (hv : Crc.verify ((e.set i b).take (Fpdu.lengthField (e.set i b) + Crc.crcLen)) = true)
    {err : DecodeError} (herr : splitEntity (e.set i b) true = .error err) :
    ∃ err', splitEntity ((e.set i b).drop (Fpdu.lengthField (e.set i b) + Crc.crcLen))
    true = .error err' ∧
      err.diag = err'.diag := by
  obtain ⟨-, hlen, -, hve⟩ := singleEntity_length he
  have hset : (e.set i b).length = e.length := List.length_set
  have hroom : Fpdu.lengthField (e.set i b) + Crc.crcLen ≤ (e.set i b).length := by
    by_contra hshort
    rw [List.take_of_length_le (by omega), Crc.verify_altered hve h] at hv
    cases hv
  have hsix : headerLen = 6 := rfl
  have hne : e.set i b ≠ [] := List.ne_nil_of_length_pos (by omega)
  have hread : readFpdu true (e.set i b).length (e.set i b) = .ok _ :=
    (readFpdu_eq (by omega)).trans (cutFpdu_verified hn hroom hv)
  rw [splitEntity, scanAll_read (readFpdu_consumes true _) hne hread] at herr
  exact scanAll_total _ _ herr

theorem splitEntity_corrupted (he : singleEntity f true = .ok e) (h : Crc.Altered e i b) :
    ∃ err, splitEntity (e.set i b) true = .error err ∧
      (2 ≤ i → err.diag = .transmissionError) ∧
      (i < 2 →
        (Fpdu.lengthField (e.set i b) < headerLen ∨ e.length < Fpdu.lengthField (e.set i b) →
          err.diag = .remoteProtocolError) ∧
        (headerLen ≤ Fpdu.lengthField (e.set i b) → Fpdu.lengthField (e.set i b) ≤ e.length →
          (Crc.verify ((e.set i b).take (Fpdu.lengthField (e.set i b) + Crc.crcLen)) = false →
            err.diag = .transmissionError) ∧
          (Crc.verify ((e.set i b).take (Fpdu.lengthField (e.set i b) + Crc.crcLen)) = true →
            ∃ err', splitEntity ((e.set i b).drop (Fpdu.lengthField (e.set i b) + Crc.crcLen))
            true = .error err' ∧
              err.diag = err'.diag))) := by
  have hset : (e.set i b).length = e.length := List.length_set
  obtain ⟨err, herr⟩ := splitEntity_altered he h
  have hfirst : ∀ {d}, (∃ err', splitEntity (e.set i b) true = .error err' ∧ err'.diag = d) →
      err.diag = d := by
    rintro d ⟨err', herr', hd⟩
    rw [herr] at herr'
    exact Except.error.inj herr' ▸ hd
  refine ⟨err, herr, ?_, ?_⟩
  · exact fun hi => hfirst (splitEntity_altered_body he h hi)
  · intro _
    constructor
    · intro hn
      obtain ⟨err', herr', hd⟩ := cutFpdu_invalid true (e.set i b).length (hset ▸ hn)
      exact hfirst ⟨err', splitEntity_first he herr', hd⟩
    · intro hn hle
      constructor
      · intro hv
        obtain ⟨err', herr', hd⟩ := cutFpdu_unverified (e.set i b).length hn (hset ▸ hle) hv
        exact hfirst ⟨err', splitEntity_first he herr', hd⟩
      · exact fun hv => splitEntity_altered_length he h hn hle hv herr

def ackSynFpdu : Fpdu := ⟨.ackSyn, 5, 0, [.pi .syncNumber [7]], []⟩

def ackSynEntity : Bytes := image true ackSynFpdu

lemma ackSynEntity_ok : singleEntity ackSynFpdu true = .ok ackSynEntity := by
  decide +kernel

theorem splitEntity_corrupted_ackSyn :
    ∃ err, splitEntity (ackSynEntity.set 8 9) true = .error err ∧ err.diag = .transmissionError := by
  obtain ⟨err, herr, hbody, -⟩ :=
    splitEntity_corrupted (i := 8) (b := 9) ackSynEntity_ok (by decide +kernel)
  exact ⟨err, herr, hbody (by decide)⟩

/-- With its first byte changed the entity declares more bytes than it has. -/
theorem corrupted_length_reported :
    ¬ ∀ (f : Fpdu) (e : Bytes) (i : ℕ) (b : UInt8), singleEntity f true = .ok e → Crc.Altered e i b →
      ∃ err, splitEntity (e.set i b) true = .error err ∧ err.diag = .transmissionError := by
  intro h
  obtain ⟨err, herr, hd⟩ := h ackSynFpdu ackSynEntity 0 1 ackSynEntity_ok (by decide +kernel)
  obtain ⟨err', hcut, hd'⟩ := @cutFpdu_invalid true (ackSynEntity.set 0 1).length
    (Fpdu.lengthField (ackSynEntity.set 0 1)) (ackSynEntity.set 0 1) (by decide +kernel)
  rw [splitEntity_first ackSynEntity_ok hcut] at herr
  rw [← Except.error.inj herr, hd'] at hd
  exact absurd hd (by decide)

end Altered

end Frame

end PesitWizard.Core
