import PesitWizard.Core.Crc
import PesitWizard.Core.RoundTrip

/-! Data entities: concatenation of FPDUs, check bytes, and splitting a received
entity into its FPDUs. -/

namespace PesitWizard.Core

open Library.BigEndian Library.Scan

namespace Frame

def crcError (detail : String) : DecodeError := ⟨.transmissionError, detail⟩

def cutFpdu (crc : Bool) (total len : ℕ) (rest : Bytes) : Except DecodeError (Bytes × Bytes) :=
  if len < headerLen ∨ rest.length < len then
    .error (.protocol (s!"invalid FPDU length {len} at offset " ++ toString (total - rest.length) ++
      s!" of a {total} byte entity"))
  else if crc then
    if rest.length < len + Crc.crcLen then .error (crcError "missing CRC after FPDU")
    else if Crc.verify (rest.take (len + Crc.crcLen)) then
      .ok (rest.take len, rest.drop (len + Crc.crcLen))
    else .error (crcError "CRC error")
  else .ok (rest.take len, rest.drop len)

def readFpdu (crc : Bool) (total : ℕ) (rest : Bytes) : Except DecodeError (Bytes × Bytes) :=
  match rest with
  | b0 :: b1 :: _ :: _ :: _ :: _ :: _ => cutFpdu crc total (ofBe16 b0 b1) rest
  | _ => .error (.protocol (toString rest.length ++ " trailing bytes cannot form a FPDU"))

def splitEntity (entity : Bytes) (crc : Bool) : Except DecodeError (List Bytes) :=
  scanAll (readFpdu crc entity.length) (fun out fpdu => .ok (out ++ [fpdu])) entity []

def singleEntity (fpdu : Fpdu) (crc : Bool) : Except EncodeError Bytes :=
  match fpdu.encode with
  | .error e => .error e
  | .ok v => .ok (if crc then v ++ Crc.compute v else v)

end Frame

structure EntityBuilder where
  buf : Bytes
  maxLen : ℕ
  crc : Bool
  count : ℕ

namespace EntityBuilder

def new (maxLen : ℕ) (crc : Bool) : EntityBuilder := ⟨[], maxLen, crc, 0⟩

def cost (b : EntityBuilder) (fpduLen : ℕ) : ℕ := if b.crc then fpduLen + Crc.crcLen else fpduLen

def fits (b : EntityBuilder) (fpduLen : ℕ) : Bool :=
  if b.crc && 0 < b.count then false else b.buf.length + b.cost fpduLen ≤ b.maxLen

def remaining (b : EntityBuilder) : ℕ :=
  if b.crc && 0 < b.count then 0 else b.maxLen - (b.buf.length + if b.crc then Crc.crcLen else 0)

def push (b : EntityBuilder) (fpdu : Fpdu) : Except EncodeError EntityBuilder :=
  match fpdu.encodeInto b.buf with
  | .error e => .error e
  | .ok buf =>
    let buf := if b.crc then buf ++ Crc.compute (buf.drop b.buf.length) else buf
    .ok { b with buf := buf, count := b.count + 1 }

def take (b : EntityBuilder) : EntityBuilder := { b with buf := [], count := 0 }

end EntityBuilder

namespace Frame

def image (crc : Bool) (f : Fpdu) : Bytes :=
  let v := f.header ++ f.body
  if crc then v ++ Crc.compute v else v

/-- The FPDUs that survive encoding and decoding. -/
def Sound (f : Fpdu) : Prop := f.WellFormed ∧ f.encodedLen ≤ 65535

lemma image_length (crc : Bool) (f : Fpdu) :
    (image crc f).length = f.encodedLen + if crc then Crc.crcLen else 0 := by
  cases crc <;> simp [image, Fpdu.encodedLen_eq f, Crc.compute_length]
  omega

lemma headerLen_le_encodedLen (f : Fpdu) : headerLen ≤ f.encodedLen := by
  simp only [Fpdu.encodedLen]
  split <;> omega

lemma image_ne_nil (crc : Bool) (f : Fpdu) : image crc f ≠ [] := by
  have hlen := image_length crc f
  have hge := headerLen_le_encodedLen f
  intro h
  rw [h, List.length_nil] at hlen
  simp only [headerLen] at hge
  omega

lemma cutFpdu_ok {crc : Bool} {total : ℕ} {v : Bytes} (hv : headerLen ≤ v.length) (rest : Bytes) :
    cutFpdu crc total v.length ((if crc then v ++ Crc.compute v else v) ++ rest) = .ok (v, rest) := by
  cases crc with
  | false =>
    simp only [Bool.false_eq_true, if_false, cutFpdu, List.length_append]
    rw [if_neg (by omega), List.take_left, List.drop_left]
  | true =>
    have hlen : (v ++ Crc.compute v).length = v.length + Crc.crcLen := by
      rw [List.length_append, Crc.compute_length]
    have htake : (v ++ Crc.compute v ++ rest).take (v.length + Crc.crcLen) = v ++ Crc.compute v :=
      List.take_left' hlen
    have hdrop : (v ++ Crc.compute v ++ rest).drop (v.length + Crc.crcLen) = rest := List.drop_left' hlen
    have htake' : (v ++ Crc.compute v ++ rest).take v.length = v := by
      rw [List.append_assoc, List.take_left]
    simp only [if_true, cutFpdu, htake, hdrop, htake', Crc.verify_compute]
    rw [List.length_append, hlen, if_neg (by omega), if_neg (by omega)]

lemma readFpdu_image {crc : Bool} {total : ℕ} {f : Fpdu} (hlen : f.encodedLen ≤ 65535) (rest : Bytes) :
    readFpdu crc total (image crc f ++ rest) = .ok (f.header ++ f.body, rest) := by
  have hbe : ofBe16 (UInt8.ofNat (f.encodedLen / 256))
      (UInt8.ofNat f.encodedLen) = (f.header ++ f.body).length := by
    rw [ofBe16_be16 (by omega), Fpdu.encodedLen_eq]
  have hge : headerLen ≤ (f.header ++ f.body).length := Fpdu.encodedLen_eq f ▸ headerLen_le_encodedLen f
  have hhead :
      ∃ tail, image crc f ++ rest = UInt8.ofNat (f.encodedLen / 256) :: UInt8.ofNat f.encodedLen ::
      f.kind.phase :: f.kind.typeCode :: f.idDst :: f.idSrc :: tail := by
    cases crc
    · exact ⟨f.body ++ rest, by simp [image, Fpdu.header, be16]⟩
    · exact ⟨f.body ++ Crc.compute (f.header ++ f.body) ++ rest, by simp [image, Fpdu.header, be16]⟩
  have hread : readFpdu crc total (image crc f ++ rest) =
      cutFpdu crc total (f.header ++ f.body).length (image crc f ++ rest) := by
    obtain ⟨tail, ht⟩ := hhead
    rw [ht]
    simp only [readFpdu, hbe]
  rw [hread]
  exact cutFpdu_ok hge rest

lemma readFpdu_consumes (crc : Bool) (total : ℕ) : Consumes (readFpdu crc total) := by
  intro xs b rest h
  simp only [readFpdu] at h
  split at h
  · rename_i b0 b1 _ _ _ _ _
    simp only [cutFpdu, headerLen] at h
    split at h
    · cases h
    · rename_i hlen
      split at h
      · split at h
        · cases h
        · split at h
          · obtain ⟨-, rfl⟩ := Prod.mk.inj (Except.ok.inj h)
            rw [List.length_drop]
            omega
          · cases h
      · obtain ⟨-, rfl⟩ := Prod.mk.inj (Except.ok.inj h)
        rw [List.length_drop]
        omega
  · cases h

lemma foldlM_snoc (out vs : List Bytes) :
    vs.foldlM (fun out fpdu => Except.ok (ε := DecodeError) (out ++ [fpdu])) out = .ok (out ++ vs) := by
  induction vs generalizing out with
  | nil => simp [pure, Except.pure]
  | cons v vs ih =>
    rw [foldlM_cons_ok]
    exact ⟨_, rfl, by rw [ih]; simp⟩

lemma splitEntity_images (crc : Bool) {fs : List Fpdu} (hlen : ∀ f ∈ fs, f.encodedLen ≤ 65535) :
    splitEntity (fs.flatMap (image crc)) crc = .ok (fs.map (fun f => f.header ++ f.body)) := by
  have hchunks :
      ∀ total, Chunks (readFpdu crc total) (fs.flatMap (image crc))
      (fs.map (fun f => f.header ++ f.body)) := by
    intro total
    induction fs with
    | nil => exact .nil
    | cons f fs ih =>
      rw [List.forall_mem_cons] at hlen
      rw [List.flatMap_cons, List.map_cons]
      exact .cons (by simp [image_ne_nil]) (readFpdu_image hlen.1 _) (ih hlen.2)
  rw [splitEntity, scanAll_of_chunks (readFpdu_consumes crc _) (hchunks _), foldlM_snoc, List.nil_append]

lemma singleEntity_iff {f : Fpdu} {crc : Bool} {e : Bytes} :
    singleEntity f crc = .ok e ↔ f.Encodable ∧ e = image crc f := by
  constructor
  · intro h
    simp only [singleEntity] at h
    split at h
    · cases h
    · rename_i v hv
      obtain ⟨henc, rfl⟩ := Fpdu.encodeInto_iff.mp hv
      exact ⟨henc, (Except.ok.inj h).symm⟩
  · rintro ⟨henc, rfl⟩
    have he : f.encode = .ok (f.header ++ f.body) := Fpdu.encodeInto_encodable henc []
    simp only [singleEntity, he]
    rfl

lemma singleEntity_ok {f : Fpdu} (h : Sound f) (crc : Bool) :
    singleEntity f crc = .ok (image crc f) := by
  have he : f.encode = .ok (f.header ++ f.body) := by
    simpa [Fpdu.encode] using Fpdu.encodeInto_ok h.1 h.2 []
  cases crc <;> simp [singleEntity, he, image]

end Frame

namespace EntityBuilder

open PesitWizard.Core.Frame

lemma push_encoded {f : Fpdu} (h : ∀ out, f.encodeInto out = .ok (out ++ (f.header ++ f.body)))
    (b : EntityBuilder) :
    b.push f = .ok { b with buf := b.buf ++ image b.crc f, count := b.count + 1 } := by
  simp only [push, h, List.drop_left]
  cases b.crc <;> simp [image]

lemma push_ok {f : Fpdu} (h : Sound f) (b : EntityBuilder) :
    b.push f = .ok { b with buf := b.buf ++ image b.crc f, count := b.count + 1 } :=
  push_encoded (Fpdu.encodeInto_ok h.1 h.2) b

lemma push_inv {f : Fpdu} {b b' : EntityBuilder} (h : b.push f = .ok b') :
    f.Encodable ∧ b' = { b with buf := b.buf ++ image b.crc f, count := b.count + 1 } := by
  have henc : f.Encodable := by
    simp only [push] at h
    split at h
    · cases h
    · rename_i he
      exact (Fpdu.encodeInto_iff.mp he).1
  rw [push_encoded (Fpdu.encodeInto_encodable henc)] at h
  exact ⟨henc, (Except.ok.inj h).symm⟩

end EntityBuilder

end PesitWizard.Core
