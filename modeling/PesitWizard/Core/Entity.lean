import PesitWizard.Core.Frame

/-! Entities in both directions: what a builder puts into one is what splitting and decoding take out of
it, and what splits at all is a concatenation of FPDUs of the lengths they declare. -/

namespace PesitWizard.Core

open Library.BigEndian Library.Scan

namespace Frame

def decodeEntity (entity : Bytes) (crc : Bool) : Except DecodeError (List Fpdu) := do
  let slices ← splitEntity entity crc
  slices.mapM Fpdu.decode

lemma mapM_decode {fs : List Fpdu} (h : ∀ f ∈ fs, Sound f) :
    (fs.map fun f => f.header ++ f.body).mapM Fpdu.decode = .ok fs := by
  induction fs with
  | nil => rfl
  | cons f fs ih =>
    rw [List.forall_mem_cons] at h
    rw [List.map_cons, List.mapM_cons, Fpdu.decode_encoded h.1.1 h.1.2, ih h.2]
    rfl

lemma decodeEntity_images (crc : Bool) {fs : List Fpdu} (h : ∀ f ∈ fs, Sound f) :
    decodeEntity (fs.flatMap (image crc)) crc = .ok fs := by
  rw [decodeEntity, splitEntity_images crc fun f hf => (h f hf).2]
  exact mapM_decode h

end Frame

namespace EntityBuilder

open PesitWizard.Core.Frame

/-- One use of the builder: the FPDU is pushed when it fits. The FPDUs pushed so far
are kept beside it. -/
def offer (s : EntityBuilder × List Fpdu) (f : Fpdu) : EntityBuilder × List Fpdu :=
  if s.1.fits f.encodedLen then
    match s.1.push f with
    | .error _ => s
    | .ok b => (b, s.2 ++ [f])
  else s

def offerAll (maxLen : ℕ) (crc : Bool) (fs : List Fpdu) : EntityBuilder × List Fpdu :=
  fs.foldl offer (new maxLen crc, [])

structure Holds (maxLen : ℕ) (crc : Bool) (s : EntityBuilder × List Fpdu) : Prop where
  builder : s.1 = ⟨s.2.flatMap (image crc), maxLen, crc, s.2.length⟩
  bound : (s.2.flatMap (image crc)).length ≤ maxLen
  sound : ∀ f ∈ s.2, Sound f

lemma image_cost (b : EntityBuilder) (f : Fpdu) : (image b.crc f).length = b.cost f.encodedLen := by
  rw [image_length, cost]
  split <;> rfl

lemma Holds.offer {maxLen : ℕ} {crc : Bool} {s : EntityBuilder × List Fpdu}
    (h : Holds maxLen crc s) {f : Fpdu} (hwf : f.WellFormed) : Holds maxLen crc (offer s f) := by
  simp only [EntityBuilder.offer]
  split
  · rename_i hfits
    split
    · exact h
    · rename_i b hb
      obtain ⟨henc, rfl⟩ := push_inv hb
      have hsound : Sound f := ⟨hwf, henc.1⟩
      simp only [fits, h.builder, Bool.if_false_left, Bool.and_eq_true, decide_eq_true_eq] at hfits
      have hcost := image_cost s.1 f
      rw [h.builder] at hcost
      refine ⟨?_, ?_, ?_⟩
      · simp [h.builder]
      · rw [List.flatMap_append, List.length_append, List.flatMap_singleton, hcost]
        exact hfits.2
      · intro g hg
        rcases List.mem_append.mp hg with hg | hg
        · exact h.sound g hg
        · exact List.mem_singleton.mp hg ▸ hsound
  · exact h

lemma offerAll_holds (maxLen : ℕ) (crc : Bool) {fs : List Fpdu} (hwf : ∀ f ∈ fs, f.WellFormed) :
    Holds maxLen crc (offerAll maxLen crc fs) := by
  induction fs using List.reverseRecOn with
  | nil => exact ⟨rfl, Nat.zero_le _, fun _ h => absurd h List.not_mem_nil⟩
  | append_singleton fs f ih =>
    rw [offerAll, List.foldl_append]
    exact (ih fun g hg => hwf g (List.mem_append_left _ hg)).offer (hwf f (by simp))

end EntityBuilder

namespace Frame

/-- A slice of an entity and the check bytes after it. -/
structure Checked (crc : Bool) (slice check : Bytes) : Prop where
  header : headerLen ≤ slice.length
  field : slice.length = Fpdu.lengthField slice
  length : check.length = if crc then Crc.crcLen else 0
  verifies : crc = true → Crc.verify (slice ++ check) = true

lemma readFpdu_eq {crc : Bool} {total : ℕ} {rest : Bytes} (h : headerLen ≤ rest.length) :
    readFpdu crc total rest = cutFpdu crc total (Fpdu.lengthField rest) rest := by
  match rest, h with
  | _ :: _ :: _ :: _ :: _ :: _ :: _, _ => rfl

lemma readFpdu_short {crc : Bool} {total : ℕ} {rest : Bytes} (h : rest.length < headerLen) :
    readFpdu crc total rest =
    .error (.protocol (toString rest.length ++ " trailing bytes cannot form a FPDU")) := by
  match rest, h with
  | [], _ => rfl
  | [_], _ => rfl
  | [_, _], _ => rfl
  | [_, _, _], _ => rfl
  | [_, _, _, _], _ => rfl
  | [_, _, _, _, _], _ => rfl

lemma lengthField_take {n : ℕ} (hn : 2 ≤ n) (bytes : Bytes) :
    Fpdu.lengthField (bytes.take n) = Fpdu.lengthField bytes := by
  match bytes, n, hn with
  | [], _, _ => simp
  | [_], n + 1, _ => simp
  | _ :: _ :: _, n + 2, _ => rfl

lemma readFpdu_ok {crc : Bool} {total : ℕ} {xs slice rest : Bytes}
    (h : readFpdu crc total xs = .ok (slice, rest)) :
    ∃ check, xs = slice ++ check ++ rest ∧ Checked crc slice check := by
  have hxs : headerLen ≤ xs.length := by
    by_contra hshort
    rw [readFpdu_short (by omega)] at h
    cases h
  rw [readFpdu_eq hxs, cutFpdu] at h
  generalize hn : Fpdu.lengthField xs = n at h
  split at h
  · cases h
  · rename_i hlen
    have hfield : Fpdu.lengthField (xs.take n) = n := by
      rw [lengthField_take (by simp only [headerLen] at hlen; omega), hn]
    have hslice : (xs.take n).length = n := List.length_take_of_le (by omega)
    split at h
    · rename_i hcrc
      split at h
      · cases h
      · rename_i hroom
        split at h
        · rename_i hverify
          obtain ⟨rfl, rfl⟩ := Prod.mk.inj (Except.ok.inj h)
          have hsplit : xs.take (n + Crc.crcLen) = xs.take n ++ (xs.drop n).take Crc.crcLen :=
            List.take_add
          refine ⟨(xs.drop n).take Crc.crcLen, ?_, ?_⟩
          · rw [← hsplit, List.take_append_drop]
          · refine ⟨by omega, by rw [hfield, hslice], ?_, fun _ => hsplit ▸ hverify⟩
            rw [hcrc, if_pos rfl, List.length_take, List.length_drop]
            omega
        · cases h
    · rename_i hcrc
      obtain ⟨rfl, rfl⟩ := Prod.mk.inj (Except.ok.inj h)
      refine ⟨[], by rw [List.append_nil, List.take_append_drop], ?_⟩
      exact ⟨by omega, by rw [hfield, hslice], by rw [if_neg hcrc]; rfl, fun h => absurd h hcrc⟩

lemma chunks_checked {crc : Bool} {total : ℕ} {xs : Bytes} {slices : List Bytes}
    (h : Chunks (readFpdu crc total) xs slices) :
    ∃ checks, List.Forall₂ (Checked crc) slices checks ∧
    xs = (List.zipWith (· ++ ·) slices checks).flatten := by
  induction h with
  | nil => exact ⟨[], .nil, rfl⟩
  | cons _ hr _ ih =>
    obtain ⟨checks, hchecks, hrest⟩ := ih
    obtain ⟨check, hxs, hc⟩ := readFpdu_ok hr
    refine ⟨check :: checks, .cons hc hchecks, ?_⟩
    rw [List.zipWith_cons_cons, List.flatten_cons, ← hrest, hxs]

lemma splitEntity_chunks {crc : Bool} {entity : Bytes} {slices : List Bytes}
    (h : splitEntity entity crc = .ok slices) : Chunks (readFpdu crc entity.length) entity slices := by
  obtain ⟨bs, hb, hf⟩ := scanAll_ok (readFpdu_consumes crc entity.length) h
  rw [foldlM_snoc, List.nil_append] at hf
  exact Except.ok.inj hf ▸ hb

theorem entity_inverse :
    (∀ (maxLen : ℕ) (crc : Bool) (fs : List Fpdu), (∀ f ∈ fs, f.WellFormed) →
      (EntityBuilder.offerAll maxLen crc fs).1.buf.length ≤ maxLen ∧
      decodeEntity (EntityBuilder.offerAll maxLen crc fs).1.buf crc =
      .ok (EntityBuilder.offerAll maxLen crc fs).2 ∧
      (EntityBuilder.offerAll maxLen crc fs).1.take = .new maxLen crc) ∧
    ∀ (crc : Bool) (entity : Bytes) (slices : List Bytes), splitEntity entity crc = .ok slices →
      ∃ checks, List.Forall₂ (Checked crc) slices checks ∧
        entity = (List.zipWith (· ++ ·) slices checks).flatten := by
  constructor
  · intro maxLen crc fs hwf
    obtain ⟨hb, hbound, hsound⟩ := EntityBuilder.offerAll_holds maxLen crc hwf
    rw [hb]
    exact ⟨hbound, decodeEntity_images crc hsound, rfl⟩
  · intro crc entity slices h
    exact chunks_checked (splitEntity_chunks h)

def sampleDtf : Fpdu := ⟨.dtf, 4, 0, [], [1, 2, 3]⟩

def sampleDtfEnd : Fpdu := ⟨.dtfEnd, 4, 0, [.pi .diag [0, 0, 0]], []⟩

def checkedSlices : List Bytes := [[0, 9, 0, 0, 4, 0, 1, 2, 3], [0, 11, 192, 4, 4, 0, 2, 3, 0, 0, 0]]

def checkedEntity : Bytes :=
  [0, 9, 0, 0, 4, 0, 1, 2, 3, 134, 102, 0, 11, 192, 4, 4, 0, 2, 3, 0, 0, 0, 159, 135]

/-- What does not fit is left out, and with check bytes an entity is built of one FPDU but may be
read with several. -/
theorem entity_inverse_mixed :
    decodeEntity
    (EntityBuilder.offerAll 40 false [sampleDtf, Fpdu.sampleCreate, sampleDtfEnd]).1.buf false =
      .ok [sampleDtf, sampleDtfEnd] ∧
    decodeEntity (EntityBuilder.offerAll 40 true [sampleDtf, sampleDtfEnd]).1.buf true =
    .ok [sampleDtf] ∧
    ∃ checks, List.Forall₂ (Checked true) checkedSlices checks ∧
      checkedEntity = (List.zipWith (· ++ ·) checkedSlices checks).flatten := by
  have hwf : ∀ f ∈ [sampleDtf, Fpdu.sampleCreate, sampleDtfEnd], f.WellFormed := by decide
  refine ⟨?_, ?_, ?_⟩
  · have hpushed : (EntityBuilder.offerAll 40 false [sampleDtf, Fpdu.sampleCreate, sampleDtfEnd]).2 =
        [sampleDtf, sampleDtfEnd] := by decide +kernel
    have h := entity_inverse.1 40 false _ hwf
    rw [hpushed] at h
    exact h.2.1
  · have hpushed :
        (EntityBuilder.offerAll 40 true [sampleDtf, sampleDtfEnd]).2 = [sampleDtf] := by decide +kernel
    have h := entity_inverse.1 40 true [sampleDtf, sampleDtfEnd] (by decide)
    rw [hpushed] at h
    exact h.2.1
  · exact entity_inverse.2 true checkedEntity checkedSlices (by decide +kernel)

end Frame

end PesitWizard.Core
