import PesitWizard.Core.Entity

/-! Pushing an FPDU into a builder, with what is left in the buffer when the FPDU cannot be encoded. -/

namespace PesitWizard.Core

open Library.BigEndian

namespace Fpdu

/-- The members of a group are written to a buffer of their own, so that only whole groups
reach the output. -/
def encodeParamsMut : List Param → Bytes → Except EncodeError Unit × Bytes
  | [], out => (.ok (), out)
  | .pi pi value :: params, out =>
    if value.isEmpty then (.error (.emptyValue pi.code), out)
    else encodeParamsMut params (pushUnit out pi.code value)
  | .pgi pgi items :: params, out =>
    match encodeItems items [] with
    | .error e => (.error e, out)
    | .ok inner => encodeParamsMut params (pushUnit out pgi.code inner)

def encodeIntoMut (f : Fpdu) (out : Bytes) : Except EncodeError Unit × Bytes :=
  let total := f.encodedLen
  if maxFpduLen < total then (.error (.tooLong total), out)
  else
    let out := out ++ be16 total ++ [f.kind.phase, f.kind.typeCode, f.idDst, f.idSrc]
    if f.kind.isData then (.ok (), out ++ f.data) else encodeParamsMut f.params out

lemma encodeParamsMut_cases (params : List Param) (out : Bytes) :
    (∃ b, encodeParams params out = .ok b ∧ encodeParamsMut params out = (.ok (), b)) ∨
      ∃ e rest, encodeParams params out = .error e ∧
      encodeParamsMut params out = (.error e, out ++ rest) := by
  induction params generalizing out with
  | nil => exact .inl ⟨out, rfl, rfl⟩
  | cons p params ih =>
    have hrest (u : UInt8 × Bytes) :
        (∃ b, encodeParams params (pushUnit out u.1 u.2) = .ok b ∧
          encodeParamsMut params (pushUnit out u.1 u.2) = (.ok (), b)) ∨
        ∃ e rest, encodeParams params (pushUnit out u.1 u.2) = .error e ∧
          encodeParamsMut params (pushUnit out u.1 u.2) = (.error e, out ++ rest) := by
      rcases ih (pushUnit out u.1 u.2) with h | ⟨e, rest, he, hmut⟩
      · exact .inl h
      · refine .inr ⟨e, unitBytes u ++ rest, he, ?_⟩
        rw [hmut, pushUnit_eq, List.append_assoc]
    cases p with
    | pi q value =>
      cases hempty : value.isEmpty with
      | true =>
        rw [encodeParams, encodeParamsMut, if_pos hempty, if_pos hempty]
        exact .inr ⟨_, [], rfl, by rw [List.append_nil]⟩
      | false =>
        rw [encodeParams, encodeParamsMut, if_neg (by simp [hempty]), if_neg (by simp [hempty])]
        exact hrest (q.code, value)
    | pgi g items =>
      rw [encodeParams, encodeParamsMut]
      cases encodeItems items [] with
      | error e => exact .inr ⟨e, [], rfl, by rw [List.append_nil]⟩
      | ok inner => exact hrest (g.code, inner)

/-- An FPDU is written as a whole, or refused for its length with nothing written, or broken off
behind its header. -/
lemma encodeIntoMut_cases (f : Fpdu) (out : Bytes) :
    (∃ b, f.encodeInto out = .ok b ∧ f.encodeIntoMut out = (.ok (), b)) ∨
    (maxFpduLen < f.encodedLen ∧ f.encodeInto out = .error (.tooLong f.encodedLen) ∧
      f.encodeIntoMut out = (.error (.tooLong f.encodedLen), out)) ∨
    ∃ e rest, f.encodedLen ≤ maxFpduLen ∧ rest ≠ [] ∧ f.encodeInto out = .error e ∧
      f.encodeIntoMut out = (.error e, out ++ rest) := by
  simp only [encodeInto, encodeIntoMut]
  by_cases hlen : maxFpduLen < f.encodedLen
  · rw [if_pos hlen, if_pos hlen]
    exact .inr (.inl ⟨hlen, rfl, rfl⟩)
  · rw [if_neg hlen, if_neg hlen]
    by_cases hdata : f.kind.isData = true
    · rw [if_pos hdata, if_pos hdata]
      exact .inl ⟨_, rfl, rfl⟩
    · rw [if_neg hdata, if_neg hdata]
      rcases encodeParamsMut_cases f.params (out ++ be16 f.encodedLen ++
        [f.kind.phase, f.kind.typeCode, f.idDst, f.idSrc]) with h | ⟨e, rest, he, hmut⟩
      · exact .inl h
      · refine .inr (.inr ⟨e, f.header ++ rest, by omega, by simp [header], he, ?_⟩)
        rw [hmut, header]
        simp only [List.append_assoc]

end Fpdu

namespace EntityBuilder

def pushMut (b : EntityBuilder) (f : Fpdu) : Except EncodeError Unit × EntityBuilder :=
  match f.encodeIntoMut b.buf with
  | (.error e, buf) => (.error e, { b with buf := buf })
  | (.ok _, buf) =>
    let buf := if b.crc then buf ++ Crc.compute (buf.drop b.buf.length) else buf
    (.ok (), { b with buf := buf, count := b.count + 1 })

lemma pushMut_cases (b : EntityBuilder) (f : Fpdu) :
    (∃ b', b.push f = .ok b' ∧ b.pushMut f = (.ok (), b')) ∨
    (maxFpduLen < f.encodedLen ∧ b.push f = .error (.tooLong f.encodedLen) ∧
      b.pushMut f = (.error (.tooLong f.encodedLen), b)) ∨
    ∃ e rest, f.encodedLen ≤ maxFpduLen ∧ rest ≠ [] ∧ b.push f = .error e ∧
      b.pushMut f = (.error e, { b with buf := b.buf ++ rest }) := by
  simp only [push, pushMut]
  obtain ⟨buf, hbuf, hmut⟩ | ⟨hlen, he, hmut⟩ | ⟨e, rest, hlen, hrest, he, hmut⟩ :=
    f.encodeIntoMut_cases b.buf
  · rw [hbuf, hmut]
    exact .inl ⟨_, rfl, rfl⟩
  · rw [he, hmut]
    exact .inr (.inl ⟨hlen, rfl, rfl⟩)
  · rw [he, hmut]
    exact .inr (.inr ⟨e, rest, hlen, hrest, rfl, rfl⟩)

/-- A builder with the content of another one, and with the FPDUs of it. -/
structure Unchanged (b b' : EntityBuilder) : Prop where
  buf : b'.buf = b.buf
  length : b'.buf.length = b.buf.length
  count : b'.count = b.count
  decodes : Frame.decodeEntity b'.buf b'.crc = Frame.decodeEntity b.buf b.crc

def Atomic (b : EntityBuilder) (f : Fpdu) : Prop := ∀ e b', b.pushMut f = (.error e, b') → b.Unchanged b'

/-- A push is refused for its length before anything is written, and for an empty value
behind the header. -/
theorem push_atomic_iff (b : EntityBuilder) (f : Fpdu) :
    b.Atomic f ↔ maxFpduLen < f.encodedLen ∨ f.kind.isData = true ∨ ∀ p ∈ f.params, Fpdu.Filled p := by
  obtain ⟨b', hpush, hmut⟩ | ⟨hlen, -, hmut⟩ | ⟨e, rest, hlen, hrest, hpush, hmut⟩ := b.pushMut_cases f
  · have henc := (push_inv hpush).1
    refine iff_of_true ?_ ?_
    · intro e c h
      rw [hmut] at h
      cases h
    · by_cases hdata : f.kind.isData = true
      · exact .inr (.inl hdata)
      · exact .inr (.inr (henc.2 hdata))
  · refine iff_of_true ?_ (.inl hlen)
    intro e c h
    rw [hmut] at h
    obtain ⟨-, rfl⟩ := Prod.mk.inj h
    exact ⟨rfl, rfl, rfl, rfl⟩
  · refine iff_of_false ?_ ?_
    · intro h
      have hbuf := (h e _ hmut).buf
      exact hrest (List.append_right_eq_self.mp hbuf)
    · intro h
      have henc : f.Encodable := by
        refine ⟨hlen, fun hdata => ?_⟩
        obtain hlong | hk | hfilled := h
        · omega
        · exact absurd hk hdata
        · exact hfilled
      rw [push_encoded (Fpdu.encodeInto_encodable henc)] at hpush
      cases hpush

/-- A message of which the text is empty. -/
def emptyMessage : Fpdu := ⟨.msgFm, 1, 0, [.pi .message []], []⟩

theorem push_torn : ¬ ∀ (b : EntityBuilder) (f : Fpdu), b.Atomic f := by
  intro h
  have hbuf := (h (new 100 false) emptyMessage _ _ rfl).buf
  exact absurd hbuf (by decide)

end EntityBuilder

end PesitWizard.Core
