import PesitWizard.Core.Frame
import PesitWizard.Core.Params

/-! The FPDUs of a data transfer. -/

namespace PesitWizard.Core.Builder

def dtfEnd (idDst : UInt8) (diag : Diagnostic) : Fpdu :=
  ((Fpdu.new .dtfEnd).withIds idDst 0).withDiag diag

def syn (idDst : UInt8) (number : ℕ) : Fpdu :=
  ((Fpdu.new .syn).withIds idDst 0).withNum .syncNumber number

def ackSyn (idDst : UInt8) (number : ℕ) : Fpdu :=
  ((Fpdu.new .ackSyn).withIds idDst 0).withNum .syncNumber number

def resyn (idDst : UInt8) (diag : Diagnostic) (restartPoint : ℕ) : Fpdu :=
  (((Fpdu.new .resyn).withIds idDst 0).withDiag diag).withNum .restartPoint restartPoint

def ackResyn (idDst : UInt8) (restartPoint : ℕ) : Fpdu :=
  ((Fpdu.new .ackResyn).withIds idDst 0).withNum .restartPoint restartPoint

def idt (idDst : UInt8) (diag : Diagnostic) (code : EndCode) : Fpdu :=
  (((Fpdu.new .idt).withIds idDst 0).withDiag diag).withValue .endCode [code.code]

def ackIdt (idDst : UInt8) : Fpdu := (Fpdu.new .ackIdt).withIds idDst 0

lemma encodedLen_num (k : FpduKind) (hk : k.isData = false) (d : UInt8) (pi : Pi) {n : ℕ}
    (hn : n < 2 ^ 64) :
    (((Fpdu.new k).withIds d 0).withNum pi n).encodedLen = headerLen + 2 + (encodeNum n).length := by
  have h8 : (encodeNum n).length ≤ 8 := (encodeNum_length_le 7 hn).mpr (by simpa using hn)
  simp only [Fpdu.encodedLen, Fpdu.withNum, Fpdu.withValue, Fpdu.withIds, Fpdu.new, hk,
    Bool.false_eq_true, if_false, setParam, List.map_cons, List.map_nil, List.sum_cons, List.sum_nil,
    Fpdu.paramLen, unitLen]
  rw [if_pos (by omega)]
  omega

lemma sound_num {k : FpduKind} {d : UInt8} {pi : Pi} {n : ℕ} (hk : k.isData = false) (hn : n < 2 ^ 24)
    (hmax : pi.maxLen = 3) (hallowed : pi.code ∈ k.template.map ParamRule.code)
    (hpresent : ∀ r ∈ k.template, r.mandatory = true → r.code = pi.code) :
    Frame.Sound (((Fpdu.new k).withIds d 0).withNum pi n) := by
  have h3 : (encodeNum n).length ≤ 3 := (encodeNum_length_le 2 (by omega)).mpr (by omega)
  refine ⟨?_, ?_⟩
  · simp only [Fpdu.WellFormed, Fpdu.withNum, Fpdu.withValue, Fpdu.withIds, Fpdu.new, hk,
      Bool.false_eq_true, if_false, true_and, setParam]
    refine ⟨by simp, by simpa [Param.code] using hallowed, ?_, ?_⟩
    · intro r hr hm
      simp [Param.code, hpresent r hr hm]
    · simp only [List.mem_singleton, forall_eq]
      exact ⟨encodeNum_ne_nil (by omega), .inr (by omega)⟩
  · rw [encodedLen_num k hk d pi (by omega)]
    simp only [headerLen]
    omega

lemma syn_sound (d : UInt8) {n : ℕ} (hn : n < 2 ^ 24) : Frame.Sound (syn d n) :=
  sound_num rfl hn rfl (by decide) (by decide)

lemma ackSyn_sound (d : UInt8) {n : ℕ} (hn : n < 2 ^ 24) : Frame.Sound (ackSyn d n) :=
  sound_num rfl hn rfl (by decide) (by decide)

lemma encodedLen_num_le (k : FpduKind) (hk : k.isData = false) (d : UInt8) (pi : Pi) {n : ℕ} (j : ℕ)
    (hj : n < 256 ^ (j + 1)) (hn : n < 2 ^ 64) :
    (((Fpdu.new k).withIds d 0).withNum pi n).encodedLen ≤ headerLen + 3 + j := by
  have hlen := (encodeNum_length_le j hn).mpr hj
  rw [encodedLen_num k hk d pi hn]
  omega

lemma syn_length (d : UInt8) {n : ℕ} (hn : n < 2 ^ 24) : (syn d n).encodedLen ≤ 11 :=
  encodedLen_num_le .syn rfl d .syncNumber 2 (by omega) (by omega)

lemma syn_encodedLen_le (d : UInt8) {n : ℕ} (hn : n < 2 ^ 32) : (syn d n).encodedLen ≤ 12 :=
  encodedLen_num_le .syn rfl d .syncNumber 3 (by omega) (by omega)

lemma ackResyn_encodedLen_le (d : UInt8) {n : ℕ} (hn : n < 2 ^ 32) : (ackResyn d n).encodedLen ≤ 12 :=
  encodedLen_num_le .ackResyn rfl d .restartPoint 3 (by omega) (by omega)

lemma syn_undecodable (d : UInt8) {n : ℕ} (hn : 2 ^ 24 ≤ n) (hn' : n < 2 ^ 32) :
    ∃ e, Fpdu.decode ((syn d n).header ++ (syn d n).body) = .error e ∧ e.diag ≠ .transmissionError := by
  have h3 : ¬ (encodeNum n).length ≤ 3 := by
    rw [encodeNum_length_le 2 (by omega)]
    omega
  have h4 : (encodeNum n).length ≤ 4 := (encodeNum_length_le 3 (by omega)).mpr (by omega)
  have hlen := encodedLen_num .syn rfl d .syncNumber (n := n) (by omega)
  have hparams : (syn d n).params = [.pi .syncNumber (encodeNum n)] := rfl
  obtain ⟨detail, hcheck⟩ : ∃ detail, (syn d n).validateTemplate = .error (.param detail) := by
    have hallowed : FpduKind.syn.template.any (fun r => r.code == Pi.syncNumber.code) = true := by decide
    have hmax : Pi.syncNumber.maxLen ≠ 0 ∧ Pi.syncNumber.maxLen < (encodeNum n).length := by
      show (3 : ℕ) ≠ 0 ∧ 3 < _
      omega
    simp only [Fpdu.validateTemplate, hparams, Fpdu.checkParams, show (syn d n).kind =
      .syn from rfl, Fpdu.checkParam, Param.code, hallowed, Bool.not_true, Bool.false_eq_true,
      if_false, if_pos hmax]
    exact ⟨_, rfl⟩
  refine ⟨.param detail, ?_, ?_⟩
  · rw [Fpdu.decode_framed rfl rfl (by simp [hparams]) ?_ ?_, hcheck]
    · intro p hp
      rw [hparams, List.mem_singleton] at hp
      subst hp
      exact ⟨encodeNum_ne_nil (by omega), rfl⟩
    · rw [syn, hlen]
      simp only [headerLen]
      omega
  · show Diagnostic.invalidParameter ≠ .transmissionError
    decide

lemma syn_encodeInto (d : UInt8) {n : ℕ} (hn : n < 2 ^ 32) (out : Bytes) :
    (syn d n).encodeInto out = .ok (out ++ ((syn d n).header ++ (syn d n).body)) := by
  have h4 : (encodeNum n).length ≤ 4 := (encodeNum_length_le 3 (by omega)).mpr (by omega)
  have hlen := encodedLen_num .syn rfl d .syncNumber (n := n) (by omega)
  have hne : (encodeNum n) ≠ [] := encodeNum_ne_nil (by omega)
  have hparams : (syn d n).params = [.pi .syncNumber (encodeNum n)] := rfl
  have hkind : (syn d n).kind.isData = false := rfl
  have hle : ¬ maxFpduLen < (syn d n).encodedLen := by
    rw [syn, hlen]
    simp only [headerLen, maxFpduLen]
    omega
  simp only [Fpdu.encodeInto, hle, if_false, hkind, Bool.false_eq_true, hparams, Fpdu.encodeParams,
    List.isEmpty_iff, hne, pushUnit_eq, Fpdu.header, Fpdu.body, Fpdu.paramsBytes, Fpdu.paramUnit,
    List.map_cons, List.map_nil, List.flatMap_cons, List.flatMap_nil, List.append_nil, List.append_assoc]

lemma dtfEnd_sound (d : UInt8) : Frame.Sound (dtfEnd d .ok) := by
  refine ⟨?_, ?_⟩
  · show (dtfEnd 0 .ok).data = [] ∧ ParamsWellFormed .dtfEnd (dtfEnd 0 .ok).params
    decide
  · show (dtfEnd 0 .ok).encodedLen ≤ 65535
    decide

lemma ackIdt_sound (d : UInt8) : Frame.Sound (ackIdt d) := by
  refine ⟨?_, ?_⟩
  · show (ackIdt 0).data = [] ∧ ParamsWellFormed .ackIdt (ackIdt 0).params
    decide
  · show (ackIdt 0).encodedLen ≤ 65535
    decide

lemma idt_sound (d : UInt8) {code : EndCode}
    (hcode : code = .cancelByRequester ∨ code = .cancelByServer) :
    Frame.Sound (idt d .voluntaryStop code) := by
  rcases hcode with rfl | rfl
  · refine ⟨?_, ?_⟩
    · show (idt 0 .voluntaryStop .cancelByRequester).data = [] ∧
        ParamsWellFormed .idt (idt 0 .voluntaryStop .cancelByRequester).params
      decide
    · show (idt 0 .voluntaryStop .cancelByRequester).encodedLen ≤ 65535
      decide
  · refine ⟨?_, ?_⟩
    · show (idt 0 .voluntaryStop .cancelByServer).data = [] ∧
        ParamsWellFormed .idt (idt 0 .voluntaryStop .cancelByServer).params
      decide
    · show (idt 0 .voluntaryStop .cancelByServer).encodedLen ≤ 65535
      decide

lemma dtfEnd_length (d : UInt8) : (dtfEnd d .ok).encodedLen = 11 := rfl

lemma idt_length (d : UInt8) (diag : Diagnostic) (code : EndCode) : (idt d diag code).encodedLen = 14 :=
  rfl

lemma ackIdt_length (d : UInt8) : (ackIdt d).encodedLen = 6 := rfl

lemma syn_syncNumber (d : UInt8) {n : ℕ} (hn : n < 2 ^ 32) : (syn d n).syncNumber = some n := by
  have h := decodeNum_encodeNum (n := n) (by omega)
  simp only [Fpdu.syncNumber, syn, Fpdu.withNum, Fpdu.withValue, Fpdu.get, Fpdu.withIds,
    Fpdu.new, setParam, List.findSome?_cons, if_true, Option.map_some, h, Nat.mod_eq_of_lt hn]

lemma ackSyn_syncNumber (d : UInt8) {n : ℕ} (hn : n < 2 ^ 32) : (ackSyn d n).syncNumber = some n :=
  syn_syncNumber d hn

end PesitWizard.Core.Builder
