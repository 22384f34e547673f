import PesitWizard.Core.Builder
import PesitWizard.Core.Transmission

/-! The FPDUs that an entity contains, for a reader that does not hold values against the lengths
of the templates. -/

namespace PesitWizard.Core

open Library.Scan

namespace Fpdu

def decodeLenient (bytes : Bytes) : Except DecodeError Fpdu := decodeWith bytes false

/-- An FPDU as the packer and the builders make it. -/
def Composed (f : Fpdu) : Prop := if f.kind.isData then f.params = [] else f.Built

lemma decodeLenient_encoded {f : Fpdu} (hcomposed : f.Composed) (henc : f.Encodable) :
    decodeLenient (f.header ++ f.body) = .ok f := by
  by_cases hk : f.kind.isData = true
  · rw [Composed, if_pos hk] at hcomposed
    exact decodeWith_data hk hcomposed henc.1 false
  · rw [Composed, if_neg hk] at hcomposed
    exact decodeWith_framed hcomposed.kind hcomposed.data hcomposed.ascending
      (hcomposed.readAs (henc.2 hk) henc.1) henc.1 false

lemma Built.composed {f : Fpdu} (h : f.Built) : f.Composed := by
  rw [Composed, if_neg (by simp [h.kind])]
  exact h

end Fpdu

namespace Frame

def fpdusIn (crc : Bool) (entity : Bytes) : List Fpdu :=
  match splitEntity entity crc with
  | .error _ => []
  | .ok slices => slices.filterMap fun v => (Fpdu.decodeLenient v).toOption

lemma fpdusIn_images (crc : Bool) {fs : List Fpdu} (h : ∀ f ∈ fs, f.Composed ∧ f.Encodable) :
    fpdusIn crc (fs.flatMap (image crc)) = fs := by
  simp only [fpdusIn, splitEntity_images crc fun f hf => (h f hf).2.1, List.filterMap_map]
  induction fs with
  | nil => rfl
  | cons f fs ih =>
    rw [List.forall_mem_cons] at h
    have hf : (Fpdu.decodeLenient (f.header ++ f.body)).toOption = some f := by
      rw [Fpdu.decodeLenient_encoded h.1.1 h.1.2]
      rfl
    rw [List.filterMap_cons, Function.comp_apply, hf, ih h.2]

end Frame

namespace Builder

lemma syn_composed (d : UInt8) (n : ℕ) : (syn d n).Composed :=
  (((Fpdu.Built.new .syn rfl).withIds d 0).withNum _ n).composed

lemma ackResyn_composed (d : UInt8) (n : ℕ) : (ackResyn d n).Composed :=
  (((Fpdu.Built.new .ackResyn rfl).withIds d 0).withNum _ n).composed

lemma dtfEnd_composed (d : UInt8) (diag : Diagnostic) : (dtfEnd d diag).Composed :=
  (((Fpdu.Built.new .dtfEnd rfl).withIds d 0).withValue _ _).composed

lemma idt_composed (d : UInt8) (diag : Diagnostic) (code : EndCode) : (idt d diag code).Composed :=
  ((((Fpdu.Built.new .idt rfl).withIds d 0).withValue _ _).withValue _ _).composed

lemma ackIdt_composed (d : UInt8) : (ackIdt d).Composed :=
  ((Fpdu.Built.new .ackIdt rfl).withIds d 0).composed

lemma ackSyn_composed (d : UInt8) (n : ℕ) : (ackSyn d n).Composed :=
  (((Fpdu.Built.new .ackSyn rfl).withIds d 0).withNum _ n).composed

lemma resyn_composed (d : UInt8) (diag : Diagnostic) (n : ℕ) : (resyn d diag n).Composed :=
  ((((Fpdu.Built.new .resyn rfl).withIds d 0).withValue _ _).withNum _ n).composed

lemma diagnosed_composed {kind : FpduKind} (hk : kind.isData = false) (d s : UInt8) (diag : Diagnostic) :
    (diagnosed kind d s diag).Composed := (((Fpdu.Built.new kind hk).withIds d s).withValue _ _).composed

lemma transEnd_composed (d : UInt8) (bytes articles : Option ℕ) : (transEnd d bytes articles).Composed :=
  ((((Fpdu.Built.new .transEnd rfl).withIds d 0).withOption _ _).withOption _ _).composed

lemma ackTransEnd_composed (d : UInt8) (diag : Diagnostic) (bytes articles : Option ℕ) :
    (ackTransEnd d diag bytes articles).Composed :=
  (((((Fpdu.Built.new .ackTransEnd rfl).withIds d 0).withValue _ _).withOption _
    _).withOption _ _).composed

lemma ackResyn_restartPoint (d : UInt8) {n : ℕ} (hn : n < 2 ^ 32) :
    (ackResyn d n).restartPoint = some n := by
  have h := decodeNum_encodeNum (n := n) (by omega)
  simp only [Fpdu.restartPoint, ackResyn, Fpdu.withNum, Fpdu.withValue, Fpdu.get, Fpdu.withIds,
    Fpdu.new, setParam, List.findSome?_cons, if_true, Option.map_some, h, Nat.mod_eq_of_lt hn]

end Builder

end PesitWizard.Core
