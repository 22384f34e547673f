import PesitWizard.Core.Transmission

/-! The parameters of an FPDU that is built in the order of their codes, where each of
them may be missing. -/

namespace PesitWizard.Core

open Library.BigEndian

def slot (pi : Pi) (value : Option Bytes) : List Param := (value.map (Param.pi pi)).toList

def groupSlot (g : Pgi) (items : Option (List (Pi × Bytes))) : List Param :=
  (items.map (Param.pgi g)).toList

namespace Fpdu

/-- What a group says about a parameter. -/
def member (items : List (Pi × Bytes)) (pi : Pi) : Option Bytes :=
  (items.find? fun i => i.1 == pi).map Prod.snd

def groupFor (g : Pgi) : Param → Option (List (Pi × Bytes))
  | .pgi h items => if h = g then some items else none
  | .pi _ _ => none

lemma pgi_eq (f : Fpdu) (g : Pgi) : f.pgi g = f.params.findSome? (groupFor g) := by
  rw [pgi]
  congr 1

lemma setParam_above {p : Param} {params : List Param} (h : ∀ q ∈ params, q.code < p.code) :
    setParam p params = params ++ [p] := by
  induction params with
  | nil => rfl
  | cons q params ih =>
    rw [List.forall_mem_cons] at h
    rw [setParam, if_pos h.1, ih h.2, List.cons_append]

/-- An FPDU of a kind that has these parameters and, as yet, none of a code above the last one. -/
structure Laid (f : Fpdu) (kind : FpduKind) (idDst idSrc : UInt8) (params : List Param)
    (last : UInt8) : Prop where
  eq : f = ⟨kind, idDst, idSrc, params, []⟩
  below : ∀ p ∈ params, p.code ≤ last
  built : f.Built

namespace Laid

variable {f : Fpdu} {kind : FpduKind} {idDst idSrc last : UInt8} {params : List Param} {g : Pgi}

lemma start (kind : FpduKind) (hkind : kind.isData = false) (idDst idSrc : UInt8) :
    ((Fpdu.new kind).withIds idDst idSrc).Laid kind idDst idSrc [] 0 :=
  ⟨rfl, nofun, (Built.new kind hkind).withIds idDst idSrc⟩

lemma param (h : f.Laid kind idDst idSrc params last) {p : Param} (hp : last < p.code)
    (hbuilt : ({ f with params := setParam p f.params } : Fpdu).Built) :
    ({ f with params := setParam p f.params } : Fpdu).Laid kind idDst idSrc (params ++ [p]) p.code := by
  obtain ⟨rfl, hbelow, -⟩ := h
  refine ⟨?_, ?_, hbuilt⟩
  · rw [setParam_above fun q hq => UInt8.lt_of_le_of_lt (hbelow q hq) hp]
  · intro q hq
    obtain hq | hq := List.mem_append.mp hq
    · exact UInt8.le_of_lt (UInt8.lt_of_le_of_lt (hbelow q hq) hp)
    · rw [List.mem_singleton.mp hq]
      exact UInt8.le_refl _

lemma skip (h : f.Laid kind idDst idSrc params last) {c : UInt8} (hc : last < c) :
    f.Laid kind idDst idSrc (params ++ []) c := by
  rw [List.append_nil]
  exact ⟨h.eq, fun p hp => UInt8.le_of_lt (UInt8.lt_of_le_of_lt (h.below p hp) hc), h.built⟩

lemma value (h : f.Laid kind idDst idSrc params last) (pi : Pi) (hpi : last < pi.code) (v : Bytes) :
    (f.withValue pi v).Laid kind idDst idSrc (params ++ slot pi (some v)) pi.code :=
  h.param hpi (h.built.withValue pi v)

lemma option (h : f.Laid kind idDst idSrc params last) (pi : Pi) (hpi : last < pi.code)
    (v : Option Bytes) :
    (f.withOption pi v).Laid kind idDst idSrc (params ++ slot pi v) pi.code := by
  cases v with
  | none => exact h.skip hpi
  | some v => exact h.value pi hpi v

lemma pgi (h : f.Laid kind idDst idSrc params last) (hg : last < g.code) {items : List (Pi × Bytes)}
    (hitems : Param.Grouped (.pgi g items)) :
    (f.withPgi g items).Laid kind idDst idSrc (params ++ groupSlot g (some items)) g.code := by
  have hbuilt := h.built.withPgi g hitems
  have hsorted : items.insertionSort (fun a b => a.1.code ≤ b.1.code) = items := by
    obtain ⟨-, hasc, -⟩ := hitems
    rw [List.pairwise_map] at hasc
    exact List.Pairwise.insertionSort_eq (hasc.imp UInt8.le_of_lt)
  rw [withPgi, hsorted] at hbuilt ⊢
  exact h.param hg hbuilt

lemma group (h : f.Laid kind idDst idSrc params last) (hg : last < g.code)
    (items : Option (List (Pi × Bytes))) (hitems : ∀ l ∈ items, Param.Grouped (.pgi g l)) :
    (f.withGroup g items).Laid kind idDst idSrc (params ++ groupSlot g items) g.code := by
  cases items with
  | none => exact h.skip hg
  | some l => exact h.pgi hg (hitems l rfl)

end Laid

section Reading

variable (kind : FpduKind) (idDst idSrc : UInt8) (params : List Param) (data : Bytes) (pi : Pi) (g : Pgi)

lemma get_mk : (⟨kind, idDst, idSrc, params, data⟩ : Fpdu).get pi = params.findSome? (valueFor pi) :=
  get_eq _ _

lemma pgi_mk : (⟨kind, idDst, idSrc, params, data⟩ : Fpdu).pgi g = params.findSome? (groupFor g) :=
  pgi_eq _ _

lemma value_slot (q : Pi) (v : Option Bytes) :
    (slot q v).findSome? (valueFor pi) = if q = pi then v else none := by
  cases v with
  | none => simp [slot]
  | some v => simp [slot, valueFor]

lemma value_groupSlot (items : Option (List (Pi × Bytes))) :
    (groupSlot g items).findSome? (valueFor pi) = items.bind fun l => member l pi := by
  cases items with
  | none => rfl
  | some l => simp [groupSlot, valueFor, member]

lemma value_groupSlot_none {pi : Pi} {g : Pgi} (hpi : g.contains pi = false)
    {items : Option (List (Pi × Bytes))} (hitems : ∀ l ∈ items, Param.Grouped (.pgi g l)) :
    (groupSlot g items).findSome? (valueFor pi) = none := by
  cases items with
  | none => rfl
  | some l =>
    show [Param.pgi g l].findSome? (valueFor pi) = none
    rw [List.findSome?_singleton, valueFor_pgi (hitems l rfl) hpi]

lemma group_slot (q : Pi) (v : Option Bytes) : (slot q v).findSome? (groupFor g) = none := by
  cases v <;> simp [slot, groupFor]

lemma group_groupSlot (h : Pgi) (items : Option (List (Pi × Bytes))) :
    (groupSlot h items).findSome? (groupFor g) = if h = g then items else none := by
  cases items with
  | none => simp [groupSlot]
  | some l => simp [groupSlot, groupFor]

lemma member_nil : member [] pi = none := rfl

lemma member_append (items items' : List (Pi × Bytes)) :
    member (items ++ items') pi = (member items pi).or (member items' pi) := by
  rw [member, List.find?_append, Option.map_or]
  rfl

lemma member_cons (q : Pi) (v : Bytes) (items : List (Pi × Bytes)) :
    member ((q, v) :: items) pi = if q = pi then some v else member items pi := by
  by_cases h : q = pi <;> simp [member, h]

lemma member_item (q : Pi) (v : Option Bytes) :
    member (FileSpec.item q v) pi = if q = pi then v else none := by
  cases v with
  | none => simp [FileSpec.item, member]
  | some v => by_cases h : q = pi <;> simp [FileSpec.item, member, h]

end Reading

section Members

variable {pi : Pi} {g : Pgi} {p : Param}

lemma mem_slot {v : Option Bytes} : p ∈ slot pi v ↔ ∃ b ∈ v, p = .pi pi b := by
  cases v <;> simp [slot]

lemma slot_forall {P : Param → Prop} {v : Option Bytes} :
    (∀ p ∈ slot pi v, P p) ↔ ∀ b ∈ v, P (.pi pi b) := by
  cases v <;> simp [slot]

lemma groupSlot_forall {P : Param → Prop} {items : Option (List (Pi × Bytes))} :
    (∀ p ∈ groupSlot g items, P p) ↔ ∀ l ∈ items, P (.pgi g l) := by
  cases items <;> simp [groupSlot]

end Members

end Fpdu

end PesitWizard.Core
