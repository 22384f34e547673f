import PesitWizard.Core.Requests

/-! What an FPDU says after it has been encoded, sent and decoded. -/

namespace PesitWizard.Core

open Library.BigEndian Library.Scan

def Param.Grouped : Param → Prop
  | .pi _ _ => True
  | .pgi g items => items ≠ [] ∧ (items.map (fun i => i.1.code)).Pairwise (· < ·) ∧ ∀ i ∈ items,
    g.contains i.1 = true

namespace Fpdu

structure Built (f : Fpdu) : Prop where
  kind : f.kind.isData = false
  data : f.data = []
  ascending : (f.params.map Param.code).Pairwise (· < ·)
  grouped : ∀ p ∈ f.params, p.Grouped

section Setting

variable {f : Fpdu} {pi pi' : Pi} {g : Pgi} {v : Bytes} {items : List (Pi × Bytes)}

lemma mem_setParam {p q : Param} {params : List Param} (h : q ∈ setParam p params) :
    q = p ∨ q ∈ params := by
  induction params with
  | nil => exact .inl (List.mem_singleton.mp h)
  | cons x params ih =>
    rw [setParam] at h
    split at h
    · rcases List.mem_cons.mp h with rfl | h
      · exact .inr List.mem_cons_self
      · exact (ih h).imp_right (List.mem_cons_of_mem _)
    · split at h
      · exact (List.mem_cons.mp h).imp_right (List.mem_cons_of_mem _)
      · exact List.mem_cons.mp h

lemma setParam_ascending {p : Param} {params : List Param}
    (h : (params.map Param.code).Pairwise (· < ·)) :
    ((setParam p params).map Param.code).Pairwise (· < ·) := by
  induction params with
  | nil => exact List.pairwise_singleton _ _
  | cons x params ih =>
    rw [List.map_cons, List.pairwise_cons] at h
    obtain ⟨hx, htail⟩ := h
    have hx' : ∀ q ∈ params, x.code < q.code := fun q hq => hx _ (List.mem_map_of_mem hq)
    rw [setParam]
    split
    · rename_i hlt
      rw [List.map_cons, List.pairwise_cons]
      refine ⟨?_, ih htail⟩
      intro c hc
      obtain ⟨q, hq, rfl⟩ := List.mem_map.mp hc
      rcases mem_setParam hq with rfl | hq
      · exact hlt
      · exact hx' q hq
    · rename_i hlt
      split
      · rename_i heq
        rw [List.map_cons, List.pairwise_cons]
        exact ⟨fun c hc => heq ▸ hx c hc, htail⟩
      · rename_i hne
        have hpx : p.code < x.code := UInt8.lt_of_le_of_ne (UInt8.not_lt.mp hlt) (Ne.symm hne)
        rw [List.map_cons, List.map_cons, List.pairwise_cons, List.pairwise_cons]
        refine ⟨?_, hx, htail⟩
        intro c hc
        rcases List.mem_cons.mp hc with rfl | hc
        · exact hpx
        · exact UInt8.lt_trans hpx (hx c hc)

lemma Built.new (kind : FpduKind) (h : kind.isData = false) : (Fpdu.new kind).Built :=
  ⟨h, rfl, .nil, by simp [Fpdu.new]⟩

lemma Built.withIds (h : f.Built) (idDst idSrc : UInt8) : (f.withIds idDst idSrc).Built :=
  ⟨h.kind, h.data, h.ascending, h.grouped⟩

lemma Built.withValue (h : f.Built) (pi : Pi) (v : Bytes) : (f.withValue pi v).Built := by
  refine ⟨h.kind, h.data, setParam_ascending h.ascending, ?_⟩
  intro p hp
  rcases mem_setParam hp with rfl | hp
  · trivial
  · exact h.grouped p hp

lemma Built.withNum (h : f.Built) (pi : Pi) (n : ℕ) : (f.withNum pi n).Built := h.withValue pi _

lemma Built.withPgi (h : f.Built) (g : Pgi) (hitems : Param.Grouped (.pgi g items)) :
    (f.withPgi g items).Built := by
  obtain ⟨hne, hasc, hin⟩ := hitems
  have hsorted : items.insertionSort (fun a b => a.1.code ≤ b.1.code) = items := by
    refine List.Pairwise.insertionSort_eq ?_
    rw [List.pairwise_map] at hasc
    exact hasc.imp UInt8.le_of_lt
  refine ⟨h.kind, h.data, setParam_ascending h.ascending, ?_⟩
  intro p hp
  rcases mem_setParam hp with rfl | hp
  · rw [hsorted]
    exact ⟨hne, hasc, hin⟩
  · exact h.grouped p hp

end Setting

section Reading

variable {f f' : Fpdu} {pi pi' : Pi} {g : Pgi} {v b : Bytes} {items : List (Pi × Bytes)}

def valueFor (pi : Pi) : Param → Option Bytes
  | .pi q value => if q = pi then some value else none
  | .pgi _ items => (items.find? (fun i => i.1 == pi)).map Prod.snd

lemma get_eq (f : Fpdu) (pi : Pi) : f.get pi = f.params.findSome? (valueFor pi) := by
  rw [get]
  congr 1

lemma valueFor_pgi (hitems : Param.Grouped (.pgi g items)) (hpi : g.contains pi = false) :
    valueFor pi (.pgi g items) = none := by
  rw [valueFor, Option.map_eq_none_iff, List.find?_eq_none]
  intro i hi heq
  have hin := hitems.2.2 i hi
  rw [show i.1 = pi by simpa using heq, hpi] at hin
  cases hin

end Reading

section Coding

variable {f f' : Fpdu} {b : Bytes}

lemma grouped_readAs {p : Param} (hgrouped : p.Grouped) (hfilled : Filled p)
    (hlen : (unitBytes (paramUnit p)).length < 65536) :
    (paramUnit p).2 ≠ [] ∧ ReadAs (paramUnit p) p := by
  cases p with
  | pi q value => exact ⟨hfilled, rfl⟩
  | pgi g items =>
    obtain ⟨hne, hasc, hin⟩ := hgrouped
    refine ⟨itemsBytes_ne_nil hne, ?_⟩
    rw [unitBytes_length] at hlen
    have hinner : (itemsBytes items).length < 65536 := by
      have := le_unitLen (itemsBytes items).length
      simp only [paramUnit] at hlen
      omega
    obtain ⟨last, hl⟩ := decodeItems_complete g items ⟨[], 0⟩ hasc hin (fun h => absurd rfl h)
    refine ⟨rfl, last, ?_⟩
    simp only [paramUnit]
    rw [itemsBytes, scanAll_of_chunks readUnit_consumes (chunks_units ?_ hinner)]
    · exact hl
    · intro u hu
      obtain ⟨i, hi, rfl⟩ := List.mem_map.mp hu
      exact hfilled i hi

lemma Built.encode_eq (h : f.Built) (he : f.encode = .ok b) :
    b = f.header ++ f.body ∧ f.encodedLen ≤ 65535 ∧ ∀ p ∈ f.params, Filled p := by
  obtain ⟨henc, rfl⟩ := encodeInto_iff.mp he
  exact ⟨rfl, henc.1, henc.2 (by simp [h.kind])⟩

lemma Built.readAs (h : f.Built) (hfilled : ∀ p ∈ f.params, Filled p) (hlen : f.encodedLen ≤ 65535) :
    ∀ p ∈ f.params, (paramUnit p).2 ≠ [] ∧ ReadAs (paramUnit p) p := by
  intro p hp
  refine grouped_readAs (h.grouped p hp) (hfilled p hp) ?_
  have hsub : List.Sublist (unitBytes (paramUnit p)) ((f.params.map paramUnit).map unitBytes).flatten :=
    List.sublist_flatten_of_mem (List.mem_map.mpr ⟨paramUnit p, List.mem_map_of_mem hp, rfl⟩)
  have hle := hsub.length_le
  have htotal := encodedLen_eq f
  simp only [header, be16, body, h.kind, Bool.false_eq_true, if_false, paramsBytes, List.flatMap_def,
    List.cons_append, List.nil_append, List.length_cons] at htotal
  omega

lemma Built.decoded (h : f.Built) (he : f.encode = .ok b) (hd : decode b = .ok f') : f' = f := by
  obtain ⟨rfl, hlen, hfilled⟩ := h.encode_eq he
  rw [decode_framed h.kind h.data h.ascending (h.readAs hfilled hlen) hlen] at hd
  split at hd
  · cases hd
  · exact (Except.ok.inj hd).symm

end Coding

section Options

variable {f : Fpdu} {pi pi' : Pi} {g : Pgi}

lemma Built.withOption (h : f.Built) (pi : Pi) (value : Option Bytes) :
    (f.withOption pi value).Built := by
  cases value with
  | none => exact h
  | some v => exact h.withValue pi v

end Options

end Fpdu

namespace FileSpec

open Fpdu

variable (s : FileSpec) (id : UInt8)

lemma fileIdGroup_grouped : Param.Grouped (.pgi .fileId s.fileIdGroup) := by
  cases hr : s.requester <;> cases hs : s.server <;>
    simp [Param.Grouped, fileIdGroup, item, hr, hs] <;> decide

lemma logicalGroup_grouped : Param.Grouped (.pgi .logicalAttributes s.logicalGroup) := by
  cases ho : s.organisation <;> cases hl : s.label.filter (fun l => !l.isEmpty) <;>
    simp [Param.Grouped, logicalGroup, item, ho, hl] <;> decide

lemma physicalGroup_grouped : Param.Grouped (.pgi .physicalAttributes s.physicalGroup) := by
  cases hr : s.reservationUnit <;> simp [Param.Grouped, physicalGroup, item, hr] <;> decide

lemma historicalGroup_grouped :
    ∀ l ∈ s.historicalGroup, Param.Grouped (.pgi .historicalAttributes l) := by
  intro l hl
  obtain ⟨created, -, rfl⟩ := Option.map_eq_some_iff.mp hl
  cases he : s.extractionDate <;> simp [Param.Grouped, item] <;> decide

lemma mem_ite_some {α : Type} {c : Prop} [Decidable c] {x y : α} (h : x ∈ if c then some y else none) :
    x = y := by
  split at h
  · exact (Option.some.inj h).symm
  · cases h

lemma mem_ite_none {α : Type} {c : Prop} [Decidable c] {x : α} {o : Option α}
    (h : x ∈ if c then o else none) :
    x ∈ o := by
  split at h
  · exact h
  · cases h

end FileSpec

end PesitWizard.Core
