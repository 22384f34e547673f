import Mathlib.Algebra.Order.BigOperators.Group.List
import Mathlib.Algebra.Order.Ring.Nat
import PesitWizard.Core.Blank

/-! A file that is described in a request or an answer is read there as it was described. -/

namespace PesitWizard.Core

open Fpdu

/-- A text of Latin-1 characters that has no space at its end and is not longer than its
parameter may be. -/
structure Plain (pi : Pi) (t : String) : Prop where
  latin : ∀ c ∈ t.toList, c.toNat < 256
  nonempty : t ≠ ""
  trimmed : ∀ c ∈ t.toList.getLast?, whitespace c = false
  short : t.toList.length ≤ pi.maxLen

namespace Plain

variable {pi : Pi} {t : String}

lemma kept (h : Plain pi t) : (t.toList.reverse.dropWhile whitespace).reverse = t.toList := by
  rw [List.reverse_eq_iff]
  cases hrev : t.toList.reverse with
  | nil => rfl
  | cons c cs =>
    have hc : whitespace c = false := by
      apply h.trimmed c
      rw [← List.head?_reverse, hrev]
      rfl
    rw [List.dropWhile_cons_of_neg (by simp [hc])]

lemma bytes (h : Plain pi t) : textBytes t = t.toList.map fun c => UInt8.ofNat c.toNat := by
  rw [textBytes, h.kept]
  refine List.map_congr_left fun c hc => ?_
  rw [if_pos (h.latin c hc)]

lemma bytes_ne_nil (h : Plain pi t) : textBytes t ≠ [] := by
  rw [h.bytes]
  simpa using h.nonempty

lemma bytes_length (h : Plain pi t) : (textBytes t).length ≤ pi.maxLen := by
  rw [h.bytes, List.length_map]
  exact h.short

lemma blank_false {c : Char} (h : whitespace c = false) : blank c = false := by
  simp only [whitespace, Bool.or_eq_false_iff] at h
  tauto

lemma read (h : Plain pi t) : textOf (textBytes t) = t := by
  have hchars : (textBytes t).map (fun b => Char.ofNat b.toNat) = t.toList := by
    rw [h.bytes, List.map_map]
    conv_rhs => rw [← List.map_id t.toList]
    refine List.map_congr_left fun c hc => ?_
    have hlatin := h.latin c hc
    simp [Nat.mod_eq_of_lt hlatin, Char.ofNat_toNat]
  have hkept : (t.toList.reverse.dropWhile blank).reverse = t.toList := by
    rw [List.reverse_eq_iff]
    cases hrev : t.toList.reverse with
    | nil => rfl
    | cons c cs =>
      have hc : whitespace c = false := by
        apply h.trimmed c
        rw [← List.head?_reverse, hrev]
        rfl
      rw [List.dropWhile_cons_of_neg (by simp [blank_false hc])]
  rw [textOf, hchars, hkept, String.ofList_toList]

end Plain

namespace FileSpec

structure Normal (s : FileSpec) : Prop where
  requester : ∀ t ∈ s.requester, Plain .requester t
  server : ∀ t ∈ s.server, Plain .server t
  fileName : Plain .fileName s.fileName
  transferId : s.transferId.toNat < 2 ^ 24
  label : ∀ t ∈ s.label, Plain .fileLabel t
  creationDate : ∀ t ∈ s.creationDate, Plain .creationDate t
  extractionDate : ∀ t ∈ s.extractionDate, Plain .extractionDate t
  clientId : ∀ t ∈ s.clientId, Plain .clientId t
  bankId : ∀ t ∈ s.bankId, Plain .bankId t
  fileAccessControl : ∀ t ∈ s.fileAccessControl, Plain .fileAccessControl t
  freeMessage : ∀ t ∈ s.freeMessage, Plain .freeMessage t
  dated : s.extractionDate.isSome → s.creationDate.isSome

/-- What a request says of a file. -/
def said (s : FileSpec) : Pi → Option Bytes
  | .requester => s.requester.map textBytes
  | .server => s.server.map textBytes
  | .fileType => some (encodeNum s.fileType.toNat)
  | .fileName => some (textBytes s.fileName)
  | .transferId => some (encodeNum s.transferId.toNat)
  | .restarted => if s.restarted then some (encodeNum 1) else none
  | .dataCode => s.dataCode.map fun c => [c]
  | .priority => some [s.priority]
  | .maxEntitySize => some (encodeNum s.maxEntitySize.toNat)
  | .articleFormat => some [s.articleFormat.code]
  | .articleLength => some (encodeNum s.articleLength.toNat)
  | .fileOrganisation => s.organisation.map fun o => [o]
  | .fileLabel => (s.label.filter (fun l => !l.isEmpty)).map textBytes
  | .reservationUnit => s.reservationUnit.map fun u => [u]
  | .maxReservation => some (encodeNum s.maxReservation.toNat)
  | .creationDate => s.creationDate.map textBytes
  | .extractionDate => s.creationDate.bind fun _ => s.extractionDate.map textBytes
  | .clientId => s.clientId.map textBytes
  | .bankId => s.bankId.map textBytes
  | .fileAccessControl => s.fileAccessControl.map textBytes
  | .freeMessage => (s.freeMessage.filter (fun m => !m.isEmpty)).map textBytes
  | _ => none

variable (s : FileSpec) (pi : Pi)

lemma member_fileId : member s.fileIdGroup pi = if .requester = pi then s.requester.map textBytes
    else if .server = pi then s.server.map textBytes
    else if .fileType = pi then some (encodeNum s.fileType.toNat)
    else if .fileName = pi then some (textBytes s.fileName) else none := by
  simp only [fileIdGroup, member_append, member_cons, member_item, member_nil]
  cases pi <;> simp

lemma member_logical : member s.logicalGroup pi = if .articleFormat = pi then some [s.articleFormat.code]
    else if .articleLength = pi then some (encodeNum s.articleLength.toNat)
    else if .fileOrganisation = pi then s.organisation.map fun o => [o]
    else if .fileLabel = pi then (s.label.filter (fun l => !l.isEmpty)).map textBytes else none := by
  simp only [logicalGroup, member_append, member_cons, member_item, member_nil]
  cases pi <;> simp

lemma member_physical : member s.physicalGroup pi = if .reservationUnit = pi then
    s.reservationUnit.map fun u => [u] else if .maxReservation = pi then
    some (encodeNum s.maxReservation.toNat) else none := by
  simp only [physicalGroup, member_append, member_cons, member_item, member_nil]
  cases pi <;> simp

lemma member_historical : (s.historicalGroup.bind fun l => member l pi) =
    if .creationDate = pi then s.creationDate.map textBytes
    else if .extractionDate = pi then s.creationDate.bind fun _ =>
    s.extractionDate.map textBytes else none := by
  cases hcreated : s.creationDate with
  | none => simp [historicalGroup, hcreated]
  | some created =>
    simp only [historicalGroup, hcreated, Option.map_some, Option.bind_some, member_cons, member_item]

lemma create_says : s.createParams.findSome? (valueFor pi) = s.said pi := by
  simp only [createParams, tailParams, List.findSome?_append, value_slot, value_groupSlot,
    Option.bind_some, member_fileId, member_logical, member_physical, member_historical]
  cases pi <;> simp [said]

/-- What is left of a file in the answer to a request to read it. -/
def answered : FileSpec := { s with restarted := false, priority := 0, fileAccessControl := none }

lemma ackSelect_says (hdiag : pi ≠ .diag) (hpriority : pi ≠ .priority) :
    (s.ackSelectParams .all).findSome? (valueFor pi) = s.answered.said pi := by
  simp only [ackSelectParams, RequestedAttributes.all, if_true, List.findSome?_append,
    value_slot, value_groupSlot, Option.bind_some, member_fileId, member_logical, member_physical,
    member_historical]
  cases pi with
  | diag => exact absurd rfl hdiag
  | priority => exact absurd rfl hpriority
  | _ => simp [said, answered]

lemma create_group : s.createParams.findSome? (groupFor .fileId) = some s.fileIdGroup := by
  simp [createParams, tailParams, List.findSome?_append, group_slot, group_groupSlot]

lemma ackSelect_group (attributes : RequestedAttributes) :
    (s.ackSelectParams attributes).findSome? (groupFor .fileId) = some s.fileIdGroup := by
  simp [ackSelectParams, List.findSome?_append, group_slot, group_groupSlot]

variable {s}

lemma read_texts {pi : Pi} {t : Option String} (h : ∀ x ∈ t, Plain pi x) :
    (t.map textBytes).map textOf = t := by
  cases t with
  | none => rfl
  | some x => rw [Option.map_some, Option.map_some, (h x rfl).read]

lemma read_offered {pi : Pi} {t : Option String} (h : ∀ x ∈ t, Plain pi x) :
    ((t.filter (fun x => !x.isEmpty)).map textBytes).map textOf = t := by
  cases t with
  | none => rfl
  | some x =>
    have hx := h x rfl
    have hfilter : (some x).filter (fun x => !x.isEmpty) = some x := by
      rw [Option.filter_some, if_pos (by simpa using hx.nonempty)]
    rw [hfilter, Option.map_some, Option.map_some, hx.read]

lemma read_num {f : Fpdu} {pi : Pi} {n : ℕ} (hn : n < 2 ^ 64) (h : f.get pi = some (encodeNum n)) :
    f.getNum pi = some n := by
  rw [getNum, h, Option.map_some, decodeNum_encodeNum hn]

lemma create_articleLength (s : FileSpec) (idDst : UInt8) :
    (s.create idDst).getNum .articleLength = some s.articleLength.toNat := by
  have hlt := s.articleLength.toNat_lt
  apply read_num (by omega)
  rw [(s.create_laid idDst).eq, get_mk, create_says]
  rfl

lemma ackSelect_articleLength (s : FileSpec) (idDst : UInt8) (attributes : RequestedAttributes) :
    (s.ackSelect idDst attributes).getNum .articleLength =
      if attributes.logical then some s.articleLength.toNat else none := by
  have hlt := s.articleLength.toNat_lt
  have hget : (s.ackSelect idDst attributes).get .articleLength =
      if attributes.logical then some (encodeNum s.articleLength.toNat) else none := by
    have hlogical :
        ((if attributes.logical then some s.logicalGroup else none).bind fun l =>
        member l .articleLength) = if attributes.logical then
          some (encodeNum s.articleLength.toNat) else none := by
      split
      · simp [member_logical]
      · rfl
    have hphysical :
        ((if attributes.physical then some s.physicalGroup else none).bind fun l =>
        member l .articleLength) = none := by
      split
      · simp [member_physical]
      · rfl
    have hhistorical :
        ((if attributes.historical then s.historicalGroup else none).bind fun l =>
        member l .articleLength) = none := by
      split
      · simpa using s.member_historical .articleLength
      · rfl
    rw [(s.ackSelect_laid idDst attributes).eq, get_mk]
    simp only [ackSelectParams, List.findSome?_append, value_slot, value_groupSlot,
      Option.bind_some, member_fileId, hlogical, hphysical, hhistorical]
    simp
  rw [getNum, hget]
  split
  · rw [Option.map_some, decodeNum_encodeNum (by omega)]
  · rfl

lemma fromFpdu_eq {f : Fpdu} (h : s.Normal)
    (hget : ∀ pi, pi ≠ .diag → pi ≠ .priority → f.get pi = s.said pi)
    (hpriority : ((f.get .priority).bind List.head?).getD 0 = s.priority)
    (hgroup : f.pgi .fileId = some s.fileIdGroup) :
    fromFpdu f = s := by
  have hgroupText (pi : Pi) : groupText f pi = (member s.fileIdGroup pi).map textOf := by
    rw [groupText, hgroup, Option.bind_some, member, Option.map_map]
    rfl
  have hrequester : groupText f .requester = s.requester := by
    rw [hgroupText, member_fileId, if_pos rfl, read_texts h.requester]
  have hserver : groupText f .server = s.server := by
    rw [hgroupText, member_fileId, if_neg (by decide), if_pos rfl, read_texts h.server]
  have hfileType : UInt64.ofNat ((f.getNum .fileType).getD 0) = s.fileType := by
    rw [read_num s.fileType.toNat_lt (hget _ (by decide) (by decide))]
    exact UInt64.ofNat_toNat
  have hfileName : (f.getText .fileName).getD "" = s.fileName := by
    rw [getText, hget _ (by decide) (by decide)]
    exact h.fileName.read
  have htransferId : f.transferId.getD 0 = s.transferId := by
    rw [Fpdu.transferId, hget _ (by decide) (by decide), said, Option.map_some,
      decodeNum_encodeNum (by have := s.transferId.toNat_lt; omega)]
    exact UInt32.ofNat_toNat
  have hrestarted : decide (f.getNum .restarted = some 1) = s.restarted := by
    rw [getNum, hget _ (by decide) (by decide), said]
    cases s.restarted <;> decide
  have hdataCode : (f.get .dataCode).bind List.head? = s.dataCode := by
    rw [hget _ (by decide) (by decide), said]
    cases s.dataCode <;> rfl
  have hmaxEntitySize : f.maxEntitySize.getD 0 = s.maxEntitySize := by
    have hlt := s.maxEntitySize.toNat_lt
    rw [Fpdu.maxEntitySize, read_num (by omega) (hget _ (by decide) (by decide)), Option.map_some,
      Option.getD_some, min_eq_left (by omega)]
    exact UInt16.ofNat_toNat
  have harticleFormat :
      ((f.get .articleFormat).map ArticleFormat.fromBytes).getD .fixed = s.articleFormat := by
    rw [hget _ (by decide) (by decide), said]
    cases s.articleFormat <;> decide
  have harticleLength :
      UInt16.ofNat (min ((f.getNum .articleLength).getD 0) 0xFFFF) = s.articleLength := by
    have hlt := s.articleLength.toNat_lt
    rw [read_num (by omega) (hget _ (by decide) (by decide)), Option.getD_some, min_eq_left (by omega)]
    exact UInt16.ofNat_toNat
  have horganisation : (f.get .fileOrganisation).bind List.head? = s.organisation := by
    rw [hget _ (by decide) (by decide), said]
    cases s.organisation <;> rfl
  have hlabel : f.getText .fileLabel = s.label := by
    rw [getText, hget _ (by decide) (by decide)]
    exact read_offered h.label
  have hreservationUnit : (f.get .reservationUnit).bind List.head? = s.reservationUnit := by
    rw [hget _ (by decide) (by decide), said]
    cases s.reservationUnit <;> rfl
  have hmaxReservation : UInt64.ofNat ((f.getNum .maxReservation).getD 0) = s.maxReservation := by
    rw [read_num s.maxReservation.toNat_lt (hget _ (by decide) (by decide))]
    exact UInt64.ofNat_toNat
  have hcreationDate : f.getText .creationDate = s.creationDate := by
    rw [getText, hget _ (by decide) (by decide)]
    exact read_texts h.creationDate
  have hextractionDate : f.getText .extractionDate = s.extractionDate := by
    rw [getText, hget _ (by decide) (by decide), said]
    cases hcreated : s.creationDate with
    | none =>
      have hnone : s.extractionDate = none := by
        have hdated := h.dated
        rw [hcreated] at hdated
        simpa using hdated
      rw [hnone]
      rfl
    | some created =>
      rw [Option.bind_some]
      exact read_texts h.extractionDate
  have hclientId : f.getText .clientId = s.clientId := by
    rw [getText, hget _ (by decide) (by decide)]
    exact read_texts h.clientId
  have hbankId : f.getText .bankId = s.bankId := by
    rw [getText, hget _ (by decide) (by decide)]
    exact read_texts h.bankId
  have haccess : f.getText .fileAccessControl = s.fileAccessControl := by
    rw [getText, hget _ (by decide) (by decide)]
    exact read_texts h.fileAccessControl
  have hfreeMessage : f.getText .freeMessage = s.freeMessage := by
    rw [getText, hget _ (by decide) (by decide)]
    exact read_offered h.freeMessage
  rw [fromFpdu, hrequester, hserver, hfileType, hfileName, htransferId, hrestarted, hdataCode,
    hpriority, hmaxEntitySize, harticleFormat, harticleLength, horganisation, hlabel, hreservationUnit,
    hmaxReservation, hcreationDate, hextractionDate, hclientId, hbankId, haccess, hfreeMessage]

end FileSpec

/-- A parameter that the template of the kind allows, and that is not long. -/
structure Fits (kind : FpduKind) (p : Param) : Prop where
  allowed : p.code ∈ kind.template.map ParamRule.code
  wellFormed : p.WellFormed
  short : paramLen p ≤ 512

section Fitting

variable {kind : FpduKind} {pi : Pi} {g : Pgi}

lemma fits_slot {v : Option Bytes} (hcode : pi.code ∈ kind.template.map ParamRule.code)
    (hmax : pi.maxLen ≤ 254) (hv : ∀ b ∈ v, b ≠ [] ∧ b.length ≤ pi.maxLen) :
    ∀ p ∈ slot pi v, Fits kind p := by
  refine slot_forall.mpr fun b hb => ?_
  obtain ⟨hne, hlen⟩ := hv b hb
  refine ⟨hcode, ⟨hne, .inr hlen⟩, ?_⟩
  rw [paramLen, unitLen]
  split <;> omega

lemma fits_groupSlot {items : Option (List (Pi × Bytes))}
    (hcode : g.code ∈ kind.template.map ParamRule.code)
    (hitems : ∀ l ∈ items, Param.Grouped (.pgi g l) ∧ (∀ i ∈ l, i.2 ≠ []) ∧
      (∀ m ∈ g.members, m.2 = true → ∃ i ∈ l, i.1 = m.1) ∧
      (l.map (fun i => unitLen i.2.length)).sum ≤ 500) :
    ∀ p ∈ groupSlot g items, Fits kind p := by
  refine groupSlot_forall.mpr fun l hl => ?_
  obtain ⟨⟨hne, hasc, hin⟩, hfilled, hmandatory, hlen⟩ := hitems l hl
  refine ⟨hcode, ⟨hne, hasc, fun i hi => ⟨hin i hi, hfilled i hi⟩, hmandatory⟩, ?_⟩
  rw [paramLen, unitLen]
  split <;> omega

lemma Fpdu.Laid.sound {f : Fpdu} {idDst idSrc last : UInt8} {params : List Param}
    (h : f.Laid kind idDst idSrc params last) (hfits : ∀ p ∈ params, Fits kind p)
    (hcount : params.length ≤ 20)
    (hpresent : ∀ r ∈ kind.template, r.mandatory = true → r.code ∈ params.map Param.code) :
    f.WellFormed ∧ f.encodedLen ≤ 65535 := by
  obtain ⟨rfl, -, hbuilt⟩ := h
  have hdata : ¬ kind.isData = true := by simp [show kind.isData = false from hbuilt.kind]
  have hsum : (params.map paramLen).sum ≤ params.length * 512 := by
    have hle := List.sum_le_card_nsmul (params.map paramLen) 512 ?_
    · simpa using hle
    · intro n hn
      obtain ⟨p, hp, rfl⟩ := List.mem_map.mp hn
      exact (hfits p hp).short
  constructor
  · rw [WellFormed, if_neg hdata]
    exact ⟨rfl, hbuilt.ascending, fun p hp => (hfits p hp).allowed, hpresent, fun p hp =>
      (hfits p hp).wellFormed⟩
  · rw [encodedLen, if_neg hdata, headerLen]
    show 6 + (params.map paramLen).sum ≤ 65535
    omega

end Fitting

namespace FileSpec

variable {s : FileSpec}

lemma fits_num (kind : FpduKind) (pi : Pi) {n : ℕ} (hcode : pi.code ∈ kind.template.map ParamRule.code)
    (hmax : 0 < pi.maxLen ∧ pi.maxLen ≤ 8) (hn : n < 256 ^ pi.maxLen) :
    ∀ p ∈ slot pi (some (encodeNum n)), Fits kind p := by
  have hlt : n < 2 ^ 64 := hn.trans_le ((Nat.pow_le_pow_right (by decide) hmax.2).trans (by decide))
  refine fits_slot hcode (by omega) ?_
  rintro b hb
  obtain rfl : encodeNum n = b := Option.some.inj hb
  refine ⟨encodeNum_ne_nil hlt, ?_⟩
  obtain ⟨k, hk⟩ : ∃ k, pi.maxLen = k + 1 := ⟨pi.maxLen - 1, by omega⟩
  rw [hk] at hn ⊢
  exact (encodeNum_length_le k hlt).mpr hn

lemma fits_texts (kind : FpduKind) {pi : Pi} {t : Option String}
    (hcode : pi.code ∈ kind.template.map ParamRule.code) (hmax : pi.maxLen ≤ 254)
    (ht : ∀ x ∈ t, Plain pi x) : ∀ p ∈ slot pi (t.map textBytes), Fits kind p := by
  refine fits_slot hcode hmax ?_
  intro b hb
  obtain ⟨x, hx, rfl⟩ := Option.map_eq_some_iff.mp hb
  exact ⟨(ht x hx).bytes_ne_nil, (ht x hx).bytes_length⟩

lemma fits_byte (kind : FpduKind) (pi : Pi) {o : Option UInt8}
    (hcode : pi.code ∈ kind.template.map ParamRule.code) (hmax : 1 ≤ pi.maxLen ∧ pi.maxLen ≤ 254) :
    ∀ p ∈ slot pi (o.map fun c => [c]), Fits kind p := by
  refine fits_slot hcode hmax.2 ?_
  intro b hb
  obtain ⟨c, -, rfl⟩ := Option.map_eq_some_iff.mp hb
  exact ⟨by simp, hmax.1⟩

lemma mem_filter_texts {pi : Pi} {t : Option String} (h : ∀ x ∈ t, Plain pi x) :
    ∀ x ∈ t.filter fun x => !x.isEmpty, Plain pi x :=
  fun x hx => h x (Option.filter_eq_some_iff.mp hx).1

lemma Normal.named (h : s.Normal) : s.Named :=
  ⟨fun t ht => textBytes_ne_nil.mp (h.requester t ht).bytes_ne_nil,
    fun t ht => textBytes_ne_nil.mp (h.server t ht).bytes_ne_nil⟩

lemma Normal.written (h : s.Normal) : Written s.fileName := textBytes_ne_nil.mp h.fileName.bytes_ne_nil

lemma Normal.labelled (h : s.Normal) : Offered s.label :=
  fun t ht => .inr (textBytes_ne_nil.mp (h.label t ht).bytes_ne_nil)

lemma Normal.datedTexts (h : s.Normal) : s.Dated :=
  ⟨fun t ht => textBytes_ne_nil.mp (h.creationDate t ht).bytes_ne_nil,
    fun _ t ht => textBytes_ne_nil.mp (h.extractionDate t ht).bytes_ne_nil⟩

lemma unitLen_le (n : ℕ) : unitLen n ≤ n + 4 := by
  rw [unitLen]
  split <;> omega

lemma item_length (pi : Pi) {v : Option Bytes} {k : ℕ} (hv : ∀ b ∈ v, b.length ≤ k) :
    ((item pi v).map fun i => unitLen i.2.length).sum ≤ k + 4 := by
  cases v with
  | none => simp [item]
  | some b =>
    have hle := unitLen_le b.length
    have hb := hv b rfl
    simp only [item, Option.map_some, Option.toList_some, List.map_cons, List.map_nil,
      List.sum_cons, List.sum_nil]
    omega

lemma texts_length {pi : Pi} {t : Option String} (h : ∀ x ∈ t, Plain pi x) :
    ∀ b ∈ t.map textBytes, b.length ≤ pi.maxLen := by
  intro b hb
  obtain ⟨x, hx, rfl⟩ := Option.map_eq_some_iff.mp hb
  exact (h x hx).bytes_length

lemma byte_length (o : Option UInt8) : ∀ b ∈ o.map fun c => [c], b.length ≤ 1 := by
  intro b hb
  obtain ⟨c, -, rfl⟩ := Option.map_eq_some_iff.mp hb
  exact le_rfl

lemma encodeNum_length {n : ℕ} (hn : n < 2 ^ 64) : (encodeNum n).length ≤ 8 :=
  (encodeNum_length_le 7 hn).mpr hn

lemma fileId_fits (h : s.Normal) (kind : FpduKind)
    (hcode : Pgi.fileId.code ∈ kind.template.map ParamRule.code) :
    ∀ p ∈ groupSlot .fileId (some s.fileIdGroup), Fits kind p := by
  refine fits_groupSlot hcode ?_
  rintro l hl
  obtain rfl : s.fileIdGroup = l := Option.some.inj hl
  refine ⟨s.fileIdGroup_grouped, (s.fileId_filled h.written).mpr h.named, ?_, ?_⟩
  · simp only [Pgi.members, fileIdGroup]
    simp
    exact ⟨⟨_, .inr (.inr rfl)⟩, ⟨_, .inr (.inr rfl)⟩⟩
  have hr := item_length .requester (texts_length h.requester)
  have hs := item_length .server (texts_length h.server)
  have htype := unitLen_le (encodeNum s.fileType.toNat).length
  have htype' := encodeNum_length s.fileType.toNat_lt
  have hname := unitLen_le (textBytes s.fileName).length
  have hname' := h.fileName.bytes_length
  simp only [Pi.maxLen] at hr hs hname'
  simp only [fileIdGroup, List.map_append, List.sum_append, List.map_cons, List.map_nil,
    List.sum_cons, List.sum_nil]
  omega

lemma logical_fits (h : s.Normal) (kind : FpduKind)
    (hcode : Pgi.logicalAttributes.code ∈ kind.template.map ParamRule.code) :
    ∀ p ∈ groupSlot .logicalAttributes (some s.logicalGroup), Fits kind p := by
  refine fits_groupSlot hcode ?_
  rintro l hl
  obtain rfl : s.logicalGroup = l := Option.some.inj hl
  refine ⟨s.logicalGroup_grouped, s.logical_filled.mpr h.labelled, by
    simp [Pgi.members, logicalGroup], ?_⟩
  have ho := item_length .fileOrganisation (k := 1) (byte_length s.organisation)
  have hl := item_length .fileLabel (texts_length (mem_filter_texts h.label))
  have hlen := unitLen_le (encodeNum s.articleLength.toNat).length
  have hlen' :=
    encodeNum_length (n := s.articleLength.toNat) (by have := s.articleLength.toNat_lt; omega)
  have hformat := unitLen_le [s.articleFormat.code].length
  simp only [Pi.maxLen] at hl
  simp only [logicalGroup, List.map_append, List.sum_append, List.map_cons, List.map_nil,
    List.sum_cons, List.sum_nil]
  rw [List.length_singleton] at *
  omega

lemma physical_fits (kind : FpduKind)
    (hcode : Pgi.physicalAttributes.code ∈ kind.template.map ParamRule.code) :
    ∀ p ∈ groupSlot .physicalAttributes (some s.physicalGroup), Fits kind p := by
  refine fits_groupSlot hcode ?_
  rintro l hl
  obtain rfl : s.physicalGroup = l := Option.some.inj hl
  refine ⟨s.physicalGroup_grouped, s.physical_filled, by simp [Pgi.members, physicalGroup], ?_⟩
  have hu := item_length .reservationUnit (k := 1) (byte_length s.reservationUnit)
  have hmax := unitLen_le (encodeNum s.maxReservation.toNat).length
  have hmax' := encodeNum_length s.maxReservation.toNat_lt
  simp only [physicalGroup, List.map_append, List.sum_append, List.map_cons, List.map_nil,
    List.sum_cons, List.sum_nil]
  omega

lemma historical_fits (h : s.Normal) (kind : FpduKind)
    (hcode : Pgi.historicalAttributes.code ∈ kind.template.map ParamRule.code) :
    ∀ p ∈ groupSlot .historicalAttributes s.historicalGroup, Fits kind p := by
  refine fits_groupSlot hcode ?_
  rintro l hl
  refine ⟨s.historicalGroup_grouped l hl, s.historical_filled.mpr h.datedTexts l hl, ?_⟩
  obtain ⟨created, hcreated, rfl⟩ := Option.map_eq_some_iff.mp hl
  refine ⟨by simp [Pgi.members], ?_⟩
  have hc := unitLen_le (textBytes created).length
  have hc' := (h.creationDate created hcreated).bytes_length
  have he := item_length .extractionDate (texts_length h.extractionDate)
  simp only [Pi.maxLen] at hc' he
  simp only [List.map_cons, List.sum_cons]
  omega

lemma restarted_fits (kind : FpduKind) (hcode : Pi.restarted.code ∈ kind.template.map ParamRule.code) :
    ∀ p ∈ slot .restarted (if s.restarted then some (encodeNum 1) else none), Fits kind p := by
  cases s.restarted with
  | true => exact fits_num kind .restarted hcode (by decide) (by decide)
  | false => exact fits_slot hcode (by decide) nofun

lemma create_fits (h : s.Normal) : ∀ p ∈ s.createParams, Fits .create p := by
  simp only [createParams, tailParams, List.forall_mem_append]
  have hfile := fileId_fits h .create (by decide)
  have hid := fits_num .create .transferId (by decide) (by decide) h.transferId
  have hcode := fits_byte .create .dataCode (o := s.dataCode) (by decide) (by decide)
  have hpriority := fits_byte .create .priority (o := some s.priority) (by decide) (by decide)
  have hsize := fits_num .create .maxEntitySize (by decide) (by decide) s.maxEntitySize.toNat_lt
  have hlogical := logical_fits h .create (by decide)
  have hphysical := physical_fits (s := s) .create (by decide)
  have hhistorical := historical_fits h .create (by decide)
  have hclient := fits_texts .create (by decide) (by decide) h.clientId
  have hbank := fits_texts .create (by decide) (by decide) h.bankId
  have haccess := fits_texts .create (by decide) (by decide) h.fileAccessControl
  have hmessage := fits_texts .create (by decide) (by decide) (mem_filter_texts h.freeMessage)
  exact ⟨⟨⟨⟨⟨⟨⟨⟨⟨⟨⟨⟨hfile, hid⟩, restarted_fits .create (by decide)⟩, hcode⟩, hpriority⟩, hsize⟩,
    hlogical⟩, hphysical⟩, hhistorical⟩, hclient⟩, hbank⟩, haccess⟩, hmessage⟩

lemma ackSelect_fits (h : s.Normal) : ∀ p ∈ s.ackSelectParams .all, Fits .ackSelect p := by
  simp only [ackSelectParams, RequestedAttributes.all, if_true, List.forall_mem_append]
  have hdiag : ∀ p ∈ slot .diag (some Diagnostic.ok.toBytes), Fits .ackSelect p := by
    refine fits_slot (by decide) (by decide) ?_
    rintro b hb
    obtain rfl : Diagnostic.ok.toBytes = b := Option.some.inj hb
    exact ⟨by decide, by decide⟩
  have hfile := fileId_fits h .ackSelect (by decide)
  have hid := fits_num .ackSelect .transferId (by decide) (by decide) h.transferId
  have hcode := fits_byte .ackSelect .dataCode (o := s.dataCode) (by decide) (by decide)
  have hsize := fits_num .ackSelect .maxEntitySize (by decide) (by decide) s.maxEntitySize.toNat_lt
  have hlogical := logical_fits h .ackSelect (by decide)
  have hphysical := physical_fits (s := s) .ackSelect (by decide)
  have hhistorical := historical_fits h .ackSelect (by decide)
  have hclient := fits_texts .ackSelect (by decide) (by decide) h.clientId
  have hbank := fits_texts .ackSelect (by decide) (by decide) h.bankId
  have hmessage := fits_texts .ackSelect (by decide) (by decide) (mem_filter_texts h.freeMessage)
  exact ⟨⟨⟨⟨⟨⟨⟨⟨⟨⟨hdiag, hfile⟩, hid⟩, hcode⟩, hsize⟩, hlogical⟩, hphysical⟩, hhistorical⟩, hclient⟩,
    hbank⟩, hmessage⟩

lemma slot_length (pi : Pi) (v : Option Bytes) : (slot pi v).length ≤ 1 := by
  cases v <;> simp [slot]

lemma groupSlot_length (g : Pgi) (items : Option (List (Pi × Bytes))) :
    (groupSlot g items).length ≤ 1 := by
  cases items <;> simp [groupSlot]

lemma create_sound (h : s.Normal) (idDst : UInt8) :
    (s.create idDst).WellFormed ∧ (s.create idDst).encodedLen ≤ 65535 := by
  refine (s.create_laid idDst).sound (create_fits h) ?_ ?_
  · simp only [createParams, tailParams, List.length_append]
    have := slot_length
    have := groupSlot_length
    grind
  · have hpresent : ∀ r ∈ FpduKind.template .create, r.mandatory = true →
        r.code = 9 ∨ r.code = 13 ∨ r.code = 17 ∨ r.code = 25 ∨ r.code = 30 ∨ r.code = 40 := by
      decide
    intro r hr hm
    have hcode := hpresent r hr hm
    simp only [createParams, tailParams, List.map_append, List.mem_append, slot,
      groupSlot, Option.map_some, Option.toList_some, List.map_cons, List.map_nil, List.mem_singleton]
    simp only [Param.code, Pi.code, Pgi.code]
    tauto

lemma ackSelect_sound (h : s.Normal) (idDst : UInt8) :
    (s.ackSelect idDst .all).WellFormed ∧ (s.ackSelect idDst .all).encodedLen ≤ 65535 := by
  refine (s.ackSelect_laid idDst .all).sound (ackSelect_fits h) ?_ ?_
  · simp only [ackSelectParams, List.length_append]
    have := slot_length
    have := groupSlot_length
    grind
  · have hpresent : ∀ r ∈ FpduKind.template .ackSelect, r.mandatory = true → r.code = 2 := by decide
    intro r hr hm
    rw [hpresent r hr hm]
    simp only [ackSelectParams, List.map_append, List.mem_append, slot, Option.map_some,
      Option.toList_some, List.map_cons, List.map_nil, List.mem_singleton]
    simp only [Param.code, Pi.code]
    tauto

lemma Normal.answered (h : s.Normal) : s.answered.Normal where
  requester := h.requester
  server := h.server
  fileName := h.fileName
  transferId := h.transferId
  label := h.label
  creationDate := h.creationDate
  extractionDate := h.extractionDate
  clientId := h.clientId
  bankId := h.bankId
  fileAccessControl := nofun
  freeMessage := h.freeMessage
  dated := h.dated

lemma create_read (h : s.Normal) (idDst : UInt8) : fromFpdu (s.create idDst) = s := by
  have hlaid := (s.create_laid idDst).eq
  refine fromFpdu_eq h ?_ ?_ ?_
  · intro pi _ _
    rw [hlaid, get_mk, create_says]
  · rw [hlaid, get_mk, create_says]
    rfl
  · rw [hlaid, pgi_mk, create_group]

lemma ackSelect_read (h : s.Normal) (idDst : UInt8) :
    fromFpdu (s.ackSelect idDst .all) = s.answered := by
  have hlaid := (s.ackSelect_laid idDst .all).eq
  refine fromFpdu_eq h.answered ?_ ?_ ?_
  · intro pi hdiag hpriority
    rw [hlaid, get_mk, ackSelect_says s pi hdiag hpriority]
  · -- an answer has no priority, and the priority of a file that is not said is 0
    have hnone : (s.ackSelectParams .all).findSome? (valueFor .priority) = none := by
      simp [ackSelectParams, List.findSome?_append, value_slot, value_groupSlot,
        member_fileId, member_logical, member_physical, member_historical, RequestedAttributes.all]
    rw [hlaid, get_mk, hnone]
    rfl
  · rw [hlaid, pgi_mk, ackSelect_group]
    rfl

/-- A file that is described in a request to write it is read from the frame as it was described, and so
is one in the answer to a request to read it, but for what such an answer does not say. -/
theorem survives (s : FileSpec) (h : s.Normal) (idDst : UInt8) :
    (∃ b f, (s.create idDst).encode = .ok b ∧ decode b = .ok f ∧ fromFpdu f = s) ∧
      ∃ b f, (s.ackSelect idDst .all).encode = .ok b ∧ decode b = .ok f ∧
        fromFpdu f = { s with restarted := false, priority := 0, fileAccessControl := none } := by
  constructor
  · obtain ⟨hwf, hlen⟩ := create_sound h idDst
    obtain ⟨b, hb, -, -, hd⟩ := decode_encode _ hwf hlen
    exact ⟨b, _, hb, hd, create_read h idDst⟩
  · obtain ⟨hwf, hlen⟩ := ackSelect_sound h idDst
    obtain ⟨b, hb, -, -, hd⟩ := decode_encode _ hwf hlen
    exact ⟨b, _, hb, hd, ackSelect_read h idDst⟩

def receipts : FileSpec :=
  { FileSpec.default with
    requester := some "PARIS", fileType := 300, fileName := "REÇUS", transferId := 65536,
    restarted := true, priority := 2, articleLength := 512, label := some "reçus du mois",
    maxReservation := 5,
    creationDate := some "260101120000", fileAccessControl := some "SECRET" }

theorem survives_receipts : receipts.Normal ∧
    (∃ b f, (receipts.create 7).encode = .ok b ∧ decode b = .ok f ∧ fromFpdu f = receipts) ∧
      ∃ b f, (receipts.ackSelect 7 .all).encode = .ok b ∧ decode b = .ok f ∧
        fromFpdu f = { receipts with restarted := false, priority := 0, fileAccessControl := none } := by
  have hplain (pi : Pi) (t : String) (h : t.toList.all (·.toNat < 256) ∧ t ≠ "" ∧
      t.toList.getLast?.all (!whitespace ·) ∧ t.toList.length ≤ pi.maxLen) : Plain pi t := by
    obtain ⟨hlatin, hnonempty, htrimmed, hshort⟩ := h
    refine ⟨fun c hc => ?_, hnonempty, fun c hc => ?_, hshort⟩
    · simpa using List.all_eq_true.1 hlatin c hc
    · rw [Option.mem_def.1 hc] at htrimmed
      simpa using htrimmed
  have hnormal : receipts.Normal := {
    requester := fun t ht => Option.some.inj ht ▸ hplain _ _ (by decide)
    server := nofun
    fileName := hplain _ _ (by decide)
    transferId := by decide
    label := fun t ht => Option.some.inj ht ▸ hplain _ _ (by decide)
    creationDate := fun t ht => Option.some.inj ht ▸ hplain _ _ (by decide)
    extractionDate := nofun
    clientId := nofun
    bankId := nofun
    fileAccessControl := fun t ht => Option.some.inj ht ▸ hplain _ _ (by decide)
    freeMessage := nofun
    dated := nofun }
  exact ⟨hnormal, survives receipts hnormal 7⟩

end FileSpec

end PesitWizard.Core
