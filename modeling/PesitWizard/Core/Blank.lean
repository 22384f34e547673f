import Mathlib.Data.List.TakeWhile
import PesitWizard.Core.Described

/-! Which texts keep a request or an answer from being encoded. -/

namespace PesitWizard.Core

/-- A text with a character that is no space. -/
def Written (t : String) : Prop := ∃ c ∈ t.toList, Fpdu.whitespace c = false

/-- A text that is sent as it is. -/
def Stated (t : Option String) : Prop := ∀ x ∈ t, Written x

/-- A text that is left out when it is empty. -/
def Offered (t : Option String) : Prop := ∀ x ∈ t, x = "" ∨ Written x

namespace Fpdu

def Sendable (f : Fpdu) : Prop := ∀ code, f.encode ≠ .error (.emptyValue code)

lemma encodeItems_error {items : List (Pi × Bytes)} {inner : Bytes} {e : EncodeError}
    (h : encodeItems items inner = .error e) : ∃ code, e = .emptyValue code := by
  induction items generalizing inner with
  | nil => cases h
  | cons i items ih =>
    rw [encodeItems] at h
    split at h
    · exact ⟨_, (Except.error.inj h).symm⟩
    · exact ih h

lemma encodeParams_error {params : List Param} {out : Bytes} {e : EncodeError}
    (h : encodeParams params out = .error e) : ∃ code, e = .emptyValue code := by
  induction params generalizing out with
  | nil => cases h
  | cons p params ih =>
    cases p with
    | pi q value =>
      rw [encodeParams] at h
      split at h
      · exact ⟨_, (Except.error.inj h).symm⟩
      · exact ih h
    | pgi g items =>
      rw [encodeParams] at h
      split at h
      · rename_i hitems
        rw [← Except.error.inj h]
        exact encodeItems_error hitems
      · exact ih h

lemma sendable_iff {f : Fpdu} (hkind : f.kind.isData = false) :
    f.Sendable ↔ maxFpduLen < f.encodedLen ∨ ∀ p ∈ f.params, Filled p := by
  have hdata : ¬ f.kind.isData = true := by simp [hkind]
  by_cases hlen : maxFpduLen < f.encodedLen
  · refine iff_of_true ?_ (.inl hlen)
    intro code h
    rw [encode, encodeInto, if_pos hlen] at h
    cases h
  · rw [or_iff_right hlen]
    constructor
    · intro h
      cases hencode : f.encode with
      | ok b => exact (encodeInto_iff.mp hencode).1.2 hdata
      | error e =>
        have hparams := hencode
        simp only [encode, encodeInto, if_neg hlen, if_neg hdata] at hparams
        obtain ⟨code, rfl⟩ := encodeParams_error hparams
        exact absurd hencode (h code)
    · intro hfilled code h
      have hok := encodeInto_encodable (f := f) ⟨Nat.not_lt.mp hlen, fun _ => hfilled⟩ []
      rw [← encode, h] at hok
      cases hok

lemma Laid.sendable_iff {f : Fpdu} {kind : FpduKind} {idDst idSrc last : UInt8} {params : List Param}
    (h : f.Laid kind idDst idSrc params last) :
    f.Sendable ↔ maxFpduLen < f.encodedLen ∨ ∀ p ∈ params, Filled p := by
  obtain ⟨rfl, -, hbuilt⟩ := h
  exact Fpdu.sendable_iff hbuilt.kind

lemma textBytes_ne_nil {t : String} : textBytes t ≠ [] ↔ Written t := by
  simp [textBytes, Written, List.dropWhile_eq_nil_iff]

lemma filled_append_slot {params : List Param} {pi : Pi} {v : Option Bytes} :
    (∀ p ∈ params ++ slot pi v, Filled p) ↔ (∀ p ∈ params, Filled p) ∧ ∀ b ∈ v, b ≠ [] := by
  rw [List.forall_mem_append, slot_forall]
  rfl

lemma filled_append_group {params : List Param} {g : Pgi} {items : Option (List (Pi × Bytes))} :
    (∀ p ∈ params ++ groupSlot g items, Filled p) ↔ (∀ p ∈ params, Filled p) ∧ ∀ l ∈ items,
    ∀ i ∈ l, i.2 ≠ [] := by
  rw [List.forall_mem_append, groupSlot_forall]
  rfl

/-- A parameter with a value that is never empty says nothing about the texts. -/
lemma filled_skip {params : List Param} {pi : Pi} {v : Option Bytes} (h : ∀ b ∈ v, b ≠ []) :
    (∀ p ∈ params ++ slot pi v, Filled p) ↔ ∀ p ∈ params, Filled p := by
  rw [filled_append_slot]
  exact and_iff_left h

lemma filled_item {pi : Pi} {v : Option Bytes} :
    (∀ i ∈ FileSpec.item pi v, i.2 ≠ []) ↔ ∀ b ∈ v, b ≠ [] := by
  cases v <;> simp [FileSpec.item]

lemma filled_some {b : Bytes} (h : b ≠ []) : ∀ x ∈ some b, x ≠ [] := by
  rintro x hx
  rwa [← Option.some.inj hx]

lemma filled_given {items : List (Pi × Bytes)} :
    (∀ l ∈ some items, ∀ i ∈ l, i.2 ≠ []) ↔ ∀ i ∈ items, i.2 ≠ [] := by
  simp only [Option.mem_some_iff, forall_eq']

lemma filled_texts {t : Option String} : (∀ b ∈ t.map textBytes, b ≠ []) ↔ Stated t := by
  cases t <;> simp [Stated, textBytes_ne_nil]

lemma stated_filter {t : Option String} : Stated (t.filter fun x => !x.isEmpty) ↔ Offered t := by
  cases t with
  | none => simp [Stated, Offered]
  | some x => by_cases hx : x = "" <;> simp [Stated, Offered, hx, Option.filter_some]

lemma filled_num {n : ℕ} (hn : n < 2 ^ 64) : encodeNum n ≠ [] := encodeNum_ne_nil hn

lemma one_filled : encodeNum 1 ≠ [] := filled_num (by omega)

lemma filled_flag {c : Prop} [Decidable c] {b : Bytes} (hb : b ≠ []) :
    ∀ x ∈ (if c then some b else none), x ≠ [] := by
  intro x hx
  rw [FileSpec.mem_ite_some hx]
  exact hb

lemma filled_byte {o : Option UInt8} : ∀ x ∈ o.map fun c => [c], x ≠ [] := by
  cases o <;> simp

end Fpdu

namespace FileSpec

open Fpdu

variable (s : FileSpec)

/-- The texts that name a file and its partners. -/
structure Named : Prop where
  requester : Stated s.requester
  server : Stated s.server

structure Dated : Prop where
  created : Stated s.creationDate
  extracted : s.creationDate.isSome → Stated s.extractionDate

lemma fileId_filled (hname : Written s.fileName) : (∀ i ∈ s.fileIdGroup, i.2 ≠ []) ↔ s.Named := by
  have hnum : encodeNum s.fileType.toNat ≠ [] := filled_num s.fileType.toNat_lt
  rw [fileIdGroup, List.forall_mem_append, List.forall_mem_append, filled_item, filled_item,
    filled_texts, filled_texts]
  constructor
  · rintro ⟨⟨hr, hs⟩, -⟩
    exact ⟨hr, hs⟩
  · rintro ⟨hr, hs⟩
    refine ⟨⟨hr, hs⟩, ?_⟩
    simp [hnum, textBytes_ne_nil.mpr hname]

lemma logical_filled : (∀ i ∈ s.logicalGroup, i.2 ≠ []) ↔ Offered s.label := by
  have hnum : encodeNum s.articleLength.toNat ≠ [] :=
    filled_num (by have := s.articleLength.toNat_lt; omega)
  rw [logicalGroup, List.forall_mem_append, List.forall_mem_append, filled_item, filled_item,
    filled_texts, stated_filter]
  constructor
  · exact fun h => h.2
  · intro h
    refine ⟨⟨?_, filled_byte⟩, h⟩
    simp [hnum]

lemma physical_filled : ∀ i ∈ s.physicalGroup, i.2 ≠ [] := by
  have hnum : encodeNum s.maxReservation.toNat ≠ [] := filled_num s.maxReservation.toNat_lt
  rw [physicalGroup, List.forall_mem_append, filled_item]
  exact ⟨filled_byte, by simp [hnum]⟩

lemma historical_filled : (∀ l ∈ s.historicalGroup, ∀ i ∈ l, i.2 ≠ []) ↔ s.Dated := by
  cases hcreated : s.creationDate with
  | none =>
    refine iff_of_true ?_ ⟨?_, ?_⟩
    · simp [historicalGroup, hcreated]
    · simp [Stated, hcreated]
    · simp [hcreated]
  | some created =>
    have hgroup : s.historicalGroup =
        some ((.creationDate, textBytes created) ::
        item .extractionDate (s.extractionDate.map textBytes)) := by
      simp [historicalGroup, hcreated]
    have hstated : Stated s.creationDate ↔ Written created := by simp [hcreated, Stated]
    rw [hgroup]
    simp only [Option.mem_some_iff, forall_eq', List.forall_mem_cons, filled_item, filled_texts,
      textBytes_ne_nil]
    constructor
    · rintro ⟨hc, he⟩
      exact ⟨hstated.mpr hc, fun _ => he⟩
    · rintro ⟨hc, he⟩
      exact ⟨hstated.mp hc, he (by simp [hcreated])⟩

lemma tail_filled {params : List Param} : (∀ p ∈ s.tailParams params, Filled p) ↔
    (∀ p ∈ params, Filled p) ∧ Stated s.clientId ∧ Stated s.bankId ∧ Stated s.fileAccessControl ∧
    Offered s.freeMessage := by
  rw [tailParams]
  simp only [filled_append_slot, filled_texts, stated_filter, and_assoc]

lemma size_filled : ∀ b ∈ some (encodeNum s.maxEntitySize.toNat), b ≠ [] :=
  filled_some (filled_num (by have := s.maxEntitySize.toNat_lt; omega))

variable {s}

lemma named_filled (hname : Written s.fileName) {params : List Param}
    (hparams : ∀ p ∈ params, Filled p) :
    (∀ p ∈ params ++ groupSlot .fileId (some s.fileIdGroup) ++
        slot .transferId (some (encodeNum s.transferId.toNat)), Filled p) ↔ s.Named := by
  have hnum : encodeNum s.transferId.toNat ≠ [] := filled_num (by have := s.transferId.toNat_lt; omega)
  rw [filled_skip (filled_some hnum), filled_append_group, filled_given, s.fileId_filled hname]
  exact and_iff_right hparams

lemma named_filled_first (hname : Written s.fileName) :
    (∀ p ∈ groupSlot .fileId (some s.fileIdGroup) ++
        slot .transferId (some (encodeNum s.transferId.toNat)), Filled p) ↔ s.Named :=
  named_filled hname (show ∀ p ∈ ([] : List Param), Filled p by simp)

lemma create_filled (hname : Written s.fileName) : (∀ p ∈ s.createParams, Filled p) ↔
    ((s.Named ∧ Offered s.label) ∧ s.Dated) ∧ Stated s.clientId ∧ Stated s.bankId ∧
    Stated s.fileAccessControl ∧
      Offered s.freeMessage := by
  rw [createParams, tail_filled, filled_append_group, s.historical_filled,
    filled_append_group, filled_given, and_iff_left s.physical_filled, filled_append_group, filled_given,
    s.logical_filled, filled_skip s.size_filled, filled_skip (filled_some (by simp)),
    filled_skip filled_byte, filled_skip (filled_flag one_filled),
    named_filled_first hname]

lemma select_filled (hname : Written s.fileName) (attributes : RequestedAttributes) :
    (∀ p ∈ s.selectParams attributes, Filled p) ↔
      s.Named ∧ Stated s.clientId ∧ Stated s.bankId ∧ Stated s.fileAccessControl ∧
      Offered s.freeMessage := by
  rw [selectParams, tail_filled, filled_skip s.size_filled, filled_skip (filled_some (by simp)),
    filled_skip (filled_flag one_filled), filled_skip (filled_flag (by simp)), named_filled_first hname]

lemma filled_if {c : Bool} {items : Option (List (Pi × Bytes))} {P : Prop}
    (h : (∀ l ∈ items, ∀ i ∈ l, i.2 ≠ []) ↔ P) :
    (∀ l ∈ (if c then items else none), ∀ i ∈ l, i.2 ≠ []) ↔ (c = true → P) := by
  cases c with
  | false => simp
  | true => simpa using h

lemma ackSelect_filled (hname : Written s.fileName) (attributes : RequestedAttributes) :
    (∀ p ∈ s.ackSelectParams attributes, Filled p) ↔
      ((((s.Named ∧ (attributes.logical = true → Offered s.label)) ∧
        (attributes.historical = true → s.Dated)) ∧
        Stated s.clientId) ∧ Stated s.bankId) ∧ Offered s.freeMessage := by
  have hdiag : ∀ p ∈ slot .diag (some Diagnostic.ok.toBytes), Filled p := by
    simp [slot, Filled, Diagnostic.toBytes]
  have hphysical :
      ∀ l ∈ (if attributes.physical then some s.physicalGroup else none), ∀ i ∈ l, i.2 ≠ [] := by
    intro l hl
    rw [mem_ite_some hl]
    exact s.physical_filled
  rw [ackSelectParams, filled_append_slot, filled_texts, stated_filter, filled_append_slot, filled_texts,
    filled_append_slot, filled_texts, filled_append_group, filled_if s.historical_filled,
    filled_append_group, and_iff_left hphysical, filled_append_group,
    filled_if (filled_given.trans s.logical_filled), filled_skip s.size_filled, filled_skip filled_byte,
    named_filled hname hdiag]

lemma msg_filled (hname : Written s.fileName) (expectsReply : Bool) (message : Option Bytes) :
    (∀ p ∈ s.msgParams expectsReply message, Filled p) ↔
      ((s.Named ∧ s.Dated) ∧ Stated s.clientId) ∧ Stated s.bankId := by
  have hmessage : ∀ b ∈ message.filter (fun m => !m.isEmpty), b ≠ [] := by
    intro b hb
    have h := (Option.filter_eq_some_iff.mp hb).2
    simpa using h
  rw [msgParams, filled_skip hmessage, filled_append_slot, filled_texts,
    filled_append_slot, filled_texts, filled_append_group, s.historical_filled,
    filled_skip (filled_some (by simp)), filled_skip filled_byte,
    filled_skip (filled_flag (by simp)), named_filled_first hname]

end FileSpec

namespace ConnectParams

open Fpdu

lemma build_filled {c : ConnectParams} (hrequester : Written c.requester) (hserver : Written c.server) :
    (∀ p ∈ c.buildParams, Filled p) ↔ Offered c.password ∧ Offered c.freeMessage := by
  have htimeout : ∀ b ∈ c.timeout.map fun t => encodeNum t.toNat, b ≠ [] := by
    intro b hb
    obtain ⟨t, -, rfl⟩ := Option.map_eq_some_iff.mp hb
    exact filled_num (by have := t.toNat_lt; omega)
  have hversion : encodeNum c.version.code ≠ [] := filled_num (by cases c.version <;> decide)
  have haccess : encodeNum c.access.code ≠ [] := filled_num (by cases c.access <;> decide)
  have hfirst : ∀ p ∈ slot .crc (if c.crc then some (encodeNum 1) else none), Filled p :=
    slot_forall.mpr (filled_flag one_filled)
  rw [buildParams, filled_append_slot, filled_texts, stated_filter, filled_skip htimeout,
    filled_skip (filled_flag one_filled), filled_skip (filled_some haccess),
    filled_skip (filled_flag (by simp [SyncOption.toBytes])), filled_skip (filled_some hversion),
    filled_append_slot, filled_texts, stated_filter,
    filled_skip (filled_some (textBytes_ne_nil.mpr hserver)),
    filled_skip (filled_some (textBytes_ne_nil.mpr hrequester)), and_iff_right hfirst]

end ConnectParams

/-- The texts that a request names its partners and its file by. -/
structure Mandatory (c : ConnectParams) (s : FileSpec) : Prop where
  requester : Written c.requester
  server : Written c.server
  fileName : Written s.fileName

def Long (f : Fpdu) : Prop := maxFpduLen < f.encodedLen

/-- An FPDU is sendable when it is refused for its length, or when its optional texts are all
written or left out. -/
theorem sendable_texts {c : ConnectParams} {s : FileSpec} (h : Mandatory c s) :
    (∀ idSrc, (c.build idSrc).Sendable ↔ Long (c.build idSrc) ∨ Offered c.password ∧
      Offered c.freeMessage) ∧
    (∀ idDst, (s.create idDst).Sendable ↔ Long (s.create idDst) ∨
      ((s.Named ∧ Offered s.label) ∧ s.Dated) ∧
      Stated s.clientId ∧ Stated s.bankId ∧ Stated s.fileAccessControl ∧ Offered s.freeMessage) ∧
    (∀ idDst attributes, (s.select idDst attributes).Sendable ↔ Long (s.select idDst attributes) ∨
      s.Named ∧ Stated s.clientId ∧ Stated s.bankId ∧ Stated s.fileAccessControl ∧
      Offered s.freeMessage) ∧
    (∀ idDst attributes, (s.ackSelect idDst attributes).Sendable ↔ Long (s.ackSelect idDst attributes) ∨
      ((((s.Named ∧ (attributes.logical = true → Offered s.label)) ∧
        (attributes.historical = true → s.Dated)) ∧
        Stated s.clientId) ∧ Stated s.bankId) ∧ Offered s.freeMessage) ∧
    ∀ kind ∈ [FpduKind.msg, .msgDm], ∀ idDst expectsReply message,
      (Builder.msg kind idDst s expectsReply message).Sendable ↔
      Long (Builder.msg kind idDst s expectsReply message) ∨
        ((s.Named ∧ s.Dated) ∧ Stated s.clientId) ∧ Stated s.bankId := by
  refine ⟨fun idSrc => ?_, fun idDst => ?_, fun idDst attributes => ?_, fun idDst attributes => ?_, ?_⟩
  · rw [(c.build_laid idSrc).sendable_iff, ConnectParams.build_filled h.requester h.server]
    rfl
  · rw [(s.create_laid idDst).sendable_iff, FileSpec.create_filled h.fileName]
    rfl
  · rw [(s.select_laid idDst attributes).sendable_iff, FileSpec.select_filled h.fileName attributes]
    rfl
  · rw [(s.ackSelect_laid idDst attributes).sendable_iff,
      FileSpec.ackSelect_filled h.fileName attributes]
    rfl
  · intro kind hkind idDst expectsReply message
    have hdata : kind.isData = false := by
      revert kind
      decide
    rw [(s.msg_laid hdata idDst expectsReply message).sendable_iff,
      FileSpec.msg_filled h.fileName expectsReply message]
    rfl

/-- A file that is sent under the number 7 with these identifiers of the client and of the bank. -/
def fileFor (clientId bankId : Option String) : FileSpec :=
  { FileSpec.default with fileName := "F", transferId := 7, clientId := clientId, bankId := bankId }

def callerWith (password : Option String) : ConnectParams :=
  ⟨"P", "S", password, .e, .none, .mixed, false, false, none, none⟩

lemma mandatory_sample (password clientId bankId : Option String) :
    Mandatory (callerWith password) (fileFor clientId bankId) :=
  ⟨⟨'P', by simp [callerWith], by decide⟩, ⟨'S', by simp [callerWith], by decide⟩,
    ⟨'F', by simp [fileFor], by decide⟩⟩

theorem sendable_texts_sample : ((fileFor none (some "B")).create 1).Sendable := by
  refine ((sendable_texts (mandatory_sample none none (some "B"))).2.1 1).mpr
    (.inr ⟨⟨⟨?_, nofun⟩, ?_⟩, nofun, ?_, nofun, nofun⟩)
  · exact ⟨nofun, nofun⟩
  · exact ⟨nofun, nofun⟩
  · rintro x hx
    obtain rfl : "B" = x := Option.some.inj hx
    exact ⟨'B', by simp, by decide⟩

/-- A password of one space is not empty before it is trimmed, and empty afterwards. -/
theorem password_unsendable :
    ¬ ∀ (c : ConnectParams) (s : FileSpec), Mandatory c s → ∀ idSrc, (c.build idSrc).Sendable := by
  intro h
  exact h (callerWith (some " ")) _ (mandatory_sample (some " ") none none) 1 5 (by decide)

end PesitWizard.Core
