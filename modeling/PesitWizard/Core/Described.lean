import PesitWizard.Core.Layout

/-! Which parameters the requests and answers have that name a partner, describe a file or
agree on the limits. -/

namespace PesitWizard.Core

open Fpdu

def ConnectParams.buildParams (c : ConnectParams) : List Param :=
  slot .crc (if c.crc then some (encodeNum 1) else none) ++
    slot .requester (some (textBytes c.requester)) ++ slot .server (some (textBytes c.server)) ++
    slot .accessControl ((c.password.filter (fun p => !p.isEmpty)).map textBytes) ++
    slot .version (some (encodeNum c.version.code)) ++
    slot .syncOption (if c.sync.enabled then some c.sync.toBytes else none) ++
    slot .accessType (some (encodeNum c.access.code)) ++
    slot .resync (if c.resync then some (encodeNum 1) else none) ++
    slot .timeout (c.timeout.map fun t => encodeNum t.toNat) ++
    slot .freeMessage ((c.freeMessage.filter (fun m => !m.isEmpty)).map textBytes)

lemma ConnectParams.build_laid (c : ConnectParams) (idSrc : UInt8) :
    (c.build idSrc).Laid .connect 0 idSrc c.buildParams 99 := by
  have h := (Laid.start .connect rfl 0 idSrc).option .crc (by decide)
    (if c.crc then some (encodeNum 1) else none)
  have h := (h.value .requester (by decide) (textBytes c.requester)).value .server (by decide)
    (textBytes c.server)
  have h := h.option .accessControl (by decide) ((c.password.filter (fun p => !p.isEmpty)).map textBytes)
  have h := h.value .version (by decide) (encodeNum c.version.code)
  have h := h.option .syncOption (by decide) (if c.sync.enabled then some c.sync.toBytes else none)
  have h := h.value .accessType (by decide) (encodeNum c.access.code)
  have h := h.option .resync (by decide) (if c.resync then some (encodeNum 1) else none)
  have h := h.option .timeout (by decide) (c.timeout.map fun t => encodeNum t.toNat)
  exact h.option .freeMessage (by decide) ((c.freeMessage.filter (fun m => !m.isEmpty)).map textBytes)

namespace ConnectParams

variable (c : ConnectParams) (idSrc : UInt8)

lemma build_built : (c.build idSrc).Built := (c.build_laid idSrc).built

lemma build_get_syncOption :
    (c.build idSrc).get .syncOption = if c.sync.enabled then some c.sync.toBytes else none := by
  rw [(c.build_laid idSrc).eq, get_mk]
  simp [buildParams, List.findSome?_append, value_slot]

lemma build_get_resync :
    (c.build idSrc).get .resync = if c.resync then some (encodeNum 1) else none := by
  rw [(c.build_laid idSrc).eq, get_mk]
  simp [buildParams, List.findSome?_append, value_slot]

end ConnectParams

namespace FileSpec

variable (s : FileSpec)

def tailParams (s : FileSpec) (params : List Param) : List Param :=
  params ++ slot .clientId (s.clientId.map textBytes) ++ slot .bankId (s.bankId.map textBytes) ++
    slot .fileAccessControl (s.fileAccessControl.map textBytes) ++
    slot .freeMessage ((s.freeMessage.filter (fun m => !m.isEmpty)).map textBytes)

lemma commonTail_laid {f : Fpdu} {kind : FpduKind} {idDst idSrc last : UInt8} {params : List Param}
    (h : f.Laid kind idDst idSrc params last) (hlast : last < 61) :
    (s.commonTail f).Laid kind idDst idSrc (s.tailParams params) 99 := by
  have h := (h.option .clientId hlast (s.clientId.map textBytes)).option .bankId (by decide)
    (s.bankId.map textBytes)
  have h := h.option .fileAccessControl (by decide) (s.fileAccessControl.map textBytes)
  exact h.option .freeMessage (by decide) ((s.freeMessage.filter (fun m => !m.isEmpty)).map textBytes)

def createParams : List Param :=
  s.tailParams (groupSlot .fileId (some s.fileIdGroup) ++
    slot .transferId (some (encodeNum s.transferId.toNat)) ++
    slot .restarted (if s.restarted then some (encodeNum 1) else none) ++
    slot .dataCode (s.dataCode.map fun c => [c]) ++ slot .priority (some [s.priority]) ++
    slot .maxEntitySize (some (encodeNum s.maxEntitySize.toNat)) ++
    groupSlot .logicalAttributes (some s.logicalGroup) ++
    groupSlot .physicalAttributes (some s.physicalGroup) ++
    groupSlot .historicalAttributes s.historicalGroup)

lemma create_laid (idDst : UInt8) : (s.create idDst).Laid .create idDst 0 s.createParams 99 := by
  have h := ((Laid.start .create rfl idDst 0).pgi (by decide) s.fileIdGroup_grouped).value
    .transferId (by decide) (encodeNum s.transferId.toNat)
  have h := h.option .restarted (by decide) (if s.restarted then some (encodeNum 1) else none)
  have h := (h.option .dataCode (by decide) (s.dataCode.map fun c => [c])).value .priority (by decide)
    [s.priority]
  have h := h.value .maxEntitySize (by decide) (encodeNum s.maxEntitySize.toNat)
  have h := (h.pgi (by decide) s.logicalGroup_grouped).pgi (by decide) s.physicalGroup_grouped
  exact s.commonTail_laid (h.group (by decide) _ s.historicalGroup_grouped) (by decide)

def selectParams (attributes : RequestedAttributes) : List Param :=
  s.tailParams (groupSlot .fileId (some s.fileIdGroup) ++
    slot .transferId (some (encodeNum s.transferId.toNat)) ++
    slot .requestedAttributes (if attributes.code ≠ 0 then some [attributes.code] else none) ++
    slot .restarted (if s.restarted then some (encodeNum 1) else none) ++
    slot .priority (some [s.priority]) ++ slot .maxEntitySize (some (encodeNum s.maxEntitySize.toNat)))

lemma select_laid (idDst : UInt8) (attributes : RequestedAttributes) :
    (s.select idDst attributes).Laid .select idDst 0 (s.selectParams attributes) 99 := by
  have h := ((Laid.start .select rfl idDst 0).pgi (by decide) s.fileIdGroup_grouped).value
    .transferId (by decide) (encodeNum s.transferId.toNat)
  have h := h.option .requestedAttributes (by decide)
    (if attributes.code ≠ 0 then some [attributes.code] else none)
  have h := h.option .restarted (by decide) (if s.restarted then some (encodeNum 1) else none)
  have h := (h.value .priority (by decide) [s.priority]).value .maxEntitySize (by decide)
    (encodeNum s.maxEntitySize.toNat)
  exact s.commonTail_laid h (by decide)

def ackSelectParams (attributes : RequestedAttributes) : List Param :=
  slot .diag (some Diagnostic.ok.toBytes) ++ groupSlot .fileId (some s.fileIdGroup) ++
    slot .transferId (some (encodeNum s.transferId.toNat)) ++
    slot .dataCode (s.dataCode.map fun c => [c]) ++
    slot .maxEntitySize (some (encodeNum s.maxEntitySize.toNat)) ++
    groupSlot .logicalAttributes (if attributes.logical then some s.logicalGroup else none) ++
    groupSlot .physicalAttributes (if attributes.physical then some s.physicalGroup else none) ++
    groupSlot .historicalAttributes (if attributes.historical then s.historicalGroup else none) ++
    slot .clientId (s.clientId.map textBytes) ++ slot .bankId (s.bankId.map textBytes) ++
    slot .freeMessage ((s.freeMessage.filter (fun m => !m.isEmpty)).map textBytes)

lemma ackSelect_laid (idDst : UInt8) (attributes : RequestedAttributes) :
    (s.ackSelect idDst attributes).Laid .ackSelect idDst 0 (s.ackSelectParams attributes) 99 := by
  have h := ((Laid.start .ackSelect rfl idDst 0).value .diag (by decide) Diagnostic.ok.toBytes).pgi
    (by decide) s.fileIdGroup_grouped
  have h := (h.value .transferId (by decide) (encodeNum s.transferId.toNat)).option .dataCode (by decide)
    (s.dataCode.map fun c => [c])
  have h := h.value .maxEntitySize (by decide) (encodeNum s.maxEntitySize.toNat)
  have h := h.group (by decide) (if attributes.logical then some s.logicalGroup else none)
    fun l hl => mem_ite_some hl ▸ s.logicalGroup_grouped
  have h := h.group (by decide) (if attributes.physical then some s.physicalGroup else none)
    fun l hl => mem_ite_some hl ▸ s.physicalGroup_grouped
  have h := h.group (by decide) (if attributes.historical then s.historicalGroup else none)
    fun l hl => s.historicalGroup_grouped l (mem_ite_none hl)
  have h := (h.option .clientId (by decide) (s.clientId.map textBytes)).option .bankId (by decide)
    (s.bankId.map textBytes)
  exact h.option .freeMessage (by decide) ((s.freeMessage.filter (fun m => !m.isEmpty)).map textBytes)

def msgParams (expectsReply : Bool) (message : Option Bytes) : List Param :=
  groupSlot .fileId (some s.fileIdGroup) ++ slot .transferId (some (encodeNum s.transferId.toNat)) ++
    slot .requestedAttributes (if expectsReply then some [1] else none) ++
    slot .dataCode (s.dataCode.map fun c => [c]) ++ slot .priority (some [s.priority]) ++
    groupSlot .historicalAttributes s.historicalGroup ++ slot .clientId (s.clientId.map textBytes) ++
    slot .bankId (s.bankId.map textBytes) ++ slot .message (message.filter (fun m => !m.isEmpty))

lemma msg_laid {kind : FpduKind} (hkind : kind.isData = false) (idDst : UInt8) (expectsReply : Bool)
    (message : Option Bytes) :
    (Builder.msg kind idDst s expectsReply message).Laid kind idDst 0
    (s.msgParams expectsReply message) 91 := by
  have h := ((Laid.start kind hkind idDst 0).pgi (by decide) s.fileIdGroup_grouped).value
    .transferId (by decide) (encodeNum s.transferId.toNat)
  have h := h.option .requestedAttributes (by decide) (if expectsReply then some [1] else none)
  have h := (h.option .dataCode (by decide) (s.dataCode.map fun c => [c])).value .priority (by decide)
    [s.priority]
  have h := h.group (by decide) _ s.historicalGroup_grouped
  have h := (h.option .clientId (by decide) (s.clientId.map textBytes)).option .bankId (by decide)
    (s.bankId.map textBytes)
  exact h.option .message (by decide) (message.filter (fun m => !m.isEmpty))

section MaxEntitySize

variable (idDst : UInt8) (attributes : RequestedAttributes)

lemma create_built : (s.create idDst).Built := (s.create_laid idDst).built

lemma select_built : (s.select idDst attributes).Built := (s.select_laid idDst attributes).built

lemma ackSelect_built : (s.ackSelect idDst attributes).Built := (s.ackSelect_laid idDst attributes).built

lemma fileId_maxEntitySize :
    (groupSlot .fileId (some s.fileIdGroup)).findSome? (valueFor .maxEntitySize) = none :=
  value_groupSlot_none (by decide) fun l hl => Option.some.inj hl ▸ s.fileIdGroup_grouped

lemma create_get_maxEntitySize :
    (s.create idDst).get .maxEntitySize = some (encodeNum s.maxEntitySize.toNat) := by
  rw [(s.create_laid idDst).eq, get_mk]
  simp [createParams, tailParams, List.findSome?_append, value_slot, fileId_maxEntitySize]

lemma select_get_maxEntitySize :
    (s.select idDst attributes).get .maxEntitySize = some (encodeNum s.maxEntitySize.toNat) := by
  rw [(s.select_laid idDst attributes).eq, get_mk]
  simp [selectParams, tailParams, List.findSome?_append, value_slot, fileId_maxEntitySize]

lemma ackSelect_get_maxEntitySize :
    (s.ackSelect idDst attributes).get .maxEntitySize = some (encodeNum s.maxEntitySize.toNat) := by
  rw [(s.ackSelect_laid idDst attributes).eq, get_mk]
  simp [ackSelectParams, List.findSome?_append, value_slot, fileId_maxEntitySize]

end MaxEntitySize

end FileSpec

namespace Builder

section Aconnect

variable (idDst idSrc : UInt8) (version : Version) (sync : SyncOption) (resync : Bool)
    (message : Option String)

lemma aconnect_laid : (aconnect idDst idSrc version sync resync message).Laid .aconnect idDst idSrc
    ([] ++ slot .version (some (encodeNum version.code)) ++
      slot .syncOption (if sync.enabled then some sync.toBytes else none) ++
      slot .resync (if resync then some (encodeNum 1) else none) ++
      slot .freeMessage ((message.filter (fun m => !m.isEmpty)).map textBytes)) 99 := by
  have h := (Laid.start .aconnect rfl idDst idSrc).value .version (by decide) (encodeNum version.code)
  have h := h.option .syncOption (by decide) (if sync.enabled then some sync.toBytes else none)
  have h := h.option .resync (by decide) (if resync then some (encodeNum 1) else none)
  exact h.option .freeMessage (by decide) ((message.filter (fun m => !m.isEmpty)).map textBytes)

lemma aconnect_built : (aconnect idDst idSrc version sync resync message).Built :=
  (aconnect_laid idDst idSrc version sync resync message).built

lemma aconnect_get_version :
    (aconnect idDst idSrc version sync resync message).get .version = some (encodeNum version.code) := by
  rw [(aconnect_laid idDst idSrc version sync resync message).eq, get_mk]
  simp [List.findSome?_append, value_slot]

lemma aconnect_get_syncOption : (aconnect idDst idSrc version sync resync message).get .syncOption =
    if sync.enabled then some sync.toBytes else none := by
  rw [(aconnect_laid idDst idSrc version sync resync message).eq, get_mk]
  simp [List.findSome?_append, value_slot]

lemma aconnect_get_resync : (aconnect idDst idSrc version sync resync message).get .resync =
    if resync then some (encodeNum 1) else none := by
  rw [(aconnect_laid idDst idSrc version sync resync message).eq, get_mk]
  simp [List.findSome?_append, value_slot]

end Aconnect

section AckCreate

variable (idDst : UInt8) (diag : Diagnostic) (transferId : Option UInt32) (size : UInt16)
    (message : Option String)

lemma ackCreate_laid : (ackCreate idDst diag transferId size message).Laid .ackCreate idDst 0
    ([] ++ slot .diag (some diag.toBytes) ++
      slot .transferId (transferId.map fun t => encodeNum t.toNat) ++
      slot .maxEntitySize (some (encodeNum size.toNat)) ++
      slot .freeMessage ((message.filter (fun m => !m.isEmpty)).map textBytes)) 99 := by
  have h := (Laid.start .ackCreate rfl idDst 0).value .diag (by decide) diag.toBytes
  have h := h.option .transferId (by decide) (transferId.map fun t => encodeNum t.toNat)
  have h := h.value .maxEntitySize (by decide) (encodeNum size.toNat)
  exact h.option .freeMessage (by decide) ((message.filter (fun m => !m.isEmpty)).map textBytes)

lemma ackCreate_built : (ackCreate idDst diag transferId size message).Built :=
  (ackCreate_laid idDst diag transferId size message).built

lemma ackCreate_get_maxEntitySize :
    (ackCreate idDst diag transferId size message).get .maxEntitySize = some (encodeNum size.toNat) := by
  rw [(ackCreate_laid idDst diag transferId size message).eq, get_mk]
  simp [List.findSome?_append, value_slot]

end AckCreate

section Opening

variable (idDst : UInt8) (diag : Diagnostic) (c : Compression)

lemma orf_laid :
    (orf idDst c).Laid .orf idDst 0
    ([] ++ slot .compression (if c ≠ .none then some c.toBytes else none)) 21 :=
  (Laid.start .orf rfl idDst 0).option .compression (by decide) _

lemma ackOrf_laid : (ackOrf idDst diag c).Laid .ackOrf idDst 0
    ([] ++ slot .diag (some diag.toBytes) ++
      slot .compression (if c ≠ .none then some c.toBytes else none)) 21 :=
  ((Laid.start .ackOrf rfl idDst 0).value .diag (by decide) diag.toBytes).option
    .compression (by decide) _

lemma orf_built : (orf idDst c).Built := (orf_laid idDst c).built

lemma ackOrf_built : (ackOrf idDst diag c).Built := (ackOrf_laid idDst diag c).built

lemma orf_get_compression :
    (orf idDst c).get .compression = if c ≠ .none then some c.toBytes else none := by
  rw [(orf_laid idDst c).eq, get_mk]
  simp [value_slot]

lemma ackOrf_get_compression :
    (ackOrf idDst diag c).get .compression = if c ≠ .none then some c.toBytes else none := by
  rw [(ackOrf_laid idDst diag c).eq, get_mk]
  simp [List.findSome?_append, value_slot]

end Opening

section AckTransEnd

variable (idDst : UInt8) (diag : Diagnostic) (bytes articles : Option ℕ)

lemma ackTransEnd_laid : (ackTransEnd idDst diag bytes articles).Laid .ackTransEnd idDst 0
    ([] ++ slot .diag (some diag.toBytes) ++ slot .byteCount (bytes.map encodeNum) ++
      slot .articleCount (articles.map encodeNum)) 28 := by
  have h := (Laid.start .ackTransEnd rfl idDst 0).value .diag (by decide) diag.toBytes
  exact (h.option .byteCount (by decide) (bytes.map encodeNum)).option .articleCount (by decide)
    (articles.map encodeNum)

lemma ackTransEnd_get_diag : (ackTransEnd idDst diag bytes articles).get .diag = some diag.toBytes := by
  rw [(ackTransEnd_laid idDst diag bytes articles).eq, get_mk]
  simp [List.findSome?_append, value_slot]

end AckTransEnd

end Builder

lemma Builder.msgSegment_laid {kind : FpduKind} (hkind : kind.isData = false) (idDst : UInt8)
    (segment : Bytes) :
    (Builder.msgSegment kind idDst segment).Laid kind idDst 0
      ([] ++ slot .message (if segment.isEmpty then none else some segment)) 91 :=
  (Laid.start kind hkind idDst 0).option .message (by decide) (if segment.isEmpty then
    none else some segment)

end PesitWizard.Core
