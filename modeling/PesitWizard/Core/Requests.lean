import PesitWizard.Core.Builder

/-! The FPDUs of a session outside its data phases. -/

namespace PesitWizard.Core

def Fpdu.withOption (f : Fpdu) (pi : Pi) (value : Option Bytes) : Fpdu :=
  match value with
  | some v => f.withValue pi v
  | none => f

def Fpdu.withGroup (f : Fpdu) (g : Pgi) (items : Option (List (Pi × Bytes))) : Fpdu :=
  match items with
  | some items => f.withPgi g items
  | none => f

def Fpdu.withFreeMessage (f : Fpdu) (message : Option String) : Fpdu :=
  f.withOption .freeMessage ((message.filter (fun m => !m.isEmpty)).map Fpdu.textBytes)

structure ConnectParams where
  requester : String
  server : String
  password : Option String
  version : Version
  sync : SyncOption
  access : AccessType
  resync : Bool
  crc : Bool
  timeout : Option UInt16
  freeMessage : Option String

def ConnectParams.build (c : ConnectParams) (idSrc : UInt8) : Fpdu :=
  let f := (Fpdu.new .connect).withIds 0 idSrc
  let f := f.withOption .crc (if c.crc then some (encodeNum 1) else none)
  let f := (f.withText .requester c.requester).withText .server c.server
  let f := f.withOption .accessControl ((c.password.filter (fun p => !p.isEmpty)).map Fpdu.textBytes)
  let f := f.withNum .version c.version.code
  let f := f.withOption .syncOption (if c.sync.enabled then some c.sync.toBytes else none)
  let f := f.withNum .accessType c.access.code
  let f := f.withOption .resync (if c.resync then some (encodeNum 1) else none)
  let f := f.withOption .timeout (c.timeout.map fun t => encodeNum t.toNat)
  f.withFreeMessage c.freeMessage

structure FileSpec where
  requester : Option String
  server : Option String
  fileType : UInt64
  fileName : String
  transferId : UInt32
  restarted : Bool
  dataCode : Option UInt8
  priority : UInt8
  maxEntitySize : UInt16
  articleFormat : ArticleFormat
  articleLength : UInt16
  organisation : Option UInt8
  label : Option String
  reservationUnit : Option UInt8
  maxReservation : UInt64
  creationDate : Option String
  extractionDate : Option String
  clientId : Option String
  bankId : Option String
  fileAccessControl : Option String
  freeMessage : Option String
  deriving DecidableEq

namespace FileSpec

def default : FileSpec :=
  ⟨none, none, 0, "", 0, false, none, 0, 0, .fixed, 0, none, none, none, 0, none, none, none,
    none, none, none⟩

def item (pi : Pi) (value : Option Bytes) : List (Pi × Bytes) := (value.map fun v => (pi, v)).toList

def fileIdGroup (s : FileSpec) : List (Pi × Bytes) :=
  item .requester (s.requester.map Fpdu.textBytes) ++ item .server (s.server.map Fpdu.textBytes) ++
    [(.fileType, encodeNum s.fileType.toNat), (.fileName, Fpdu.textBytes s.fileName)]

def logicalGroup (s : FileSpec) : List (Pi × Bytes) :=
  [(.articleFormat, [s.articleFormat.code]), (.articleLength, encodeNum s.articleLength.toNat)] ++
    item .fileOrganisation (s.organisation.map fun o => [o]) ++
    item .fileLabel ((s.label.filter (fun l => !l.isEmpty)).map Fpdu.textBytes)

def physicalGroup (s : FileSpec) : List (Pi × Bytes) :=
  item .reservationUnit (s.reservationUnit.map fun u => [u]) ++
    [(.maxReservation, encodeNum s.maxReservation.toNat)]

def historicalGroup (s : FileSpec) : Option (List (Pi × Bytes)) :=
  s.creationDate.map fun created =>
    (.creationDate, Fpdu.textBytes created) :: item .extractionDate (s.extractionDate.map Fpdu.textBytes)

def commonTail (s : FileSpec) (f : Fpdu) : Fpdu :=
  let f := f.withOption .clientId (s.clientId.map Fpdu.textBytes)
  let f := f.withOption .bankId (s.bankId.map Fpdu.textBytes)
  let f := f.withOption .fileAccessControl (s.fileAccessControl.map Fpdu.textBytes)
  f.withFreeMessage s.freeMessage

def create (s : FileSpec) (idDst : UInt8) : Fpdu :=
  let f := (Fpdu.new .create).withIds idDst 0
  let f := (f.withPgi .fileId s.fileIdGroup).withNum .transferId s.transferId.toNat
  let f := f.withOption .restarted (if s.restarted then some (encodeNum 1) else none)
  let f := f.withOption .dataCode (s.dataCode.map fun c => [c])
  let f := (f.withValue .priority [s.priority]).withNum .maxEntitySize s.maxEntitySize.toNat
  let f := (f.withPgi .logicalAttributes s.logicalGroup).withPgi .physicalAttributes s.physicalGroup
  let f := f.withGroup .historicalAttributes s.historicalGroup
  s.commonTail f

def select (s : FileSpec) (idDst : UInt8) (attributes : RequestedAttributes) : Fpdu :=
  let f := (Fpdu.new .select).withIds idDst 0
  let f := (f.withPgi .fileId s.fileIdGroup).withNum .transferId s.transferId.toNat
  let f := f.withOption .requestedAttributes
    (if attributes.code ≠ 0 then some [attributes.code] else none)
  let f := f.withOption .restarted (if s.restarted then some (encodeNum 1) else none)
  let f := (f.withValue .priority [s.priority]).withNum .maxEntitySize s.maxEntitySize.toNat
  s.commonTail f

def ackSelect (s : FileSpec) (idDst : UInt8) (attributes : RequestedAttributes) : Fpdu :=
  let f := ((Fpdu.new .ackSelect).withIds idDst 0).withDiag .ok
  let f := (f.withPgi .fileId s.fileIdGroup).withNum .transferId s.transferId.toNat
  let f := f.withOption .dataCode (s.dataCode.map fun c => [c])
  let f := f.withNum .maxEntitySize s.maxEntitySize.toNat
  let f := f.withGroup .logicalAttributes (if attributes.logical then some s.logicalGroup else none)
  let f := f.withGroup .physicalAttributes (if attributes.physical then some s.physicalGroup else none)
  let f := f.withGroup .historicalAttributes (if attributes.historical then s.historicalGroup else none)
  let f := f.withOption .clientId (s.clientId.map Fpdu.textBytes)
  let f := f.withOption .bankId (s.bankId.map Fpdu.textBytes)
  f.withFreeMessage s.freeMessage

def groupText (f : Fpdu) (pi : Pi) : Option String :=
  ((f.pgi .fileId).bind fun items => items.find? (fun i => i.1 == pi)).map fun i => Fpdu.textOf i.2

def fromFpdu (f : Fpdu) : FileSpec :=
  { requester := groupText f .requester
    server := groupText f .server
    fileType := UInt64.ofNat ((f.getNum .fileType).getD 0)
    fileName := (f.getText .fileName).getD ""
    transferId := f.transferId.getD 0
    restarted := f.getNum .restarted = some 1
    dataCode := (f.get .dataCode).bind List.head?
    priority := ((f.get .priority).bind List.head?).getD 0
    maxEntitySize := f.maxEntitySize.getD 0
    articleFormat := ((f.get .articleFormat).map ArticleFormat.fromBytes).getD .fixed
    articleLength := UInt16.ofNat (min ((f.getNum .articleLength).getD 0) 0xFFFF)
    organisation := (f.get .fileOrganisation).bind List.head?
    label := f.getText .fileLabel
    reservationUnit := (f.get .reservationUnit).bind List.head?
    maxReservation := UInt64.ofNat ((f.getNum .maxReservation).getD 0)
    creationDate := f.getText .creationDate
    extractionDate := f.getText .extractionDate
    clientId := f.getText .clientId
    bankId := f.getText .bankId
    fileAccessControl := f.getText .fileAccessControl
    freeMessage := f.getText .freeMessage }

end FileSpec

namespace Builder

def aconnect (idDst idSrc : UInt8) (version : Version) (sync : SyncOption) (resync : Bool)
    (freeMessage : Option String) : Fpdu :=
  let f := ((Fpdu.new .aconnect).withIds idDst idSrc).withNum .version version.code
  let f := f.withOption .syncOption (if sync.enabled then some sync.toBytes else none)
  let f := f.withOption .resync (if resync then some (encodeNum 1) else none)
  f.withFreeMessage freeMessage

def diagnosed (kind : FpduKind) (idDst idSrc : UInt8) (diag : Diagnostic) : Fpdu :=
  ((Fpdu.new kind).withIds idDst idSrc).withDiag diag

def rconnect (idDst : UInt8) (diag : Diagnostic) (freeMessage : Option String) : Fpdu :=
  (diagnosed .rconnect idDst 0 diag).withFreeMessage freeMessage

def release (idDst idSrc : UInt8) (diag : Diagnostic) : Fpdu := diagnosed .release idDst idSrc diag

def relconf (idDst idSrc : UInt8) : Fpdu := (Fpdu.new .relconf).withIds idDst idSrc

def abort (idDst idSrc : UInt8) (diag : Diagnostic) : Fpdu := diagnosed .abort idDst idSrc diag

def ackCreate (idDst : UInt8) (diag : Diagnostic) (transferId : Option UInt32) (maxEntitySize : UInt16)
    (freeMessage : Option String) : Fpdu :=
  let f := diagnosed .ackCreate idDst 0 diag
  let f := f.withOption .transferId (transferId.map fun t => encodeNum t.toNat)
  (f.withNum .maxEntitySize maxEntitySize.toNat).withFreeMessage freeMessage

def nackSelect (idDst : UInt8) (diag : Diagnostic) (freeMessage : Option String) : Fpdu :=
  (diagnosed .ackSelect idDst 0 diag).withFreeMessage freeMessage

def deselect (idDst : UInt8) (diag : Diagnostic) : Fpdu := diagnosed .deselect idDst 0 diag

def ackDeselect (idDst : UInt8) (diag : Diagnostic) : Fpdu := diagnosed .ackDeselect idDst 0 diag

def withCompression (f : Fpdu) (compression : Compression) : Fpdu :=
  f.withOption .compression (if compression ≠ .none then some compression.toBytes else none)

def orf (idDst : UInt8) (compression : Compression) : Fpdu :=
  withCompression ((Fpdu.new .orf).withIds idDst 0) compression

def ackOrf (idDst : UInt8) (diag : Diagnostic) (compression : Compression) : Fpdu :=
  withCompression (diagnosed .ackOrf idDst 0 diag) compression

def crf (idDst : UInt8) (diag : Diagnostic) : Fpdu := diagnosed .crf idDst 0 diag

def ackCrf (idDst : UInt8) (diag : Diagnostic) : Fpdu := diagnosed .ackCrf idDst 0 diag

def read (idDst : UInt8) (restartPoint : ℕ) : Fpdu :=
  ((Fpdu.new .read).withIds idDst 0).withNum .restartPoint restartPoint

def ackRead (idDst : UInt8) (diag : Diagnostic) : Fpdu := diagnosed .ackRead idDst 0 diag

def write (idDst : UInt8) : Fpdu := (Fpdu.new .write).withIds idDst 0

def ackWrite (idDst : UInt8) (diag : Diagnostic) (restartPoint : ℕ) : Fpdu :=
  (diagnosed .ackWrite idDst 0 diag).withNum .restartPoint restartPoint

def withCounts (f : Fpdu) (byteCount articleCount : Option ℕ) : Fpdu :=
  (f.withOption .byteCount (byteCount.map encodeNum)).withOption .articleCount
    (articleCount.map encodeNum)

def transEnd (idDst : UInt8) (byteCount articleCount : Option ℕ) : Fpdu :=
  withCounts ((Fpdu.new .transEnd).withIds idDst 0) byteCount articleCount

def ackTransEnd (idDst : UInt8) (diag : Diagnostic) (byteCount articleCount : Option ℕ) : Fpdu :=
  withCounts (diagnosed .ackTransEnd idDst 0 diag) byteCount articleCount

def ackMsg (idDst : UInt8) (diag : Diagnostic) (transferId : Option UInt32)
    (reply : Option Bytes) : Fpdu :=
  let f := diagnosed .ackMsg idDst 0 diag
  let f := f.withOption .transferId (transferId.map fun t => encodeNum t.toNat)
  f.withOption .message (reply.filter (fun m => !m.isEmpty))

def msg (kind : FpduKind) (idDst : UInt8) (spec : FileSpec) (expectsReply : Bool)
    (message : Option Bytes) : Fpdu :=
  let f := (Fpdu.new kind).withIds idDst 0
  let f := (f.withPgi .fileId spec.fileIdGroup).withNum .transferId spec.transferId.toNat
  let f := f.withOption .requestedAttributes (if expectsReply then some [1] else none)
  let f := f.withOption .dataCode (spec.dataCode.map fun c => [c])
  let f := (f.withValue .priority [spec.priority]).withGroup .historicalAttributes spec.historicalGroup
  let f := f.withOption .clientId (spec.clientId.map Fpdu.textBytes)
  let f := f.withOption .bankId (spec.bankId.map Fpdu.textBytes)
  f.withOption .message (message.filter (fun m => !m.isEmpty))

def msgSegment (kind : FpduKind) (idDst : UInt8) (segment : Bytes) : Fpdu :=
  ((Fpdu.new kind).withIds idDst 0).withOption .message (if segment.isEmpty then none else some segment)

end Builder

end PesitWizard.Core
