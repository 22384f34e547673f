import PesitWizard.Core.Diag

/-! Parameter identifiers (PI) and parameter group identifiers (PGI). -/

namespace PesitWizard.Core

inductive Pi
  | crc | diag | requester | server | accessControl | version | syncOption | fileType | fileName
  | transferId | requestedAttributes | restarted | dataCode | priority | restartPoint | endCode
  | syncNumber | compression | accessType | resync | maxEntitySize | timeout | byteCount | articleCount
  | diagComplement | articleFormat | articleLength | fileOrganisation | signatureFlag | sitSeal
  | fileLabel | keyLength | keyOffset | reservationUnit | maxReservation | creationDate | extractionDate
  | clientId | bankId | fileAccessControl | serverDate | authType | authElements | sealType
  | sealElements | cipherType | cipherElements | signatureType | seal | signature | accreditation
  | signatureAck | secondSignature | secondAccreditation | message | freeMessage
  deriving DecidableEq

inductive Pgi
  | fileId | logicalAttributes | physicalAttributes | historicalAttributes
  deriving DecidableEq

namespace Pi

def code : Pi → UInt8
  | .crc => 1 | .diag => 2 | .requester => 3 | .server => 4 | .accessControl => 5 | .version => 6
  | .syncOption => 7 | .fileType => 11 | .fileName => 12 | .transferId => 13 | .requestedAttributes => 14
  | .restarted => 15 | .dataCode => 16 | .priority => 17 | .restartPoint => 18 | .endCode => 19
  | .syncNumber => 20 | .compression => 21 | .accessType => 22 | .resync => 23 | .maxEntitySize => 25
  | .timeout => 26 | .byteCount => 27 | .articleCount => 28 | .diagComplement =>
    29 | .articleFormat => 31
  | .articleLength => 32 | .fileOrganisation => 33 | .signatureFlag => 34 | .sitSeal =>
    36 | .fileLabel => 37
  | .keyLength => 38 | .keyOffset => 39 | .reservationUnit => 41 | .maxReservation => 42
  | .creationDate => 51 | .extractionDate => 52 | .clientId => 61 | .bankId =>
    62 | .fileAccessControl => 63
  | .serverDate => 64 | .authType => 71 | .authElements => 72 | .sealType => 73 | .sealElements => 74
  | .cipherType => 75 | .cipherElements => 76 | .signatureType => 77 | .seal => 78 | .signature => 79
  | .accreditation => 80 | .signatureAck => 81 | .secondSignature => 82 | .secondAccreditation => 83
  | .message => 91 | .freeMessage => 99

def fromCode : UInt8 → Option Pi
  | 1 => some .crc | 2 => some .diag | 3 => some .requester | 4 => some .server | 5 =>
    some .accessControl
  | 6 => some .version | 7 => some .syncOption | 11 => some .fileType | 12 => some .fileName
  | 13 => some .transferId | 14 => some .requestedAttributes | 15 =>
    some .restarted | 16 => some .dataCode
  | 17 => some .priority | 18 => some .restartPoint | 19 => some .endCode | 20 => some .syncNumber
  | 21 => some .compression | 22 => some .accessType | 23 => some .resync | 25 => some .maxEntitySize
  | 26 => some .timeout | 27 => some .byteCount | 28 => some .articleCount | 29 => some .diagComplement
  | 31 => some .articleFormat | 32 => some .articleLength | 33 => some .fileOrganisation
  | 34 => some .signatureFlag | 36 => some .sitSeal | 37 => some .fileLabel | 38 => some .keyLength
  | 39 => some .keyOffset | 41 => some .reservationUnit | 42 => some .maxReservation
  | 51 => some .creationDate | 52 => some .extractionDate | 61 => some .clientId | 62 => some .bankId
  | 63 => some .fileAccessControl | 64 => some .serverDate | 71 => some .authType | 72 =>
    some .authElements
  | 73 => some .sealType | 74 => some .sealElements | 75 => some .cipherType | 76 => some .cipherElements
  | 77 => some .signatureType | 78 => some .seal | 79 => some .signature | 80 => some .accreditation
  | 81 => some .signatureAck | 82 => some .secondSignature | 83 => some .secondAccreditation
  | 91 => some .message | 99 => some .freeMessage
  | _ => none

def maxLen : Pi → ℕ
  | .crc => 1 | .diag => 3 | .requester => 24 | .server => 24 | .accessControl => 16 | .version => 2
  | .syncOption => 3 | .fileType => 8 | .fileName => 76 | .transferId => 3 | .requestedAttributes => 1
  | .restarted => 1 | .dataCode => 1 | .priority => 1 | .restartPoint => 3 | .endCode =>
    1 | .syncNumber => 3
  | .compression => 2 | .accessType => 1 | .resync => 1 | .maxEntitySize => 2 | .timeout => 2
  | .byteCount => 8 | .articleCount => 4 | .diagComplement => 254 | .articleFormat =>
    1 | .articleLength => 2
  | .fileOrganisation => 1 | .signatureFlag => 2 | .sitSeal => 64 | .fileLabel => 80 | .keyLength => 2
  | .keyOffset => 2 | .reservationUnit => 1 | .maxReservation => 4 | .creationDate => 12
  | .extractionDate => 12 | .clientId => 24 | .bankId => 24 | .fileAccessControl =>
    16 | .serverDate => 12
  | .authType => 3 | .authElements => 0 | .sealType => 4 | .sealElements => 0 | .cipherType => 4
  | .cipherElements => 0 | .signatureType => 4 | .seal => 0 | .signature => 0 | .accreditation => 0
  | .signatureAck => 0 | .secondSignature => 0 | .secondAccreditation => 0 | .message => 4096
  | .freeMessage => 254

def name : Pi → String
  | .crc => "CRC usage"
  | .diag => "Diagnostic"
  | .requester => "Requester identification"
  | .server => "Server identification"
  | .accessControl => "Access control (password)"
  | .version => "Protocol version"
  | .syncOption => "Synchronisation points option"
  | .fileType => "File type"
  | .fileName => "File name"
  | .transferId => "Transfer identifier"
  | .requestedAttributes => "Requested attributes"
  | .restarted => "Transfer restarted"
  | .dataCode => "Data code"
  | .priority => "Transfer priority"
  | .restartPoint => "Restart point"
  | .endCode => "End of transfer code"
  | .syncNumber => "Synchronisation point number"
  | .compression => "Compression"
  | .accessType => "Access type"
  | .resync => "Resynchronisation"
  | .maxEntitySize => "Maximum data entity size"
  | .timeout => "Watchdog timer"
  | .byteCount => "Number of data bytes"
  | .articleCount => "Number of articles"
  | .diagComplement => "Diagnostic complement"
  | .articleFormat => "Article format"
  | .articleLength => "Article length"
  | .fileOrganisation => "File organisation"
  | .signatureFlag => "Signature taken into account"
  | .sitSeal => "SIT seal"
  | .fileLabel => "File label"
  | .keyLength => "Key length"
  | .keyOffset => "Key offset"
  | .reservationUnit => "Space reservation unit"
  | .maxReservation => "Maximum space reservation"
  | .creationDate => "Creation date and time"
  | .extractionDate => "Last extraction date and time"
  | .clientId => "Client identifier"
  | .bankId => "Bank identifier"
  | .fileAccessControl => "File access control"
  | .serverDate => "Server date and time"
  | .authType => "Authentication type"
  | .authElements => "Authentication elements"
  | .sealType => "Sealing type"
  | .sealElements => "Sealing elements"
  | .cipherType => "Encryption type"
  | .cipherElements => "Encryption elements"
  | .signatureType => "Signature type"
  | .seal => "Seal"
  | .signature => "Signature"
  | .accreditation => "Accreditation"
  | .signatureAck => "Signature acknowledgement"
  | .secondSignature => "Second signature"
  | .secondAccreditation => "Second accreditation"
  | .message => "Message"
  | .freeMessage => "Free message"

end Pi

namespace Pi

def display (pi : Pi) : String := "PI " ++ toString pi.code ++ " (" ++ pi.name ++ ")"

lemma fromCode_code (pi : Pi) : fromCode pi.code = some pi := by
  cases pi <;> rfl

lemma code_of_fromCode {c : UInt8} {pi : Pi} (h : fromCode c = some pi) : pi.code = c := by
  unfold fromCode at h
  split at h <;> first | (cases h; rfl) | cases h

end Pi

namespace Pgi

def code : Pgi → UInt8
  | .fileId => 9 | .logicalAttributes => 30 | .physicalAttributes => 40 | .historicalAttributes => 50

def fromCode : UInt8 → Option Pgi
  | 9 => some .fileId
  | 30 => some .logicalAttributes
  | 40 => some .physicalAttributes
  | 50 => some .historicalAttributes
  | _ => none

def name : Pgi → String
  | .fileId => "File identifier"
  | .logicalAttributes => "Logical attributes"
  | .physicalAttributes => "Physical attributes"
  | .historicalAttributes => "Historical attributes"

def members : Pgi → List (Pi × Bool)
  | .fileId => [(.requester, false), (.server, false), (.fileType, true), (.fileName, true)]
  | .logicalAttributes =>
    [(.articleFormat, false), (.articleLength, true), (.fileOrganisation, false),
      (.signatureFlag, false), (.sitSeal, false), (.fileLabel, false), (.keyLength, false),
      (.keyOffset, false)]
  | .physicalAttributes => [(.reservationUnit, false), (.maxReservation, true)]
  | .historicalAttributes => [(.creationDate, true), (.extractionDate, false)]

def contains (g : Pgi) (pi : Pi) : Bool := g.members.any (fun m => m.1 == pi)

def display (g : Pgi) : String := "PGI " ++ toString g.code ++ " (" ++ g.name ++ ")"

lemma fromCode_code (g : Pgi) : fromCode g.code = some g := by
  cases g <;> rfl

lemma code_of_fromCode {c : UInt8} {g : Pgi} (h : fromCode c = some g) : g.code = c := by
  unfold fromCode at h
  split at h <;> first | (cases h; rfl) | cases h

lemma fromCode_pi_code (pi : Pi) : fromCode pi.code = none := by
  cases pi <;> rfl

end Pgi

end PesitWizard.Core
