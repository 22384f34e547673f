import PesitWizard.Client.Engine
import PesitWizard.Core.Normal
import PesitWizard.Io.ArticleLength
import PesitWizard.Io.Negotiation

/-! How a file that is sent to a server is described there and cut into articles. -/

namespace PesitWizard.Client

open PesitWizard.Core Io

/-- A request with the attributes that it gives to the file. -/
structure SendRequest extends TransferRequest where
  fileType : Option UInt64
  priority : Option UInt8
  recordLength : Option UInt32
  text : Option Bool
  ebcdic : Option Bool
  maxEntitySize : Option UInt16
  label : Option String
  clientId : Option String
  bankId : Option String
  freeMessage : Option String

structure SendSettings extends EngineSettings where
  recordLength : UInt32
  maxEntitySize : UInt16

namespace Engine

variable (settings : SendSettings) (req : SendRequest)

def recordFormat (req : SendRequest) : RecordFormat := if req.text.getD false then .tv else .bu

def recordLength : ℕ := (req.recordLength.getD settings.recordLength).toNat

def source (content : Bytes) (reads : ℕ → ℕ) : FileSource :=
  .openFile content reads (recordFormat req) (recordLength settings req) (req.ebcdic.getD false)

def fileSpec (remote : String) (size : Option UInt64) (pesitId : UInt32) (resume : Bool)
    (now : String) : FileSpec :=
  { FileSpec.default with
    fileType := req.fileType.getD 0
    fileName := remote
    transferId := pesitId
    restarted := resume
    priority := req.priority.getD 0
    maxEntitySize := req.maxEntitySize.getD settings.maxEntitySize
    articleFormat := .variable
    articleLength := UInt16.ofNat (min (max (recordLength settings req) 1) 0xFFFF)
    organisation := some 0
    reservationUnit := size.map fun _ => 0
    maxReservation := size.elim 0 fun s => UInt64.ofNat ((s.toNat + 1023) / 1024)
    creationDate := some now
    dataCode := if req.ebcdic.getD false then some 1 else none
    label := TransferRequest.given req.label
    clientId := TransferRequest.given req.clientId
    bankId := TransferRequest.given req.bankId
    freeMessage := TransferRequest.given req.freeMessage }

/-- The request to write the file, in a session with a server. -/
def createFpdu (cfg : RequesterConfig) (remote : String) (size : Option UInt64) (pesitId : UInt32)
    (restart : Option Checkpoint) (now : String) (peerId : UInt8) : Fpdu :=
  let file := fileSpec settings req remote size pesitId restart.isSome now
  (Requester.proposal cfg { file with restarted := restart.isSome }).create peerId

/-- No article of a file is longer than the request to write it says. -/
def SendHonest : Prop :=
  ∀ (cfg : RequesterConfig) (remote : String) (size : Option UInt64) (pesitId : UInt32)
    (restart : Option Checkpoint) (now : String) (peerId : UInt8) (announced : ℕ),
    (createFpdu settings req cfg remote size pesitId restart now peerId).getNum
    .articleLength = some announced →
    ∀ (content : Bytes) (reads : ℕ → ℕ) (requests : List FileSource.Request),
      ∀ a ∈ (source settings req content reads).articles requests, a.length ≤ announced

variable {settings : SendSettings} {req : SendRequest}

lemma createFpdu_announces (cfg : RequesterConfig) (remote : String) (size : Option UInt64)
    (pesitId : UInt32) (restart : Option Checkpoint) (now : String) (peerId : UInt8) :
    (createFpdu settings req cfg remote size pesitId restart now peerId).getNum .articleLength =
      some (min (max (recordLength settings req) 1) 0xFFFF) := by
  have hproposal (file : FileSpec) :
      (Requester.proposal cfg file).articleLength = file.articleLength := by
    rw [Requester.proposal]
    split <;> rfl
  have hfits : min (max (recordLength settings req) 1) 0xFFFF < 2 ^ 16 :=
    Nat.lt_of_le_of_lt (min_le_right _ _) (by decide)
  rw [createFpdu, FileSpec.create_articleLength, hproposal, fileSpec, UInt16.toNat_ofNat_of_lt' hfits]

lemma sendHonest_iff : SendHonest settings req ↔ recordLength settings req ≤ 0xFFFF := by
  have harticles :=
    FileSource.articles_le_iff (recordFormat req) (recordLength settings req) (req.ebcdic.getD false)
  have hannounced : SendHonest settings req ↔
      max (recordLength settings req) 1 ≤ min (max (recordLength settings req) 1) 0xFFFF := by
    rw [← harticles]
    constructor
    · intro h
      exact h ⟨"", "", none, .e, .none, false, false, .none, 0, false, none, none, .mixed⟩ ""
        none 0 none "" 0 _ (createFpdu_announces _ _ _ _ _ _ _)
    · intro h cfg remote size pesitId restart now peerId announced hannounced
      rw [createFpdu_announces] at hannounced
      obtain rfl := Option.some.inj hannounced
      exact h
  rw [hannounced]
  omega

end Engine

end PesitWizard.Client
