import PesitWizard.Client.Sending
import PesitWizard.Io.Responder
import PesitWizard.Node.Handler

/-! The length of the articles that a node sends, and what it says of it before. -/

namespace PesitWizard.Node

open PesitWizard.Core Io

/-- A virtual file with the attributes of its articles. -/
structure SentFile extends VirtualFile where
  description : Option String
  fileType : UInt32
  recordFormat : UInt32
  text : Bool
  ebcdic : Bool

namespace SentFile

def isVariable (vf : SentFile) : Bool := vf.recordFormat &&& 0x80 ≠ 0

def format (vf : SentFile) : RecordFormat :=
  match vf.text, vf.isVariable with
  | true, true => .tv
  | true, false => .tf
  | false, true => .bu
  | false, false => .bf

/-- What a request to read a file is answered with. -/
def select (vf : SentFile) (file : FileSpec) (tid : UInt32) (content : Bytes) (reads : ℕ → ℕ)
    (modified : Option String) (now : String) (handle : ℕ) : SelectAccept FileSource where
  source := .openFile content reads vf.format vf.recordLength vf.ebcdic
  spec := { file with
    transferId := tid
    fileType := if file.fileType ≠ 0 then file.fileType else UInt64.ofNat vf.fileType.toNat
    articleFormat := if vf.isVariable then .variable else .fixed
    articleLength := UInt16.ofNat (min vf.recordLength 0xFFFF)
    dataCode := if vf.ebcdic then some 1 else file.dataCode
    organisation := some 0
    maxReservation := UInt64.ofNat ((content.length + 1023) / 1024)
    reservationUnit := some 0
    creationDate := some (modified.getD now)
    label := (VirtualFile.given vf.description).map fun d => String.ofList (d.toList.take 80) }
  handle := handle

/-- No article of a file is longer than the answer to the request to read it says. -/
def SelectHonest (vf : SentFile) : Prop :=
  ∀ (file : FileSpec) (tid : UInt32) (content : Bytes) (reads : ℕ → ℕ)
    (modified : Option String) (now : String) (handle : ℕ) (maxEntity : UInt16) (peerId : UInt8)
    (attributes : RequestedAttributes) (announced : ℕ),
      ((Responder.answerSpec (vf.select file tid content reads modified now handle) file
      maxEntity).ackSelect peerId
        attributes).getNum .articleLength = some announced →
    ∀ requests : List FileSource.Request,
      ∀ a ∈ (vf.select file tid content reads modified now handle).source.articles requests,
      a.length ≤ announced

variable {vf : SentFile}

lemma select_announces (file : FileSpec) (tid : UInt32) (content : Bytes) (reads : ℕ → ℕ)
    (modified : Option String) (now : String) (handle : ℕ) (maxEntity : UInt16) (peerId : UInt8)
    (attributes : RequestedAttributes) :
    ((Responder.answerSpec (vf.select file tid content reads modified now handle) file
      maxEntity).ackSelect peerId
        attributes).getNum .articleLength = if attributes.logical then
        some (min vf.recordLength 0xFFFF) else none := by
  have hfits : min vf.recordLength 0xFFFF < 2 ^ 16 := Nat.lt_of_le_of_lt (min_le_right _ _) (by decide)
  rw [FileSpec.ackSelect_articleLength, Responder.answerSpec, select, UInt16.toNat_ofNat_of_lt' hfits]

lemma selectHonest_iff : SelectHonest vf ↔ 1 ≤ vf.recordLength ∧ vf.recordLength ≤ 0xFFFF := by
  have harticles := FileSource.articles_le_iff vf.format vf.recordLength vf.ebcdic
  have hannounced : SelectHonest vf ↔ max vf.recordLength 1 ≤ min vf.recordLength 0xFFFF := by
    rw [← harticles]
    constructor
    · intro h content reads
      exact h .default 0 content reads none "" 0 0 0 .all _ (select_announces _ _ _ _ _ _ _ _ _ _)
    · intro h file tid content reads modified now handle maxEntity peerId attributes announced hannounced
      rw [select_announces] at hannounced
      split at hannounced
      · obtain rfl := Option.some.inj hannounced
        exact h content reads
      · cases hannounced
  rw [hannounced]
  omega

end SentFile

/-- The length that is announced is bounded, and the one at which the file is cut is not. -/
theorem record_length_honest_iff (settings : Client.SendSettings) (req : Client.SendRequest)
    (vf : SentFile) :
    (Client.Engine.SendHonest settings req ↔
      (req.recordLength.getD settings.recordLength).toNat ≤ 65535) ∧
      (vf.SelectHonest ↔ 1 ≤ vf.recordLength ∧ vf.recordLength ≤ 65535) :=
  ⟨Client.Engine.sendHonest_iff, SentFile.selectHonest_iff⟩

/-- A request to send a file in records of 70000 bytes. -/
def longRecords : Client.SendRequest :=
  { Client.TransferRequest.default with
    fileType := none, priority := none, recordLength := some 70000, text := none, ebcdic := none,
    maxEntitySize := none, label := none, clientId := none, bankId := none, freeMessage := none }

theorem long_records_announced :
    ¬ ∀ (settings : Client.SendSettings) (req : Client.SendRequest) (vf : SentFile),
    Client.Engine.SendHonest settings req ∧ vf.SelectHonest := by
  intro h
  have hhonest :=
    (h ⟨⟨"in", "R"⟩, 1024, 0⟩ longRecords ⟨⟨"F", true, .both, none, none, "", false, 0, 1024, none⟩,
      none, 0, 0x80, false, false⟩).1
  have hlength := Client.Engine.sendHonest_iff.mp hhonest
  exact absurd hlength (by decide)

end PesitWizard.Node
