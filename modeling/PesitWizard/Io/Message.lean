import PesitWizard.Core.Normal
import PesitWizard.Core.Packing
import PesitWizard.Io.Responder

/-! Messages, in one FPDU or in segments, from the requester that sends them to the
handler of the server. -/

namespace PesitWizard.Io

open PesitWizard.Core Library Engine Fpdu

/-- What a requester has negotiated that its messages depend on. -/
structure MessageTerms where
  peerId : UInt8
  crc : Bool
  maxEntity : ℕ

structure MessageOutcome where
  diag : Diagnostic
  reply : Option Bytes

def segments (peerId : UInt8) : List Bytes → List Fpdu
  | [] => []
  | [chunk] => [Builder.msgSegment .msgFm peerId chunk]
  | chunk :: chunks => Builder.msgSegment .msgMm peerId chunk :: segments peerId chunks

namespace MessageTerms

variable (t : MessageTerms) (file : FileSpec) (message : Bytes) (expectsReply : Bool)

def room : ℕ :=
  let first := Builder.msg .msg t.peerId file expectsReply none
  let overhead := first.encodedLen + 3 + if t.crc then 2 else 0
  max (t.maxEntity - overhead) 1

def segRoom : ℕ := max (t.maxEntity - (headerLen + 3 + 3 + if t.crc then 2 else 0)) 1

def rest : List Bytes :=
  let rest := message.drop (t.room file expectsReply)
  chunks t.segRoom rest.length rest

/-- The FPDUs of a message. -/
def fpdus : List Fpdu :=
  if message.length ≤ t.room file expectsReply then
    [Builder.msg .msg t.peerId file expectsReply (some message)]
  else Builder.msg .msgDm t.peerId file expectsReply (some (message.take (t.room file expectsReply))) ::
    segments t.peerId (t.rest file message expectsReply)

end MessageTerms

namespace Requester

variable {σ : Type} (turns : ℕ)

def ask (f : Fpdu) (event : LocalEvent) (machine : Machine) : Engine σ Machine := do
  let machine ← Proc.lift (applyLocal machine event)
  send f
  pure machine

def answerTurn (request expected : FpduKind) (machine : Machine) :
    Engine σ (Machine ⊕ (Fpdu × Machine)) := do
  let reply ← recv
  let (ignored, machine) ← Proc.lift (Responder.applyReceived machine reply)
  if ignored then pure (.inl machine)
  else if reply.kind ≠ expected then Proc.lift (.error (.protocol machine.state reply.kind))
  else if reply.isNegative then Proc.lift (.error (.refused request reply.diagOrOk (peerMessage reply)))
  else pure (.inr (reply, machine))

-- the answer to segments is not waited for again if the state tables ignore it
def acknowledgement (machine : Machine) : Engine σ (Fpdu × Machine) := do
  let reply ← recv
  let (_, machine) ← Proc.lift (Responder.applyReceived machine reply)
  if reply.kind ≠ .ackMsg then Proc.lift (.error (.protocol machine.state reply.kind))
  else if reply.isNegative then
    Proc.lift (.error (.refused .msg reply.diagOrOk (reply.getText .freeMessage)))
  else pure (reply, machine)

def sendEach : List Fpdu → Engine σ Unit
  | [] => pure ()
  | f :: fs => do
    send f
    sendEach fs

variable (t : MessageTerms) (file : FileSpec) (message : Bytes) (expectsReply : Bool)

/-- What a requester does to send a message before it waits for the answer. -/
def putMessage (machine : Machine) : Engine σ Machine :=
  if message.length ≤ t.room file expectsReply then
    ask (Builder.msg .msg t.peerId file expectsReply (some message)) .message machine
  else do
    let head := message.take (t.room file expectsReply)
    let machine ← ask (Builder.msg .msgDm t.peerId file expectsReply (some head)) .message machine
    sendEach (segments t.peerId (t.rest file message expectsReply))
    Proc.lift (applyLocal machine .dataEnd)

def sendMessage (machine : Machine) : Engine σ (MessageOutcome × Machine) := do
  let machine ← putMessage t file message expectsReply machine
  let (ack, machine) ←
    if message.length ≤ t.room file expectsReply then Proc.loop (answerTurn .msg .ackMsg) turns machine
    else acknowledgement machine
  pure (⟨ack.diagOrOk, ack.get .message⟩, machine)

end Requester

section Contents

variable {kind : FpduKind} {idDst : UInt8} {file : FileSpec} {expectsReply : Bool}

/-- The part of a message that an FPDU carries. -/
def text (f : Fpdu) : Bytes := (f.get .message).getD []

lemma msg_kind (hkind : kind.isData = false) (text : Option Bytes) :
    (Builder.msg kind idDst file expectsReply text).kind = kind := by
  rw [(file.msg_laid hkind idDst expectsReply text).eq]

lemma msg_text (hkind : kind.isData = false) (chunk : Bytes) :
    text (Builder.msg kind idDst file expectsReply (some chunk)) = chunk := by
  have hget : (Builder.msg kind idDst file expectsReply (some chunk)).get .message =
      (some chunk).filter fun m => !m.isEmpty := by
    rw [(file.msg_laid hkind idDst expectsReply (some chunk)).eq, get_mk]
    simp only [FileSpec.msgParams, List.findSome?_append, value_slot, value_groupSlot, Option.bind_some,
      FileSpec.member_fileId, FileSpec.member_historical]
    simp
  rw [text, hget]
  cases chunk <;> rfl

lemma msg_expectsReply (hkind : kind.isData = false) (chunk : Option Bytes) :
    ((Builder.msg kind idDst file expectsReply chunk).getNum .requestedAttributes).any
    (fun a => a % 2 = 1) =
      expectsReply := by
  have hget : (Builder.msg kind idDst file expectsReply chunk).get .requestedAttributes =
      if expectsReply then some [1] else none := by
    rw [(file.msg_laid hkind idDst expectsReply chunk).eq, get_mk]
    simp only [FileSpec.msgParams, List.findSome?_append, value_slot, value_groupSlot, Option.bind_some,
      FileSpec.member_fileId, FileSpec.member_historical]
    simp
  rw [getNum, hget]
  cases expectsReply <;> decide

lemma msgSegment_kind (hkind : kind.isData = false) (chunk : Bytes) :
    (Builder.msgSegment kind idDst chunk).kind = kind := by
  rw [(Builder.msgSegment_laid hkind idDst chunk).eq]

lemma msgSegment_text (hkind : kind.isData = false) (chunk : Bytes) :
    text (Builder.msgSegment kind idDst chunk) = chunk := by
  rw [text, (Builder.msgSegment_laid hkind idDst chunk).eq, get_mk, List.nil_append, value_slot]
  cases chunk <;> rfl

lemma segments_text (cs : List Bytes) : (segments idDst cs).map text = cs := by
  induction cs with
  | nil => rfl
  | cons c cs ih =>
    cases cs with
    | nil => rw [segments, List.map_singleton, msgSegment_text rfl]
    | cons d ds => rw [segments, List.map_cons, msgSegment_text rfl, ih]; nofun

lemma segments_kind (idDst : UInt8) {cs : List Bytes} (h : cs ≠ []) :
    ∃ k, (segments idDst cs).map Fpdu.kind = List.replicate k .msgMm ++ [.msgFm] := by
  induction cs with
  | nil => exact absurd rfl h
  | cons c cs ih =>
    cases cs with
    | nil =>
      refine ⟨0, ?_⟩
      rw [segments, List.map_singleton, msgSegment_kind rfl]
      rfl
    | cons d ds =>
      obtain ⟨k, hk⟩ := ih (by simp)
      refine ⟨k + 1, ?_⟩
      rw [segments, List.map_cons, msgSegment_kind rfl, hk, List.replicate_succ, List.cons_append]
      nofun

end Contents

namespace MessageTerms

variable (t : MessageTerms) (file : FileSpec) (message : Bytes) (expectsReply : Bool)

lemma room_pos : 0 < t.room file expectsReply := Nat.lt_of_lt_of_le Nat.one_pos (le_max_right _ _)

lemma segRoom_pos : 0 < t.segRoom := Nat.lt_of_lt_of_le Nat.one_pos (le_max_right _ _)

lemma rest_flatten :
    (t.rest file message expectsReply).flatten = message.drop (t.room file expectsReply) :=
  chunks_flatten t.segRoom_pos _ _ le_rfl

lemma rest_ne_nil (h : ¬ message.length ≤ t.room file expectsReply) :
    t.rest file message expectsReply ≠ [] := by
  intro hnil
  have hflat := t.rest_flatten file message expectsReply
  rw [hnil] at hflat
  have hlen := congrArg List.length hflat
  rw [List.flatten_nil, List.length_nil, List.length_drop] at hlen
  omega

lemma fpdus_text : ((t.fpdus file message expectsReply).map text).flatten = message := by
  rw [fpdus]
  split
  · rw [List.map_singleton, msg_text rfl, List.flatten_singleton]
  · rw [List.map_cons, msg_text rfl, segments_text, List.flatten_cons, rest_flatten,
      List.take_append_drop]

end MessageTerms

section Exchanges

variable {σ : Type} {role : Role} {f : Fpdu} {fs : List Fpdu} {k turns : ℕ}

def sent (f : Fpdu) : Exchange σ := ⟨.send f, .ok ()⟩

def heard (f : Fpdu) : Exchange σ := ⟨.recv, .ok f⟩

def handled (info : SessionInfo) (file : FileSpec) (message : Bytes) (expectsReply : Bool)
    (reply : Except Refusal (Option Bytes)) : Exchange σ :=
  ⟨.message info file message expectsReply, reply⟩

lemma received_next {s s' : State} (hkind : f.kind ≠ .abort)
    (hs : s.apply (.received f.kind f.isNegative) = .next s') :
    Responder.applyReceived ⟨role, s⟩ f = .ok (false, ⟨role, s'⟩) := by
  rw [Responder.applyReceived, if_neg hkind, Machine.apply]
  simp only [hs]

lemma received_msg (h : f.kind = .msg) :
    Responder.applyReceived ⟨role, .cn03⟩ f = .ok (false, ⟨role, .mg04B⟩) := by
  apply received_next <;> simp [isNegative, h, FpduKind.isAck, State.apply, State.row]

lemma received_msgDm (h : f.kind = .msgDm) :
    Responder.applyReceived ⟨role, .cn03⟩ f = .ok (false, ⟨role, .mg01B⟩) := by
  apply received_next <;> simp [isNegative, h, FpduKind.isAck, State.apply, State.row]

lemma received_msgMm (h : f.kind = .msgMm) :
    Responder.applyReceived ⟨role, .mg01B⟩ f = .ok (false, ⟨role, .mg01B⟩) := by
  apply received_next <;> simp [isNegative, h, FpduKind.isAck, State.apply, State.row]

lemma received_msgFm (h : f.kind = .msgFm) :
    Responder.applyReceived ⟨role, .mg01B⟩ f = .ok (false, ⟨role, .mg04B⟩) := by
  apply received_next <;> simp [isNegative, h, FpduKind.isAck, State.apply, State.row]

lemma turn_msgMm (h : f.kind = .msgMm) (head : Bytes) :
    Proc.Runs (Responder.messageTurn (⟨role, .mg01B⟩, head) : Engine σ _) [heard f]
      (some (.ok (.inl (⟨role, .mg01B⟩, head ++ text f)))) := by
  refine .ask ?_
  rw [Proc.bind, received_msgMm h]
  simp only [Proc.lift, Proc.done_bind, h]
  exact .done _

lemma turn_msgFm (h : f.kind = .msgFm) (head : Bytes) :
    Proc.Runs (Responder.messageTurn (⟨role, .mg01B⟩, head) : Engine σ _) [heard f]
      (some (.ok (.inr (⟨role, .mg04B⟩, head ++ text f)))) := by
  refine .ask ?_
  rw [Proc.bind, received_msgFm h]
  simp only [Proc.lift, Proc.done_bind, h]
  exact .done _

lemma whole_runs (hkinds : fs.map Fpdu.kind = List.replicate k .msgMm ++ [.msgFm])
    (hturns : fs.length ≤ turns) (head : Bytes) :
    Proc.Runs (Proc.loop Responder.messageTurn turns (⟨role, .mg01B⟩, head) : Engine σ (Machine × Bytes))
    (fs.map heard)
      (some (.ok (⟨role, .mg04B⟩, head ++ (fs.map text).flatten))) := by
  induction k generalizing fs turns head with
  | zero =>
    obtain ⟨f, rfl, hkind⟩ := List.map_eq_singleton_iff.mp hkinds
    obtain ⟨n, rfl⟩ := Nat.exists_eq_add_one.mpr (show 0 < turns from hturns)
    rw [List.map_singleton, List.map_singleton, List.flatten_singleton]
    exact (turn_msgFm hkind head).last
  | succ k ih =>
    obtain ⟨f, fs, rfl, hkind, hrest⟩ := List.map_eq_cons_iff.mp hkinds
    obtain ⟨n, rfl⟩ :=
      Nat.exists_eq_add_one.mpr (show 0 < turns from Nat.lt_of_lt_of_le (Nat.succ_pos _) hturns)
    rw [List.map_cons, List.map_cons, List.flatten_cons, ← List.append_assoc]
    exact (turn_msgMm hkind head).turn (ih hrest (Nat.le_of_succ_le_succ hturns) _)

lemma received_drives {m m' : Machine} {ignored : Bool}
    (h : Responder.applyReceived m f = .ok (ignored, m')) :
    applyReceived m f = .ok m' := by
  rw [Responder.applyReceived] at h
  rw [applyReceived]
  split at h
  · cases h
  · rename_i hkind
    rw [if_neg hkind]
    cases hm : m.apply (.received f.kind f.isNegative) with
    | error e =>
      simp only [hm] at h
      cases h
    | ok r =>
      simp only [hm] at h
      obtain rfl := Except.ok.inj h
      rfl

lemma drive_segments (hkinds : fs.map Fpdu.kind = List.replicate k .msgMm ++ [.msgFm]) :
    fs.foldlM applyReceived ⟨role, .mg01B⟩ = .ok ⟨role, .mg04B⟩ := by
  induction k generalizing fs with
  | zero =>
    obtain ⟨f, rfl, hkind⟩ := List.map_eq_singleton_iff.mp hkinds
    rw [List.foldlM_cons, received_drives (received_msgFm hkind)]
    rfl
  | succ k ih =>
    obtain ⟨f, fs, rfl, hkind, hrest⟩ := List.map_eq_cons_iff.mp hkinds
    rw [List.foldlM_cons, received_drives (received_msgMm hkind)]
    exact ih hrest

lemma sendEach_runs (fs : List Fpdu) :
    Proc.Runs (Requester.sendEach fs : Engine σ Unit) (fs.map sent) (some (.ok ())) := by
  induction fs with
  | nil => exact .done _
  | cons f fs ih => exact .ask ih

end Exchanges

/-- One MSG, or one MSGDM, any number of MSGMM and one MSGFM. -/
def Segmented (fs : List Fpdu) : Prop :=
  fs.map Fpdu.kind = [.msg] ∨ ∃ k, fs.map Fpdu.kind = .msgDm :: (List.replicate k .msgMm ++ [.msgFm])

/-- What becomes of a message: its FPDUs, the two machines, and what the handler of
the server is given. -/
structure Preserved (t : MessageTerms) (file : FileSpec) (message : Bytes)
    (expectsReply : Bool) : Prop where
  segmented : Segmented (t.fpdus file message expectsReply)
  whole : ((t.fpdus file message expectsReply).map text).flatten = message
  server : (t.fpdus file message expectsReply).foldlM applyReceived ⟨.server, .cn03⟩ =
    .ok ⟨.server, .mg04B⟩
  requester : ∃ s : State, (∀ negative, s.apply (.received .ackMsg negative) = .next .cn03) ∧ ∀ σ : Type,
    Proc.Runs (Requester.putMessage t file message expectsReply ⟨.requester, .cn03⟩ : Engine σ Machine)
      ((t.fpdus file message expectsReply).map sent) (some (.ok ⟨.requester, s⟩))
  acknowledged : ∀ (σ : Type) (turns : ℕ) (ack : Fpdu), ack.kind = .ackMsg → ack.isNegative = false →
    Proc.Runs (Requester.sendMessage (turns + 1) t file message expectsReply
    ⟨.requester, .cn03⟩ : Engine σ _)
      ((t.fpdus file message expectsReply).map sent ++ [heard ack])
      (some (.ok (⟨ack.diagOrOk, ack.get .message⟩, ⟨.requester, .cn03⟩)))
  delivered : ∀ (σ : Type) (turns : ℕ) (c : Conn) (reply : Except Refusal (Option Bytes)),
    (t.fpdus file message expectsReply).length ≤ turns → ∃ first rest machine,
      t.fpdus file message expectsReply = first :: rest ∧
      Responder.applyReceived ⟨.server, .cn03⟩ first = .ok (false, machine) ∧
      Proc.Runs (Responder.handleMessage turns c machine first : Engine σ Machine)
        (rest.map heard ++ [handled c.info (FileSpec.fromFpdu first) message expectsReply reply]) none

section Preservation

variable {t : MessageTerms} {file : FileSpec} {message : Bytes} {expectsReply : Bool} {f : Fpdu}

lemma ask_runs {σ : Type} {m : Machine} {s : State} {event : LocalEvent}
    (h : m.state.apply (.ofLocal event) = .next s) :
    Proc.Runs (Requester.ask f event m : Engine σ Machine) [sent f] (some (.ok ⟨m.role, s⟩)) := by
  rw [Requester.ask, applyLocal_next h]
  exact .ask (.done _)

lemma answerTurn_runs {σ : Type} {s : State} (hs : s.apply (.received .ackMsg false) = .next .cn03)
    (hkind : f.kind = .ackMsg) (hpositive : f.isNegative = false) :
    Proc.Runs (Requester.answerTurn .msg .ackMsg ⟨.requester, s⟩ : Engine σ _) [heard f]
      (some (.ok (.inr (f, ⟨.requester, .cn03⟩)))) := by
  have hnext : Responder.applyReceived ⟨.requester, s⟩ f = .ok (false, ⟨.requester, .cn03⟩) :=
    received_next (by rw [hkind]; nofun) (by rw [hkind, hpositive]; exact hs)
  refine .ask ?_
  rw [Proc.bind, hnext]
  simp only [Proc.lift, Proc.done_bind, hkind, hpositive]
  exact .done _

lemma acknowledgement_runs {σ : Type} {s : State} (hs : s.apply (.received .ackMsg false) = .next .cn03)
    (hkind : f.kind = .ackMsg) (hpositive : f.isNegative = false) :
    Proc.Runs (Requester.acknowledgement ⟨.requester, s⟩ : Engine σ _) [heard f]
      (some (.ok (f, ⟨.requester, .cn03⟩))) := by
  have hnext : Responder.applyReceived ⟨.requester, s⟩ f = .ok (false, ⟨.requester, .cn03⟩) :=
    received_next (by rw [hkind]; nofun) (by rw [hkind, hpositive]; exact hs)
  refine .ask ?_
  rw [Proc.bind, hnext]
  simp only [Proc.lift, Proc.done_bind, hkind, hpositive]
  exact .done _

lemma putMessage_single (h : message.length ≤ t.room file expectsReply) (σ : Type) :
    Proc.Runs (Requester.putMessage t file message expectsReply ⟨.requester, .cn03⟩ : Engine σ Machine)
      ((t.fpdus file message expectsReply).map sent) (some (.ok ⟨.requester, .mg01A⟩)) := by
  rw [Requester.putMessage, MessageTerms.fpdus, if_pos h, if_pos h]
  exact ask_runs rfl

lemma putMessage_segments (h : ¬ message.length ≤ t.room file expectsReply) (σ : Type) :
    Proc.Runs (Requester.putMessage t file message expectsReply ⟨.requester, .cn03⟩ : Engine σ Machine)
      ((t.fpdus file message expectsReply).map sent) (some (.ok ⟨.requester, .mg04A⟩)) := by
  rw [Requester.putMessage, MessageTerms.fpdus, if_neg h, if_neg h, List.map_cons]
  refine (ask_runs rfl).bind ?_
  rw [← List.append_nil (List.map sent _)]
  refine (sendEach_runs _).bind ?_
  rw [applyLocal_next (s := .mg04A) rfl]
  exact .done _

lemma handle_runs {σ : Type} {c : Conn} {m : Machine} (m' : Machine) {turns : ℕ} {rest : List Fpdu}
    (hreply : (f.getNum .requestedAttributes).any (fun a => a % 2 = 1) = expectsReply)
    (hwhole : Proc.Runs (Responder.wholeMessage turns f.kind (m, text f) : Engine σ _) (rest.map heard)
      (some (.ok (m', message)))) (reply : Except Refusal (Option Bytes)) :
    Proc.Runs (Responder.handleMessage turns c m f : Engine σ Machine)
      (rest.map heard ++ [handled c.info (FileSpec.fromFpdu f) message expectsReply reply]) none := by
  subst hreply
  rw [Responder.handleMessage]
  exact hwhole.bind (.ask (.cut _))

/-- The FPDUs of a message bring it to the handler of the server, in one piece or in segments. -/
theorem message_preserved (t : MessageTerms) (file : FileSpec) (message : Bytes) (expectsReply : Bool) :
    Preserved t file message expectsReply := by
  by_cases hfits : message.length ≤ t.room file expectsReply
  · have hfpdus :
        t.fpdus file message expectsReply =
        [Builder.msg .msg t.peerId file expectsReply (some message)] :=
      if_pos hfits
    have hmsg : (Builder.msg .msg t.peerId file expectsReply (some message)).kind = .msg :=
      msg_kind rfl _
    have hreceived : Responder.applyReceived ⟨.server, .cn03⟩ _ = _ := received_msg hmsg
    refine ⟨?_, t.fpdus_text file message expectsReply, ?_,
      ⟨.mg01A, fun _ => rfl, putMessage_single hfits⟩, ?_, ?_⟩
    · rw [hfpdus]
      exact .inl (by rw [List.map_singleton, hmsg])
    · rw [hfpdus, List.foldlM_cons, received_drives hreceived]
      rfl
    · intro σ turns ack hkind hpositive
      rw [Requester.sendMessage]
      refine (putMessage_single hfits σ).bind ?_
      rw [if_pos hfits]
      exact (answerTurn_runs rfl hkind hpositive).last.bind (.done _)
    · intro σ turns c reply _
      refine ⟨_, [], _, hfpdus, hreceived, ?_⟩
      refine handle_runs ⟨.server, .mg04B⟩ (msg_expectsReply rfl _) ?_ reply
      rw [hmsg, msg_text rfl]
      exact .done _
  · obtain ⟨k, hkinds⟩ := segments_kind t.peerId (t.rest_ne_nil file message expectsReply hfits)
    have hfpdus : t.fpdus file message expectsReply =
        Builder.msg .msgDm t.peerId file expectsReply (some (message.take (t.room file expectsReply))) ::
          segments t.peerId (t.rest file message expectsReply) := if_neg hfits
    have hmsg : (Builder.msg .msgDm t.peerId file expectsReply
        (some (message.take (t.room file expectsReply)))).kind = .msgDm := msg_kind rfl _
    have hreceived : Responder.applyReceived ⟨.server, .cn03⟩ _ = _ := received_msgDm hmsg
    refine ⟨?_, t.fpdus_text file message expectsReply, ?_,
      ⟨.mg04A, ?_, putMessage_segments hfits⟩, ?_, ?_⟩
    · rw [hfpdus]
      exact .inr ⟨k, by rw [List.map_cons, hmsg, hkinds]⟩
    · rw [hfpdus, List.foldlM_cons, received_drives hreceived]
      exact drive_segments hkinds
    · intro negative
      cases negative <;> rfl
    · intro σ turns ack hkind hpositive
      rw [Requester.sendMessage]
      refine (putMessage_segments hfits σ).bind ?_
      rw [if_neg hfits, ← List.append_nil [heard ack]]
      exact (acknowledgement_runs rfl hkind hpositive).bind (.done _)
    · intro σ turns c reply hturns
      rw [hfpdus, List.length_cons] at hturns
      refine ⟨_, _, _, hfpdus, hreceived, ?_⟩
      have hwhole : Proc.Runs (Responder.wholeMessage turns .msgDm
          (⟨.server, .mg01B⟩, message.take (t.room file expectsReply)) : Engine σ _) _ _ :=
        whole_runs hkinds (Nat.le_of_succ_le hturns) _
      rw [segments_text, t.rest_flatten, List.take_append_drop] at hwhole
      refine handle_runs ⟨.server, .mg04B⟩ (msg_expectsReply rfl _) ?_ reply
      rw [hmsg, msg_text rfl]
      exact hwhole

end Preservation

end PesitWizard.Io
