import PesitWizard.Core.Described
import PesitWizard.Io.Link

/-! What the two ends of a session agree on when they connect, select a file and open it. -/

namespace PesitWizard.Io

open PesitWizard.Core

structure Preconnect where
  identifier : String
  password : String
  deriving DecidableEq

structure RequesterConfig where
  requesterId : String
  serverId : String
  password : Option String
  version : Version
  sync : SyncOption
  resync : Bool
  crc : Bool
  compression : Compression
  maxEntity : UInt16
  multiArticle : Bool
  preconnect : Option Preconnect
  freeMessage : Option String
  access : AccessType

structure Negotiated where
  version : Version
  sync : SyncOption
  resync : Bool
  crc : Bool
  deriving DecidableEq

structure ConnectRequest where
  requester : String
  server : String
  password : Option String
  version : Version
  sync : SyncOption
  access : AccessType
  resync : Bool
  crc : Bool
  freeMessage : Option String
  preconnect : Option (String × String)
  remoteAddr : String

structure ConnectAccept where
  sync : SyncOption
  resync : Bool
  compression : Compression
  multiArticle : Bool
  maxEntity : UInt16
  freeMessage : Option String

namespace Requester

def myId : UInt8 := 1

def connectFpdu (cfg : RequesterConfig) : Fpdu :=
  ConnectParams.build
    { requester := cfg.requesterId
      server := cfg.serverId
      password := cfg.password
      version := cfg.version
      sync := cfg.sync
      access := cfg.access
      resync := cfg.resync
      crc := cfg.crc
      timeout := none
      freeMessage := cfg.freeMessage } myId

def negotiate (cfg : RequesterConfig) (reply : Fpdu) : Negotiated :=
  { version := reply.version.getD cfg.version
    sync := SyncOption.negotiate cfg.sync (reply.syncOption.getD .none)
    resync := cfg.resync && (reply.getNum .resync).getD 0 = 1
    crc := cfg.crc }

def proposal (cfg : RequesterConfig) (file : FileSpec) : FileSpec :=
  if file.maxEntitySize = 0 then { file with maxEntitySize := cfg.maxEntity } else file

def maxEntity (file : FileSpec) (ack : Fpdu) : ℕ :=
  match ack.maxEntitySize with
  | none => file.maxEntitySize.toNat
  | some m => min m.toNat file.maxEntitySize.toNat

def compression (cfg : RequesterConfig) (ack : Fpdu) : Compression :=
  Compression.negotiate cfg.compression (ack.compression.getD .none)

end Requester

namespace Responder

def connectRequest (connect : Fpdu) (preconnect : Option (String × String)) (remoteAddr : String) :
    ConnectRequest :=
  { requester := (connect.getText .requester).getD ""
    server := (connect.getText .server).getD ""
    password := connect.getText .accessControl
    version := connect.version.getD .e
    sync := connect.syncOption.getD .none
    access := connect.accessType.getD .mixed
    resync := (connect.getNum .resync).getD 0 = 1
    crc := (connect.getNum .crc).getD 0 = 1
    freeMessage := connect.getText .freeMessage
    preconnect := preconnect
    remoteAddr := remoteAddr }

def detectCrc (entity : Bytes) : Bool :=
  entity.length = Fpdu.lengthField entity + Crc.crcLen

def readConnect (entity : Bytes) : Except SessionError Fpdu :=
  match Frame.splitEntity entity (detectCrc entity) with
  | .error e => .error (.decode e)
  | .ok [] => .error (.transport (.invalid entity.length))
  | .ok (bytes :: _) => (Fpdu.decode bytes).mapError .decode

def crcMismatch : DecodeError := .param "PI 1 does not match the presence of a CRC"

def negotiate (req : ConnectRequest) (accept : ConnectAccept) (crc : Bool) : Negotiated :=
  { version := if req.version = .d then .d else .e
    sync := SyncOption.negotiate req.sync accept.sync
    resync := req.resync && accept.resync
    crc := crc }

def maxEntity (accept : ConnectAccept) (spec : FileSpec) : UInt16 :=
  min (max spec.maxEntitySize (UInt16.ofNat headerLen + 1)) accept.maxEntity

def compression (accept : ConnectAccept) (orf : Fpdu) : Compression :=
  Compression.negotiate (orf.compression.getD .none) accept.compression

end Responder

def transmit (sendCrc recvCrc : Bool) (f : Fpdu) : Option Fpdu :=
  match Frame.singleEntity f sendCrc with
  | .error _ => none
  | .ok entity =>
    match (⟨recvCrc, [entity], []⟩ : Link).recv with
    | some (.ok f, _) => some f
    | _ => none

structure Terms where
  negotiated : Negotiated
  maxEntity : ℕ
  compression : Compression
  deriving DecidableEq

inductive Selection
  | create (transferId : Option UInt32) (freeMessage : Option String)
  | select (answer : FileSpec)

namespace Selection

def request (sel : Selection) (file : FileSpec) (idDst : UInt8) : Fpdu :=
  match sel with
  | .create _ _ => file.create idDst
  | .select _ => file.select idDst .all

def answer (sel : Selection) (spec : FileSpec) (attrs : RequestedAttributes) (maxEntity : UInt16)
    (idDst : UInt8) : Fpdu :=
  match sel with
  | .create transferId freeMessage =>
    Builder.ackCreate idDst .ok (some (transferId.getD spec.transferId)) maxEntity freeMessage
  | .select answer =>
    let answer := { answer with
      maxEntitySize := maxEntity
      transferId := if answer.transferId = 0 then spec.transferId else answer.transferId }
    answer.ackSelect idDst attrs

end Selection

def requestedAttributes (f : Fpdu) : RequestedAttributes :=
  match f.getNum .requestedAttributes with
  | none => .all
  | some n => .fromCode (UInt8.ofNat n)

/-- Connection, selection and opening of a file, each end with its own configuration and the FPDUs that
it decodes; nothing if the exchange does not come to its end. -/
def opening (cfg : RequesterConfig) (accept : ConnectAccept) (connId : UInt8) (file : FileSpec)
    (sel : Selection) :
    Option (Terms × Terms) := do
  let entity ← (Frame.singleEntity (Requester.connectFpdu cfg) cfg.crc).toOption
  let connect ← (Responder.readConnect entity).toOption
  let crc := Responder.detectCrc entity
  let req := Responder.connectRequest connect none ""
  guard (connect.kind = .connect ∧ req.crc = crc)
  let server := Responder.negotiate req accept crc
  let reply ← transmit crc cfg.crc
    (Builder.aconnect connect.idSrc connId server.version server.sync server.resync accept.freeMessage)
  guard (reply.kind = .aconnect)
  let requester := Requester.negotiate cfg reply
  let file := Requester.proposal cfg file
  let request ← transmit requester.crc server.crc (sel.request file reply.idSrc)
  let spec := FileSpec.fromFpdu request
  let serverEntity := Responder.maxEntity accept spec
  let ack ← transmit server.crc requester.crc
    (sel.answer spec (requestedAttributes request) serverEntity connect.idSrc)
  let orf ← transmit requester.crc server.crc (Builder.orf reply.idSrc cfg.compression)
  let serverCompression := Responder.compression accept orf
  let ackOrf ← transmit server.crc requester.crc (Builder.ackOrf connect.idSrc .ok serverCompression)
  pure (⟨requester, Requester.maxEntity file ack, Requester.compression cfg ackOrf⟩,
    ⟨server, serverEntity.toNat, serverCompression⟩)

section Delivery

variable {f f' : Fpdu} {crc : Bool} {e : Bytes}

lemma singleEntity_built (h : f.Built) (he : Frame.singleEntity f crc = .ok e) :
    f.encode = .ok (f.header ++ f.body) ∧ e = Frame.image crc f ∧ f.encodedLen ≤ 65535 := by
  rw [Frame.singleEntity] at he
  split at he
  · cases he
  · rename_i v hv
    obtain ⟨rfl, hlen, -⟩ := h.encode_eq hv
    exact ⟨hv, (Except.ok.inj he).symm, hlen⟩

lemma splitEntity_image (hlen : f.encodedLen ≤ 65535) :
    Frame.splitEntity (Frame.image crc f) crc = .ok [f.header ++ f.body] := by
  have hsplit :
      Frame.splitEntity ([f].flatMap (Frame.image crc)) crc =
      .ok ([f].map (fun f => f.header ++ f.body)) :=
    Frame.splitEntity_images crc (by simpa using hlen)
  simpa using hsplit

lemma transmit_built (h : f.Built) (ht : transmit crc crc f = some f') : f' = f := by
  rw [transmit] at ht
  split at ht
  · cases ht
  · rename_i e he
    obtain ⟨henc, rfl, hlen⟩ := singleEntity_built h he
    simp only [Link.recv, Link.poll, Link.queueEntity, splitEntity_image hlen, Link.decodeParts] at ht
    cases hd : Fpdu.decode (f.header ++ f.body) with
    | error err => simp [hd] at ht
    | ok g =>
      obtain rfl := h.decoded henc hd
      simpa [hd] using ht.symm

lemma lengthField_image (hlen : f.encodedLen ≤ 65535) :
    Fpdu.lengthField (Frame.image crc f) = f.encodedLen := by
  have hbe := Library.BigEndian.ofBe16_be16 (n := f.encodedLen) (by omega)
  cases crc <;> simpa [Frame.image, Fpdu.header, Library.BigEndian.be16, Fpdu.lengthField] using hbe

lemma detectCrc_image (hlen : f.encodedLen ≤ 65535) : Responder.detectCrc (Frame.image crc f) = crc := by
  rw [Responder.detectCrc, lengthField_image hlen, Frame.image_length]
  cases crc <;> simp [Crc.crcLen]

lemma readConnect_built (h : f.Built) (he : Frame.singleEntity f crc = .ok e)
    (hr : Responder.readConnect e = .ok f') : f' = f ∧ Responder.detectCrc e = crc := by
  obtain ⟨henc, rfl, hlen⟩ := singleEntity_built h he
  refine ⟨?_, detectCrc_image hlen⟩
  rw [Responder.readConnect, detectCrc_image hlen, splitEntity_image hlen] at hr
  cases hd : Fpdu.decode (f.header ++ f.body) with
  | error err => simp [hd, Except.mapError] at hr
  | ok g =>
    obtain rfl := h.decoded henc hd
    simpa [hd, Except.mapError] using hr.symm

end Delivery

section Options

lemma SyncOption.fromBytes_toBytes (o : SyncOption) : SyncOption.fromBytes o.toBytes = some o := by
  obtain ⟨i, w⟩ := o
  simp only [SyncOption.toBytes, Library.BigEndian.be16, List.cons_append, List.nil_append,
    SyncOption.fromBytes, Library.BigEndian.ofBe16_be16 i.toNat_lt, UInt16.ofNat_toNat]

lemma Compression.fromBytes_toBytes (c : Compression) : Compression.fromBytes c.toBytes = some c := by
  cases c <;> rfl

def offered (o : SyncOption) : SyncOption := (if o.enabled then some o else none).getD .none

lemma toNat_min16 (a b : UInt16) : (min a b).toNat = min a.toNat b.toNat := by
  show (if a ≤ b then a else b).toNat = _
  split <;> rename_i h <;> rw [UInt16.le_iff_toNat_le] at h <;> omega

lemma toNat_max16 (a b : UInt16) : (max a b).toNat = max a.toNat b.toNat := by
  show (if a ≤ b then b else a).toNat = _
  split <;> rename_i h <;> rw [UInt16.le_iff_toNat_le] at h <;> omega

lemma toNat_min8 (a b : UInt8) : (min a b).toNat = min a.toNat b.toNat := by
  show (if a ≤ b then a else b).toNat = _
  split <;> rename_i h <;> rw [UInt8.le_iff_toNat_le] at h <;> omega

lemma negotiate_eq {p l : SyncOption} (hp : p.enabled = true) (hl : l.enabled = true) :
    SyncOption.negotiate p l = ⟨min p.intervalKb l.intervalKb, min p.window l.window⟩ := by
  have htop : SyncOption.undefinedInterval.toNat = 65535 := rfl
  have hpt := p.intervalKb.toNat_lt
  have hlt := l.intervalKb.toNat_lt
  simp only [SyncOption.negotiate, hp, hl, Bool.not_true, Bool.or_self, Bool.false_eq_true, if_false,
    SyncOption.mk.injEq, and_true, ← UInt16.toNat_inj, toNat_min16]
  split
  · omega
  · split
    · omega
    · exact toNat_min16 _ _

lemma negotiate_disabled {p l : SyncOption} (h : p.enabled = false ∨ l.enabled = false) :
    SyncOption.negotiate p l = .none := by
  rcases h with h | h <;> simp [SyncOption.negotiate, h]

lemma negotiate_offered (p l : SyncOption) :
    SyncOption.negotiate (offered p) l = SyncOption.negotiate p l := by
  cases h : p.enabled with
  | true => simp [offered, h]
  | false =>
    have hoffered :
        offered p = .none := by simp only [offered, h, Bool.false_eq_true, if_false, Option.getD_none]
    rw [negotiate_disabled (.inl h), hoffered]
    exact negotiate_disabled (.inl rfl)

lemma negotiate_answered (p l : SyncOption) :
    SyncOption.negotiate p (offered (SyncOption.negotiate p l)) = SyncOption.negotiate p l := by
  by_cases h : p.enabled = true ∧ l.enabled = true
  · obtain ⟨hp, hl⟩ := h
    have hagreed : (SyncOption.negotiate p l).enabled = true := by
      rw [negotiate_eq hp hl]
      simp only [SyncOption.enabled, ne_eq, decide_not, Bool.not_eq_true', decide_eq_false_iff_not,
        ← UInt16.toNat_inj, toNat_min16] at hp hl ⊢
      simp only [UInt16.toNat_zero] at hp hl ⊢
      omega
    rw [offered, if_pos hagreed, Option.getD_some, negotiate_eq hp hagreed, negotiate_eq hp hl]
    simp only [SyncOption.mk.injEq, ← UInt16.toNat_inj, ← UInt8.toNat_inj, toNat_min16, toNat_min8]
    omega
  · have hnone : SyncOption.negotiate p l = .none := by
      refine negotiate_disabled ?_
      simp only [not_and_or, Bool.not_eq_true] at h
      exact h
    rw [hnone]
    exact negotiate_disabled (.inr rfl)

lemma negotiate_le (p l : SyncOption) :
    (SyncOption.negotiate p l).intervalKb ≤ p.intervalKb ∧
    (SyncOption.negotiate p l).intervalKb ≤ l.intervalKb ∧
      (SyncOption.negotiate p l).window ≤ p.window ∧ (SyncOption.negotiate p l).window ≤ l.window := by
  simp only [UInt16.le_iff_toNat_le, UInt8.le_iff_toNat_le]
  by_cases h : p.enabled = true ∧ l.enabled = true
  · rw [negotiate_eq h.1 h.2, toNat_min16, toNat_min8]
    omega
  · simp only [not_and_or, Bool.not_eq_true] at h
    rw [negotiate_disabled h]
    simp [SyncOption.none]

/-- Whether a side that asks for the first compression takes the second one. -/
def permits (c x : Compression) : Prop := c = x ∨ c = .mixed

lemma compression_answered (r l : Compression) :
    Compression.negotiate r (Compression.negotiate r l) = Compression.negotiate r l := by
  cases r <;> cases l <;> rfl

lemma compression_permitted (r l : Compression) : Compression.negotiate r l = .none ∨
    permits r (Compression.negotiate r l) ∧ permits l (Compression.negotiate r l) := by
  cases r <;> cases l <;> simp [Compression.negotiate, permits]

end Options

section Agreement

variable {cfg : RequesterConfig} {accept : ConnectAccept} {connId : UInt8} {file : FileSpec}
    {sel : Selection}

lemma connectFpdu_built (cfg : RequesterConfig) : (Requester.connectFpdu cfg).Built :=
  ConnectParams.build_built _ _

lemma request_built (sel : Selection) (file : FileSpec) (id : UInt8) : (sel.request file id).Built := by
  cases sel with
  | create => exact file.create_built id
  | select => exact file.select_built id _

lemma request_maxEntitySize (sel : Selection) (file : FileSpec) (id : UInt8) :
    (sel.request file id).get .maxEntitySize = some (encodeNum file.maxEntitySize.toNat) := by
  cases sel with
  | create => exact file.create_get_maxEntitySize id
  | select => exact file.select_get_maxEntitySize id _

lemma answer_built (sel : Selection) (spec : FileSpec) (attrs : RequestedAttributes)
    (size : UInt16) (id : UInt8) :
    (sel.answer spec attrs size id).Built := by
  cases sel with
  | create => exact Builder.ackCreate_built _ _ _ _ _
  | select answer => exact FileSpec.ackSelect_built _ _ _

lemma answer_maxEntitySize (sel : Selection) (spec : FileSpec)
    (attrs : RequestedAttributes) (size : UInt16) (id : UInt8) :
    (sel.answer spec attrs size id).get .maxEntitySize = some (encodeNum size.toNat) := by
  cases sel with
  | create => exact Builder.ackCreate_get_maxEntitySize _ _ _ _ _
  | select answer => exact FileSpec.ackSelect_get_maxEntitySize _ _ _

lemma maxEntitySize_of_get {f : Fpdu} {size : UInt16}
    (h : f.get .maxEntitySize = some (encodeNum size.toNat)) :
    f.maxEntitySize = some size := by
  have hlt := size.toNat_lt
  simp only [Fpdu.maxEntitySize, Fpdu.getNum, h, Option.map_some,
    decodeNum_encodeNum (n := size.toNat) (by omega)]
  rw [Nat.min_eq_left (by omega), UInt16.ofNat_toNat]

lemma version_of_get {f : Fpdu} {v : Version} (h : f.get .version = some (encodeNum v.code)) :
    f.version = some v := by
  simp only [Fpdu.version, Fpdu.getNum, h]
  cases v <;> rfl

lemma flag_of_get {f : Fpdu} {pi : Pi} {b : Bool}
    (h : f.get pi = if b then some (encodeNum 1) else none) :
    decide ((f.getNum pi).getD 0 = 1) = b := by
  simp only [Fpdu.getNum, h]
  cases b <;> rfl

lemma sync_of_get {f : Fpdu} {o : SyncOption}
    (h : f.get .syncOption = if o.enabled then some o.toBytes else none) :
    f.syncOption.getD .none = offered o := by
  simp only [Fpdu.syncOption, h, offered]
  split
  · simp [SyncOption.fromBytes_toBytes]
  · rfl

lemma compression_of_get {f : Fpdu} {c : Compression}
    (h : f.get .compression = if c ≠ .none then some c.toBytes else none) :
    f.compression.getD .none = c := by
  simp only [Fpdu.compression, h]
  split
  · simp [Compression.fromBytes_toBytes]
  · rename_i hc
    simpa using (not_not.mp hc).symm

lemma toOption_some {ε α : Type} {x : Except ε α} {a : α} (h : x.toOption = some a) : x = .ok a := by
  cases x with
  | error e => cases h
  | ok b => exact congrArg _ (Option.some.inj h)

lemma responder_negotiate (cfg : RequesterConfig) (accept : ConnectAccept) (crc : Bool) :
    (Responder.negotiate (Responder.connectRequest (Requester.connectFpdu cfg) none "")
      accept crc).sync =
        SyncOption.negotiate cfg.sync accept.sync ∧
      (Responder.negotiate (Responder.connectRequest (Requester.connectFpdu cfg) none "")
        accept crc).resync = (cfg.resync && accept.resync) := by
  refine ⟨?_, ?_⟩
  · show SyncOption.negotiate ((Requester.connectFpdu cfg).syncOption.getD .none) accept.sync = _
    rw [Requester.connectFpdu, sync_of_get (ConnectParams.build_get_syncOption _ _), negotiate_offered]
  · show (decide (((Requester.connectFpdu cfg).getNum .resync).getD 0 = 1) && accept.resync) = _
    rw [Requester.connectFpdu, flag_of_get (ConnectParams.build_get_resync _ _)]

lemma requester_negotiate (cfg : RequesterConfig) (idDst idSrc : UInt8) (n : Negotiated)
    (message : Option String) :
    (Requester.negotiate cfg (Builder.aconnect idDst idSrc n.version n.sync n.resync message)).version =
    n.version ∧
      (Requester.negotiate cfg (Builder.aconnect idDst idSrc n.version n.sync n.resync message)).sync =
        SyncOption.negotiate cfg.sync (offered n.sync) ∧
      (Requester.negotiate cfg (Builder.aconnect idDst idSrc n.version n.sync n.resync message)).resync =
        (cfg.resync && n.resync) := by
  refine ⟨?_, ?_, ?_⟩
  · simp only [Requester.negotiate, version_of_get (Builder.aconnect_get_version _ _ _ _ _ _),
      Option.getD_some]
  · simp only [Requester.negotiate, sync_of_get (Builder.aconnect_get_syncOption _ _ _ _ _ _)]
  · simp only [Requester.negotiate, flag_of_get (Builder.aconnect_get_resync _ _ _ _ _ _)]

lemma maxEntity_agrees (sel sel' : Selection) (file spec : FileSpec) (attrs : RequestedAttributes)
    (accept : ConnectAccept) (id id' : UInt8) (h : 7 ≤ file.maxEntitySize.toNat) :
    Requester.maxEntity file (sel'.answer spec attrs
        (Responder.maxEntity accept (FileSpec.fromFpdu (sel.request file id))) id') =
      (Responder.maxEntity accept (FileSpec.fromFpdu (sel.request file id))).toNat := by
  have hspec : (FileSpec.fromFpdu (sel.request file id)).maxEntitySize = file.maxEntitySize := by
    show (sel.request file id).maxEntitySize.getD 0 = _
    rw [maxEntitySize_of_get (request_maxEntitySize sel file id), Option.getD_some]
  simp only [Requester.maxEntity, maxEntitySize_of_get (answer_maxEntitySize sel' spec attrs _ id'),
    Responder.maxEntity, hspec, toNat_min16, toNat_max16]
  have hseven : (UInt16.ofNat headerLen + 1).toNat = 7 := rfl
  omega

lemma opening_values {r s : Terms} (h : opening cfg accept connId file sel = some (r, s)) :
    r.negotiated.version = s.negotiated.version ∧
      r.negotiated.sync = SyncOption.negotiate cfg.sync accept.sync ∧
      s.negotiated.sync = SyncOption.negotiate cfg.sync accept.sync ∧
      r.negotiated.resync = (cfg.resync && accept.resync) ∧
      s.negotiated.resync = (cfg.resync && accept.resync) ∧
      r.negotiated.crc = cfg.crc ∧ s.negotiated.crc = cfg.crc ∧
      r.compression = Compression.negotiate cfg.compression accept.compression ∧
      s.compression = Compression.negotiate cfg.compression accept.compression ∧
      (7 ≤ (Requester.proposal cfg file).maxEntitySize.toNat → r.maxEntity = s.maxEntity) := by
  simp only [opening, Option.bind_eq_bind, Option.bind_eq_some_iff] at h
  obtain ⟨entity, hentity, connect, hconnect, -, -, reply, hreply, -, -, request, hrequest,
    ack, hack, orf, horf, ackOrf, hackOrf, hterms⟩ := h
  obtain ⟨rfl, hcrc⟩ :=
    readConnect_built (connectFpdu_built cfg) (toOption_some hentity) (toOption_some hconnect)
  rw [hcrc] at hreply hrequest hack horf hackOrf hterms
  obtain rfl := transmit_built (Builder.aconnect_built _ _ _ _ _ _) hreply
  obtain rfl := transmit_built (request_built _ _ _) hrequest
  obtain rfl := transmit_built (answer_built _ _ _ _ _) hack
  obtain rfl := transmit_built (Builder.orf_built _ _) horf
  obtain rfl := transmit_built (Builder.ackOrf_built _ _ _) hackOrf
  obtain ⟨rfl, rfl⟩ := Prod.mk.inj (Option.some.inj hterms)
  obtain ⟨hsync, hresync⟩ := responder_negotiate cfg accept cfg.crc
  obtain ⟨hversion, hsync', hresync'⟩ := requester_negotiate cfg (Requester.connectFpdu cfg).idSrc connId
    (Responder.negotiate (Responder.connectRequest (Requester.connectFpdu cfg) none "") accept cfg.crc)
    accept.freeMessage
  have hcompression : ∀ id, Responder.compression accept (Builder.orf id cfg.compression) =
      Compression.negotiate cfg.compression accept.compression := by
    intro id
    rw [Responder.compression, compression_of_get (Builder.orf_get_compression _ _)]
  refine ⟨hversion, ?_, hsync, ?_, hresync, rfl, rfl, ?_, hcompression _, ?_⟩
  · rw [hsync', hsync, negotiate_answered]
  · rw [hresync', hresync]
    cases cfg.resync <;> rfl
  · rw [hcompression]
    show Compression.negotiate _ ((Builder.ackOrf _ _ _).compression.getD .none) = _
    rw [compression_of_get (Builder.ackOrf_get_compression _ _ _), compression_answered]
  · intro hsize
    exact maxEntity_agrees sel sel _ _ _ _ _ _ hsize

/-- Once a file is open both ends hold the same parameters, none of them beyond what
either side proposed. -/
theorem negotiation_agrees {r s : Terms} (h : opening cfg accept connId file sel = some (r, s)) :
    r.negotiated = s.negotiated ∧ r.compression = s.compression ∧
      (7 ≤ (Requester.proposal cfg file).maxEntitySize.toNat → r.maxEntity = s.maxEntity) ∧
      (r.negotiated.sync.intervalKb ≤ cfg.sync.intervalKb ∧
        r.negotiated.sync.intervalKb ≤ accept.sync.intervalKb) ∧
      (r.negotiated.sync.window ≤ cfg.sync.window ∧ r.negotiated.sync.window ≤ accept.sync.window) ∧
      (r.compression = .none ∨ permits cfg.compression r.compression ∧
        permits accept.compression r.compression) := by
  obtain ⟨hversion, hrsync, hssync, hrresync, hsresync, hrcrc, hscrc, hrcomp, hscomp, hentity⟩ :=
    opening_values h
  obtain ⟨hinterval, hinterval', hwindow, hwindow'⟩ := negotiate_le cfg.sync accept.sync
  refine ⟨?_, hrcomp.trans hscomp.symm, hentity, ?_, ?_, ?_⟩
  · obtain ⟨⟨_, _, _, _⟩, _, _⟩ := r
    obtain ⟨⟨_, _, _, _⟩, _, _⟩ := s
    simp only [Negotiated.mk.injEq]
    exact ⟨hversion, hrsync.trans hssync.symm, hrresync.trans hsresync.symm, hrcrc.trans hscrc.symm⟩
  · rw [hrsync]
    exact ⟨hinterval, hinterval'⟩
  · rw [hrsync]
    exact ⟨hwindow, hwindow'⟩
  · rw [hrcomp]
    exact compression_permitted _ _

def sampleRequester : RequesterConfig :=
  ⟨"PW", "CX", none, .e, ⟨256, 16⟩, true, true, .mixed, 4096, true, none, none, .mixed⟩

def sampleAccept : ConnectAccept := ⟨⟨0xFFFF, 2⟩, true, .horizontal, true, 2048, none⟩

def sampleFile : FileSpec := { FileSpec.default with fileName := "F", transferId := 7 }

def sampleConnectEntity : Bytes :=
  (Frame.singleEntity (Requester.connectFpdu sampleRequester) sampleRequester.crc).toOption.getD []

/-- The check bytes are there, the window and the entities are those of the server, the interval is that
of the requester. -/
theorem negotiation_agrees_sample :
    ∃ r s, opening sampleRequester sampleAccept 9 sampleFile (.create none none) = some (r, s) ∧
      r = ⟨⟨.e, ⟨256, 2⟩, true, true⟩, 2048, .horizontal⟩ ∧ r.negotiated = s.negotiated ∧
      r.compression = s.compression ∧ r.maxEntity = s.maxEntity := by
  have hopen : opening sampleRequester sampleAccept 9 sampleFile (.create none none) =
      some (⟨⟨.e, ⟨256, 2⟩, true, true⟩, 2048, .horizontal⟩,
      ⟨⟨.e, ⟨256, 2⟩, true, true⟩, 2048, .horizontal⟩) := by
    decide +kernel
  obtain ⟨hnegotiated, hcompression, hentity, -⟩ := negotiation_agrees hopen
  exact ⟨_, _, hopen, rfl, hnegotiated, hcompression, hentity (by decide)⟩

end Agreement

end PesitWizard.Io
