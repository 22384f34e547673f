import Mathlib.Algebra.Order.BigOperators.Group.List
import Mathlib.Algebra.Order.Group.Nat
import Mathlib.Data.List.Perm.Subperm
import PesitWizard.Core.Ebcdic
import PesitWizard.Io.Negotiation
import PesitWizard.Io.Outlook

/-! Framing of entities over a byte stream, and the reader task that feeds a link. -/

namespace PesitWizard.Io

open PesitWizard.Core Library.BigEndian

inductive Framing
  | lengthPrefixed
  | raw
  deriving DecidableEq

structure FrameReader where
  framing : Framing
  crc : Bool
  maxLen : ℕ
  first : Bool
  probeCrc : Bool

def readExact : List Bytes → ℕ → Except TransportError (Bytes × List Bytes)
  | [], n => if n = 0 then .ok ([], []) else .error .closed
  | chunk :: chunks, n =>
    if n ≤ chunk.length then .ok (chunk.take n, chunk.drop n :: chunks)
    else
      match readExact chunks (n - chunk.length) with
      | .error e => .error e
      | .ok (bytes, rest) => .ok (chunk ++ bytes, rest)

namespace FrameReader

def maxEntity : ℕ := 0xFFFF + 2 + Crc.crcLen

def new (framing : Framing) : FrameReader := ⟨framing, false, maxEntity, true, true⟩

def connectRequestsCrc (fpdu : Bytes) : Bool :=
  match Fpdu.decodeWith fpdu false with
  | .ok f => f.getNum .crc = some 1
  | .error _ => false

def readPrefixed (r : FrameReader) (declared : ℕ) (stream : List Bytes) :
    Except TransportError (Bytes × FrameReader × List Bytes) :=
  if r.maxLen < declared then .error (.tooLarge declared r.maxLen)
  else if declared = 0 then .error (.invalid 0)
  else
    match readExact stream declared with
    | .error e => .error e
    | .ok (v, stream) => .ok (v, r, stream)

def readRaw (r : FrameReader) (head : Bytes) (declared : ℕ) (stream : List Bytes) :
    Except TransportError (Bytes × FrameReader × List Bytes) :=
  let extra := if r.crc then Crc.crcLen else 0
  if declared < headerLen then .error (.invalid declared)
  else if r.maxLen < declared + extra then .error (.tooLarge (declared + extra) r.maxLen)
  else
    match readExact stream (declared + extra - 2) with
    | .error e => .error e
    | .ok (rest, stream) =>
      let v := head ++ rest
      let r' := { r with probeCrc := false }
      if r.probeCrc ∧ extra = 0 ∧ (v.drop 2).take 2 = [0x40, 0x20] ∧ connectRequestsCrc v then
        match readExact stream Crc.crcLen with
        | .error e => .error e
        | .ok (crc, stream) => .ok (v ++ crc, { r' with crc := true }, stream)
      else .ok (v, r', stream)

def readEntity (r : FrameReader) (stream : List Bytes) :
    Except TransportError (Bytes × FrameReader × List Bytes) :=
  match readExact stream 2 with
  | .error e => .error e
  | .ok (head, stream) =>
    let r' := { r with first := false }
    -- a pre-connection message or its answer, sent without a length
    if r.first ∧ head = Ebcdic.preconnectMagic.take 2 then
      match readExact stream (Ebcdic.preconnectLen - 2) with
      | .error e => .error e
      | .ok (rest, stream) => .ok (head ++ rest, r', stream)
    else if r.first ∧ (head = Ebcdic.preconnectAck.take 2 ∨ head = Ebcdic.preconnectNak.take 2) then
      match readExact stream 2 with
      | .error e => .error e
      | .ok (rest, stream) => .ok (head ++ rest, r', stream)
    else
      match r.framing with
      | .lengthPrefixed => r'.readPrefixed (Fpdu.lengthField head) stream
      | .raw => r'.readRaw head (Fpdu.lengthField head) stream

end FrameReader

def writeEntity (framing : Framing) (entity : Bytes) : Except TransportError Bytes :=
  if 0xFFFF < entity.length then .error (.tooLarge entity.length 0xFFFF)
  else
    match framing with
    | .lengthPrefixed => .ok (be16 entity.length ++ entity)
    | .raw => .ok entity

def writeEntities (framing : Framing) : List Bytes → Except TransportError Bytes
  | [] => .ok []
  | entity :: entities =>
    match writeEntity framing entity, writeEntities framing entities with
    | .ok bytes, .ok rest => .ok (bytes ++ rest)
    | .error e, _ => .error e
    | _, .error e => .error e

def concatEntity (crc : Bool) : List Fpdu → Except EncodeError Bytes
  | [] => .ok []
  | f :: fs =>
    match Frame.singleEntity f crc, concatEntity crc fs with
    | .ok bytes, .ok rest => .ok (bytes ++ rest)
    | .error e, _ => .error e
    | _, .error e => .error e

/-- The receiving side of a connection: the reader task, the link that it feeds and the
FPDUs taken so far. -/
structure Incoming where
  reader : FrameReader
  stream : List Bytes
  link : Link
  connected : Bool
  taken : List Fpdu

/-- What can happen next: the reader task reads an entity, or the engine waits for an FPDU
or polls for one. -/
inductive Turn
  | read
  | recv
  | tryRecv
  deriving DecidableEq

namespace Incoming

def start (framing : Framing) (stream : List Bytes) : Incoming :=
  ⟨.new framing, stream, ⟨false, [], []⟩, false, []⟩

def takeConnect (c : Incoming) : Except SessionError Incoming :=
  match c.link.incoming with
  | [] => .ok c
  | entity :: rest =>
    let crc := Responder.detectCrc entity
    match Responder.readConnect entity with
    | .error e => .error e
    | .ok connect => .ok { c with
        reader := { c.reader with crc := crc }
        link := { c.link with crc := crc, incoming := rest }
        connected := true
        taken := c.taken ++ [connect] }

/-- The reader task waits at the end of the stream; the engine waits for its first
entity, then for FPDUs. -/
def turn (c : Incoming) : Turn → Except SessionError Incoming
  | .read =>
    if c.stream.flatten = [] then .ok c
    else
      match c.reader.readEntity c.stream with
      | .error e => .error (.transport e)
      | .ok (entity, reader, stream) =>
        .ok { c with reader := reader, stream := stream, link := c.link.deliver entity }
  | .recv =>
    if c.connected then
      match c.link.recv with
      | none => .ok c
      | some (.error e, _) => .error e
      | some (.ok f, l) => .ok { c with link := l, taken := c.taken ++ [f] }
    else c.takeConnect
  | .tryRecv =>
    if c.connected then
      match c.link.poll with
      | none => .ok c
      | some (.error e, _) => .error e
      | some (.ok none, l) => .ok { c with link := l }
      | some (.ok (some f), l) => .ok { c with link := l, taken := c.taken ++ [f] }
    else c.takeConnect

def play : List Turn → Incoming → Except SessionError Incoming
  | [], c => .ok c
  | t :: ts, c =>
    match c.turn t with
    | .error e => .error e
    | .ok c => play ts c

end Incoming

section Reading

lemma readExact_append {chunks : List Bytes} {bytes rest : Bytes} (h : chunks.flatten = bytes ++ rest) :
    ∃ chunks', readExact chunks bytes.length = .ok (bytes, chunks') ∧ chunks'.flatten = rest := by
  induction chunks generalizing bytes with
  | nil =>
    obtain ⟨rfl, rfl⟩ := List.append_eq_nil_iff.mp h.symm
    exact ⟨[], rfl, rfl⟩
  | cons chunk chunks ih =>
    rw [List.flatten_cons, List.append_eq_append_iff] at h
    rcases h with ⟨more, rfl, hmore⟩ | ⟨back, rfl, hback⟩
    · obtain ⟨chunks', hread, hrest⟩ := ih hmore
      by_cases hm : more = []
      · subst hm
        refine ⟨[] :: chunks, ?_, by simpa using hmore⟩
        simp [readExact]
      · have hpos := List.length_pos_iff.mpr hm
        refine ⟨chunks', ?_, hrest⟩
        simp only [readExact, List.length_append]
        rw [if_neg (by omega), Nat.add_sub_cancel_left, hread]
    · refine ⟨back :: chunks, ?_, by simp [hback]⟩
      simp [readExact]

def wireOf (framing : Framing) (entity : Bytes) : Bytes :=
  match framing with
  | .lengthPrefixed => be16 entity.length ++ entity
  | .raw => entity

lemma writeEntity_ok (framing : Framing) {entity : Bytes} (h : entity.length ≤ 65535) :
    writeEntity framing entity = .ok (wireOf framing entity) := by
  have hle : ¬ 65535 < entity.length := by omega
  cases framing <;> simp [writeEntity, wireOf, hle]

lemma writeEntities_ok (framing : Framing) {entities : List Bytes}
    (h : ∀ e ∈ entities, e.length ≤ 65535) :
    writeEntities framing entities = .ok (entities.flatMap (wireOf framing)) := by
  induction entities with
  | nil => rfl
  | cons e es ih =>
    rw [List.forall_mem_cons] at h
    simp [writeEntities, writeEntity_ok framing h.1, ih h.2]

lemma concatEntity_ok {crc : Bool} {fs : List Fpdu} (h : ∀ f ∈ fs, Frame.Sound f) :
    concatEntity crc fs = .ok (fs.flatMap (Frame.image crc)) := by
  induction fs with
  | nil => rfl
  | cons f fs ih =>
    rw [List.forall_mem_cons] at h
    simp [concatEntity, Frame.singleEntity_ok h.1, ih h.2]

lemma lengthField_be16 {n : ℕ} (h : n ≤ 65535) : Fpdu.lengthField (be16 n) = n := ofBe16_be16 (by omega)

lemma image_eq_be16 (crc : Bool) (f : Fpdu) : ∃ tail, f.header ++ f.body = be16 f.encodedLen ++ tail ∧
    tail.length = f.encodedLen - 2 ∧ tail.take 2 = [f.kind.phase, f.kind.typeCode] ∧
    Frame.image crc f = be16 f.encodedLen ++
    (tail ++ if crc then Crc.compute (f.header ++ f.body) else []) := by
  have hlen := Fpdu.encodedLen_eq f
  refine ⟨[f.kind.phase, f.kind.typeCode, f.idDst, f.idSrc] ++ f.body, ?_, ?_, rfl, ?_⟩
  · simp [Fpdu.header]
  · simp only [Fpdu.header, List.length_append, be16_length] at hlen ⊢
    omega
  · cases crc <;> simp [Frame.image, Fpdu.header]

structure FrameReader.Ready (crc : Bool) (r : FrameReader) : Prop where
  maxLen : r.maxLen = maxEntity
  first : r.first = false
  raw : r.framing = .raw → r.crc = crc ∧ r.probeCrc = false

def Readable (framing : Framing) (crc : Bool) (fs : List Fpdu) : Prop :=
  fs ≠ [] ∧ (∀ f ∈ fs, Frame.Sound f) ∧ (framing = .raw → ∃ f, fs = [f]) ∧
    (framing = .lengthPrefixed → (fs.flatMap (Frame.image crc)).length ≤ 65535)

variable {crc : Bool} {stream : List Bytes} {rest : Bytes}

lemma readEntity_next {r : FrameReader} (hr : r.Ready crc) {fs : List Fpdu}
    (hfs : Readable r.framing crc fs)
    (hs : stream.flatten = wireOf r.framing (fs.flatMap (Frame.image crc)) ++ rest) :
    ∃ stream', r.readEntity stream = .ok (fs.flatMap (Frame.image crc), r, stream') ∧
    stream'.flatten = rest := by
  obtain ⟨framing, rcrc, maxLen, first, probe⟩ := r
  obtain ⟨rfl, rfl, hraw⟩ := hr
  obtain ⟨hne, hsound, hone, hlen⟩ := hfs
  cases framing with
  | lengthPrefixed =>
    have hle := hlen rfl
    have hpos : 0 < (fs.flatMap (Frame.image crc)).length := by
      obtain ⟨f, fs, rfl⟩ := List.exists_cons_of_ne_nil hne
      rw [List.flatMap_cons, List.length_append]
      have := List.length_pos_iff.mpr (Frame.image_ne_nil crc f)
      omega
    simp only [wireOf, List.append_assoc] at hs
    generalize fs.flatMap (Frame.image crc) = entity at hs hle hpos ⊢
    obtain ⟨s₁, h₁, hs₁⟩ := readExact_append hs
    obtain ⟨s₂, h₂, hs₂⟩ := readExact_append hs₁
    refine ⟨s₂, ?_, hs₂⟩
    rw [be16_length] at h₁
    have hmax : ¬ FrameReader.maxEntity < entity.length := by
      simp only [FrameReader.maxEntity, Crc.crcLen]
      omega
    simp [FrameReader.readEntity, FrameReader.readPrefixed, h₁, lengthField_be16 hle, hmax, hpos.ne', h₂]
  | raw =>
    obtain ⟨f, rfl⟩ := hone rfl
    obtain ⟨rfl, rfl⟩ := hraw rfl
    have hle := (hsound f (by simp)).2
    have hge := Frame.headerLen_le_encodedLen f
    obtain ⟨tail, -, htail, -, himage⟩ := image_eq_be16 rcrc f
    simp only [wireOf, List.flatMap_cons, List.flatMap_nil, List.append_nil] at hs ⊢
    rw [himage, List.append_assoc] at hs
    obtain ⟨s₁, h₁, hs₁⟩ := readExact_append hs
    obtain ⟨s₂, h₂, hs₂⟩ := readExact_append hs₁
    refine ⟨s₂, ?_, hs₂⟩
    have hextra : (tail ++ if rcrc then Crc.compute (f.header ++ f.body) else []).length =
        f.encodedLen + (if rcrc then Crc.crcLen else 0) - 2 := by
      simp only [headerLen] at hge
      cases rcrc <;> simp [htail, Crc.compute_length, Crc.crcLen]
      omega
    rw [be16_length] at h₁
    rw [hextra] at h₂
    have hmax : ¬ FrameReader.maxEntity < f.encodedLen + if rcrc then Crc.crcLen else 0 := by
      simp only [FrameReader.maxEntity, Crc.crcLen]
      split <;> omega
    simp [FrameReader.readEntity, FrameReader.readRaw, h₁, lengthField_be16 hle, hmax,
      Nat.not_lt.mpr hge, h₂, himage]

lemma connect_param_short {p : Param} (hc : p.code ∈ FpduKind.connect.template.map ParamRule.code)
    (hp : p.WellFormed) :
    Fpdu.paramLen p ≤ 256 := by
  cases p with
  | pi q value =>
    have hmax : q.code ∈ FpduKind.connect.template.map ParamRule.code → q.maxLen ≠ 0 ∧
        q.maxLen ≤ 254 := by
      cases q <;> decide
    replace hmax := hmax hc
    obtain ⟨-, h | h⟩ := hp
    · exact absurd h hmax.1
    · simp only [Fpdu.paramLen, unitLen]
      rw [if_pos (by omega)]
      omega
  | pgi g items =>
    have hg : g.code ∉ FpduKind.connect.template.map ParamRule.code := by
      cases g <;> decide
    exact absurd hc hg

lemma connect_short {f : Fpdu} (hk : f.kind = .connect) (hf : f.WellFormed) : f.encodedLen ≤ 2566 := by
  have hd : f.kind.isData = false := by rw [hk]; rfl
  simp only [Fpdu.WellFormed, hd, Bool.false_eq_true, if_false] at hf
  obtain ⟨-, hp⟩ := hf
  have hnodup : (f.params.map Param.code).Nodup := hp.ascending.imp (fun h => (UInt8.ne_of_lt h))
  have hsub : f.params.map Param.code ⊆ FpduKind.connect.template.map ParamRule.code := by
    intro c hc
    obtain ⟨p, hm, rfl⟩ := List.mem_map.mp hc
    exact hk ▸ hp.allowed p hm
  have hcount : f.params.length ≤ 10 := by
    have hle := (List.subperm_of_subset hnodup hsub).length_le
    rwa [List.length_map, List.length_map] at hle
  have hsum : (f.params.map Fpdu.paramLen).sum ≤ f.params.length * 256 := by
    have hle := List.sum_le_card_nsmul (f.params.map Fpdu.paramLen) 256 (by
      intro n hn
      obtain ⟨p, hm, rfl⟩ := List.mem_map.mp hn
      exact connect_param_short (hk ▸ hp.allowed p hm) (hp.each p hm))
    simpa using hle
  simp only [Fpdu.encodedLen, hd, Bool.false_eq_true, if_false, headerLen]
  omega

lemma be16_ne_preconnect {n : ℕ} (hn : n ≤ 2568) : be16 n ≠ Ebcdic.preconnectMagic.take 2 ∧
    be16 n ≠ Ebcdic.preconnectAck.take 2 ∧ be16 n ≠ Ebcdic.preconnectNak.take 2 := by
  have hfield := lengthField_be16 (n := n) (by omega)
  refine ⟨?_, ?_, ?_⟩
  · intro h
    rw [h, show Fpdu.lengthField (Ebcdic.preconnectMagic.take 2) = 0xD7C5 from rfl] at hfield
    omega
  · intro h
    rw [h, show Fpdu.lengthField (Ebcdic.preconnectAck.take 2) = 0xC1C3 from rfl] at hfield
    omega
  · intro h
    rw [h, show Fpdu.lengthField (Ebcdic.preconnectNak.take 2) = 0xD5C1 from rfl] at hfield
    omega

variable {framing : Framing} {connect : Fpdu}

lemma connectRequestsCrc_encoded (hs : Frame.Sound connect) :
    FrameReader.connectRequestsCrc (connect.header ++ connect.body) =
    decide (connect.getNum .crc = some 1) := by
  rw [FrameReader.connectRequestsCrc, Fpdu.decodeWith_lenient (Fpdu.decode_encoded hs.1 hs.2)]

lemma readEntity_first (hk : connect.kind = .connect) (hc : Frame.Sound connect)
    (hcrc : crc = decide (connect.getNum .crc = some 1))
    (hs : stream.flatten = wireOf framing (Frame.image crc connect) ++ rest) :
    ∃ r stream', (FrameReader.new framing).readEntity stream =
    .ok (Frame.image crc connect, r, stream') ∧
      r.Ready crc ∧ r.framing = framing ∧ stream'.flatten = rest := by
  have hshort := connect_short hk hc.1
  have hge := Frame.headerLen_le_encodedLen connect
  have hlen := Frame.image_length crc connect
  simp only [headerLen] at hge
  cases framing with
  | lengthPrefixed =>
    have hlen' : (Frame.image crc connect).length ≤ 2568 := by
      rw [hlen, Crc.crcLen]
      split <;> omega
    have hpos : (Frame.image crc connect).length ≠ 0 := by omega
    have hfield := lengthField_be16 (n := (Frame.image crc connect).length) (by omega)
    obtain ⟨hm, ha, hn⟩ := be16_ne_preconnect hlen'
    have hmax : ¬ FrameReader.maxEntity < (Frame.image crc connect).length := by
      simp only [FrameReader.maxEntity, Crc.crcLen]
      omega
    simp only [wireOf, List.append_assoc] at hs
    obtain ⟨s₁, h₁, hs₁⟩ := readExact_append hs
    obtain ⟨s₂, h₂, hs₂⟩ := readExact_append hs₁
    rw [be16_length] at h₁
    refine ⟨{ FrameReader.new .lengthPrefixed with first := false }, s₂, ?_,
      ⟨rfl, rfl, by simp [FrameReader.new]⟩, rfl, hs₂⟩
    simp [FrameReader.readEntity, FrameReader.readPrefixed, FrameReader.new, h₁, hm, ha, hn,
      hfield, hmax, hpos, h₂]
  | raw =>
    have hfield := lengthField_be16 (n := connect.encodedLen) (by omega)
    obtain ⟨hm, ha, hn⟩ := be16_ne_preconnect (n := connect.encodedLen) (by omega)
    obtain ⟨tail, hv, htail, hcodes, himage⟩ := image_eq_be16 crc connect
    have hmax : ¬ FrameReader.maxEntity < connect.encodedLen := by
      simp only [FrameReader.maxEntity, Crc.crcLen]
      omega
    rw [wireOf, himage, List.append_assoc, List.append_assoc] at hs
    obtain ⟨s₁, h₁, hs₁⟩ := readExact_append hs
    obtain ⟨s₂, h₂, hs₂⟩ := readExact_append hs₁
    rw [be16_length] at h₁
    rw [htail] at h₂
    have hrequests : FrameReader.connectRequestsCrc (be16 connect.encodedLen ++ tail) = crc := by
      rw [← hv, connectRequestsCrc_encoded hc, hcrc]
    have hprobe : ((be16 connect.encodedLen ++ tail).drop 2).take 2 = [0x40, 0x20] := by
      rw [List.drop_left' (be16_length _), hcodes, hk]
      rfl
    have hread : (FrameReader.new .raw).readEntity stream =
        { FrameReader.new .raw with first := false }.readRaw (be16 connect.encodedLen)
        connect.encodedLen s₁ := by
      simp [FrameReader.readEntity, FrameReader.new, h₁, hm, ha, hn, hfield]
    rw [hread]
    cases crc with
    | false =>
      refine ⟨⟨.raw, false, FrameReader.maxEntity, false, false⟩, s₂, ?_,
        ⟨rfl, rfl, fun _ => ⟨rfl, rfl⟩⟩, rfl, by simpa using hs₂⟩
      simp [FrameReader.readRaw, FrameReader.new, Nat.not_lt.mpr hge, hmax, h₂, hrequests, himage]
    | true =>
      obtain ⟨s₃, h₃, hs₃⟩ := readExact_append hs₂
      simp only [if_true, Crc.compute_length] at h₃
      refine ⟨⟨.raw, true, FrameReader.maxEntity, false, false⟩, s₃, ?_,
        ⟨rfl, rfl, fun _ => ⟨rfl, rfl⟩⟩, rfl, hs₃⟩
      simp [FrameReader.readRaw, FrameReader.new, Nat.not_lt.mpr hge, hmax, h₂, hrequests,
        himage, hprobe, h₃]

end Reading

def entityOf (crc : Bool) (fs : List Fpdu) : Bytes := fs.flatMap (Frame.image crc)

lemma Link.poll_entities {crc : Bool} {l : Link} (hcrc : l.crc = crc) {q : List (List Fpdu)}
    (hq : l.incoming = q.map (entityOf crc)) (hgood : ∀ g ∈ q, g ≠ [] ∧ ∀ f ∈ g, Frame.Sound f) :
    (l.pending ++ q.flatten = [] ∧ l.poll = none ∧ l.recv = none) ∨
      ∃ (f : Fpdu) (l' : Link) (q' : List (List Fpdu)), l.poll = some (.ok (some f), l') ∧
      l.recv = some (.ok f, l') ∧ l'.crc = crc ∧
        l'.incoming = q'.map (entityOf crc) ∧ (∀ g ∈ q', g ∈ q) ∧
        l.pending ++ q.flatten = f :: (l'.pending ++ q'.flatten) := by
  cases hp : l.pending with
  | cons f fs =>
    right
    refine ⟨f, { l with pending := fs }, q, ?_, recv_pending hp, hcrc, hq, fun _ hg => hg, by simp⟩
    simp only [poll, hp]
  | nil =>
    cases q with
    | nil =>
      left
      rw [List.map_nil] at hq
      simp [recv, poll, hp, hq]
    | cons g q =>
      right
      rw [List.forall_mem_cons] at hgood
      obtain ⟨f, fs, rfl⟩ := List.exists_cons_of_ne_nil hgood.1.1
      have hopen : Reception.opened l.crc (entityOf crc (f :: fs)) = .ok (f :: fs) := by
        rw [hcrc]
        exact Reception.opened_images hgood.1.1 hgood.1.2
      obtain ⟨hrecv, hpoll⟩ := recv_ok hp (hq.trans List.map_cons) hopen
      exact ⟨f, ⟨l.crc, q.map (entityOf crc), fs⟩, q, hpoll, hrecv, hcrc, rfl, fun _ hg =>
        List.mem_cons_of_mem _ hg, by simp⟩

namespace Incoming

/-- Where the FPDUs after the CONNECT are: taken, waiting in the link, or still in the
stream, in `n` entities. -/
inductive Follows (framing : Framing) (crc : Bool) (connect : Fpdu) (fpdus : List Fpdu) :
    ℕ → Incoming → Prop
  | fresh {stream : List Bytes} {us : List (List Fpdu)} (hus : ∀ u ∈ us, Readable framing crc u)
      (hs : stream.flatten = wireOf framing (Frame.image crc connect) ++
        us.flatMap (fun u => wireOf framing (entityOf crc u)))
      (hall : us.flatten = fpdus) :
      Follows framing crc connect fpdus (us.length + 1) (start framing stream)
  | waiting {r : FrameReader} {stream : List Bytes} {l : Link} {q us : List (List Fpdu)}
    (hr : r.Ready crc)
      (hf : r.framing = framing) (hq : ∀ u ∈ q, Readable framing crc u)
      (hus : ∀ u ∈ us, Readable framing crc u)
      (hs : stream.flatten = us.flatMap (fun u => wireOf framing (entityOf crc u))) (hp : l.pending = [])
      (hl : l.incoming = Frame.image crc connect :: q.map (entityOf crc))
      (hall : q.flatten ++ us.flatten = fpdus) :
      Follows framing crc connect fpdus us.length ⟨r, stream, l, false, []⟩
  | connected {r : FrameReader} {stream : List Bytes} {l : Link} {q us : List (List Fpdu)}
    {taken : List Fpdu}
      (hr : r.Ready crc) (hf : r.framing = framing) (hq : ∀ u ∈ q, Readable framing crc u)
      (hus : ∀ u ∈ us, Readable framing crc u)
      (hs : stream.flatten = us.flatMap (fun u => wireOf framing (entityOf crc u))) (hcrc : l.crc = crc)
      (hl : l.incoming = q.map (entityOf crc))
      (hall : taken ++ ((l.pending ++ q.flatten) ++ us.flatten) = connect :: fpdus) :
      Follows framing crc connect fpdus us.length ⟨r, stream, l, true, taken⟩

variable {framing : Framing} {crc : Bool} {connect : Fpdu} {fpdus : List Fpdu} {n : ℕ} {c : Incoming}

lemma wireOf_ne_nil (framing : Framing) {entity : Bytes} (h : entity ≠ []) :
    wireOf framing entity ≠ [] := by
  cases framing <;> simp [wireOf, h]

lemma entityOf_ne_nil {u : List Fpdu} (h : Readable framing crc u) : entityOf crc u ≠ [] := by
  obtain ⟨f, fs, rfl⟩ := List.exists_cons_of_ne_nil h.1
  simp [entityOf, Frame.image_ne_nil]

lemma turn_read (hr : c.reader.Ready crc) {u : List Fpdu}
    (hu : Readable c.reader.framing crc u) {rest : Bytes}
    (hs : c.stream.flatten = wireOf c.reader.framing (entityOf crc u) ++ rest) :
    ∃ stream, c.turn .read = .ok { c with stream := stream, link := c.link.deliver (entityOf crc u) } ∧
      stream.flatten = rest := by
  obtain ⟨stream, hread, hrest⟩ := readEntity_next hr hu hs
  have hne : c.stream.flatten ≠ [] := by
    rw [hs]
    simp [wireOf_ne_nil c.reader.framing (entityOf_ne_nil hu)]
  refine ⟨stream, ?_, hrest⟩
  rw [turn, if_neg hne]
  simp only [hread, entityOf]

lemma Follows.read (hk : connect.kind = .connect) (hc : Frame.Sound connect)
    (hcrc : crc = decide (connect.getNum .crc = some 1)) (h : Follows framing crc connect fpdus n c) :
    ∃ c', c.turn .read = .ok c' ∧ Follows framing crc connect fpdus (n - 1) c' ∧ c'.taken = c.taken := by
  cases h with
  | @fresh stream us hus hs hall =>
    obtain ⟨r, stream', hread, hready, hframing, hs'⟩ := readEntity_first hk hc hcrc hs
    have hne : (start framing stream).stream.flatten ≠ [] := by
      rw [start, hs]
      simp [wireOf_ne_nil framing (Frame.image_ne_nil crc connect)]
    refine ⟨⟨r, stream', ⟨false, [Frame.image crc connect], []⟩, false, []⟩, ?_,
      .waiting (q := []) hready hframing (by simp) hus hs' rfl rfl (by simpa using hall), rfl⟩
    rw [turn, if_neg hne]
    simp only [start, hread, Link.deliver, List.nil_append]
  | @waiting r stream l q us hr hf hq hus hs hp hl hall =>
    cases us with
    | nil => exact ⟨_, if_pos hs, .waiting hr hf hq hus hs hp hl hall, rfl⟩
    | cons u us =>
      rw [List.forall_mem_cons] at hus
      rw [List.flatMap_cons] at hs
      subst hf
      obtain ⟨stream', hturn, hs'⟩ := turn_read (c := ⟨r, stream, l, false, []⟩) hr hus.1 hs
      refine ⟨_, hturn, .waiting (q := q ++ [u]) hr rfl ?_ hus.2 hs' hp ?_ ?_, rfl⟩
      · simpa [or_imp, forall_and] using ⟨hq, hus.1⟩
      · simp [Link.deliver, hl]
      · simpa using hall
  | @connected r stream l q us taken hr hf hq hus hs hlcrc hl hall =>
    cases us with
    | nil => exact ⟨_, if_pos hs, .connected hr hf hq hus hs hlcrc hl hall, rfl⟩
    | cons u us =>
      rw [List.forall_mem_cons] at hus
      rw [List.flatMap_cons] at hs
      subst hf
      obtain ⟨stream', hturn, hs'⟩ := turn_read (c := ⟨r, stream, l, true, taken⟩) hr hus.1 hs
      refine ⟨_, hturn, .connected (q := q ++ [u]) hr rfl ?_ hus.2 hs' hlcrc ?_ ?_, rfl⟩
      · simpa [or_imp, forall_and] using ⟨hq, hus.1⟩
      · simp [Link.deliver, hl]
      · simpa [Link.deliver] using hall

lemma readConnect_image (hc : Frame.Sound connect) :
    Responder.readConnect (Frame.image crc connect) = .ok connect := by
  rw [Responder.readConnect, detectCrc_image hc.2, splitEntity_image hc.2]
  simp only [Fpdu.decode_encoded hc.1 hc.2, Except.mapError]

lemma Follows.take (hc : Frame.Sound connect) (h : Follows framing crc connect fpdus n c) {t : Turn}
    (ht : t ≠ .read) :
    ∃ c', c.turn t = .ok c' ∧ Follows framing crc connect fpdus n c' ∧
      (n = 0 → c'.taken.length = min (c.taken.length + 1) (fpdus.length + 1)) := by
  cases h with
  | @fresh stream us hus hs hall =>
    refine ⟨start framing stream, ?_, .fresh hus hs hall, by simp⟩
    cases t with
    | read => exact absurd rfl ht
    | recv => rfl
    | tryRecv => rfl
  | @waiting r stream l q us hr hf hq hus hs hp hl hall =>
    have hready : FrameReader.Ready crc { r with crc := crc } :=
      ⟨hr.maxLen, hr.first, fun h => ⟨rfl, (hr.raw h).2⟩⟩
    refine ⟨⟨{ r with crc := crc }, stream, ⟨crc, q.map (entityOf crc), l.pending⟩, true, [connect]⟩, ?_,
      .connected hready hf hq hus hs rfl rfl (by simp [hp, hall]), by simp⟩
    have htake : takeConnect ⟨r, stream, l, false, []⟩ =
        .ok ⟨{ r with crc := crc }, stream, ⟨crc, q.map (entityOf crc), l.pending⟩,
        true, [connect]⟩ := by
      simp only [takeConnect, hl, detectCrc_image hc.2, readConnect_image hc, List.nil_append]
    cases t with
    | read => exact absurd rfl ht
    | recv => exact htake
    | tryRecv => exact htake
  | @connected r stream l q us taken hr hf hq hus hs hlcrc hl hall =>
    have hcount := congrArg List.length hall
    rcases Link.poll_entities hlcrc hl (fun g hg => ⟨(hq g hg).1, (hq g hg).2.1⟩) with
      ⟨hempty, hpoll, hrecv⟩ | ⟨f, l', q', hpoll, hrecv, hlcrc', hl', hsub, hnext⟩
    · refine ⟨⟨r, stream, l, true, taken⟩, ?_, .connected hr hf hq hus hs hlcrc hl hall, ?_⟩
      · cases t with
        | read => exact absurd rfl ht
        | recv => simp [turn, hrecv]
        | tryRecv => simp [turn, hpoll]
      · intro hn
        obtain rfl := List.length_eq_zero_iff.mp hn
        simp only [hempty, List.flatten_nil, List.append_nil, List.length_cons] at hcount
        simp only
        omega
    · refine ⟨⟨r, stream, l', true, taken ++ [f]⟩, ?_,
        .connected hr hf (fun u hu => hq u (hsub u hu)) hus hs hlcrc' hl' ?_, ?_⟩
      · cases t with
        | read => exact absurd rfl ht
        | recv => simp [turn, hrecv]
        | tryRecv => simp [turn, hpoll]
      · rw [hnext] at hall
        simpa using hall
      · intro _
        rw [hnext] at hcount
        simp only [List.length_append, List.length_cons, List.length_nil] at hcount ⊢
        omega

lemma Follows.taken_first (h : Follows framing crc connect fpdus n c) :
    c.taken <+: connect :: fpdus := by
  cases h with
  | fresh => exact List.nil_prefix
  | waiting => exact List.nil_prefix
  | connected _ _ _ _ _ _ _ hall => exact ⟨_, hall⟩

lemma Follows.play (hk : connect.kind = .connect) (hc : Frame.Sound connect)
    (hcrc : crc = decide (connect.getNum .crc = some 1)) (h : Follows framing crc connect fpdus n c)
    (ts : List Turn) :
    ∃ m c', m ≤ n ∧ play ts c = .ok c' ∧ Follows framing crc connect fpdus m c' := by
  induction ts generalizing n c with
  | nil => exact ⟨n, c, le_rfl, rfl, h⟩
  | cons t ts ih =>
    have hstep : ∃ m c', m ≤ n ∧ c.turn t = .ok c' ∧ Follows framing crc connect fpdus m c' := by
      by_cases ht : t = .read
      · subst ht
        obtain ⟨c', hturn, hf, -⟩ := h.read hk hc hcrc
        exact ⟨n - 1, c', Nat.sub_le _ _, hturn, hf⟩
      · obtain ⟨c', hturn, hf, -⟩ := h.take hc ht
        exact ⟨n, c', le_rfl, hturn, hf⟩
    obtain ⟨m, c₁, hm, hturn, hf⟩ := hstep
    obtain ⟨m', c', hm', hplay, hf'⟩ := ih hf
    refine ⟨m', c', by omega, ?_, hf'⟩
    simp only [Incoming.play, hturn, hplay]

lemma play_append (ts ts' : List Turn) (c : Incoming) :
    play (ts ++ ts') c = (play ts c).bind (play ts') := by
  induction ts generalizing c with
  | nil => rfl
  | cons t ts ih =>
    simp only [List.cons_append, play]
    cases c.turn t with
    | error e => rfl
    | ok c => exact ih c

lemma Follows.readAll (hk : connect.kind = .connect) (hc : Frame.Sound connect)
    (hcrc : crc = decide (connect.getNum .crc = some 1)) (h : Follows framing crc connect fpdus n c)
    {k : ℕ} (hn : n ≤ k) :
    ∃ c', Incoming.play (List.replicate k .read) c = .ok c' ∧
    Follows framing crc connect fpdus 0 c' := by
  induction k generalizing n c with
  | zero =>
    obtain rfl : n = 0 := by omega
    exact ⟨c, rfl, h⟩
  | succ k ih =>
    obtain ⟨c₁, hturn, hf, -⟩ := h.read hk hc hcrc
    obtain ⟨c', hplay, hf'⟩ := ih hf (by omega)
    refine ⟨c', ?_, hf'⟩
    simp only [List.replicate_succ, Incoming.play, hturn, hplay]

lemma Follows.recvAll (hc : Frame.Sound connect) (h : Follows framing crc connect fpdus 0 c) (k : ℕ) :
    ∃ c', Incoming.play (List.replicate k .recv) c = .ok c' ∧ Follows framing crc connect fpdus 0 c' ∧
      min (c.taken.length + k) (fpdus.length + 1) ≤ c'.taken.length := by
  induction k generalizing c with
  | zero => exact ⟨c, rfl, h, by omega⟩
  | succ k ih =>
    obtain ⟨c₁, hturn, hf, hlen⟩ := h.take hc (t := .recv) (by decide)
    obtain ⟨c', hplay, hf', hlen'⟩ := ih hf
    have hlen := hlen rfl
    refine ⟨c', ?_, hf', by omega⟩
    simp only [List.replicate_succ, Incoming.play, hturn, hplay]

def units (framing : Framing) (groups : List (List Fpdu)) : List (List Fpdu) :=
  match framing with
  | .lengthPrefixed => groups
  | .raw => groups.flatten.map (fun f => [f])

lemma units_flatten (framing : Framing) (groups : List (List Fpdu)) :
    (units framing groups).flatten = groups.flatten := by
  cases framing with
  | lengthPrefixed => rfl
  | raw =>
    simp only [units, ← List.flatMap_def]
    exact List.flatMap_singleton' _

lemma units_wire (framing : Framing) (groups : List (List Fpdu)) :
    groups.flatMap (fun g => wireOf framing (entityOf crc g)) =
      (units framing groups).flatMap (fun u => wireOf framing (entityOf crc u)) := by
  cases framing with
  | lengthPrefixed => rfl
  | raw =>
    simp only [units, wireOf, entityOf, List.flatMap_map, List.flatMap_cons,
      List.flatMap_nil, List.append_nil]
    induction groups with
    | nil => rfl
    | cons g groups ih => rw [List.flatMap_cons, List.flatten_cons, List.flatMap_append, ih]

lemma units_readable {groups : List (List Fpdu)} (hne : ∀ g ∈ groups, g ≠ [])
    (hs : ∀ g ∈ groups, ∀ f ∈ g, Frame.Sound f) (hlen : ∀ g ∈ groups, (entityOf crc g).length ≤ 65535) :
    ∀ u ∈ units framing groups, Readable framing crc u := by
  intro u hu
  cases framing with
  | lengthPrefixed => exact ⟨hne u hu, hs u hu, by simp, fun _ => hlen u hu⟩
  | raw =>
    obtain ⟨f, hf, rfl⟩ := List.mem_map.mp hu
    obtain ⟨g, hg, hfg⟩ := List.mem_flatten.mp hf
    exact ⟨by simp, by simpa using hs g hg f hfg, fun _ => ⟨f, rfl⟩, by simp⟩

lemma length_le_flatten {us : List (List Fpdu)} (h : ∀ u ∈ us, u ≠ []) :
    us.length ≤ us.flatten.length := by
  induction us with
  | nil => simp
  | cons u us ih =>
    rw [List.forall_mem_cons] at h
    have hu := List.length_pos_iff.mpr h.1
    have hus := ih h.2
    simp only [List.length_cons, List.flatten_cons, List.length_append]
    omega

lemma encodedLen_of_encode {f : Fpdu} {b : Bytes} (h : f.encode = .ok b) : f.encodedLen ≤ 65535 := by
  by_contra hlt
  simp only [Fpdu.encode, Fpdu.encodeInto] at h
  rw [if_pos (by simp only [maxFpduLen]; omega)] at h
  cases h

lemma concatEntity_sound {fs : List Fpdu} {e : Bytes} (hwf : ∀ f ∈ fs, f.WellFormed)
    (h : concatEntity crc fs = .ok e) :
    e = entityOf crc fs ∧ ∀ f ∈ fs, Frame.Sound f := by
  have hsound : ∀ f ∈ fs, Frame.Sound f := by
    induction fs generalizing e with
    | nil => simp
    | cons f fs ih =>
      rw [List.forall_mem_cons] at hwf
      simp only [concatEntity] at h
      split at h
      · rename_i bytes rest hf hrest
        refine List.forall_mem_cons.mpr ⟨⟨hwf.1, ?_⟩, ih hwf.2 hrest⟩
        rw [Frame.singleEntity] at hf
        split at hf
        · cases hf
        · rename_i henc
          exact encodedLen_of_encode henc
      · cases h
      · cases h
  refine ⟨?_, hsound⟩
  rw [concatEntity_ok hsound] at h
  exact (Except.ok.inj h).symm

lemma entities_sound {gs : List (List Fpdu)} {entities : List Bytes}
    (hwf : ∀ g ∈ gs, g ≠ [] ∧ ∀ f ∈ g, f.WellFormed)
    (he : List.Forall₂ (fun g e => concatEntity crc g = .ok e ∧ e.length ≤ 65535) gs entities) :
    entities = gs.map (entityOf crc) ∧ ∀ g ∈ gs, (∀ f ∈ g, Frame.Sound f) ∧
    (entityOf crc g).length ≤ 65535 := by
  induction he with
  | nil => simp
  | cons h _ ih =>
    rw [List.forall_mem_cons] at hwf
    obtain ⟨rfl, hsound⟩ := concatEntity_sound hwf.1.2 h.1
    obtain ⟨hmap, hrest⟩ := ih hwf.2
    exact ⟨by rw [List.map_cons, ← hmap], List.forall_mem_cons.mpr ⟨⟨hsound, h.2⟩, hrest⟩⟩

/-- Entities that start with a CONNECT go through either framing, however the stream is cut and however
the reader and the engine take turns: the engine is given the FPDUs in order, and all of them once the
reader has read on. -/
theorem framing_delivers (framing : Framing) (crc : Bool) (connect : Fpdu) (groups : List (List Fpdu))
    (entities : List Bytes) (hk : connect.kind = .connect)
    (hcrc : crc = decide (connect.getNum .crc = some 1))
    (hwf : ∀ g ∈ [connect] :: groups, g ≠ [] ∧ ∀ f ∈ g, f.WellFormed)
    (he : List.Forall₂ (fun g e => concatEntity crc g = .ok e ∧ e.length ≤ 65535)
      ([connect] :: groups) entities) :
    ∃ wire, writeEntities framing entities = .ok wire ∧ ∀ chunks : List Bytes, chunks.flatten = wire →
      ∀ ts, ∃ c, play ts (start framing chunks) = .ok c ∧ c.taken <+: connect :: groups.flatten ∧
        ∀ k, (connect :: groups.flatten).length ≤ k →
          ∃ c', play (List.replicate k .read ++ List.replicate k .recv) c = .ok c' ∧
            c'.taken = connect :: groups.flatten := by
  obtain ⟨rfl, hsound⟩ := entities_sound hwf he
  rw [List.forall_mem_cons] at hwf hsound
  obtain ⟨⟨-, -⟩, hwf⟩ := hwf
  obtain ⟨⟨hconnect, hfirst⟩, hsound⟩ := hsound
  have hc : Frame.Sound connect := hconnect connect (by simp)
  have hwrite : ∀ e ∈ ([connect] :: groups).map (entityOf crc), e.length ≤ 65535 := by
    rw [List.map_cons, List.forall_mem_cons]
    refine ⟨hfirst, ?_⟩
    intro e hmem
    obtain ⟨g, hg, rfl⟩ := List.mem_map.mp hmem
    exact (hsound g hg).2
  refine ⟨_, writeEntities_ok framing hwrite, ?_⟩
  intro chunks hchunks ts
  have hunits : ∀ u ∈ units framing groups, Readable framing crc u :=
    units_readable (fun g hg => (hwf g hg).1) (fun g hg => (hsound g hg).1) (fun g hg => (hsound g hg).2)
  have hcount : (units framing groups).length ≤ groups.flatten.length := by
    rw [← units_flatten framing groups]
    exact length_le_flatten (fun u hu => (hunits u hu).1)
  have hstart : Follows framing crc connect groups.flatten ((units framing groups).length + 1)
      (start framing chunks) := by
    refine .fresh hunits ?_ (units_flatten framing groups)
    rw [hchunks, ← units_wire, List.map_cons, List.flatMap_cons, List.flatMap_map]
    simp [entityOf]
  obtain ⟨m, c, hm, hplay, hf⟩ := hstart.play hk hc hcrc ts
  refine ⟨c, hplay, hf.taken_first, ?_⟩
  intro k hlen
  rw [List.length_cons] at hlen
  obtain ⟨c₁, hread, hf₁⟩ := hf.readAll hk hc hcrc (k := k) (by omega)
  obtain ⟨c₂, hrecv, hf₂, htaken⟩ := hf₁.recvAll hc k
  refine ⟨c₂, ?_, ?_⟩
  · rw [play_append, hread]
    exact hrecv
  · refine hf₂.taken_first.eq_of_length_le ?_
    rw [List.length_cons]
    omega

def sampleConnect : Fpdu :=
  ⟨.connect, 0, 1, [.pi .crc [1], .pi .requester [0x41], .pi .server [0x42], .pi .version [2],
    .pi .accessType [2]], []⟩

def sampleGroups : List (List Fpdu) :=
  [[⟨.dtf, 1, 0, [], [7, 8]⟩, ⟨.syn, 1, 0, [.pi .syncNumber [1]], []⟩], [⟨.dtf, 1, 0, [], [9]⟩]]

theorem framing_delivers_sample :
    ∃ wire, writeEntities .raw (([sampleConnect] :: sampleGroups).map (entityOf true)) = .ok wire ∧
      ∀ chunks : List Bytes, chunks.flatten = wire → ∀ ts, ∃ c, play ts (start .raw chunks) = .ok c ∧
        c.taken <+: sampleConnect :: sampleGroups.flatten ∧
        ∀ k, (sampleConnect :: sampleGroups.flatten).length ≤ k →
          ∃ c', play (List.replicate k .read ++ List.replicate k .recv) c = .ok c' ∧
            c'.taken = sampleConnect :: sampleGroups.flatten :=
  framing_delivers .raw true sampleConnect sampleGroups _ rfl (by decide) (by decide)
    (.cons ⟨by rfl, by decide⟩ (.cons ⟨by rfl, by decide⟩ (.cons ⟨by rfl, by decide⟩ .nil)))

end Incoming

end PesitWizard.Io
