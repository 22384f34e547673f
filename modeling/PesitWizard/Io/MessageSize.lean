import PesitWizard.Io.Message

/-! Which messages are sent in FPDUs that are not longer than the entities that were agreed on, and that
the server accepts. -/

namespace PesitWizard.Core.Fpdu

lemma Built.decoded_iff {f : Fpdu} (h : f.Built) :
    (∃ b, f.encode = .ok b ∧ ∃ f', decode b = .ok f') ↔ f.Encodable ∧ f.validateTemplate = .ok () := by
  constructor
  · rintro ⟨b, hb, f', hd⟩
    obtain ⟨rfl, hlen, hfilled⟩ := h.encode_eq hb
    refine ⟨⟨hlen, fun _ => hfilled⟩, ?_⟩
    rw [decode_framed h.kind h.data h.ascending (h.readAs hfilled hlen) hlen] at hd
    cases hv : f.validateTemplate with
    | ok _ => rfl
    | error e =>
      rw [hv] at hd
      cases hd
  · rintro ⟨henc, hv⟩
    have hfilled := henc.2 (by simp [h.kind])
    refine ⟨_, encodeInto_encodable henc [], f, ?_⟩
    rw [List.nil_append, decode_framed h.kind h.data h.ascending (h.readAs hfilled henc.1) henc.1, hv]

end PesitWizard.Core.Fpdu

namespace PesitWizard.Io

open PesitWizard.Core Fpdu

namespace MessageTerms

variable (t : MessageTerms)

def crcCost : ℕ := if t.crc then Crc.crcLen else 0

/-- What can be sent in an entity of its own and is read by the other end. -/
structure Accepted (f : Fpdu) : Prop where
  entity : ∃ e, Frame.singleEntity f t.crc = .ok e ∧ e.length ≤ t.maxEntity
  decoded : ∃ b, f.encode = .ok b ∧ ∃ f', decode b = .ok f'

variable {t} {f : Fpdu}

lemma accepted_iff (h : f.Built) (hmax : t.maxEntity ≤ 65535) :
    t.Accepted f ↔ (∀ p ∈ f.params, Filled p) ∧ f.validateTemplate = .ok () ∧
    f.encodedLen + t.crcCost ≤ t.maxEntity := by
  constructor
  · rintro ⟨⟨e, he, hlen⟩, hdecoded⟩
    obtain ⟨henc, hv⟩ := h.decoded_iff.mp hdecoded
    obtain ⟨-, rfl⟩ := Frame.singleEntity_iff.mp he
    rw [Frame.image_length] at hlen
    exact ⟨henc.2 (by simp [h.kind]), hv, hlen⟩
  · rintro ⟨hfilled, hv, hlen⟩
    have henc : f.Encodable := ⟨by show f.encodedLen ≤ 65535; omega, fun _ => hfilled⟩
    refine ⟨⟨_, Frame.singleEntity_iff.mpr ⟨henc, rfl⟩, ?_⟩, h.decoded_iff.mpr ⟨henc, hv⟩⟩
    rw [Frame.image_length]
    exact hlen

end MessageTerms

section Texts

variable {kind : FpduKind} {idDst : UInt8} {file : FileSpec} {expectsReply : Bool} {c : Bytes}

lemma msgParams_some : file.msgParams expectsReply (some c) =
    file.msgParams expectsReply none ++ slot .message (if c.isEmpty then none else some c) := by
  cases c <;> simp [FileSpec.msgParams, slot]

lemma encodedLen_params (hkind : kind.isData = false) (params : List Param) :
    (⟨kind, idDst, 0, params, []⟩ : Fpdu).encodedLen = headerLen + (params.map paramLen).sum := by
  rw [encodedLen, if_neg (by simp [hkind])]

lemma encodedLen_slot (hkind : kind.isData = false) (params : List Param) (v : Option Bytes) :
    (⟨kind, idDst, 0, params ++ slot .message v, []⟩ : Fpdu).encodedLen =
      (⟨kind, idDst, 0, params, []⟩ : Fpdu).encodedLen + v.elim 0 fun c => unitLen c.length := by
  rw [encodedLen_params hkind, encodedLen_params hkind, List.map_append, List.sum_append]
  cases v with
  | none => rfl
  | some c => simp [slot, paramLen]; omega

lemma template_slot (params : List Param) (v : Option Bytes)
    (hallowed : Pi.message.code ∈ kind.template.map ParamRule.code)
    (hoptional : ∀ r ∈ kind.template, r.mandatory = true → r.code ≠ Pi.message.code) :
    (⟨kind, idDst, 0, params ++ slot .message v, []⟩ : Fpdu).validateTemplate = .ok () ↔
      (⟨kind, idDst, 0, params, []⟩ : Fpdu).validateTemplate = .ok () ∧ ∀ c ∈ v, c.length ≤ 4096 := by
  have hslot : (∀ p ∈ slot .message v, checkParam kind p = .ok ()) ↔ ∀ c ∈ v, c.length ≤ 4096 := by
    rw [slot_forall]
    refine forall₂_congr fun c _ => ?_
    rw [checkParam_ok_iff]
    exact (and_iff_right hallowed).trans (or_iff_right (by decide))
  have hpresent :
      (∀ r ∈ kind.template, r.mandatory = true → r.code ∈ (params ++ slot .message v).map Param.code) ↔
      ∀ r ∈ kind.template, r.mandatory = true → r.code ∈ params.map Param.code := by
    refine forall₃_congr fun r hr hm => ?_
    rw [List.map_append, List.mem_append, or_iff_left]
    intro hmem
    obtain ⟨p, hp, hcode⟩ := List.mem_map.mp hmem
    obtain ⟨c, -, rfl⟩ := mem_slot.mp hp
    exact hoptional r hr hm hcode.symm
  rw [validateTemplate_ok_iff, validateTemplate_ok_iff]
  show (∀ p ∈ params ++ slot .message v, checkParam kind p = .ok ()) ∧
    (∀ r ∈ kind.template, r.mandatory = true → r.code ∈ (params ++ slot .message v).map Param.code) ↔
    ((∀ p ∈ params, checkParam kind p = .ok ()) ∧
      ∀ r ∈ kind.template, r.mandatory = true → r.code ∈ params.map Param.code) ∧
      ∀ c ∈ v, c.length ≤ 4096
  rw [List.forall_mem_append, hslot, hpresent]
  tauto

lemma template_msgDm (params : List Param) :
    (⟨.msgDm, idDst, 0, params, []⟩ : Fpdu).validateTemplate = .ok () ↔
    (⟨.msg, idDst, 0, params, []⟩ : Fpdu).validateTemplate = .ok () := by
  simp only [validateTemplate_ok_iff, checkParam_ok_iff]
  rfl

end Texts

namespace MessageTerms

variable (t : MessageTerms) (file : FileSpec) (expectsReply : Bool)

/-- The FPDU of a message without its text. -/
def bare : Fpdu := Builder.msg .msg t.peerId file expectsReply none

/-- What an entity has left for the text of a message and its header. -/
def space : ℕ := t.maxEntity - ((t.bare file expectsReply).encodedLen + t.crcCost)

lemma room_eq : t.room file expectsReply = max (t.space file expectsReply - 3) 1 := by
  have hcost : t.crcCost = if t.crc then 2 else 0 := rfl
  rw [room, space, hcost]
  show max (t.maxEntity - ((t.bare file expectsReply).encodedLen + 3 + _)) 1 = _
  congr 1
  omega

lemma bare_eq : t.bare file expectsReply = ⟨.msg, t.peerId, 0, file.msgParams expectsReply none, []⟩ :=
  (file.msg_laid rfl t.peerId expectsReply none).eq

lemma bare_length : 13 ≤ (t.bare file expectsReply).encodedLen := by
  have hgroup : ∀ l, 1 ≤ paramLen (.pgi .fileId l) := by
    intro l
    rw [paramLen, unitLen]
    omega
  have hvalue : ∀ pi (v : Bytes), v ≠ [] → 3 ≤ paramLen (.pi pi v) := by
    intro pi v hv
    have hlen := List.length_pos_iff.mpr hv
    rw [paramLen, unitLen]
    split <;> omega
  have hid := hvalue .transferId (encodeNum file.transferId.toNat)
    (encodeNum_ne_nil (by have := file.transferId.toNat_lt; omega))
  have hpriority := hvalue .priority [file.priority] (by simp)
  have hfile := hgroup file.fileIdGroup
  rw [bare_eq, encodedLen_params rfl]
  simp only [FileSpec.msgParams, slot, groupSlot, Option.map_some, Option.toList_some,
    List.map_append, List.sum_append, List.map_cons, List.map_nil, List.sum_cons,
    List.sum_nil, headerLen]
  omega

variable {t file expectsReply}

lemma msg_accepted_iff {kind : FpduKind} (hkind : kind = .msg ∨ kind = .msgDm)
    (hmax : t.maxEntity ≤ 65535) (hbare : ∃ b, (t.bare file expectsReply).encode = .ok b) (c : Bytes) :
    t.Accepted (Builder.msg kind t.peerId file expectsReply (some c)) ↔
      (t.bare file expectsReply).validateTemplate = .ok () ∧ c.length ≤ 4096 ∧
        (t.bare file expectsReply).encodedLen + (if c.isEmpty then 0 else unitLen c.length) + t.crcCost ≤
        t.maxEntity := by
  obtain ⟨b, hb⟩ := hbare
  rw [bare_eq] at hb ⊢
  have hdata : kind.isData = false := by rcases hkind with rfl | rfl <;> rfl
  have hbuilt : (Builder.msg .msg t.peerId file expectsReply none).Built :=
    (file.msg_laid rfl t.peerId expectsReply none).built
  rw [(file.msg_laid rfl t.peerId expectsReply none).eq] at hbuilt
  have hfilled := (hbuilt.encode_eq hb).2.2
  have htext : (∀ p ∈ slot .message (if c.isEmpty then none else some c), Filled p) ∧
      ((∀ d ∈ if c.isEmpty then none else some c, d.length ≤ 4096) ↔ c.length ≤ 4096) := by
    cases c <;> simp [slot, Filled]
  have hlength : (if c.isEmpty then none else some c).elim 0 (fun d => unitLen d.length) =
      if c.isEmpty then 0 else unitLen c.length := by
    cases c <;> rfl
  have htemplate :
      (⟨kind, t.peerId, 0, file.msgParams expectsReply none ++ slot .message (if c.isEmpty then none else
      some c), []⟩ : Fpdu).validateTemplate = .ok () ↔
      (⟨.msg, t.peerId, 0, file.msgParams expectsReply none, []⟩ : Fpdu).validateTemplate = .ok () ∧
      c.length ≤ 4096 := by
    rcases hkind with rfl | rfl
    · rw [template_slot _ _ (by decide) (by decide), htext.2]
    · rw [template_slot _ _ (by decide) (by decide), htext.2, template_msgDm]
  have hbase : (⟨kind, t.peerId, 0, file.msgParams expectsReply none, []⟩ : Fpdu).encodedLen =
      (⟨.msg, t.peerId, 0, file.msgParams expectsReply none, []⟩ : Fpdu).encodedLen := by
    rw [encodedLen_params hdata, encodedLen_params rfl]
  have hlaid := file.msg_laid hdata t.peerId expectsReply (some c)
  rw [accepted_iff hlaid.built hmax, hlaid.eq, msgParams_some,
    encodedLen_slot hdata, htemplate, hlength, hbase, and_iff_right]
  · exact and_assoc
  · rw [List.forall_mem_append]
    exact ⟨hfilled, htext.1⟩

lemma segment_accepted_iff {kind : FpduKind} (hkind : kind = .msgMm ∨ kind = .msgFm)
    (hmax : t.maxEntity ≤ 65535) {c : Bytes} (hc : c ≠ []) :
    t.Accepted (Builder.msgSegment kind t.peerId c) ↔
      c.length ≤ 4096 ∧ headerLen + unitLen c.length + t.crcCost ≤ t.maxEntity := by
  have hdata : kind.isData = false := by rcases hkind with rfl | rfl <;> rfl
  have hempty : ¬ c.isEmpty = true := by simpa using hc
  have htemplate :
      (⟨kind, t.peerId, 0, [] ++ slot .message (some c), []⟩ : Fpdu).validateTemplate = .ok () ↔
      c.length ≤ 4096 := by
    rcases hkind with rfl | rfl
    · rw [template_slot _ _ (by decide) (by decide), and_iff_right (by rfl)]
      simp
    · rw [template_slot _ _ (by decide) (by decide), and_iff_right (by rfl)]
      simp
  have hlength : (⟨kind, t.peerId, 0, [], []⟩ : Fpdu).encodedLen = headerLen :=
    encodedLen_params hdata []
  have hlaid := Builder.msgSegment_laid hdata t.peerId c
  rw [accepted_iff hlaid.built hmax, hlaid.eq, if_neg hempty,
    encodedLen_slot hdata, htemplate, hlength, and_iff_right]
  · rfl
  · rw [List.nil_append]
    intro p hp
    change p ∈ slot .message (some c) at hp
    obtain ⟨d, hd, rfl⟩ := mem_slot.mp hp
    obtain rfl : c = d := Option.some.inj hd
    exact hc

lemma segments_mem {idDst : UInt8} {f : Fpdu} {cs : List Bytes} (h : f ∈ segments idDst cs) :
    ∃ c ∈ cs, ∃ kind, (kind = .msgMm ∨ kind = .msgFm) ∧ f = Builder.msgSegment kind idDst c := by
  induction cs with
  | nil => cases h
  | cons c cs ih =>
    cases cs with
    | nil => exact ⟨c, List.mem_cons_self, .msgFm, .inr rfl, List.mem_singleton.mp h⟩
    | cons d ds =>
      rcases List.mem_cons.mp h with rfl | h
      · exact ⟨c, List.mem_cons_self, .msgMm, .inl rfl, rfl⟩
      · obtain ⟨e, he, hrest⟩ := ih h
        exact ⟨e, List.mem_cons_of_mem c he, hrest⟩

lemma mem_segments (idDst : UInt8) {c : Bytes} {cs : List Bytes} (h : c ∈ cs) :
    ∃ kind, (kind = .msgMm ∨ kind = .msgFm) ∧ Builder.msgSegment kind idDst c ∈ segments idDst cs := by
  induction cs with
  | nil => cases h
  | cons b cs ih =>
    cases cs with
    | nil =>
      obtain rfl := List.mem_singleton.mp h
      exact ⟨.msgFm, .inr rfl, List.mem_cons_self⟩
    | cons d ds =>
      rcases List.mem_cons.mp h with rfl | h
      · exact ⟨.msgMm, .inl rfl, List.mem_cons_self⟩
      · obtain ⟨kind, hkind, hmem⟩ := ih h
        exact ⟨kind, hkind, List.mem_cons_of_mem _ hmem⟩

lemma chunks_ne_nil {n : ℕ} (hn : 0 < n) (fuel : ℕ) (xs : Bytes) : ∀ c ∈ chunks n fuel xs, c ≠ [] := by
  induction fuel generalizing xs with
  | zero => cases xs <;> simp [chunks]
  | succ fuel ih =>
    cases xs with
    | nil => simp [chunks]
    | cons b bs =>
      obtain ⟨k, rfl⟩ := Nat.exists_eq_add_one.mpr hn
      rw [chunks, List.forall_mem_cons]
      exact ⟨by simp, ih _⟩

lemma chunks_le_iff {n k : ℕ} (hn : 0 < n) {xs : Bytes} (hne : xs ≠ []) :
    (∀ c ∈ chunks n xs.length xs, c.length ≤ k) ↔ min n xs.length ≤ k := by
  constructor
  · intro h
    cases xs with
    | nil => exact absurd rfl hne
    | cons b bs =>
      have hfirst :=
        h _ (List.mem_cons_self (a := (b :: bs).take n) (l := chunks n bs.length ((b :: bs).drop n)))
      rwa [List.length_take] at hfirst
  · intro h c hc
    have hlen := chunks_length_le xs.length xs c hc
    have hsub := (List.sublist_flatten_of_mem hc).length_le
    rw [chunks_flatten hn xs.length xs le_rfl] at hsub
    omega

section Sizes

variable {message : Bytes}

lemma whole_accepted_iff (hmax : t.maxEntity ≤ 65535)
    (hbare : ∃ b, (t.bare file expectsReply).encode = .ok b)
    (hroom : (t.bare file expectsReply).encodedLen + 3 + t.crcCost ≤ t.maxEntity)
    (hwhole : message.length ≤ 1 ∨ message.length + 3 ≤ t.space file expectsReply) :
    t.Accepted (Builder.msg .msg t.peerId file expectsReply (some message)) ↔
      (t.bare file expectsReply).validateTemplate = .ok () ∧ message.length ≤ 4096 ∧
        (message.length < 255 ∨ message.length + 4 ≤ t.space file expectsReply) := by
  rw [msg_accepted_iff (.inl rfl) hmax hbare]
  refine and_congr_right fun _ => and_congr_right fun _ => ?_
  rw [space] at hwhole ⊢
  cases message with
  | nil => simp only [List.isEmpty_nil, if_true, List.length_nil]; omega
  | cons b bs =>
    rw [if_neg (by simp), unitLen]
    rw [List.length_cons] at hwhole ⊢
    split <;> omega

lemma head_accepted_iff (hmax : t.maxEntity ≤ 65535)
    (hbare : ∃ b, (t.bare file expectsReply).encode = .ok b)
    (hroom : (t.bare file expectsReply).encodedLen + 3 + t.crcCost ≤ t.maxEntity)
    (hlong : ¬ message.length ≤ t.room file expectsReply) :
    t.Accepted (Builder.msg .msgDm t.peerId file expectsReply
      (some (message.take (t.room file expectsReply)))) ↔
      (t.bare file expectsReply).validateTemplate = .ok () ∧ t.space file expectsReply ≤ 257 := by
  have hlen : (message.take (t.room file expectsReply)).length = t.room file expectsReply :=
    List.length_take_of_le (by omega)
  have hpos := t.room_pos file expectsReply
  have hne : ¬ (message.take (t.room file expectsReply)).isEmpty = true := by
    rw [List.isEmpty_iff_length_eq_zero, hlen]
    omega
  rw [msg_accepted_iff (.inr rfl) hmax hbare, if_neg hne, hlen, room_eq, unitLen]
  refine and_congr_right fun _ => ?_
  rw [space]
  split <;> omega

lemma rest_accepted_iff (hmax : t.maxEntity ≤ 65535)
    (hroom : (t.bare file expectsReply).encodedLen + 3 + t.crcCost ≤ t.maxEntity)
    (hlong : ¬ message.length ≤ t.room file expectsReply) :
    (∀ f ∈ segments t.peerId (t.rest file message expectsReply), t.Accepted f) ↔
      t.maxEntity ≤ 4108 + t.crcCost ∨ message.length ≤ 4096 + t.room file expectsReply := by
  have hbare := t.bare_length file expectsReply
  have hseg : t.segRoom = t.maxEntity - (12 + t.crcCost) := by
    have hcost : t.crcCost = if t.crc then 2 else 0 := rfl
    rw [segRoom, headerLen, ← hcost]
    omega
  have hlen := List.length_drop (i := t.room file expectsReply) (l := message)
  rw [rest]
  generalize message.drop (t.room file expectsReply) = xs at hlen ⊢
  have hxs : xs ≠ [] := List.length_pos_iff.mp (by omega)
  have hfilled := chunks_ne_nil t.segRoom_pos xs.length xs
  have hshort := chunks_length_le (n := t.segRoom) xs.length xs
  have hall : (∀ f ∈ segments t.peerId (chunks t.segRoom xs.length xs), t.Accepted f) ↔
      ∀ c ∈ chunks t.segRoom xs.length xs, c.length ≤ 4096 := by
    constructor
    · intro h c hc
      obtain ⟨kind, hkind, hmem⟩ := mem_segments t.peerId hc
      exact ((segment_accepted_iff hkind hmax (hfilled c hc)).mp (h _ hmem)).1
    · intro h f hf
      obtain ⟨c, hc, kind, hkind, rfl⟩ := segments_mem hf
      refine (segment_accepted_iff hkind hmax (hfilled c hc)).mpr ⟨h c hc, ?_⟩
      have hle := hshort c hc
      rw [headerLen, unitLen]
      split <;> omega
  refine hall.trans ((chunks_le_iff t.segRoom_pos hxs).trans ?_)
  omega

end Sizes

/-- A message whose FPDUs are all accepted. -/
def Deliverable (t : MessageTerms) (file : FileSpec) (message : Bytes) (expectsReply : Bool) : Prop :=
  (t.bare file expectsReply).validateTemplate = .ok () ∧
    if message.length ≤ 1 ∨ message.length + 3 ≤ t.space file expectsReply then
      message.length ≤ 4096 ∧ (message.length < 255 ∨ message.length + 4 ≤ t.space file expectsReply)
    else t.space file expectsReply ≤ 257 ∧
      (t.maxEntity ≤ 4108 + t.crcCost ∨ message.length ≤ 4096 + max (t.space file expectsReply - 3) 1)

end MessageTerms

/-- The header of a long text is one byte longer than what is left for it, and no text may have
more than 4096 bytes. -/
theorem message_fits_iff (t : MessageTerms) (file : FileSpec) (message : Bytes) (expectsReply : Bool)
    (hmax : t.maxEntity ≤ 65535) (hbare : ∃ b, (t.bare file expectsReply).encode = .ok b)
    (hroom : (t.bare file expectsReply).encodedLen + 3 + t.crcCost ≤ t.maxEntity) :
    (∀ f ∈ t.fpdus file message expectsReply, t.Accepted f) ↔
    t.Deliverable file message expectsReply := by
  have hspace : 3 ≤ t.space file expectsReply := by
    rw [MessageTerms.space]
    omega
  have hroomEq := t.room_eq file expectsReply
  rw [MessageTerms.fpdus, MessageTerms.Deliverable]
  by_cases hwhole : message.length ≤ 1 ∨ message.length + 3 ≤ t.space file expectsReply
  · rw [if_pos (by omega), if_pos hwhole, List.forall_mem_singleton]
    exact MessageTerms.whole_accepted_iff hmax hbare hroom hwhole
  · have hlong : ¬ message.length ≤ t.room file expectsReply := by omega
    rw [if_neg hlong, if_neg hwhole, List.forall_mem_cons,
      MessageTerms.head_accepted_iff hmax hbare hroom hlong,
      MessageTerms.rest_accepted_iff hmax hroom hlong, ← hroomEq, and_assoc]

/-- The largest entities, without check bytes. -/
def wideTerms : MessageTerms := ⟨1, false, 65535⟩

lemma wideTerms_bare : (∃ b, (wideTerms.bare (fileFor none none) false).encode = .ok b) ∧
    (wideTerms.bare (fileFor none none) false).encodedLen = 20 := by
  refine ⟨⟨[0, 20, 0xC0, 0x16, 1, 0, 9, 6, 11, 1, 0, 12, 1, 0x46, 13, 1, 7, 17, 1, 0], ?_⟩, ?_⟩ <;>
    decide

theorem message_fits_short :
    (∀ f ∈ wideTerms.fpdus (fileFor none none) [72, 105] false, wideTerms.Accepted f) ↔
      wideTerms.Deliverable (fileFor none none) [72, 105] false := by
  obtain ⟨hencode, hlen⟩ := wideTerms_bare
  exact message_fits_iff wideTerms (fileFor none none) [72, 105] false (by decide) hencode
    (by rw [hlen]; decide)

theorem message_over_4096 :
    ¬ ∀ (t : MessageTerms) (file : FileSpec) (message : Bytes) (expectsReply : Bool),
    t.maxEntity ≤ 65535 → (∃ b, (t.bare file expectsReply).encode = .ok b) →
      (t.bare file expectsReply).encodedLen + 3 + t.crcCost ≤ t.maxEntity →
        ∀ f ∈ t.fpdus file message expectsReply, t.Accepted f := by
  intro h
  obtain ⟨hencode, hlen⟩ := wideTerms_bare
  have hcost : wideTerms.crcCost = 0 := rfl
  have hroom :
      (wideTerms.bare (fileFor none none) false).encodedLen + 3 + wideTerms.crcCost ≤
      wideTerms.maxEntity := by
    rw [hlen]
    decide
  have hspace :
      wideTerms.space (fileFor none none) false = 65515 := by rw [MessageTerms.space, hlen]; rfl
  have hmessage : (List.replicate 4097 (0 : UInt8)).length = 4097 := List.length_replicate
  generalize List.replicate 4097 (0 : UInt8) = message at hmessage
  have hwhole :
      message.length ≤ 1 ∨ message.length + 3 ≤ wideTerms.space (fileFor none none) false := by omega
  have hfpdus : wideTerms.fpdus (fileFor none none) message false =
      [Builder.msg .msg wideTerms.peerId (fileFor none none) false (some message)] := by
    refine if_pos ?_
    rw [MessageTerms.room_eq]
    omega
  have haccepted := h wideTerms (fileFor none none) message false le_rfl hencode hroom _
    (hfpdus ▸ List.mem_singleton_self _)
  have hshort := ((MessageTerms.whole_accepted_iff le_rfl hencode hroom hwhole).mp haccepted).2.1
  omega

end PesitWizard.Io
