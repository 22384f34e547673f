import PesitWizard.Io.Emission

/-! One turn of the loop of the sender: what it sends, and what a receiver that takes all of
it makes of that. -/

namespace PesitWizard.Io

open PesitWizard.Core Library

namespace SendData

variable {σ : Type} {p : DataParams} {s : SendState σ} {bs : List Fpdu} {ws : List Bytes}

structure Loaded (p : DataParams) (s : SendState σ) (bs : List Fpdu) (ws : List Bytes) : Prop where
  buffered : Buffered p s.entity bs
  data : ∀ f ∈ bs, f.kind.isData = true
  holds : s.packer.Holds ws
  maxDtfLen : s.packer.maxDtfLen = p.maxEntity - p.crcCost
  mono : s.packer.multiArticle = false → ws = []
  machine : s.machine.state = .tde02A ∨ s.machine.state = .tdl02B

def maxSingle (p : DataParams) : ℕ := p.maxEntity - p.crcCost - headerLen

lemma applyLocal_sending {m : Machine} (hm : m.state = .tde02A ∨ m.state = .tdl02B) {e : LocalEvent}
    (he : e = .sync ∨ e = .sendData) : applyLocal m e = .ok m := by
  obtain ⟨role, state⟩ := m
  rcases hm with rfl | rfl <;> rcases he with rfl | rfl <;> rfl

lemma applyLocal_dataEnd {m : Machine} (hm : m.state = .tde02A ∨ m.state = .tdl02B) :
    ∃ m', applyLocal m .dataEnd = .ok m' := by
  obtain ⟨role, state⟩ := m
  rcases hm with rfl | rfl <;> exact ⟨_, rfl⟩

lemma Loaded.emits (hp : p.Roomy) (h : Loaded p s bs ws) {fs : List Fpdu}
    (hf : ∀ f ∈ fs, ArticlePacker.Emits s.packer.maxDtfLen f) :
    (∀ f ∈ fs, Frame.Sound f) ∧ (∀ f ∈ fs, f.encodedLen + p.crcCost ≤ p.maxEntity) ∧
      ∀ f ∈ fs, f.kind.isData = true := by
  have hroom := hp.room
  have hmax := h.maxDtfLen
  refine ⟨fun f hm => (hf f hm).sound h.holds.bounded, ?_, fun f hm => (hf f hm).1⟩
  intro f hm
  have := (hf f hm).2.2
  omega

lemma flush_spec (hp : p.Roomy) (h : Loaded p s bs ws) (m : ℕ) :
    ∃ fs gs bs' b', s.packer.flush.2 = s.packer.emptied ∧
      (putFpdus s.entity s.packer.flush.1.toList).Returns ((entities p.crc gs).map .send) b' ∧
      Buffered p b' bs' ∧ gs.flatten ++ bs' = bs ++ fs ∧ (∀ g ∈ gs, g ≠ []) ∧
      (∀ f ∈ bs ++ fs, Frame.Sound f) ∧
      (∀ f ∈ bs ++ fs, f.kind.isData = true) ∧ (Reassembler.new m).feedAll fs = .ok (ws, .new m) := by
  obtain ⟨fs, hflush, hemit, hlen, hfeed⟩ := ArticlePacker.flushInto_spec h.holds m []
  rw [List.nil_append] at hflush
  have hlist : s.packer.flush.1.toList = fs := by
    simp only [ArticlePacker.flush, hflush]
    match fs, hlen with
    | [], _ => rfl
    | [f], _ => rfl
  obtain ⟨hsound, hfit, hdata⟩ := h.emits hp hemit
  obtain ⟨gs, bs', b', hput, hb', hflat, hne⟩ := putFpdus_spec h.buffered hsound hfit
  refine ⟨fs, gs, bs',
    b', by simp only [ArticlePacker.flush, hflush], ?_, hb', hflat, hne, ?_, ?_, hfeed⟩
  · rw [hlist]
    exact hput
  · rw [List.forall_mem_append]
    exact ⟨h.buffered.sound, hsound⟩
  · rw [List.forall_mem_append]
    exact ⟨h.data, hdata⟩

section Receiver

variable {τ : Type} {ops : ArticleSink τ} {rp : DataParams} {V : Reception τ}

open Reception

lemma legible_group {g : List Fpdu} (hne : g ≠ []) (hs : ∀ f ∈ g, Frame.Sound f)
    (hf : ∀ f ∈ g, Plain f) :
    Legible p.crc (g.flatMap (Frame.image p.crc)) := .inl ⟨g, hne, fun f hm => ⟨hs f hm, hf f hm⟩, rfl⟩

lemma legible_groups {gs : List (List Fpdu)} (hne : ∀ g ∈ gs, g ≠ [])
    (hs : ∀ f ∈ gs.flatten, Frame.Sound f) (hf : ∀ f ∈ gs.flatten, Plain f) :
    ∀ e ∈ entities p.crc gs, Legible p.crc e := by
  intro e he
  obtain ⟨g, hg, rfl⟩ := List.mem_map.mp he
  exact legible_group (hne g hg) (fun f hm => hs f (List.mem_flatten.mpr ⟨g, hg, hm⟩))
    (fun f hm => hf f (List.mem_flatten.mpr ⟨g, hg, hm⟩))

variable (ops) in
lemma flushWith_spec (hp : p.Roomy) (hcrc : rp.crc = p.crc) (h : Loaded p s bs ws) {f : Fpdu}
    (hs : Frame.Sound f) (hf : Plain f) (hfit : f.encodedLen + p.crcCost ≤ p.maxEntity) :
    ∃ es b, (putFpdus s.entity s.packer.flush.1.toList >>= fun b => putFpdu b f).Returns
    (es.map .send) b ∧
      Buffered p b.take [] ∧ (∀ e ∈ es ++ [b.buf], Legible rp.crc e) ∧
      ∀ V : Reception τ, (V.takeAll ops rp bs).Idle rp ∨ (V.takeAll ops rp bs).Failed →
        flow ops rp (es ++ [b.buf])
        [] V = ((V.takeAll ops rp bs).deliverAll ops ws).take ops rp (.ok f) := by
  obtain ⟨fs, gs, bs₁, b₁, -, hput, hb₁, hflat, hne, hsound, hdata, hfeed⟩ :=
    flush_spec hp h rp.maxArticle
  obtain ⟨gs', bs₂, b₂, hput', hb₂, hflat', hne', hbs₂⟩ := putFpdu_spec hb₁ hs hfit
  have hall : (gs ++ gs' ++ [bs₂]).flatten = bs ++ fs ++ [f] := by
    simp only [List.flatten_append, List.flatten_cons, List.flatten_nil, List.append_nil,
      List.append_assoc, hflat']
    rw [← List.append_assoc, hflat, List.append_assoc]
  have hnonempty : ∀ g ∈ gs ++ gs' ++ [bs₂], g ≠ [] := by
    simp only [List.mem_append, List.mem_singleton]
    rintro g ((hg | hg) | rfl)
    · exact hne g hg
    · exact hne' g hg
    · exact hbs₂
  have hes : entities p.crc gs ++ entities p.crc gs' ++
      [b₂.buf] = entities p.crc (gs ++ gs' ++ [bs₂]) := by
    simp [entities, hb₂.buf]
  have hsound' : ∀ g ∈ (gs ++ gs' ++ [bs₂]).flatten, Frame.Sound g := by
    rw [hall, List.forall_mem_append]
    exact ⟨hsound, by simpa using hs⟩
  have hplain : ∀ g ∈ (gs ++ gs' ++ [bs₂]).flatten, Plain g := by
    rw [hall, List.forall_mem_append]
    exact ⟨fun g hg => .inl (hdata g hg), by simpa using hf⟩
  refine ⟨entities p.crc gs ++ entities p.crc gs', b₂, ?_, hb₂.take, ?_, ?_⟩
  · rw [List.map_append]
    exact hput.bind hput'
  · rw [hes, hcrc]
    exact legible_groups hnonempty hsound' hplain
  · intro V hV
    have hfs : ∀ g ∈ fs, g.kind.isData = true := fun g hg => hdata g (List.mem_append_right _ hg)
    have hflow := flow_groups ops (p := rp) hnonempty [] hsound' [] V
    rw [hcrc, List.nil_append, List.append_nil, hall] at hflow
    rw [hes, hflow]
    show V.takeAll ops rp (bs ++ fs ++ [f]) = _
    rw [takeAll_append, takeAll_append, takeAll_complete hV hfs hfeed]
    rfl

variable (ops) in
lemma flushBad_spec (hp : p.Roomy) (hcrc : rp.crc = p.crc) (h : Loaded p s bs ws) {n : ℕ}
    (hn : 2 ^ 24 ≤ n) (hn' : n < 2 ^ 32) :
    ∃ es b, (putFpdus s.entity s.packer.flush.1.toList >>= fun b =>
      putFpdu b (Builder.syn p.peerId n)).Returns
        (es.map .send) b ∧ Buffered p b.take [] ∧ (∀ e ∈ es ++ [b.buf], Legible rp.crc e) ∧
      ∀ V : Reception τ, V.Steady → (V.takeAll ops rp bs).Idle rp ∨ (V.takeAll ops rp bs).Failed →
        (flow ops rp (es ++ [b.buf]) [] V).Failed ∧
          (flow ops rp (es ++ [b.buf]) [] V).Grows ((V.takeAll ops rp bs).deliverAll ops ws) := by
  obtain ⟨fs, gs, bs₁, b₁, -, hput, hb₁, hflat, hne, hsound, hdata, hfeed⟩ :=
    flush_spec hp h rp.maxArticle
  rw [← hflat, List.forall_mem_append] at hsound hdata
  have hlegible := legible_groups (p := p) hne hsound.1 (fun f hf => .inl (hdata.1 f hf))
  have hbad : ∀ (b : EntityBuilder) (cs : List Fpdu), Buffered p b cs →
      ∃ b', b.push (Builder.syn p.peerId n) = .ok b' ∧
      b'.buf = (cs ++ [Builder.syn p.peerId n]).flatMap (Frame.image p.crc) ∧ Buffered p b'.take [] := by
    intro b cs hb
    refine ⟨_, EntityBuilder.push_encoded (Builder.syn_encodeInto p.peerId hn') b, ?_, ?_⟩
    · simp [hb.buf, hb.crc]
    · exact ⟨rfl, hb.maxLen, hb.crc, rfl, by simp⟩
  -- the receiver before the last entities
  have hbefore :
      ∀ V : Reception τ, V.Steady → (V.takeAll ops rp bs).Idle rp ∨ (V.takeAll ops rp bs).Failed →
      ∃ Z, flow ops rp (entities p.crc gs) [] V = Z ∧ Z.Steady ∧
        Z.takeAll ops rp bs₁ = (V.takeAll ops rp bs).deliverAll ops ws ∧
        ((Z.takeAll ops rp bs₁).Idle rp ∨ (Z.takeAll ops rp bs₁).Failed) := by
    intro V hsteady hV
    have hfs : ∀ g ∈ fs, g.kind.isData = true := by
      intro g hg
      have hmem : g ∈ gs.flatten ++ bs₁ := hflat ▸ List.mem_append_right bs hg
      rcases List.mem_append.mp hmem with hm | hm
      · exact hdata.1 g hm
      · exact hdata.2 g hm
    have hflow := flow_groups ops (p := rp) hne [] hsound.1 [] V
    rw [hcrc, List.nil_append, List.append_nil] at hflow
    have hrest :
        (V.takeAll ops rp gs.flatten).takeAll ops rp bs₁ = (V.takeAll ops rp bs).deliverAll ops ws := by
      rw [← takeAll_append, hflat, takeAll_append, takeAll_complete hV hfs hfeed]
    refine ⟨V.takeAll ops rp gs.flatten, hflow,
      takeAll_steady hsteady (fun f hf => .inl (hdata.1 f hf)), hrest, ?_⟩
    rw [hrest]
    rcases hV with hV | hV
    · exact deliverAll_idle hV ws
    · exact .inr (by rwa [deliverAll_failed hV])
  by_cases hfits : b₁.fits (Builder.syn p.peerId n).encodedLen = true
  · obtain ⟨b', hpush, hbuf, htake⟩ := hbad b₁ bs₁ hb₁
    have hrefused : Refused rp.crc b'.buf := by
      rw [hbuf, hcrc]
      exact refused_syn p.crc _ hsound.2 p.peerId hn hn'
    refine ⟨entities p.crc gs, b', ?_, htake, ?_, ?_⟩
    · have hsyn : (putFpdu b₁ (Builder.syn p.peerId n)).Returns [] b' := by
        simp only [putFpdu, hfits, if_true, Act.pure_bind, hpush]
        rfl
      have := hput.bind (f := fun b => putFpdu b (Builder.syn p.peerId n)) hsyn
      rwa [List.append_nil] at this
    · rw [List.forall_mem_append]
      exact ⟨hcrc ▸ hlegible, by simpa using .inr hrefused⟩
    · intro V hsteady hV
      obtain ⟨Z, hZ, hZs, hZX, hZb⟩ := hbefore V hsteady hV
      rw [flow_append, hZ, ← hZX]
      exact ⟨takeEntity_fails (hZs.live hZb) hrefused, (takeEntity_refused_grows hZs hrefused).trans
        (takeAll_grows _ hZs.calm (fun f hf => .inl (.inl (hdata.2 f hf)))).1⟩
  · obtain ⟨b', hpush, hbuf, htake⟩ := hbad b₁.take [] hb₁.take
    have hrefused : Refused rp.crc b'.buf := by
      rw [hbuf, hcrc]
      exact refused_syn p.crc [] (by simp) p.peerId hn hn'
    have hfirst : Legible rp.crc b₁.buf := by
      rw [hb₁.buf, hcrc]
      rcases List.eq_nil_or_concat bs₁ with rfl | ⟨init, last, hcs⟩
      · exact .inr (refused_nil p.crc)
      · exact legible_group (by simp [hcs]) hsound.2 (fun f hf => .inl (hdata.2 f hf))
    refine ⟨entities p.crc gs ++ [b₁.buf], b', ?_, htake, ?_, ?_⟩
    · have hsyn : (putFpdu b₁ (Builder.syn p.peerId n)).Returns [.send b₁.buf] b' := by
        simp only [putFpdu, hfits, Bool.false_eq_true, if_false, Act.pure_bind, hpush]
        rfl
      rw [List.map_append]
      exact hput.bind (f := fun b => putFpdu b (Builder.syn p.peerId n)) hsyn
    · simp only [List.forall_mem_append, List.mem_singleton, forall_eq]
      exact ⟨⟨hcrc ▸ hlegible, hfirst⟩, .inr hrefused⟩
    · intro V hsteady hV
      obtain ⟨Z, hZ, hZs, hZX, hZb⟩ := hbefore V hsteady hV
      rw [flow_append, flow_append, hZ]
      have hlast :
          (Z.takeEntity ops rp b₁.buf).Live ∧ (Z.takeEntity ops rp b₁.buf).Grows
          (Z.takeAll ops rp bs₁) := by
        rw [hb₁.buf, ← hcrc]
        by_cases hnil : bs₁ = []
        · rw [hnil]
          exact ⟨.inr (takeEntity_fails (hZs.live hZb) (refused_nil rp.crc)),
            takeEntity_refused_grows hZs (refused_nil rp.crc)⟩
        · simp only [takeEntity, opened_images hnil hsound.2]
          exact ⟨live_of_idle hZb, .refl _⟩
      rw [← hZX]
      exact ⟨takeEntity_fails hlast.1 hrefused,
        (takeEntity_refused_grows hlast.1.steady hrefused).trans hlast.2⟩

variable (ops) in
lemma pack_spec (hp : p.Roomy) (hcrc : rp.crc = p.crc) (h : Loaded p s bs ws) (wire : Bytes) :
    ∃ es b bs' ws', (pack s wire).Returns (es.map .send) b ∧
      Loaded p { s with packer := (s.packer.push wire).2, entity := b } bs' ws' ∧
      (∀ e ∈ es, Legible rp.crc e) ∧
      ∀ V : Reception τ, (V.takeAll ops rp bs).Idle rp ∨ (V.takeAll ops rp bs).Failed →
        ((flow ops rp es bs' V).Idle rp ∨ (flow ops rp es bs' V).Failed) ∧
        (ArticlePacker.Passes (maxSingle p) rp.maxArticle wire →
          (flow ops rp es bs' V).deliverAll ops ws' =
          ((V.takeAll ops rp bs).deliverAll ops ws).deliver ops wire) ∧
        (¬ ArticlePacker.Passes (maxSingle p) rp.maxArticle wire → (flow ops rp es bs' V).Failed ∧
          (flow ops rp es bs' V).Grows
          (((V.takeAll ops rp bs).deliverAll ops ws).deliver ops wire)) := by
  obtain ⟨fs, ws', packer, hpush, hholds, hmax, hmono, hemit, hok, herr⟩ :=
    ArticlePacker.push_spec h.holds rp.maxArticle (w := wire) h.mono
  -- what a receiver without a limit would make of the same FPDUs
  obtain ⟨out₀, ws₀, hfeed₀, hout₀⟩ :
      ∃ out ws₀, (Reassembler.new 0).feedAll fs = .ok (out, Reassembler.new 0) ∧
      out ++ ws₀ = ws ++ [wire] := by
    obtain ⟨fs₀, ws₀, packer₀, hpush₀, -, -, -, -, hok₀, -⟩ :=
      ArticlePacker.push_spec h.holds 0 (w := wire) h.mono
    obtain ⟨rfl, rfl⟩ := Prod.mk.inj (hpush₀.symm.trans hpush)
    obtain ⟨out, hout⟩ := hok₀ (.inr (.inl rfl))
    exact ⟨out, ws₀, hout⟩
  have hsingle : s.packer.maxSingle = maxSingle p := by
    rw [ArticlePacker.maxSingle, h.maxDtfLen, maxSingle]
  rw [hsingle] at hok herr
  obtain ⟨hsound, hfit, hdata⟩ := h.emits hp hemit
  obtain ⟨gs, bs₁, b₁, hput, hb₁, hflat, hne⟩ := putFpdus_spec h.buffered hsound hfit
  have hsound' : ∀ f ∈ gs.flatten ++ bs₁, Frame.Sound f := by
    rw [hflat, List.forall_mem_append]
    exact ⟨h.buffered.sound, hsound⟩
  have hdata' : ∀ f ∈ gs.flatten ++ bs₁, f.kind.isData = true := by
    rw [hflat, List.forall_mem_append]
    exact ⟨h.data, hdata⟩
  rw [List.forall_mem_append] at hsound' hdata'
  have hlegible := legible_groups (p := p) hne hsound'.1 (fun f hf => .inl (hdata'.1 f hf))
  -- whether or not the last entity is sent, the receiver gets the same FPDUs
  obtain ⟨es, b, bs', hrun, hb, hdata'', hlegible', hflow⟩ :
      ∃ es b bs', (pack s wire).Returns (es.map .send) b ∧
      Buffered p b bs' ∧ (∀ f ∈ bs', f.kind.isData = true) ∧ (∀ e ∈ es, Legible rp.crc e) ∧
      ∀ V : Reception τ, flow ops rp es bs' V = (V.takeAll ops rp bs).takeAll ops rp fs := by
    by_cases hfull : b₁.remaining < headerLen + 1
    · have hbs₁ : bs₁ ≠ [] := by
        rintro rfl
        have hroom := hp.room
        have hcount : b₁.count = 0 := hb₁.count
        have hbuf : b₁.buf = [] := hb₁.buf
        have hcost :
            (if b₁.crc = true then Crc.crcLen else 0) = p.crcCost := by rw [hb₁.crc, DataParams.crcCost]
        simp only [EntityBuilder.remaining, hcount, Nat.lt_irrefl, decide_false, Bool.and_false,
          Bool.false_eq_true, if_false, hbuf, List.length_nil, hcost, hb₁.maxLen, headerLen] at hfull
        omega
      refine ⟨entities p.crc gs ++ [b₁.buf], b₁.take, [], ?_, hb₁.take, by simp, ?_, ?_⟩
      · have hsend : (sendFull b₁).Returns [.send b₁.buf] b₁.take := by
          rw [sendFull, if_pos hfull]
          rfl
        rw [pack, hpush, List.map_append]
        exact hput.bind hsend
      · rw [List.forall_mem_append, hcrc]
        refine ⟨hlegible, ?_⟩
        simp only [List.mem_singleton, forall_eq, hb₁.buf]
        exact legible_group hbs₁ hsound'.2 (fun f hf => .inl (hdata'.2 f hf))
      · intro V
        rw [← takeAll_append, ← hflat, hb₁.buf, ← hcrc,
          flow_entity _ _ [] hbs₁ hsound'.2, List.append_nil]
        exact flow_groups ops (p := rp) hne bs₁ hsound'.1 [] V
    · refine ⟨entities p.crc gs, b₁, bs₁, ?_, hb₁, hdata'.2, hcrc ▸ hlegible, ?_⟩
      · have hkeep : (sendFull b₁).Returns [] b₁ := by
          rw [sendFull, if_neg hfull]
          rfl
        rw [pack, hpush]
        have := hput.bind (f := sendFull) hkeep
        rwa [List.append_nil] at this
      · intro V
        rw [← takeAll_append, ← hflat, ← hcrc]
        exact flow_groups ops (p := rp) hne bs₁ hsound'.1 [] V
  rw [hpush]
  refine ⟨es, b, bs', ws', hrun, ⟨hb, hdata'', hholds, hmax.trans h.maxDtfLen, hmono,
    h.machine⟩, hlegible', ?_⟩
  intro V hV
  rw [hflow V]
  by_cases hpass : ArticlePacker.Passes (maxSingle p) rp.maxArticle wire
  · obtain ⟨out, hfeed, hout⟩ := hok hpass
    rw [takeAll_complete hV hdata hfeed]
    refine ⟨?_, ?_, fun hn => absurd hpass hn⟩
    · rcases hV with hV | hV
      · exact deliverAll_idle hV out
      · exact .inr (by rwa [deliverAll_failed hV])
    · intro _
      rw [← deliverAll_append, hout, deliverAll_append]
      rfl
  · obtain ⟨e, hfeed⟩ := herr hpass
    have hfailed := takeAll_refused ops hV hdata hfeed
    refine ⟨.inr hfailed, fun hp => absurd hp hpass, fun _ => ⟨hfailed, ?_⟩⟩
    have hwhole : ((V.takeAll ops rp bs).deliverAll ops ws).deliver ops wire =
        ((V.takeAll ops rp bs).deliverAll ops out₀).deliverAll ops ws₀ := by
      rw [← deliverAll_append, hout₀, deliverAll_append]
      rfl
    rw [hwhole]
    refine Grows.trans ?_ (deliverAll_grows _ _ ws₀)
    rcases hV with ⟨r, hr, hnew, hm⟩ | hV
    · exact takeAll_bounded hr hm hdata (by rw [hnew]; exact hfeed₀)
    · rw [takeAll_failed hV, deliverAll_failed hV]
      exact .refl _

end Receiver

section Turn

/-- Whether a synchronisation point goes before an article, what goes on the link for the article, and
the compressor after that. -/
def onWire (p : DataParams) (compressor : Option Compressor) (bytesSinceSync : ℕ) (article : Bytes) :
    Bool × Bytes × Option Compressor :=
  let (wire, compressor) := compressArticle compressor article
  if needsSync p bytesSinceSync wire.length then
    match compressor with
    | none => (true, wire, none)
    | some c => (true, compressArticle (some c.syncPoint) article)
  else (false, wire, compressor)

def sends (ws : List Effect) : List Bytes :=
  ws.filterMap fun
    | .send e => some e
    | _ => none

def records (ws : List Effect) : List Checkpoint :=
  ws.filterMap fun
    | .record cp => some cp
    | _ => none

def nextSync (s : SendState σ) : ℕ := (s.syncNo + 1) % 2 ^ 32

def mark (s : SendState σ) : Checkpoint := ⟨nextSync s, s.prevPos.fileOffset, s.dataBytes, s.articles⟩

structure Turned (src : ArticleSource σ) (p : DataParams) (s : SendState σ) (article : Bytes) (rest : σ)
    (s' : SendState σ) : Prop where
  compressor : s'.compressor = (onWire p s.compressor s.bytesSinceSync article).2.2
  source : s'.source = rest
  dataBytes : s'.dataBytes = s.dataBytes + (onWire p s.compressor s.bytesSinceSync article).2.1.length
  articles : s'.articles = s.articles + 1
  syncNo : s'.syncNo = if (onWire p s.compressor s.bytesSinceSync article).1 then
    nextSync s else s.syncNo
  bytesSinceSync : s'.bytesSinceSync = (if (onWire p s.compressor s.bytesSinceSync article).1 then 0
    else s.bytesSinceSync) + (onWire p s.compressor s.bytesSinceSync article).2.1.length
  unacked : s'.unacked = if (onWire p s.compressor s.bytesSinceSync article).1 && 0 < p.window
    then s.unacked ++ [nextSync s] else s.unacked
  prevPos : s'.prevPos = src.position rest

variable {src : ArticleSource σ}

lemma syncPoint_returns {es : List Bytes} {b : EntityBuilder}
    (hm : s.machine.state = .tde02A ∨ s.machine.state = .tdl02B)
    (hrun : (putFpdus s.entity s.packer.flush.1.toList >>= fun b =>
      putFpdu b (Builder.syn p.peerId (nextSync s))).Returns (es.map .send) b) (article wire : Bytes) :
    (syncPoint p s article wire).Returns ((es ++ [b.buf]).map .send ++ [.record (mark s)])
      ({ s with
        packer := s.packer.flush.2
        entity := b.take
        compressor := (match s.compressor with
          | none => (wire, none)
          | some c => compressArticle (some c.syncPoint) article).2
        syncNo := nextSync s
        bytesSinceSync := 0
        unacked := if 0 < p.window then s.unacked ++ [nextSync s] else s.unacked },
        (match s.compressor with
          | none => (wire, none)
          | some c => compressArticle (some c.syncPoint) article).1) := by
  simp only [syncPoint]
  rw [← Act.bind_assoc, List.map_append, List.append_assoc]
  refine Act.Returns.bind hrun ?_
  simp only [applyLocal_sending hm (.inl rfl), Act.lift_ok_bind]
  rfl

lemma sends_map_send (es : List Bytes) : sends (es.map .send) = es := by
  induction es with
  | nil => rfl
  | cons e es ih => rw [List.map_cons, sends, List.filterMap_cons, ← sends, ih]

lemma records_map_send (es : List Bytes) : records (es.map .send) = [] := by
  induction es with
  | nil => rfl
  | cons e es ih => rw [List.map_cons, records, List.filterMap_cons, ← records, ih]

lemma sends_append (ws vs : List Effect) : sends (ws ++ vs) = sends ws ++ sends vs :=
  List.filterMap_append

lemma records_append (ws vs : List Effect) : records (ws ++ vs) = records ws ++ records vs :=
  List.filterMap_append

def prepared (p : DataParams) (s : SendState σ) (article : Bytes) (rest : σ) : SendState σ :=
  { s with compressor := (onWire p s.compressor s.bytesSinceSync article).2.2, source := rest }

def marked (p : DataParams) (s : SendState σ) (entity : EntityBuilder) : SendState σ :=
  { s with
    packer := s.packer.flush.2
    entity := entity
    syncNo := nextSync s
    bytesSinceSync := 0
    unacked := if 0 < p.window then s.unacked ++ [nextSync s] else s.unacked }

lemma prepare_plain {article : Bytes} (rest : σ)
    (h : (onWire p s.compressor s.bytesSinceSync article).1 = false) :
    (prepare p s article rest).Returns []
    (prepared p s article rest, (onWire p s.compressor s.bytesSinceSync article).2.1) := by
  have hsync : needsSync p s.bytesSinceSync (compressArticle s.compressor article).1.length = false := by
    by_contra hne
    rw [Bool.not_eq_false] at hne
    simp only [onWire, hne, if_true] at h
    split at h <;> cases h
  simp only [prepare, prepared, onWire, hsync, Bool.false_eq_true, if_false]
  rfl

lemma prepare_sync {article : Bytes} (rest : σ)
    (hm : s.machine.state = .tde02A ∨ s.machine.state = .tdl02B)
    (h : (onWire p s.compressor s.bytesSinceSync article).1 = true) {es : List Bytes} {b : EntityBuilder}
    (hrun : (putFpdus s.entity s.packer.flush.1.toList >>= fun b =>
      putFpdu b (Builder.syn p.peerId (nextSync s))).Returns (es.map .send) b) :
    (prepare p s article rest).Returns ((es ++ [b.buf]).map .send ++ [.record (mark s)])
      (marked p (prepared p s article rest) b.take,
        (onWire p s.compressor s.bytesSinceSync article).2.1) := by
  have hsync : needsSync p s.bytesSinceSync (compressArticle s.compressor article).1.length = true := by
    by_contra hne
    simp only [onWire, hne, Bool.false_eq_true, if_false] at h
  have hpoint := syncPoint_returns
    (s := { s with compressor := (compressArticle s.compressor article).2, source := rest }) hm hrun
    article (compressArticle s.compressor article).1
  simp only [prepare, hsync, if_true, prepared, marked, onWire]
  cases hc : (compressArticle s.compressor article).2 with
  | none =>
    simp only [hc] at hpoint ⊢
    exact hpoint
  | some c =>
    simp only [hc] at hpoint ⊢
    exact hpoint

variable {τ : Type} {ops : ArticleSink τ} {rp : DataParams}

open Reception

def turn (ops : ArticleSink τ) (rp p : DataParams) (s : SendState σ) (article : Bytes)
    (x : Reception τ) : Reception τ :=
  (if (onWire p s.compressor s.bytesSinceSync article).1 then
    x.take ops rp (.ok (Builder.syn p.peerId (nextSync s))) else x).deliver ops
      (onWire p s.compressor s.bytesSinceSync article).2.1

def Carried (rp p : DataParams) (s : SendState σ) (article : Bytes) : Prop :=
  ((onWire p s.compressor s.bytesSinceSync article).1 = true → nextSync s < 2 ^ 24) ∧
    ArticlePacker.Passes (maxSingle p) rp.maxArticle (onWire p s.compressor s.bytesSinceSync article).2.1

variable (ops) in
lemma take_syn_idle {x : Reception τ} (h : x.Idle rp ∨ x.Failed) (d : UInt8) {n : ℕ} (hn : n < 2 ^ 24) :
    (x.take ops rp (.ok (Builder.syn d n))).Idle rp ∨
    (x.take ops rp (.ok (Builder.syn d n))).Failed := by
  rcases h with ⟨r, hx, hr, hm⟩ | h
  · rw [take_syn hx hm d hn]
    exact .inl ⟨_, rfl, hr, hm⟩
  · exact .inr (by rwa [take_failed h])

def counted (src : ArticleSource σ) (s : SendState σ) (wire : Bytes) (rest : σ)
    (entity : EntityBuilder) : SendState σ :=
  { s with
    packer := (s.packer.push wire).2
    entity := entity
    dataBytes := s.dataBytes + wire.length
    articles := s.articles + 1
    bytesSinceSync := s.bytesSinceSync + wire.length
    prevPos := src.position rest }

variable (src) in
lemma sendArticle_returns {article wire : Bytes} {rest : σ} {effects : List Effect} (s₁ : SendState σ)
    (hm : s₁.machine.state = .tde02A ∨ s₁.machine.state = .tdl02B)
    (hprepare : (prepare p s article rest).Returns effects (s₁, wire)) {es : List Bytes}
    {b : EntityBuilder} (hpack : (pack s₁ wire).Returns (es.map .send) b) :
    (sendArticle src p s article rest).Returns (effects ++ es.map .send)
    (counted src s₁ wire rest b) := by
  refine Act.Returns.bind hprepare ?_
  rw [← List.append_nil (es.map Effect.send)]
  refine Act.Returns.bind hpack ?_
  simp only [applyLocal_sending hm (.inr rfl), Act.lift_ok_bind]
  rfl

variable (src) (ops) in
lemma sendArticle_spec (hp : p.Roomy) (hcrc : rp.crc = p.crc) (h : Loaded p s bs ws)
    (article : Bytes) (rest : σ) :
    ∃ effects s' bs' ws', (sendArticle src p s article rest).Returns effects s' ∧ Loaded p s' bs' ws' ∧
      Turned src p s article rest s' ∧ (∀ e ∈ sends effects, Legible rp.crc e) ∧
      records effects = (if (onWire p s.compressor s.bytesSinceSync article).1 then [mark s] else []) ∧
      (∀ n, Effect.acknowledge n ∉ effects) ∧
      ∀ V : Reception τ, V.Steady → (V.takeAll ops rp bs).Idle rp ∨ (V.takeAll ops rp bs).Failed →
        ((flow ops rp (sends effects) bs' V).Idle rp ∨ (flow ops rp (sends effects) bs' V).Failed) ∧
        (Carried rp p s article → (flow ops rp (sends effects) bs' V).deliverAll ops ws' =
          turn ops rp p s article ((V.takeAll ops rp bs).deliverAll ops ws)) ∧
        (¬ Carried rp p s article → (flow ops rp (sends effects) bs' V).Failed ∧
          (((onWire p s.compressor s.bytesSinceSync article).1 = true → nextSync s < 2 ^ 24) →
            (flow ops rp (sends effects) bs' V).Grows
              (turn ops rp p s article ((V.takeAll ops rp bs).deliverAll ops ws))) ∧
          (¬ ((onWire p s.compressor s.bytesSinceSync article).1 = true → nextSync s < 2 ^ 24) →
            (flow ops rp (sends effects) bs' V).Grows ((V.takeAll ops rp bs).deliverAll ops ws))) := by
  cases hsync : (onWire p s.compressor s.bytesSinceSync article).1 with
  | false =>
    have hload : Loaded p (prepared p s article rest) bs ws := ⟨h.1, h.2, h.3, h.4, h.5, h.6⟩
    obtain ⟨es, b, bs', ws', hpack, hload', hlegible, hflow⟩ := pack_spec ops hp hcrc hload
      (onWire p s.compressor s.bytesSinceSync article).2.1
    have hrun := sendArticle_returns src (prepared p s article rest) h.machine
      (prepare_plain rest hsync) hpack
    rw [List.nil_append] at hrun
    refine ⟨_, _, bs', ws', hrun, ⟨hload'.1, hload'.2, hload'.3, hload'.4, hload'.5, hload'.6⟩,
      ?_, ?_, ?_, ?_, ?_⟩
    · constructor <;> simp [counted, prepared, hsync]
    · rwa [sends_map_send]
    · simp [records_map_send]
    · simp
    · intro V _ hV
      obtain ⟨hidle, hok, herr⟩ := hflow V hV
      simp only [sends_map_send, Carried, hsync, Bool.false_eq_true, false_implies, true_and, turn,
        if_false, true_implies, not_true, and_true]
      exact ⟨hidle, hok, herr⟩
  | true =>
    have hn' : nextSync s < 2 ^ 32 := Nat.mod_lt _ (by decide)
    have hempty : s.packer.flush.2 = s.packer.emptied := by
      obtain ⟨_, _, _, _, hflush, -⟩ := flush_spec hp h 0
      exact hflush
    -- the synchronisation point, which is good or cannot be decoded
    obtain ⟨es, b, hrun, hb, hlegible, hgood, hbad⟩ : ∃ es b,
        (putFpdus s.entity s.packer.flush.1.toList >>= fun b =>
        putFpdu b (Builder.syn p.peerId (nextSync s))).Returns
          (es.map .send) b ∧ Buffered p b.take [] ∧ (∀ e ∈ es ++ [b.buf], Legible rp.crc e) ∧
        (∀ V : Reception τ, nextSync s < 2 ^ 24 → (V.takeAll ops rp bs).Idle rp ∨
          (V.takeAll ops rp bs).Failed →
          flow ops rp (es ++ [b.buf]) [] V = ((V.takeAll ops rp bs).deliverAll ops ws).take ops rp
            (.ok (Builder.syn p.peerId (nextSync s)))) ∧
        (∀ V : Reception τ, ¬ nextSync s < 2 ^ 24 → V.Steady →
          (V.takeAll ops rp bs).Idle rp ∨ (V.takeAll ops rp bs).Failed →
          (flow ops rp (es ++ [b.buf]) [] V).Failed ∧
            (flow ops rp (es ++ [b.buf]) [] V).Grows ((V.takeAll ops rp bs).deliverAll ops ws)) := by
      by_cases hn : nextSync s < 2 ^ 24
      · have hfit : (Builder.syn p.peerId (nextSync s)).encodedLen + p.crcCost ≤ p.maxEntity := by
          have := Builder.syn_length p.peerId hn
          have := hp.room
          omega
        obtain ⟨es, b, hrun, hb, hlegible, hflow⟩ := flushWith_spec ops hp hcrc h
          (Builder.syn_sound p.peerId hn) (.inr (.inl ⟨_, _, hn, rfl⟩)) hfit
        exact ⟨es, b, hrun, hb, hlegible, fun V _ => hflow V, fun V hn' => absurd hn hn'⟩
      · obtain ⟨es, b, hrun, hb, hlegible, hflow⟩ :=
          flushBad_spec ops hp hcrc h (Nat.le_of_not_lt hn) hn'
        exact ⟨es, b, hrun, hb, hlegible, fun V hn' => absurd hn' hn, fun V _ => hflow V⟩
    have hload : Loaded p (marked p (prepared p s article rest) b.take) [] [] := by
      refine ⟨hb, by simp, ?_, ?_, fun _ => rfl, h.machine⟩
      · show s.packer.flush.2.Holds []
        rw [hempty]
        exact h.holds.emptied
      · show s.packer.flush.2.maxDtfLen = _
        rw [hempty]
        exact h.maxDtfLen
    obtain ⟨es', b', bs', ws', hpack, hload', hlegible', hflow⟩ := pack_spec ops hp hcrc hload
      (onWire p s.compressor s.bytesSinceSync article).2.1
    have hrun' := sendArticle_returns src (marked p (prepared p s article rest) b.take) h.machine
      (prepare_sync rest h.machine hsync hrun) hpack
    have hsends : sends ((es ++ [b.buf]).map .send ++ [.record (mark s)] ++ es'.map .send) = es ++
        [b.buf] ++ es' := by
      rw [sends_append, sends_append, sends_map_send, sends_map_send]
      simp [sends]
    refine ⟨_, _, bs', ws', hrun', ⟨hload'.1, hload'.2, hload'.3, hload'.4, hload'.5, hload'.6⟩,
      ?_, ?_, ?_, ?_, ?_⟩
    · constructor <;> simp [counted, marked, prepared, hsync, nextSync]
    · rw [hsends, List.forall_mem_append]
      exact ⟨hlegible, hlegible'⟩
    · rw [records_append, records_append, records_map_send, records_map_send]
      simp [records]
    · simp
    · intro V hsteady hV
      rw [hsends, flow_append]
      by_cases hn : nextSync s < 2 ^ 24
      · have hX : ((V.takeAll ops rp bs).deliverAll ops ws).Idle rp ∨
            ((V.takeAll ops rp bs).deliverAll ops ws).Failed := by
          rcases hV with hV | hV
          · exact deliverAll_idle hV ws
          · exact .inr (by rwa [deliverAll_failed hV])
        rw [hgood V hn hV]
        obtain ⟨hidle, hok, herr⟩ := hflow _ (take_syn_idle ops hX p.peerId hn)
        simp only [Carried, hsync, hn, implies_true, true_and, turn, if_true, true_implies, not_true,
          false_implies, and_true]
        exact ⟨hidle, hok, herr⟩
      · obtain ⟨hfailed, hgrows⟩ := hbad V hn hsteady hV
        rw [flow_failed hfailed]
        exact ⟨.inr hfailed, fun hc => absurd (hc.1 hsync) hn,
          fun _ => ⟨hfailed, fun hc => absurd (hc rfl) hn, fun _ => hgrows⟩⟩

variable (ops) in
lemma endData_spec (hp : p.Roomy) (hcrc : rp.crc = p.crc) (h : Loaded p s bs ws) :
    ∃ es m, (endData p s).Returns (es.map .send) (.ended m (result s .completed)) ∧
    (∀ e ∈ es, Legible rp.crc e) ∧
      ∀ V : Reception τ, (V.takeAll ops rp bs).Idle rp ∨ (V.takeAll ops rp bs).Failed →
        flow ops rp es [] V = ((V.takeAll ops rp bs).deliverAll ops ws).take ops rp
        (.ok (Builder.dtfEnd p.peerId .ok)) := by
  obtain ⟨m, hm⟩ := applyLocal_dataEnd h.machine
  have hfit : (Builder.dtfEnd p.peerId .ok).encodedLen + p.crcCost ≤ p.maxEntity := by
    have := hp.room
    rw [Builder.dtfEnd_length]
    exact this
  obtain ⟨es, b, hrun, -, hlegible, hflow⟩ :=
    flushWith_spec ops hp hcrc h (Builder.dtfEnd_sound p.peerId)
    (.inr (.inr ⟨_, rfl⟩)) hfit
  refine ⟨es ++ [b.buf], m, ?_, hlegible, hflow⟩
  simp only [endData]
  rw [← Act.bind_assoc, List.map_append]
  refine Act.Returns.bind hrun ?_
  simp only [hm, Act.lift_ok_bind]
  rfl

end Turn

end SendData

end PesitWizard.Io
