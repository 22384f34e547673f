import PesitWizard.Io.Outlook
import PesitWizard.Io.Schedule

/-! A transfer of articles from a source to a sink, and what it means that the receiver is
abreast of the sender. -/

namespace PesitWizard.Io

open PesitWizard.Core Library

structure DataParams.Agree (sp rp : DataParams) : Prop where
  crc : rp.crc = sp.crc
  sync : rp.sync = sp.sync
  compression : rp.compression = sp.compression
  maxArticle : rp.maxArticle = sp.maxArticle

structure Transfer (σ τ : Type) where
  setup : Session.Setup σ τ
  articles : List Bytes
  At : σ → ℕ → Prop
  Holds : τ → List Bytes → Prop
  yields : setup.src.Yields articles At
  keeps : setup.ops.Keeps Holds
  roomy : setup.sp.Roomy
  agree : setup.sp.Agree setup.rp

def bytes (as : List Bytes) : ℕ := (as.map List.length).sum

def Checkpoint.key (cp : Checkpoint) : ℕ × ℕ × ℕ := (cp.sync, cp.dataBytes, cp.articles)

namespace Reception

variable {τ : Type} {ops : ArticleSink τ} {x : Reception τ}

def plainOf (d : Option Decompressor) (wire : Bytes) :
    Except Compress.DecompressError (Bytes × Option Decompressor) :=
  match d with
  | none => .ok (wire, none)
  | some d => (d.decompress wire).map (fun y => (y.1, some y.2))

lemma deliver_ok {r : RecvState} (hx : x.phase = .receiving r) {wire a : Bytes} {d : Option Decompressor}
    (h : plainOf r.decompressor wire = .ok (a, d)) :
    x.deliver ops wire = { x with
      phase := .receiving { r with
        decompressor := d, dataBytes := r.dataBytes + wire.length, articles := r.articles + 1 }
      sink := ops.writeArticle x.sink a
      written := x.written ++ [a] } := by
  simp only [deliver, hx]
  cases hd : r.decompressor with
  | none =>
    rw [hd] at h
    obtain ⟨rfl, rfl⟩ := Prod.mk.inj (Except.ok.inj h)
    simp only [ReceiveData.takeArticle, hd]
    rfl
  | some d₀ =>
    rw [hd] at h
    simp only [plainOf] at h
    cases hdec : d₀.decompress wire with
    | error e =>
      rw [hdec] at h
      cases h
    | ok y =>
      rw [hdec] at h
      obtain ⟨rfl, rfl⟩ := Prod.mk.inj (Except.ok.inj h)
      simp only [ReceiveData.takeArticle, hd, hdec, Except.mapError, Act.lift_ok_bind]
      rfl

variable (ops) in
lemma deliver_refused {r : RecvState} (hx : x.phase = .receiving r) {wire : Bytes}
    {e : Compress.DecompressError} (h : plainOf r.decompressor wire = .error e) :
    ∃ err, x.deliver ops wire = { x with phase := .failed err } := by
  simp only [deliver, hx]
  cases hd : r.decompressor with
  | none =>
    rw [hd] at h
    cases h
  | some d₀ =>
    rw [hd] at h
    simp only [plainOf] at h
    cases hdec : d₀.decompress wire with
    | ok y =>
      rw [hdec] at h
      cases h
    | error e =>
      refine ⟨.decompress e, ?_⟩
      simp only [ReceiveData.takeArticle, hd, hdec, Except.mapError, Act.lift_error_bind]
      rfl

end Reception

namespace SendData

open Reception

variable {p rp : DataParams}

lemma onWire_delivers {c : Option Compressor} {d : Option Decompressor} (h : Mirrors rp c d)
    (n : ℕ) {a : Bytes} (ha : c.isSome = true → a.length ≤ max rp.maxArticle 1) :
    ∃ d', plainOf d (onWire p c n a).2.1 = .ok (a, d') ∧ Mirrors rp (onWire p c n a).2.2 d' := by
  match c, d, h with
  | none, none, _ =>
    rw [onWire_none]
    exact ⟨none, rfl, trivial⟩
  | some c, some d, h =>
    obtain ⟨d', hdec, hmirrors⟩ := onWire_decompress (p := p) h n (ha rfl)
    exact ⟨some d', by simp only [plainOf, hdec, Except.map], hmirrors⟩

lemma onWire_refused {c : Option Compressor} {d : Option Decompressor} (h : Mirrors rp c d)
    (n : ℕ) {a : Bytes} (ha : ¬ (c.isSome = true → a.length ≤ max rp.maxArticle 1)) :
    ∃ e, plainOf d (onWire p c n a).2.1 = .error e := by
  match c, d, h with
  | none, none, _ => exact absurd (fun hc => absurd hc (by simp)) ha
  | some c, some d, h =>
    obtain ⟨e, hdec⟩ := onWire_tooLong (p := p) h n (a := a) (fun hle => ha (fun _ => hle))
    exact ⟨e, by simp only [plainOf, hdec, Except.map]⟩

end SendData

namespace Transfer

open Reception SendData

variable {σ τ : Type} (t : Transfer σ τ) (total base : ℕ)

/-- The counters of a point between two articles. -/
def Counts (dataBytes articles : ℕ) : Prop :=
  articles ≤ t.articles.length ∧
    (t.setup.sp.compression = .none → dataBytes + bytes (t.articles.drop articles) = total)

/-- A checkpoint of the sender from which it can send the rest. -/
def Sent (cp : Checkpoint) : Prop :=
  t.Counts total cp.dataBytes cp.articles ∧ t.setup.src.Marks t.At (positionOf cp)

/-- A checkpoint of the receiver to which its sink can be truncated. -/
def Kept (cp : Checkpoint) : Prop :=
  t.Counts total cp.dataBytes cp.articles ∧
    ∃ sink, t.Holds sink (t.articles.take cp.articles) ∧
    (t.setup.ops.position sink).fileOffset = cp.fileOffset

structure Ready (s : SendState σ) : Prop where
  counts : t.Counts total s.dataBytes s.articles
  source : t.At s.source s.articles
  prevPos : s.prevPos = t.setup.src.position s.source
  compressor : s.compressor.isSome = true ↔ t.setup.sp.compression ≠ .none

/-- The receiver has nothing but what the sender has announced and read; `base` is the number of the
checkpoint from which the data phase started. -/
structure Within (log : List Checkpoint) (x : Reception τ) : Prop where
  recorded : x.recorded.map Checkpoint.key <+: log.map Checkpoint.key
  kept : ∀ cp ∈ x.recorded, t.Kept total cp
  written : x.written <+: t.articles
  few : base + x.recorded.length < 2 ^ 24

structure Abreast (s : SendState σ) (log : List Checkpoint) (x : Reception τ) : Prop where
  receiving : ∃ r, x.phase = .receiving r ∧ r.reassembler = .new t.setup.rp.maxArticle ∧
    (r.machine.state = .tde02B ∨ r.machine.state = .tdl02A) ∧ r.dataBytes = s.dataBytes ∧
    r.articles = s.articles ∧
    r.lastSync = s.syncNo ∧ Mirrors t.setup.rp s.compressor r.decompressor
  sink : t.Holds x.sink x.written
  written : x.written = t.articles.take s.articles
  recorded : x.recorded.map Checkpoint.key = log.map Checkpoint.key
  kept : ∀ cp ∈ x.recorded, t.Kept total cp
  acks : x.acks = if 0 < t.setup.sp.window then s.unacked.map (ackEntity t.setup.rp) else []
  ascending : s.unacked.Pairwise (· < ·)
  latest : ∀ n ∈ s.unacked, n ≤ s.syncNo
  numbered : s.syncNo < 2 ^ 24
  counted : s.syncNo = base + log.length

variable {t total base} {s s' : SendState σ} {x : Reception τ} {log : List Checkpoint}
    {a : Bytes} {rest : σ}

lemma drop_eq_cons {as : List Bytes} {k : ℕ} (h : as[k]? = some a) :
    as.drop k = a :: as.drop (k + 1) := by
  obtain ⟨hk, ha⟩ := List.getElem?_eq_some_iff.mp h
  rw [List.drop_eq_getElem_cons hk, ha]

lemma take_succ {as : List Bytes} {k : ℕ} (h : as[k]? = some a) :
    as.take (k + 1) = as.take k ++ [a] := by
  rw [List.take_add_one, h]
  rfl

lemma Counts.step {dataBytes k : ℕ} {wire : Bytes} (h : t.Counts total dataBytes k)
    (ha : t.articles[k]? = some a) (hwire : t.setup.sp.compression = .none → wire = a) :
    t.Counts total (dataBytes + wire.length) (k + 1) := by
  obtain ⟨hk, -⟩ := List.getElem?_eq_some_iff.mp ha
  refine ⟨hk, ?_⟩
  intro hnone
  rw [← h.2 hnone, drop_eq_cons ha, hwire hnone]
  simp only [bytes, List.map_cons, List.sum_cons]
  omega

lemma Ready.step (h : t.Ready total s) (ha : t.articles[s.articles]? = some a)
    (hturn : Turned t.setup.src t.setup.sp s a rest s') (hrest : t.At rest (s.articles + 1)) :
    t.Ready total s' := by
  refine ⟨?_, ?_, ?_, ?_⟩
  · rw [hturn.dataBytes, hturn.articles]
    refine h.counts.step ha ?_
    intro hnone
    have hc : s.compressor = none := by
      have := mt h.compressor.mp (not_not.mpr hnone)
      simpa using this
    rw [hc, onWire_none]
  · rw [hturn.source, hturn.articles]
    exact hrest
  · rw [hturn.prevPos, hturn.source]
  · rw [hturn.compressor, onWire_isSome]
    exact h.compressor

lemma onWire_enabled {p : DataParams} {c : Option Compressor} {n : ℕ} (h : (onWire p c n a).1 = true) :
    p.sync.enabled = true := by
  by_contra hne
  have hnone : ∀ k m, needsSync p k m = false := by
    intro k m
    simp only [needsSync, DataParams.interval, hne, if_false]
  rw [onWire_plain (hnone _ _)] at h
  cases h

lemma answers_eq (h : t.setup.sp.sync.enabled = true) (n : ℕ) :
    answers t.setup.rp n = if 0 < t.setup.sp.window then [ackEntity t.setup.rp n] else [] := by
  have hwindow : 0 < t.setup.sp.window ↔ t.setup.sp.sync.window ≠ 0 := by
    rw [DataParams.window, Nat.pos_iff_ne_zero, ne_eq, ne_eq, ← UInt8.toNat_inj]
    rfl
  simp only [answers, t.agree.sync, h, Bool.true_eq_false, or_false, hwindow]

structure Announced (t : Transfer σ τ) (total base : ℕ) (s s' : SendState σ) (log : List Checkpoint)
    (x x₁ : Reception τ) : Prop where
  receiving : ∃ r, x₁.phase = .receiving r ∧ r.reassembler = .new t.setup.rp.maxArticle ∧
    (r.machine.state = .tde02B ∨ r.machine.state = .tdl02A) ∧ r.dataBytes = s.dataBytes ∧
    r.articles = s.articles ∧
    r.lastSync = s'.syncNo ∧ Mirrors t.setup.rp s.compressor r.decompressor
  sink : x₁.sink = x.sink
  written : x₁.written = x.written
  recorded : x₁.recorded.map Checkpoint.key = log.map Checkpoint.key
  kept : ∀ cp ∈ x₁.recorded, t.Kept total cp
  acks : x₁.acks = if 0 < t.setup.sp.window then s'.unacked.map (ackEntity t.setup.rp) else []
  ascending : s'.unacked.Pairwise (· < ·)
  latest : ∀ n ∈ s'.unacked, n ≤ s'.syncNo
  numbered : s'.syncNo < 2 ^ 24
  counted : s'.syncNo = base + log.length

lemma Abreast.announced (h : t.Abreast total base s log x) (hready : t.Ready total s)
    (hturn : Turned t.setup.src t.setup.sp s a rest s')
    (hn : (onWire t.setup.sp s.compressor s.bytesSinceSync a).1 = true → nextSync s < 2 ^ 24) :
    t.Announced total base s s'
      (log ++ if (onWire t.setup.sp s.compressor s.bytesSinceSync a).1 then [mark s] else []) x
      (if (onWire t.setup.sp s.compressor s.bytesSinceSync a).1
        then x.take t.setup.ops t.setup.rp (.ok (Builder.syn t.setup.sp.peerId (nextSync s))) else
        x) := by
  obtain ⟨r, hx, hr, hm, hbytes, harticles, hlast, hmirrors⟩ := h.receiving
  have hsyncNo := hturn.syncNo
  have hunacked := hturn.unacked
  cases hsync : (onWire t.setup.sp s.compressor s.bytesSinceSync a).1 with
  | false =>
    simp only [hsync, Bool.false_eq_true, if_false, Bool.false_and, List.append_nil]
      at hsyncNo hunacked ⊢
    refine ⟨⟨r, hx, hr, hm, hbytes, harticles, hlast.trans hsyncNo.symm, hmirrors⟩, rfl, rfl,
      h.recorded, h.kept, ?_, ?_, ?_, ?_, ?_⟩
    · rw [hunacked]
      exact h.acks
    · rw [hunacked]
      exact h.ascending
    · rw [hunacked, hsyncNo]
      exact h.latest
    · rw [hsyncNo]
      exact h.numbered
    · rw [hsyncNo]
      exact h.counted
  | true =>
    have hnum := hn hsync
    have hnumbered := h.numbered
    have hnext : nextSync s = s.syncNo + 1 := Nat.mod_eq_of_lt (by omega)
    simp only [hsync, if_true, Bool.true_and, decide_eq_true_eq] at hsyncNo hunacked ⊢
    rw [take_syn hx hm t.setup.sp.peerId hnum, synced]
    have hcounted := h.counted
    refine ⟨⟨_, rfl, hr, hm, hbytes, harticles, hsyncNo.symm, hmirrors⟩, rfl, rfl, ?_, ?_,
      ?_, ?_, ?_, ?_, ?_⟩
    · simp only [List.map_append, h.recorded, List.map_cons, List.map_nil, Checkpoint.key, mark,
        hbytes, harticles]
    · simp only [List.mem_append, List.mem_singleton]
      rintro cp (hcp | rfl)
      · exact h.kept cp hcp
      · refine ⟨?_, x.sink, ?_, rfl⟩
        · simp only [hbytes, harticles]
          exact hready.counts
        · simp only [harticles]
          rw [← h.written]
          exact h.sink
    · rw [hunacked, h.acks, answers_eq (onWire_enabled hsync)]
      by_cases hw : 0 < t.setup.sp.window <;> simp [hw]
    · rw [hunacked]
      split
      · rw [List.pairwise_append]
        refine ⟨h.ascending, by simp, ?_⟩
        intro m hm' k hk
        obtain rfl := List.mem_singleton.mp hk
        have := h.latest m hm'
        omega
      · exact h.ascending
    · rw [hunacked, hsyncNo]
      intro m hm'
      split at hm'
      · rcases List.mem_append.mp hm' with hm' | hm'
        · have := h.latest m hm'
          omega
        · obtain rfl := List.mem_singleton.mp hm'
          exact le_rfl
      · have := h.latest m hm'
        omega
    · rw [hsyncNo]
      exact hnum
    · rw [hsyncNo, List.length_append, List.length_singleton]
      omega

lemma Abreast.turn (h : t.Abreast total base s log x) (hready : t.Ready total s)
    (ha : t.articles[s.articles]? = some a) (hturn : Turned t.setup.src t.setup.sp s a rest s')
    (hn : (onWire t.setup.sp s.compressor s.bytesSinceSync a).1 = true → nextSync s < 2 ^ 24) :
    ((s.compressor.isSome = true → a.length ≤ max t.setup.rp.maxArticle 1) →
      t.Abreast total base s'
        (log ++ if (onWire t.setup.sp s.compressor s.bytesSinceSync a).1 then [mark s] else [])
        (turn t.setup.ops t.setup.rp t.setup.sp s a x)) ∧
    (¬ (s.compressor.isSome = true → a.length ≤ max t.setup.rp.maxArticle 1) →
      (turn t.setup.ops t.setup.rp t.setup.sp s a x).Failed ∧ t.Within total base
        (log ++ if (onWire t.setup.sp s.compressor s.bytesSinceSync a).1 then [mark s] else [])
        (turn t.setup.ops t.setup.rp t.setup.sp s a x)) := by
  have h₁ := h.announced hready hturn hn
  obtain ⟨r, hx, hr, hm, hbytes, harticles, hlast, hmirrors⟩ := h₁.receiving
  rw [SendData.turn]
  constructor
  · intro hlen
    obtain ⟨d, hplain, hmirrors'⟩ := onWire_delivers (p := t.setup.sp) hmirrors s.bytesSinceSync hlen
    rw [deliver_ok hx hplain]
    refine ⟨⟨_, rfl, hr, hm, ?_, ?_, hlast, ?_⟩, ?_, ?_, h₁.recorded, h₁.kept, h₁.acks,
      h₁.ascending, h₁.latest, h₁.numbered, h₁.counted⟩
    · rw [hturn.dataBytes, hbytes]
    · rw [hturn.articles, harticles]
    · rw [hturn.compressor]
      exact hmirrors'
    · simp only [h₁.sink, h₁.written]
      exact t.keeps.write h.sink a
    · simp only [h₁.written, h.written, hturn.articles]
      exact (take_succ ha).symm
  · intro hlen
    obtain ⟨e, hplain⟩ := onWire_refused (p := t.setup.sp) hmirrors s.bytesSinceSync hlen
    obtain ⟨err, hrefused⟩ := deliver_refused t.setup.ops hx hplain
    rw [hrefused]
    refine ⟨⟨err, rfl⟩, ?_, h₁.kept, ?_, ?_⟩
    · exact ⟨[], (List.append_nil _).trans h₁.recorded⟩
    · rw [h₁.written, h.written]
      exact List.take_prefix _ _
    · have hlength := congrArg List.length h₁.recorded
      rw [List.length_map, List.length_map] at hlength
      have hnum := h₁.numbered
      have hcount := h₁.counted
      rw [← hlength] at hcount
      dsimp only
      omega

lemma Abreast.within (h : t.Abreast total base s log x) : t.Within total base log x := by
  refine ⟨?_, h.kept, ?_, ?_⟩
  · exact ⟨[], (List.append_nil _).trans h.recorded⟩
  · rw [h.written]
    exact List.take_prefix _ _
  · have hlength := congrArg List.length h.recorded
    rw [List.length_map, List.length_map] at hlength
    have hnum := h.numbered
    have hcount := h.counted
    rw [← hlength] at hcount
    omega

lemma Within.of_grows {y : Reception τ} (h : t.Within total base log y) (hgrows : x.Grows y) :
    t.Within total base log x := by
  refine ⟨(hgrows.1.map _).trans h.recorded, ?_, hgrows.2.trans h.written, ?_⟩
  · intro cp hcp
    exact h.kept cp (hgrows.1.subset hcp)
  · have := hgrows.1.length_le
    have := h.few
    omega

lemma Within.extend (h : t.Within total base log x) (more : List Checkpoint) :
    t.Within total base (log ++ more) x := by
  refine ⟨h.recorded.trans ?_, h.kept, h.written, h.few⟩
  rw [List.map_append]
  exact List.prefix_append _ _

lemma Ready.mark_sent (h : t.Ready total s) : t.Sent total (mark s) := by
  refine ⟨h.counts, .inr ⟨s.source, h.source, ?_⟩⟩
  simp only [mark, positionOf, h.prevPos]

end Transfer

end PesitWizard.Io
