import PesitWizard.Io.Delivery
import PesitWizard.Io.Flush

/-! Checkpoints that outlive a data phase: what an acknowledgement is worth, and what a restart finds. -/

namespace PesitWizard.Io

open PesitWizard.Core Library

namespace Transfer

open Reception SendData Session

variable {σ τ : Type} {t : Transfer σ τ} {total base : ℕ} {H : Prop} {S₀ R₀ : MemoryCheckpoints}
    {c d : Session σ τ}
  {written : List Bytes} {sm rm : Machine} {source : σ} {sink : τ} {scp rcp : Checkpoint}

/-- A run of a data phase that may be interrupted. -/
abbrev Run (t : Transfer σ τ) : Session σ τ → Session σ τ → Prop :=
  Relation.ReflTransGen (Session.Happens t.setup)

lemma Starts.logged (h : t.Starts sm rm source sink scp rcp) (hnum : scp.sync < 2 ^ 24)
    (S₀ R₀ : MemoryCheckpoints) :
    t.Logged (scp.dataBytes + bytes (t.articles.drop scp.articles)) scp.sync
      (Admissible t.setup.rp t.setup.sp (firstCompressor t.setup.sp) 0 scp.sync
        (t.articles.drop scp.articles)) S₀ R₀
      (Session.start t.setup sm rm source sink S₀ R₀ scp rcp) (t.articles.take scp.articles) := by
  obtain ⟨-, -, harticles⟩ :
      scp.sync = rcp.sync ∧ scp.dataBytes = rcp.dataBytes ∧ scp.articles = rcp.articles := by
    simpa [Checkpoint.key] using h.same
  refine ⟨(h.inv hnum S₀ R₀).guarded, ?_, by simp [Session.start], by simp [Session.start], rfl, trivial,
    by simp [Session.start], by simp [Session.start], .inl rfl, by simp [Session.start], by
    simp [Session.start], ?_⟩
  · intro r hr
    obtain rfl := RecvPhase.receiving.inj hr
    show rcp.articles = (t.articles.take scp.articles).length
    rw [List.length_take, ← harticles, Nat.min_eq_left h.within]
  · intro n _ _
    rfl

section Acknowledgement

/-- In the run checkpoint() has returned for the point, with the sink at the point and full of the
articles before it, and then the receiver has recorded it. -/
def RecordedAt (t : Transfer σ τ) (x₀ x : Flushing σ τ) (cp : Checkpoint) : Prop :=
  ∃ y z x₁ x₂ ws, t.Flushes x₀ y ∧ y.step t.setup (.checkpoint (.ok ())) = some z ∧ t.Flushes z x₁ ∧
    x₁.session.receiver.todo = .record cp :: ws ∧ x₁.step t.setup (.move .receiverPerforms) =
    some x₂ ∧ t.Flushes x₂ x ∧
    x₁.session.receiver.sink = y.session.receiver.sink ∧
    t.Holds y.session.receiver.sink (t.articles.take cp.articles) ∧
    cp.fileOffset = (t.setup.ops.position y.session.receiver.sink).fileOffset

lemma Logged.written_prefix (h : t.Logged total base H S₀ R₀ c written) : written <+: t.articles := by
  have hgrows := (h.guarded.tame.settled_grows written).2.trans h.guarded.within.written
  rw [settled_written h.guarded.tame] at hgrows
  exact (List.prefix_append _ _).trans hgrows

lemma Logged.recordedAt {x₀ x : Flushing σ τ} (h : t.Logged total base H S₀ R₀ x₀.session written)
    (hnone : x₀.session.receiver.recorded = []) (hstart : x₀.flushed = false) (hrun : t.Flushes x₀ x) :
    ∀ cp ∈ x.session.receiver.recorded, t.RecordedAt x₀ x cp := by
  induction hrun with
  | refl => simp [hnone]
  | @tail d e hrun hstep ih =>
    obtain ⟨m, -, hm⟩ := hstep
    have hextend : ∀ cp ∈ d.session.receiver.recorded, t.RecordedAt x₀ e cp := by
      intro cp hcp
      obtain ⟨y, z, x₁, x₂, ws, hy, hz, hrun₁, htodo, hperf, hrun₂, hkept⟩ := ih cp hcp
      exact ⟨y, z, x₁, x₂, ws, hy, hz, hrun₁, htodo, hperf, hrun₂.tail ⟨m, trivial, hm⟩, hkept⟩
    rcases (flushed_of_step hm).recorded with hsame | ⟨cp, ws, htodo, hready, rfl, hrec⟩
    · rw [hsame]
      exact hextend
    · intro cp' hcp'
      rw [hrec] at hcp'
      rcases List.mem_append.mp hcp' with hcp' | hcp'
      · exact hextend cp' hcp'
      · obtain rfl := List.mem_singleton.mp hcp'
        obtain ⟨y, z, _, _, hy, hz, hrest, -, hsink⟩ := Flushes.flushedAt hrun hstart hready
        obtain ⟨w, hw, -⟩ := h.run (Flushes.run hrun)
        obtain ⟨harticles, hoffset⟩ := hw.next cp' ws htodo
        refine ⟨y, z, d, e, ws, hy, hz, hrest, htodo, hm, .refl, hsink.symm, ?_, ?_⟩
        · rw [hsink, harticles, ← List.prefix_iff_eq_take.mp hw.written_prefix]
          exact hw.guarded.sink
        · rw [hsink]
          exact hoffset

lemma Logged.announced (h : t.Logged total base H S₀ R₀ c written) {cp : Checkpoint}
    (hcp : cp ∈ c.receiver.recorded) :
    ∃ scp ∈ marks c, scp.key = cp.key := by
  have hmem : cp.key ∈ (marks c).map Checkpoint.key :=
    h.guarded.recorded_prefix.subset (List.mem_map_of_mem (List.mem_append_left _ hcp))
  obtain ⟨scp, hscp, hkey⟩ := List.mem_map.mp hmem
  exact ⟨scp, hscp, hkey⟩

lemma Logged.last_of_recorded (h : t.Logged total base H S₀ R₀ c written) {cp : Checkpoint}
    (hcp : cp ∈ c.receiver.recorded) : ∃ l, c.receiver.store.last = some l ∧ cp.sync ≤ l.sync := by
  have hpos := h.guarded.recorded_pos (List.mem_append_left (records c.receiver.todo) hcp)
  exact MemoryCheckpoints.le_last (MemoryCheckpoints.get_mem (by omega) (h.store cp hcp)).1

/-- When the sender is told that a point is acknowledged, the receiver has recorded it after a flush
of its sink: it has come as far as the sender had, with the articles before the point in its sink, and
it keeps the point. -/
theorem acknowledged_recorded (t : Transfer σ τ) (h : t.Starts sm rm source sink scp rcp)
    (hnum : scp.sync < 2 ^ 24) (S₀ R₀ : MemoryCheckpoints) {x₁ x : Flushing σ τ} {n : ℕ}
    {ws : List Effect}
    (hrun : t.Flushes (.start (Session.start t.setup sm rm source sink S₀ R₀ scp rcp)) x₁)
    (htold : x₁.session.sender.todo = .acknowledge n :: ws) (hrun' : t.Flushes x₁ x) :
    ∃ cp scp', t.RecordedAt (.start (Session.start t.setup sm rm source sink S₀ R₀ scp rcp)) x₁
    cp ∧ cp.sync = n ∧
      x.session.receiver.store.get n = some cp ∧ scp' ∈ x₁.session.sender.recorded ∧ scp'.sync = n ∧
      scp'.dataBytes = cp.dataBytes ∧ scp'.articles = cp.articles ∧
      ∃ l, x.session.receiver.store.last = some l ∧
        n ≤ l.sync ∧ x.session.sender.store.acknowledged ≤ max S₀.acknowledged l.sync := by
  have hlogged := h.logged hnum S₀ R₀
  obtain ⟨w₁, h₁, -⟩ := hlogged.run (Flushes.run hrun)
  obtain ⟨w, hc, -⟩ := h₁.run (Flushes.run hrun')
  obtain ⟨hmem, hnone⟩ := h₁.acknowledging n (by rw [htold]; exact List.mem_cons_self)
  obtain ⟨cp, hcp, rfl⟩ := List.mem_map.mp hmem
  obtain ⟨scp', hscp', hkey⟩ := h₁.announced hcp
  obtain ⟨hsync, hbytes, harticles⟩ : scp'.sync = cp.sync ∧ scp'.dataBytes = cp.dataBytes ∧
      scp'.articles = cp.articles := by
    simpa [Checkpoint.key] using hkey
  have hcp' : cp ∈ x.session.receiver.recorded := (run_recorded (Flushes.run hrun')).1.subset hcp
  obtain ⟨l, hl, hle⟩ := hc.last_of_recorded hcp'
  refine ⟨cp, scp', hlogged.recordedAt rfl rfl hrun cp hcp, rfl, hc.store cp hcp', ?_, hsync, hbytes,
    harticles, l, hl, hle, ?_⟩
  · rw [marks, hnone, List.append_nil] at hscp'
    exact hscp'
  · rcases hc.acknowledged with hack | hack
    · rw [hack]
      exact le_max_left _ _
    · obtain ⟨cp', hcp'', hsync'⟩ := List.mem_map.mp hack
      obtain ⟨l', hl', hle'⟩ := hc.last_of_recorded hcp''
      obtain rfl := Option.some.inj (hl'.symm.trans hl)
      rw [← hsync']
      exact le_trans hle' (le_max_right _ _)

lemma play_run (t : Transfer σ τ) {ms : List Move} (h : Session.play t.setup ms c = some d) :
    t.Run c d :=
  Relation.ReflTransGen.mono (fun _ _ hstep => Or.inl hstep) _ _ (Session.play_steps t.setup h)

def acknowledgedArticles : List Bytes := [List.replicate 1000 7, List.replicate 100 8]

lemma acknowledged_roomy : (sampleParams .none false 2000 0).Roomy := ⟨by decide, by decide⟩

def acknowledgedTransfer : Transfer VecSource VecSink :=
  sampleTransfer (sampleParams .none false 2000 0) acknowledgedArticles acknowledged_roomy

def acknowledgedStart : Flushing VecSource VecSink :=
  .start (Session.start acknowledgedTransfer.setup ⟨.requester, .tde02A⟩ ⟨.server, .tde02B⟩
    (VecSource.new acknowledgedArticles) VecSink.new .empty .empty .default .default)

def acknowledgedMoves : List FlushMove :=
  [.move .senderAdvances, .move .senderAdvances, .move .senderPerforms, .move .senderPerforms,
    .move .receiverTakes, .move .receiverPerforms, .move .receiverTakes, .checkpoint (.ok ()),
    .move .receiverPerforms, .move .receiverPerforms, .move .senderPolls]

def acknowledgedState : Flushing VecSource VecSink :=
  acknowledgedMoves.foldl (after (Flushing.step acknowledgedTransfer.setup)) acknowledgedStart

/-- The sender has pruned its store and has ended, and the receiver has taken the end. -/
def acknowledgedLater : Flushing VecSource VecSink :=
  [FlushMove.move .senderPerforms, .move .senderAdvances, .move .senderPerforms, .move .senderAdvances,
    .move .senderPerforms, .move .receiverTakes, .move .receiverPerforms].foldl
    (after (Flushing.step acknowledgedTransfer.setup)) acknowledgedState

theorem acknowledged_recorded_sample :
    acknowledgedState.session.sender.todo = [.acknowledge 1] ∧
    acknowledgedLater.session.sender.store.acknowledged = 1 ∧
      ∃ cp scp', acknowledgedTransfer.RecordedAt acknowledgedStart acknowledgedState cp ∧ cp.sync = 1 ∧
        acknowledgedLater.session.receiver.store.get 1 = some cp ∧
        scp' ∈ acknowledgedState.session.sender.recorded ∧
        scp'.sync = 1 ∧ scp'.dataBytes = cp.dataBytes ∧ scp'.articles = cp.articles ∧
        ∃ l, acknowledgedLater.session.receiver.store.last = some l ∧ 1 ≤ l.sync ∧
          acknowledgedLater.session.sender.store.acknowledged ≤ max 0 l.sync := by
  have htold : acknowledgedState.session.sender.todo = [.acknowledge 1] := by decide +kernel
  refine ⟨htold, by decide +kernel, ?_⟩
  exact acknowledged_recorded acknowledgedTransfer (sampleTransfer_starts _ _ _)
    (by decide) .empty .empty (moves_foldl acknowledgedMoves acknowledgedStart) htold
    (moves_foldl _ acknowledgedState)

end Acknowledgement

end Transfer

end PesitWizard.Io
