import PesitWizard.Io.Restart

/-! A transfer that is interrupted and restarted any number of times: what outlives an interruption, and
from where each data phase goes on. -/

namespace PesitWizard.Io

open PesitWizard.Core Library

/-- What all data phases of a transfer have in common. -/
structure Job (σ τ : Type) where
  src : ArticleSource σ
  ops : ArticleSink τ
  articles : List Bytes
  At : σ → ℕ → Prop
  Holds : τ → List Bytes → Prop
  yields : src.Yields articles At
  keeps : ops.Keeps Holds

/-- What the two ends have agreed on for one of them. -/
structure Accord where
  sp : DataParams
  rp : DataParams
  roomy : sp.Roomy
  agree : sp.Agree rp

def Job.transfer {σ τ : Type} (j : Job σ τ) (a : Accord) : Transfer σ τ where
  setup := ⟨j.src, j.ops, a.sp, a.rp⟩
  articles := j.articles
  At := j.At
  Holds := j.Holds
  yields := j.yields
  keeps := j.keeps
  roomy := a.roomy
  agree := a.agree

structure Remains (τ : Type) where
  senderStore : MemoryCheckpoints
  receiverStore : MemoryCheckpoints
  sink : τ

def Session.remains {σ τ : Type} (c : Session σ τ) : Remains τ :=
  ⟨c.sender.store, c.receiver.store, c.receiver.sink⟩

namespace Remains

variable {σ τ : Type} (g : Remains τ) (restarted : Bool)

/-- The checkpoint that the receiver starts from, and whose number it tells the sender. -/
def offered : Checkpoint := if restarted then g.receiverStore.last.getD .default else .default

/-- The checkpoint that the sender starts from, unless it does not know the point. -/
def found : Option Checkpoint :=
  if restarted = true ∧ (g.offered restarted).sync ≠ 0 then g.senderStore.get (g.offered restarted).sync
  else some .default

def resume (u : Session.Setup σ τ) (sm rm : Machine) (source : σ) : Option (Session σ τ) :=
  (g.found restarted).map fun start =>
    Session.start u sm rm source (u.ops.truncate g.sink (positionOf (g.offered restarted)))
      (if start.sync = 0 then g.senderStore.clear else g.senderStore)
      (if (g.offered restarted).sync = 0 then g.receiverStore.clear else g.receiverStore) start
        (g.offered restarted)

end Remains

namespace Job

variable {σ τ : Type} (j : Job σ τ) (P : DataParams → Prop)

/-- The two ends come from what is left to a state of a data phase. -/
def Goes (restarted : Bool) (g : Remains τ) (a : Accord) (c : Session σ τ) : Prop :=
  P a.sp ∧ ∃ sm rm source c₀, (sm.state = .tde02A ∧ rm.state = .tde02B ∨ sm.state = .tdl02B ∧
    rm.state = .tdl02A) ∧
    (∃ k, j.At source k) ∧ g.resume restarted (j.transfer a).setup sm rm source = some c₀ ∧
    (j.transfer a).Run c₀ c

/-- The sender has recorded every point that the receiver has recorded, and the numbers of the points
have not run out. -/
structure Told (c : Session σ τ) : Prop where
  recorded : ∀ cp ∈ c.receiver.recorded, cp.sync ∈ c.sender.recorded.map Checkpoint.sync
  few : ∀ cp ∈ Transfer.marks c, cp.sync < 2 ^ 24

/-- What is left of a transfer that has been interrupted a number of times, each time in a state that
meets a condition. -/
inductive Cut (Q : Session σ τ → Prop) : Remains τ → Prop
  | first {g : Remains τ} {a : Accord} {c : Session σ τ} (hheld : ∃ written, j.Holds g.sink written)
      (hgo : j.Goes P false g a c) (hq : Q c) : Cut Q c.remains
  | again {g : Remains τ} {a : Accord} {c : Session σ τ} (hcut : Cut Q g)
    (hgo : j.Goes P true g a c) (hq : Q c) :
      Cut Q c.remains

/-- A point from which both ends can go on. -/
structure Point (g : Remains τ) (rcp : Checkpoint) : Prop where
  positive : 0 < rcp.sync
  few : rcp.sync < 2 ^ 24
  within : rcp.articles ≤ j.articles.length
  kept : ∃ sink, j.Holds sink (j.articles.take rcp.articles) ∧
    (j.ops.position sink).fileOffset = rcp.fileOffset
  held : ∃ after, j.Holds g.sink (j.articles.take rcp.articles ++ after)
  known : ∃ scp, g.senderStore.get rcp.sync = some scp ∧ scp.key = rcp.key ∧
    j.src.Marks j.At (positionOf scp)
  acknowledged : g.senderStore.acknowledged ≤ rcp.sync
  total : (∀ p, P p → p.compression = .none) →
    rcp.dataBytes + bytes (j.articles.drop rcp.articles) = bytes j.articles

structure Resumable (g : Remains τ) : Prop where
  held : ∃ written, j.Holds g.sink written
  stored : ∀ cp ∈ g.receiverStore.points, g.senderStore.acknowledged ≤ cp.sync →
    ∃ scp, g.senderStore.get cp.sync = some scp
  last : ∀ rcp, g.receiverStore.last = some rcp → j.Point P g rcp

/-- What the stores `S₀` and `R₀` know when the ends start from their checkpoints. -/
structure Based (S₀ R₀ : MemoryCheckpoints) (scp rcp : Checkpoint) : Prop where
  few : scp.sync < 2 ^ 24
  below : ∀ cp ∈ R₀.points, cp.sync ≤ scp.sync
  acknowledged : S₀.acknowledged ≤ scp.sync
  stored : ∀ cp ∈ R₀.points, S₀.acknowledged ≤ cp.sync → ∃ cp', S₀.get cp.sync = some cp'
  last : ∀ l, R₀.last = some l → l = rcp ∧ 0 < l.sync ∧ S₀.get l.sync = some scp
  kept : R₀.last = some rcp →
    ∃ sink, j.Holds sink (j.articles.take rcp.articles) ∧
    (j.ops.position sink).fileOffset = rcp.fileOffset
  total : (∀ p, P p → p.compression = .none) →
    scp.dataBytes + bytes (j.articles.drop scp.articles) = bytes j.articles

variable {j P} {g : Remains τ} {a : Accord} {sm rm : Machine} {source : σ}

lemma begins_anew {written : List Bytes} (hheld : j.Holds g.sink written)
    (hm : sm.state = .tde02A ∧ rm.state = .tde02B ∨ sm.state = .tdl02B ∧ rm.state = .tdl02A)
    (hsource : ∃ k, j.At source k) (S R : MemoryCheckpoints) :
    (j.transfer a).Starts sm rm source (j.ops.truncate g.sink (positionOf .default)) .default .default ∧
      j.Based P S.clear R.clear .default .default := by
  refine ⟨⟨hm, hsource, .inl rfl, rfl, Nat.zero_le _, j.keeps.truncateDefault hheld⟩,
    ⟨by decide, ?_, ?_, ?_, ?_, ?_, ?_⟩⟩
  · exact fun cp hcp => absurd hcp List.not_mem_nil
  · exact le_rfl
  · exact fun cp hcp => absurd hcp List.not_mem_nil
  · exact fun l hl => by cases hl
  · exact fun hl => by cases hl
  · exact fun _ => Nat.zero_add _

lemma begins_again (h : j.Resumable P g) {rcp : Checkpoint} (hlast : g.receiverStore.last = some rcp)
    (hm : sm.state = .tde02A ∧ rm.state = .tde02B ∨ sm.state = .tdl02B ∧ rm.state = .tdl02A)
    (hsource : ∃ k, j.At source k) :
    ∃ scp, g.senderStore.get rcp.sync = some scp ∧ scp.sync = rcp.sync ∧
      (j.transfer a).Starts sm rm source (j.ops.truncate g.sink (positionOf rcp)) scp rcp ∧
      j.Based P g.senderStore g.receiverStore scp rcp := by
  have hpoint := h.last rcp hlast
  obtain ⟨scp, hget, hkey, hmarks⟩ := hpoint.known
  obtain ⟨hsync, hbytes, harticles⟩ :
      scp.sync = rcp.sync ∧ scp.dataBytes = rcp.dataBytes ∧ scp.articles = rcp.articles := by
    simpa [Checkpoint.key] using hkey
  refine ⟨scp, hget, hsync, ⟨hm, hsource, hmarks, hkey, harticles ▸ hpoint.within, ?_⟩,
    ⟨hsync ▸ hpoint.few, ?_, hsync ▸ hpoint.acknowledged, h.stored, ?_, fun _ => hpoint.kept, ?_⟩⟩
  · obtain ⟨after, hafter⟩ := hpoint.held
    obtain ⟨sink, hsink, hoffset⟩ := hpoint.kept
    have htruncate := j.keeps.truncate hafter hsink rcp.dataBytes
    rw [hoffset, List.length_take, Nat.min_eq_left hpoint.within] at htruncate
    show j.Holds _ (j.articles.take scp.articles)
    rw [harticles]
    exact htruncate
  · intro cp hcp
    obtain ⟨l, hl, hle⟩ := MemoryCheckpoints.le_last hcp
    obtain rfl := Option.some.inj (hlast.symm.trans hl)
    exact hle.trans hsync.ge
  · intro l hl
    obtain rfl := Option.some.inj (hlast.symm.trans hl)
    exact ⟨rfl, hpoint.positive, hget⟩
  · intro hplain
    rw [hbytes, harticles]
    exact hpoint.total hplain

/-- The sender knows the point that the receiver offers, and the two ends start level. -/
lemma resumes {restarted : Bool} (hheld : ∃ written, j.Holds g.sink written)
    (h : restarted = true → j.Resumable P g)
    (hm : sm.state = .tde02A ∧ rm.state = .tde02B ∨ sm.state = .tdl02B ∧ rm.state = .tdl02A)
    (hsource : ∃ k, j.At source k) :
    ∃ S₀ R₀ sink scp rcp, g.resume restarted (j.transfer a).setup sm rm source =
        some (Session.start (j.transfer a).setup sm rm source sink S₀ R₀ scp rcp) ∧
      (j.transfer a).Starts sm rm source sink scp rcp ∧ j.Based P S₀ R₀ scp rcp := by
  obtain ⟨written, hwritten⟩ := hheld
  have hanew := begins_anew (P := P) (a := a) hwritten hm hsource g.senderStore g.receiverStore
  cases restarted with
  | false => exact ⟨_, _, _, _, _, rfl, hanew⟩
  | true =>
    cases hlast : g.receiverStore.last with
    | none =>
      refine ⟨_, _, _, .default, .default, ?_, hanew⟩
      simp only [Remains.resume, Remains.found, Remains.offered, hlast]
      rfl
    | some rcp =>
      obtain ⟨scp, hget, hsync, hstarts, hbased⟩ := begins_again (a := a) (h rfl) hlast hm hsource
      have hpos : rcp.sync ≠ 0 := ((h rfl).last rcp hlast).positive.ne'
      refine ⟨_, _, _, scp, rcp, ?_, hstarts, hbased⟩
      simp only [Remains.resume, Remains.found, Remains.offered, hlast, Option.getD_some,
        if_true, ne_eq, hpos, not_false_eq_true, and_self, hget, Option.map_some, hsync, if_false]
      rfl

section Knowledge

open Transfer SendData

variable {t : Transfer σ τ} {total : ℕ} {H : Prop} {S₀ R₀ : MemoryCheckpoints} {scp rcp l : Checkpoint}
    {c : Session σ τ}
  {written : List Bytes} {sink : τ}

lemma Based.points (hb : j.Based P S₀ R₀ scp rcp) (h : t.Logged total scp.sync H S₀ R₀ c written) :
    c.receiver.store.points = R₀.points ++ c.receiver.recorded := h.points hb.below

lemma Based.last_cases (hb : j.Based P S₀ R₀ scp rcp) (h : t.Logged total scp.sync H S₀ R₀ c written)
    (hlast : c.receiver.store.last = some l) :
    c.receiver.recorded = [] ∧ R₀.last = some l ∨ l ∈ c.receiver.recorded := by
  rw [MemoryCheckpoints.last, hb.points h] at hlast
  by_cases hnone : c.receiver.recorded = []
  · rw [hnone, List.append_nil] at hlast
    exact .inl ⟨hnone, hlast⟩
  · rw [List.getLast?_append_of_ne_nil _ hnone] at hlast
    exact .inr (List.mem_of_getLast? hlast)

lemma Based.acknowledged_last (hb : j.Based P S₀ R₀ scp rcp)
    (h : t.Logged total scp.sync H S₀ R₀ c written) (hlast : c.receiver.store.last = some l) :
    c.sender.store.acknowledged ≤ l.sync := by
  have hfirst : scp.sync ≤ l.sync := by
    rcases hb.last_cases h hlast with ⟨-, hl⟩ | hl
    · obtain ⟨-, hpos, hget⟩ := hb.last l hl
      exact (MemoryCheckpoints.get_mem hpos.ne' hget).2.le
    · exact (h.guarded.recorded_pos (List.mem_append_left _ hl)).le
  rcases h.acknowledged with hack | hack
  · rw [hack]
    exact hb.acknowledged.trans hfirst
  · obtain ⟨cp, hcp, hsync⟩ := List.mem_map.mp hack
    obtain ⟨l', hl', hle⟩ := h.last_of_recorded hcp
    obtain rfl := Option.some.inj (hl'.symm.trans hlast)
    exact hsync ▸ hle

lemma Based.knows (hb : j.Based P S₀ R₀ scp rcp) (h : t.Logged total scp.sync H S₀ R₀ c written)
    {cp : Checkpoint} (hcp : cp ∈ c.receiver.store.points) (hack : c.sender.store.acknowledged ≤ cp.sync)
    (htold : cp ∈ c.receiver.recorded → cp.sync ∈ c.sender.recorded.map Checkpoint.sync) :
    ∃ scp', c.sender.store.get cp.sync = some scp' := by
  by_cases hzero : cp.sync = 0
  · exact ⟨.default, by rw [hzero]; rfl⟩
  rw [h.stored _ hzero hack]
  rw [hb.points h] at hcp
  rcases List.mem_append.mp hcp with hcp | hcp
  · have hkept : S₀.acknowledged ≤ cp.sync := by
      rcases h.acknowledged with heq | hmem
      · exact heq ▸ hack
      · obtain ⟨r, hr, hsync⟩ := List.mem_map.mp hmem
        have hpos := h.guarded.recorded_pos (List.mem_append_left (records c.receiver.todo) hr)
        have hbelow := hb.below cp hcp
        omega
    obtain ⟨cp', hget⟩ := hb.stored cp hcp hkept
    rw [hget]
    cases MemoryCheckpoints.latest c.sender.recorded cp.sync with
    | none => exact ⟨cp', rfl⟩
    | some r => exact ⟨r, rfl⟩
  · obtain ⟨r, hr, hsync⟩ := List.mem_map.mp (htold hcp)
    obtain ⟨r', hlatest⟩ := MemoryCheckpoints.latest_some hr
    rw [← hsync, hlatest]
    exact ⟨r', rfl⟩

/-- Fewer points than can be numbered have different numbers. -/
lemma marks_syncs {base : ℕ} (h : t.Guarded total base H c written) (hbase : base < 2 ^ 24)
    (hfew : ∀ cp ∈ marks c, cp.sync < 2 ^ 24) :
    (marks c).map Checkpoint.sync = List.range' (base + 1) (marks c).length := by
  have hnumber (i : ℕ) (hi : i < (marks c).length) : ((marks c)[i]).sync = (base + 1 + i) % 2 ^ 32 := by
    have hget := congrArg (fun l : List ℕ => l[i]?) h.numbered.1
    simpa [hi] using hget
  have hlen : base + (marks c).length < 2 ^ 24 := by
    by_contra hge
    have hi : 2 ^ 24 - base - 1 < (marks c).length := by omega
    have hover := hnumber _ hi
    have hlt := hfew _ (List.getElem_mem hi)
    omega
  refine List.ext_getElem (by simp) ?_
  intro i hi hi'
  rw [List.length_map] at hi
  rw [List.getElem_map, List.getElem_range', hnumber i hi]
  omega

lemma Based.recorded_point (hb : j.Based P S₀ R₀ scp rcp) (hp : P a.sp)
    (h : (j.transfer a).Logged (scp.dataBytes + bytes (j.articles.drop scp.articles)) scp.sync
      H S₀ R₀ c written)
    (htold : Told c) (hlast : c.receiver.store.last = some l) (hl : l ∈ c.receiver.recorded) :
    j.Point P c.remains l := by
  have hack := hb.acknowledged_last h hlast
  have hpos := h.guarded.recorded_pos (List.mem_append_left (records c.receiver.todo) hl)
  have hoffered : l ∈ (c.outlook (j.transfer a).setup written).recorded := by
    refine (h.guarded.tame.settled_grows written).1.subset ?_
    rw [settled_recorded]
    exact List.mem_append_left _ hl
  obtain ⟨hcounts, hkept⟩ := h.guarded.within.kept l hoffered
  refine ⟨by omega, ?_, hcounts.1, hkept, ?_, ?_, hack, ?_⟩
  · have hmem : l.sync ∈ c.receiver.recorded.map Checkpoint.sync := List.mem_map_of_mem hl
    have hfew := h.guarded.recorded_few
    rw [h.guarded.performed_syncs, List.mem_range'_1] at hmem
    rw [List.length_append] at hfew
    omega
  · obtain ⟨after, hafter⟩ := h.written_prefix
    refine ⟨written.drop l.articles, ?_⟩
    have htake : j.articles.take l.articles = written.take l.articles := by
      rw [show j.articles = written ++ after from hafter.symm,
        List.take_append_of_le_length (h.earlier l hl)]
    rw [htake, List.take_append_drop]
    exact h.guarded.sink
  · -- what the sender has recorded under the number is what it has announced under it
    obtain ⟨r, hr, hsync⟩ := List.mem_map.mp (htold.recorded l hl)
    obtain ⟨scp', hlatest⟩ := MemoryCheckpoints.latest_some hr
    obtain ⟨hmem, hsync'⟩ := MemoryCheckpoints.latest_mem hlatest
    have hmark : scp' ∈ marks c := List.mem_append_left _ hmem
    obtain ⟨m, hm, hkey⟩ := h.announced hl
    have hnodup : ((marks c).map Checkpoint.sync).Nodup := by
      rw [marks_syncs h.guarded hb.few htold.few]
      exact List.nodup_range'
    obtain rfl : scp' = m :=
      List.inj_on_of_nodup_map hnodup hmark hm (hsync'.trans (hsync.trans (congrArg Prod.fst hkey).symm))
    refine ⟨scp', ?_, hkey, (h.guarded.sent scp' hmark).2⟩
    show c.sender.store.get l.sync = some scp'
    rw [h.stored l.sync (by omega) hack, ← hsync, hlatest]
    rfl
  · intro hplain
    rw [← hb.total hplain]
    exact hcounts.2 (hplain _ hp)

lemma Based.kept_point (hb : j.Based P S₀ R₀ scp rcp)
    (hm : (j.transfer a).Starts sm rm source sink scp rcp)
    (h : (j.transfer a).Logged (scp.dataBytes + bytes (j.articles.drop scp.articles)) scp.sync
      H S₀ R₀ c written)
    (hgrown : j.articles.take scp.articles <+: written) (htold : Told c)
    (hlast : c.receiver.store.last = some l) (hl : R₀.last = some l) : j.Point P c.remains l := by
  have hack := hb.acknowledged_last h hlast
  obtain ⟨rfl, hpos, hget⟩ := hb.last l hl
  obtain ⟨hsync, hbytes, harticles⟩ :
      scp.sync = l.sync ∧ scp.dataBytes = l.dataBytes ∧ scp.articles = l.articles := by
    simpa [Checkpoint.key] using hm.same
  refine ⟨hpos, hsync ▸ hb.few, harticles ▸ hm.within, hb.kept hl, ?_,
    ⟨scp, ?_, hm.same, hm.marks⟩, hack, ?_⟩
  · obtain ⟨after, hafter⟩ := hgrown
    refine ⟨after, ?_⟩
    rw [← harticles, hafter]
    exact h.guarded.sink
  · show c.sender.store.get l.sync = some scp
    rw [h.stored l.sync hpos.ne' hack, hget]
    cases hlatest : MemoryCheckpoints.latest c.sender.recorded l.sync with
    | none => rfl
    | some r =>
      obtain ⟨hmem, hr⟩ := MemoryCheckpoints.latest_mem hlatest
      have hmark : r.sync ∈ (marks c).map Checkpoint.sync :=
        List.mem_map_of_mem (List.mem_append_left _ hmem)
      rw [marks_syncs h.guarded hb.few htold.few, List.mem_range'_1] at hmark
      omega
  · intro hplain
    rw [← hbytes, ← harticles]
    exact hb.total hplain

lemma Based.resumable (hb : j.Based P S₀ R₀ scp rcp) (hp : P a.sp)
    (hm : (j.transfer a).Starts sm rm source sink scp rcp)
    (h : (j.transfer a).Logged (scp.dataBytes + bytes (j.articles.drop scp.articles)) scp.sync
      H S₀ R₀ c written)
    (hgrown : j.articles.take scp.articles <+: written) (htold : Told c) : j.Resumable P c.remains := by
  refine ⟨⟨written, h.guarded.sink⟩, ?_, ?_⟩
  · intro cp hcp hack
    exact hb.knows h hcp hack (htold.recorded cp)
  · intro l hlast
    rcases hb.last_cases h hlast with ⟨-, hl⟩ | hl
    · exact hb.kept_point hm h hgrown htold hlast hl
    · exact hb.recorded_point hp h htold hlast hl

end Knowledge

section Endings

open Transfer Reception SendData Session

/-- A sender that has been interrupted or has failed. -/
def SenderQuit : SendPhase σ → Prop
  | .looping _ => False
  | .interrupting _ | .failed _ => True
  | .ended _ res => res.ending ≠ .completed

def ReceiverQuit : RecvPhase → Prop
  | .receiving _ | .awaitingAckResyn _ => False
  | .interrupting _ | .failed _ => True
  | .ended _ res => res.ending ≠ .completed

lemma cancel_quit (p : DataParams) (s : SendState σ) : SenderQuit (SendPhase.ofRun (cancel p s)) := by
  simp only [cancel]
  rcases interrupt_effects p s.machine with ⟨e, he⟩ | ⟨m, hm⟩
  · rw [he]
    split <;> trivial
  · rw [hm]
    split <;> trivial

lemma receiver_cancel_quit (p : DataParams) (s : RecvState) :
    ReceiverQuit (RecvPhase.ofRun (ReceiveData.cancel p s)) := by
  simp only [ReceiveData.cancel]
  rcases interrupt_effects p s.machine with ⟨e, he⟩ | ⟨m, hm⟩
  · rw [he]
    trivial
  · rw [hm]
    trivial

lemma interruptRecv_cases (p : DataParams) (m : Machine) (f : Fpdu) :
    (∃ ws e, interruptRecv p m f = ⟨ws, .error e⟩) ∨ ∃ ws m' done,
    interruptRecv p m f = ⟨ws, .ok (m', done)⟩ := by
  generalize interruptRecv p m f = act
  obtain ⟨ws, r⟩ := act
  cases r with
  | error e => exact .inl ⟨ws, e, rfl⟩
  | ok y => exact .inr ⟨ws, y.1, y.2, rfl⟩

lemma interrupted_quit (p : DataParams) (s : SendState σ) (f : Fpdu) :
    SenderQuit (SendPhase.ofRun (interrupted p s f)) := by
  simp only [interrupted]
  rcases interruptRecv_cases p s.machine f with ⟨ws, e, he⟩ | ⟨ws, m, done, hm⟩
  · rw [he]
    trivial
  · rw [hm]
    cases done
    · trivial
    · intro hquit
      cases hquit

lemma receiver_interrupted_quit (p : DataParams) (s : RecvState) (f : Fpdu) :
    ReceiverQuit (RecvPhase.ofRun (ReceiveData.interrupted p s f)) := by
  simp only [ReceiveData.interrupted]
  rcases interruptRecv_cases p s.machine f with ⟨ws, e, he⟩ | ⟨ws, m, done, hm⟩
  · rw [he]
    trivial
  · rw [hm]
    cases done
    · trivial
    · intro hquit
      cases hquit

variable {u : Setup σ τ} {c d : Session σ τ}

lemma senderWaits_quit (h : SenderQuit c.sender.phase) (hstep : c.senderWaits u = some d) :
    SenderQuit d.sender.phase := by
  simp only [senderWaits] at hstep
  split at hstep
  · split at hstep
    · obtain ⟨act, hact, rfl⟩ := Option.map_eq_some_iff.mp hstep
      rename_i r link _ _ _
      cases hphase : c.sender.phase with
      | looping s =>
        rw [hphase] at h
        exact h.elim
      | interrupting s =>
        rw [hphase] at hact
        cases r with
        | ok f =>
          obtain rfl := Option.some.inj hact
          exact interrupted_quit u.sp s f
        | error e =>
          obtain rfl := Option.some.inj hact
          exact trivial
      | ended m res =>
        rw [hphase] at hact
        cases hact
      | failed e =>
        rw [hphase] at hact
        cases hact
    · cases hstep
  · cases hstep

lemma happens_senderQuit (h : SenderQuit c.sender.phase) (hstep : Session.Happens u c d) :
    SenderQuit d.sender.phase := by
  have hlooping : ∀ s, c.sender.phase ≠ .looping s := by
    intro s hs
    rw [hs] at h
    exact h
  rcases hstep with ⟨m, hm⟩ | hstep | hstep
  · cases m with
    | senderPerforms =>
      rcases senderPerforms_cases hm with ⟨e, todo, -, rfl⟩ | ⟨w, todo, -, -, rfl⟩
      · exact h
      · show SenderQuit (Sender.perform _ w).phase
        rw [(perform_fields _ w).1]
        exact h
    | senderPolls =>
      simp only [Session.step, senderPolls] at hm
      split at hm
      · exact absurd ‹_› (hlooping _)
      · exact absurd ‹_› (hlooping _)
      · exact absurd ‹_› (hlooping _)
      · cases hm
    | senderWaits => exact senderWaits_quit h hm
    | senderAdvances =>
      obtain ⟨s, -, hs, -⟩ := senderAdvances_cases hm
      exact absurd hs (hlooping s)
    | receiverPerforms =>
      obtain ⟨w, todo, -, -, -, -, hphase, -⟩ := receiverPerforms_cases [] hm
      rw [hphase]
      exact h
    | receiverTakes =>
      obtain ⟨r, link, act, -, -, -, rfl⟩ := receiverTakes_cases hm
      exact h
  · obtain ⟨s, -, hs, -⟩ := senderCancels_cases hstep
    exact absurd hs (hlooping s)
  · obtain ⟨s, -, -, rfl⟩ := receiverCancels_cases hstep
    exact h

lemma react_quit {p : DataParams} {store : MemoryCheckpoints} {pos : Position} {phase : RecvPhase}
    (h : ReceiverQuit phase) {r : Except SessionError Fpdu} {act : Run RecvPhase}
    (hact : ReceiveData.react p store pos phase r = some act) :
    ReceiverQuit (RecvPhase.ofRun act) := by
  cases phase with
  | receiving s => exact h.elim
  | awaitingAckResyn s => exact h.elim
  | interrupting s =>
    cases r with
    | ok f =>
      obtain rfl := Option.some.inj hact
      exact receiver_interrupted_quit p s f
    | error e =>
      obtain rfl := Option.some.inj hact
      exact trivial
  | ended m res => cases hact
  | failed e => cases hact

lemma happens_receiverQuit (h : ReceiverQuit c.receiver.phase) (hstep : Session.Happens u c d) :
    ReceiverQuit d.receiver.phase := by
  rcases hstep with ⟨m, hm⟩ | hstep | hstep
  · cases m with
    | senderPerforms =>
      rcases senderPerforms_cases hm with ⟨e, todo, -, rfl⟩ | ⟨w, todo, -, -, rfl⟩
      · exact h
      · exact h
    | senderPolls =>
      simp only [Session.step, senderPolls] at hm
      split at hm
      · obtain rfl := Option.some.inj hm
        exact h
      · obtain rfl := Option.some.inj hm
        exact h
      · obtain rfl := Option.some.inj hm
        exact h
      · cases hm
    | senderWaits =>
      simp only [Session.step, senderWaits] at hm
      split at hm
      · split at hm
        · obtain ⟨x, -, rfl⟩ := Option.map_eq_some_iff.mp hm
          exact h
        · cases hm
      · cases hm
    | senderAdvances =>
      obtain ⟨s, -, -, -, rfl⟩ := senderAdvances_cases hm
      exact h
    | receiverPerforms =>
      obtain ⟨w, todo, -, -, hphase, -⟩ := receiverPerforms_cases [] hm
      rw [hphase]
      exact h
    | receiverTakes =>
      obtain ⟨r, link, act, -, -, hact, rfl⟩ := receiverTakes_cases hm
      exact react_quit h hact
  · obtain ⟨s, -, -, rfl⟩ := senderCancels_cases hstep
    exact h
  · obtain ⟨s, -, hs, -⟩ := receiverCancels_cases hstep
    rw [hs] at h
    exact h.elim

/-- A run in which neither end has quit has not been interrupted. -/
lemma run_uninterrupted {t : Transfer σ τ} {total base : ℕ} {H : Prop} {written : List Bytes}
    (h : t.Inv total base H c written) (hrun : t.Run c d) :
    (∃ written', t.Inv total base H d written') ∨ SenderQuit d.sender.phase ∨
    ReceiverQuit d.receiver.phase := by
  induction hrun with
  | refl => exact .inl ⟨written, h⟩
  | @tail e d _ hstep ih =>
    rcases ih with ⟨w, hw⟩ | hquit | hquit
    · rcases hstep with hstep | hstep | hstep
      · exact .inl (hw.step hstep)
      · obtain ⟨s, -, -, rfl⟩ := senderCancels_cases hstep
        exact .inr (.inl (cancel_quit _ s))
      · obtain ⟨s, -, -, rfl⟩ := receiverCancels_cases hstep
        exact .inr (.inr (receiver_cancel_quit _ s))
    · exact .inr (.inl (happens_senderQuit hquit hstep))
    · exact .inr (.inr (happens_receiverQuit hquit hstep))

/-- A data phase that has come to its end at both ends, which have done what they had to. -/
structure Done (c : Session σ τ) (sres rres : DataResult) : Prop where
  idle : c.sender.todo = [] ∧ c.receiver.todo = []
  sender : ∃ m, c.sender.phase = .ended m sres
  receiver : ∃ m, c.receiver.phase = .ended m rres
  completed : sres.ending = .completed ∧ rres.ending = .completed

lemma Done.finished {t : Transfer σ τ} {total base : ℕ} {H : Prop} {written : List Bytes}
    {sres rres : DataResult} (hd : Done c sres rres) (h : t.Inv total base H c written) :
    sres = rres ∧ sres.articles = t.articles.length ∧
      (t.setup.sp.compression = .none → sres.dataBytes = total) ∧
      t.Holds c.receiver.sink t.articles := by
  obtain ⟨sm, hs⟩ := hd.sender
  obtain ⟨rm, hr⟩ := hd.receiver
  have hsettled :
      c.settled t.setup written = ⟨c.receiver.phase, c.receiver.store,
      c.receiver.recorded, c.receiver.sink, written, c.sender.link.incoming⟩ := by
    simp only [settled, hd.idle.2]
    rfl
  have hphase : (c.settled t.setup written).phase = .ended rm rres := by
    rw [hsettled]
    exact hr
  have hprogress := h.progress
  rw [hs, outlook, takeAll_ended hphase, flow_ended hphase, hsettled] at hprogress
  rcases hprogress with ⟨⟨e, hfailed⟩, -⟩ | ⟨hfin, -⟩
  · cases hr.symm.trans hfailed
  · obtain ⟨m, hended⟩ := hfin.ended
    obtain ⟨-, rfl⟩ := RecvPhase.ended.inj (hr.symm.trans hended)
    refine ⟨rfl, hfin.all, ?_, ?_⟩
    · intro hnone
      have hbytes := hfin.counts.2 hnone
      rw [hfin.all, List.drop_length] at hbytes
      exact hbytes
    · have hsink := hfin.sink
      rw [hfin.written] at hsink
      exact hsink

end Endings

section Chains

open Transfer

variable {Q : Session σ τ → Prop} {c : Session σ τ} {restarted : Bool}

/-- Every data phase of the transfer starts level. -/
lemma Goes.starts (hgo : j.Goes P restarted g a c) (hheld : ∃ written, j.Holds g.sink written)
    (h : restarted = true → j.Resumable P g) :
    ∃ sm rm source sink S₀ R₀ scp rcp, (j.transfer a).Starts sm rm source sink scp rcp ∧
    j.Based P S₀ R₀ scp rcp ∧
      (j.transfer a).Run (Session.start (j.transfer a).setup sm rm source sink S₀ R₀ scp rcp) c := by
  obtain ⟨-, sm, rm, source, c₀, hm, hsource, hresume, hrun⟩ := hgo
  obtain ⟨S₀, R₀, sink, scp, rcp, hstart, hstarts, hbased⟩ := resumes (a := a) hheld h hm hsource
  obtain rfl := Option.some.inj (hresume.symm.trans hstart)
  exact ⟨sm, rm, source, sink, S₀, R₀, scp, rcp, hstarts, hbased, hrun⟩

lemma Goes.resumable (hgo : j.Goes P restarted g a c) (hheld : ∃ written, j.Holds g.sink written)
    (h : restarted = true → j.Resumable P g) (htold : Told c) : j.Resumable P c.remains := by
  obtain ⟨sm, rm, source, sink, S₀, R₀, scp, rcp, hstarts, hbased, hrun⟩ := hgo.starts hheld h
  obtain ⟨written, hlogged, hgrown⟩ := (hstarts.logged hbased.few S₀ R₀).run hrun
  exact hbased.resumable hgo.1 hstarts hlogged hgrown htold

lemma Cut.resumable (h : j.Cut P Told g) : j.Resumable P g := by
  induction h with
  | first hsink hgo htold => exact hgo.resumable hsink nofun htold
  | again _ hgo htold ih => exact hgo.resumable ih.held (fun _ => ih) htold

lemma found_isSome (h : restarted = true → j.Resumable P g) : (g.found restarted).isSome = true := by
  rw [Remains.found]
  split
  · rename_i hcond
    obtain ⟨rfl, hpoint⟩ := hcond
    cases hlast : g.receiverStore.last with
    | none =>
      rw [Remains.offered, if_pos rfl, hlast] at hpoint
      exact absurd rfl hpoint
    | some rcp =>
      obtain ⟨scp, hget, -⟩ := ((h rfl).last rcp hlast).known
      rw [Remains.offered, if_pos rfl, hlast, Option.getD_some, hget]
      rfl
  · rfl

/-- The state a transfer is in before a data phase: it has not begun, or has been interrupted
a number of times. -/
def Pending (j : Job σ τ) (P : DataParams → Prop) (restarted : Bool) (g : Remains τ) : Prop :=
  restarted = false ∧ (∃ written, j.Holds g.sink written) ∨ restarted = true ∧ j.Cut P Told g

lemma Pending.ready (h : j.Pending P restarted g) :
    (∃ written, j.Holds g.sink written) ∧ (restarted = true → j.Resumable P g) := by
  rcases h with ⟨rfl, hheld⟩ | ⟨-, hcut⟩
  · exact ⟨hheld, nofun⟩
  · exact ⟨hcut.resumable.held, fun _ => hcut.resumable⟩

/-- However often the transfer has been interrupted, the sender finds the point that the receiver offers,
and a data phase that completes leaves the articles of the source in the sink, once each and in order,
and both ends have counted all of them. -/
theorem restarted_complete (j : Job σ τ) (restarted : Bool) (g : Remains τ)
    (h : j.Pending (fun p => p.compression = .none) restarted g) :
    (g.found restarted).isSome = true ∧
      ∀ (a : Accord) (c : Session σ τ) (sres rres : DataResult),
        j.Goes (fun p => p.compression = .none) restarted g a c → Done c sres rres →
          j.Holds c.receiver.sink j.articles ∧ sres.dataBytes = bytes j.articles ∧
          rres.dataBytes = bytes j.articles ∧
            sres.articles = j.articles.length ∧ rres.articles = j.articles.length := by
  obtain ⟨hheld, hresumable⟩ := h.ready
  refine ⟨found_isSome hresumable, ?_⟩
  intro a c sres rres hgo hdone
  obtain ⟨sm, rm, source, sink, S₀, R₀, scp, rcp, hstarts, hbased, hrun⟩ := hgo.starts hheld hresumable
  obtain ⟨⟨ms, hs⟩, ⟨mr, hr⟩⟩ := And.intro hdone.sender hdone.receiver
  rcases run_uninterrupted (hstarts.inv hbased.few S₀ R₀) hrun with ⟨written, hinv⟩ | hquit | hquit
  · obtain ⟨rfl, hall, hbytes, hsink⟩ := hdone.finished hinv
    have hcounted := (hbytes hgo.1).trans (hbased.total fun _ hp => hp)
    exact ⟨hsink, hcounted, hcounted, hall, hall⟩
  · rw [hs] at hquit
    exact absurd hdone.completed.1 hquit
  · rw [hr] at hquit
    exact absurd hdone.completed.2 hquit

end Chains

section Samples

open Transfer

def sample (articles : List Bytes) : Job VecSource VecSink where
  src := VecSource.ops
  ops := VecSink.ops
  articles := articles
  At := fun s k => s.articles = articles ∧ s.index = k
  Holds := fun t written => t.articles = written
  yields := VecSource.ops_yields articles
  keeps := VecSink.ops_keeps

def sampleAccord : Accord :=
  ⟨sampleParams .none false 2000 0, sampleParams .none false 2000 0, acknowledged_roomy,
  ⟨rfl, rfl, rfl, rfl⟩⟩

/-- A data phase of the sample that goes on from what is left of the one before. -/
def played (articles : List Bytes) (restarted : Bool) (ms : List Move) (g : Remains VecSink) :
    Option (Session VecSource VecSink) :=
  (g.resume restarted ((sample articles).transfer sampleAccord).setup ⟨.requester, .tde02A⟩
    ⟨.server, .tde02B⟩ (VecSource.new articles)).bind
    (Session.play ((sample articles).transfer sampleAccord).setup ms)

lemma played_goes {articles : List Bytes} {restarted : Bool} {ms : List Move} {g : Remains VecSink}
    {c : Session VecSource VecSink} (hp : P sampleAccord.sp)
    (h : played articles restarted ms g = some c) :
    (sample articles).Goes P restarted g sampleAccord c := by
  obtain ⟨c₀, hresume, hplay⟩ := Option.bind_eq_some_iff.mp h
  exact ⟨hp, _, _, _, c₀, .inl ⟨rfl, rfl⟩, ⟨0, rfl, rfl⟩, hresume,
    play_run ((sample articles).transfer sampleAccord) hplay⟩

/-- The numbers of the points that the ends have recorded. -/
def numbers (c : Session VecSource VecSink) : List ℕ × List ℕ × List ℕ :=
  (c.receiver.recorded.map Checkpoint.sync, c.sender.recorded.map Checkpoint.sync,
    (marks c).map Checkpoint.sync)

lemma told_of_numbers {c : Session VecSource VecSink} (h : numbers c = ([1], [1], [1])) : Told c := by
  obtain ⟨hr, hs, hm⟩ :
      c.receiver.recorded.map Checkpoint.sync = [1] ∧ c.sender.recorded.map Checkpoint.sync = [1] ∧
      (marks c).map Checkpoint.sync = [1] := by
    simpa [numbers] using h
  constructor
  · intro cp hcp
    rw [hs, ← hr]
    exact List.mem_map_of_mem hcp
  · intro cp hcp
    have hmem : cp.sync ∈ (marks c).map Checkpoint.sync := List.mem_map_of_mem hcp
    rw [hm, List.mem_singleton] at hmem
    omega

def results (c : Session VecSource VecSink) : Bool × Bool × Option DataResult × Option DataResult :=
  (c.sender.todo.isEmpty, c.receiver.todo.isEmpty,
    match c.sender.phase with
    | .ended _ res => some res
    | _ => none,
    match c.receiver.phase with
    | .ended _ res => some res
    | _ => none)

lemma done_of_results {c : Session VecSource VecSink} {sres rres : DataResult}
    (h : results c = (true, true, some sres, some rres)) (hs : sres.ending = .completed)
    (hr : rres.ending = .completed) :
    Done c sres rres := by
  simp only [results, Prod.mk.injEq, List.isEmpty_iff] at h
  obtain ⟨hstodo, hrtodo, hsender, hreceiver⟩ := h
  refine ⟨⟨hstodo, hrtodo⟩, ?_, ?_, hs, hr⟩
  · split at hsender
    · rename_i m res hphase
      exact ⟨m, Option.some.inj hsender ▸ hphase⟩
    · cases hsender
  · split at hreceiver
    · rename_i m res hphase
      exact ⟨m, Option.some.inj hreceiver ▸ hphase⟩
    · cases hreceiver

def untilPoint : List Move :=
  [.senderAdvances, .senderAdvances, .senderPerforms, .senderPerforms, .receiverTakes,
  .receiverPerforms, .receiverTakes, .receiverPerforms, .receiverPerforms]

def untilEnd : List Move :=
  [.senderAdvances, .senderAdvances, .senderPerforms, .receiverTakes, .receiverPerforms,
  .receiverTakes]

theorem restarted_complete_sample :
    ∃ c d : Session VecSource VecSink,
    played acknowledgedArticles false untilPoint ⟨.empty, .empty, .new⟩ = some c ∧
      played acknowledgedArticles true untilEnd c.remains = some d ∧
      (c.remains.found true).isSome = true ∧
      d.receiver.sink.articles = acknowledgedArticles := by
  have hfirst : (played acknowledgedArticles false untilPoint ⟨.empty, .empty, .new⟩).map numbers =
      some ([1], [1], [1]) := by decide +kernel
  have hsecond : ((played acknowledgedArticles false untilPoint ⟨.empty, .empty, .new⟩).bind fun c =>
      (played acknowledgedArticles true untilEnd c.remains).map results) =
      some (true, true, some ⟨.completed, 1100, 2, 1⟩,
      some ⟨.completed, 1100, 2, 1⟩) := by decide +kernel
  obtain ⟨c, hc, hnumbers⟩ := Option.map_eq_some_iff.mp hfirst
  rw [hc, Option.bind_some] at hsecond
  obtain ⟨d, hd, hresults⟩ := Option.map_eq_some_iff.mp hsecond
  have hcut : (sample acknowledgedArticles).Cut (fun p => p.compression = .none) Told c.remains := by
    refine .first ?_ (played_goes rfl hc) (told_of_numbers hnumbers)
    exact ⟨[], rfl⟩
  obtain ⟨hfound, hcomplete⟩ :=
    restarted_complete (sample acknowledgedArticles) true c.remains (.inr ⟨rfl, hcut⟩)
  exact ⟨c, d, hc, hd, hfound,
    (hcomplete sampleAccord d _ _ (played_goes rfl hd) (done_of_results hresults rfl rfl)).1⟩

end Samples

section Offers

open Transfer SendData

/-- A point that the receiver knows has been pruned by the sender, or the sender is about to record it,
or knows it; and the point that the receiver offers has not been pruned. -/
theorem offered_known (j : Job σ τ) (restarted : Bool) (g : Remains τ)
    (h : j.Pending (fun _ => True) restarted g) (a : Accord) (c : Session σ τ)
    (hgo : j.Goes (fun _ => True) restarted g a c) :
    (∀ cp ∈ c.receiver.store.points, c.sender.store.acknowledged ≤ cp.sync →
      (∀ r ∈ records c.sender.todo, r.sync ≠ cp.sync) → ∃ scp, c.sender.store.get cp.sync = some scp) ∧
    ((∀ r ∈ records c.sender.todo, r.sync ≠ (c.remains.offered true).sync) →
      (c.remains.found true).isSome = true) := by
  obtain ⟨hheld, hresumable⟩ := h.ready
  obtain ⟨sm, rm, source, sink, S₀, R₀, scp, rcp, hstarts, hbased, hrun⟩ := hgo.starts hheld hresumable
  obtain ⟨written, hlogged, -⟩ := (hstarts.logged hbased.few S₀ R₀).run hrun
  have hknown : ∀ cp ∈ c.receiver.store.points, c.sender.store.acknowledged ≤ cp.sync →
      (∀ r ∈ records c.sender.todo, r.sync ≠ cp.sync) →
      ∃ scp, c.sender.store.get cp.sync = some scp := by
    intro cp hcp hack hpending
    refine hbased.knows hlogged hcp hack ?_
    intro hrecorded
    obtain ⟨r, hr, hkey⟩ := hlogged.announced hrecorded
    have hsync : r.sync = cp.sync := congrArg Prod.fst hkey
    rcases List.mem_append.mp hr with hr | hr
    · exact hsync ▸ List.mem_map_of_mem hr
    · exact absurd hsync (hpending r hr)
  refine ⟨hknown, ?_⟩
  intro hpending
  rw [Remains.found]
  split
  · cases hlast : c.receiver.store.last with
    | none =>
      rename_i hcond
      rw [Remains.offered, if_pos rfl, show c.remains.receiverStore.last = none from hlast] at hcond
      exact absurd rfl hcond.2
    | some l =>
      have hoffered : c.remains.offered true = l := by
        rw [Remains.offered, if_pos rfl, show c.remains.receiverStore.last = some l from hlast]
        rfl
      rw [hoffered] at hpending ⊢
      obtain ⟨scp', hget⟩ :=
        hknown l (List.mem_of_getLast? hlast) (hbased.acknowledged_last hlogged hlast) hpending
      rw [show c.remains.senderStore.get l.sync = some scp' from hget]
      rfl
  · rfl

theorem offered_known_sample : ∃ c : Session VecSource VecSink,
    played acknowledgedArticles false untilPoint ⟨.empty, .empty, .new⟩ = some c ∧
      (∀ cp ∈ c.receiver.store.points, c.sender.store.acknowledged ≤ cp.sync →
        (∀ r ∈ records c.sender.todo, r.sync ≠ cp.sync) → ∃ scp, c.sender.store.get cp.sync = some scp) ∧
      (c.remains.found true).isSome = true := by
  have hplay : (played acknowledgedArticles false untilPoint ⟨.empty, .empty, .new⟩).map
      (fun c => records c.sender.todo) = some [] := by decide +kernel
  obtain ⟨c, hc, hnone⟩ := Option.map_eq_some_iff.mp hplay
  have hpending : (sample acknowledgedArticles).Pending (fun _ => True) false ⟨.empty, .empty, .new⟩ :=
    .inl ⟨rfl, [], rfl⟩
  obtain ⟨hknown, hfound⟩ := offered_known (sample acknowledgedArticles) false _ hpending sampleAccord c
    (played_goes trivial hc)
  refine ⟨c, hc, hknown, hfound ?_⟩
  rw [hnone]
  exact fun r hr => absurd hr List.not_mem_nil

/-- Three articles that need a point each; both points are acknowledged. -/
def untilPruned : List Move :=
  untilPoint ++ [.senderPolls, .senderPerforms, .senderAdvances, .senderPerforms,
  .senderPerforms, .receiverTakes, .receiverPerforms, .receiverTakes, .receiverPerforms,
  .receiverPerforms, .senderPolls, .senderPerforms]

theorem pruned_unknown : ∃ c : Session VecSource VecSink,
    played (List.replicate 3 (List.replicate 1000 7)) false untilPruned ⟨.empty, .empty, .new⟩ = some c ∧
      c.sender.todo = [] ∧ ¬ ∀ cp ∈ c.receiver.store.points, cp.sync = 0 ∨ ∃ scp,
      c.sender.store.get cp.sync = some scp := by
  have hplay :
      (played (List.replicate 3 (List.replicate 1000 7)) false untilPruned ⟨.empty, .empty, .new⟩).map
      (fun c => (c.sender.todo, c.receiver.store.points.map Checkpoint.sync, c.sender.store.get 1)) =
      some ([], [1, 2], none) := by decide +kernel
  obtain ⟨c, hc, hfacts⟩ := Option.map_eq_some_iff.mp hplay
  simp only [Prod.mk.injEq] at hfacts
  obtain ⟨htodo, hpoints, hnone⟩ := hfacts
  refine ⟨c, hc, htodo, ?_⟩
  intro h
  have hmem : 1 ∈ c.receiver.store.points.map Checkpoint.sync := hpoints ▸ List.mem_cons_self
  obtain ⟨cp, hcp, hsync⟩ := List.mem_map.mp hmem
  rcases h cp hcp with hzero | ⟨scp, hget⟩
  · omega
  · rw [hsync, hnone] at hget
    cases hget

end Offers

end Job

end PesitWizard.Io
