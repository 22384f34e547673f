import PesitWizard.Io.Outgoing
import PesitWizard.Library.Moves

/-! The acknowledgement window: how many of the SYN that a sender has sent its peer has not answered. -/

namespace PesitWizard.Io

open PesitWizard.Core Library SendData

/-- The numbers of the SYN sent and of the ACK(SYN) received since the start or the last restart. -/
structure Since where
  syns : List ℕ
  acks : List ℕ

namespace Since

def start : Since := ⟨[], []⟩

def see (w : Since) : Notice → Since
  | .sent f =>
    match f.kind with
    | .syn => { w with syns := w.syns ++ [f.syncNumber.getD 0] }
    | .ackResyn => start
    | _ => w
  | .received f =>
    match f.kind with
    | .ackSyn => { w with acks := w.acks ++ [f.syncNumber.getD 0] }
    | _ => w

/-- The numbers that exceed every number acknowledged. -/
def unanswered (w : Since) : List ℕ := w.syns.filter fun n => w.acks.all (· < n)

def seen (crc : Bool) (ts : List Traffic) : Since := (notices crc ts).foldl see start

variable {w : Since} {f : Fpdu}

def Silent (f : Fpdu) : Prop := f.kind ≠ .syn ∧ f.kind ≠ .ackResyn

lemma silent_packed (h : Packed f) : Silent f := by
  constructor
  · intro hk
    have hdata := h.1
    rw [hk] at hdata
    cases hdata
  · intro hk
    have hdata := h.1
    rw [hk] at hdata
    cases hdata

lemma see_silent (h : Silent f) : w.see (.sent f) = w := by
  simp only [see]
  split
  · exact absurd ‹_› h.1
  · exact absurd ‹_› h.2
  · rfl

lemma see_syn (w : Since) (d : UInt8) {n : ℕ} (hn : n < 2 ^ 32) :
    w.see (.sent (Builder.syn d n)) = { w with syns := w.syns ++ [n] } := by
  have hnum := Builder.syn_syncNumber d hn
  simp only [see, show (Builder.syn d n).kind = .syn from rfl, hnum, Option.getD_some]

lemma see_other (h : f.kind ≠ .ackSyn) : w.see (.received f) = w := by
  simp only [see]

lemma unanswered_syn (w : Since) (n : ℕ) :
    List.Sublist (unanswered { w with syns := w.syns ++ [n] }) (w.unanswered ++ [n]) := by
  simp only [unanswered, List.filter_append]
  exact (List.Sublist.refl _).append List.filter_sublist

lemma unanswered_ackSyn (w : Since) (h : f.kind = .ackSyn) :
    (w.see (.received f)).unanswered = w.unanswered.filter (f.syncNumber.getD 0 < ·) := by
  simp only [see, h, unanswered, List.filter_filter, List.all_append, List.all_cons,
    List.all_nil, Bool.and_true]
  congr 1
  funext n
  exact Bool.and_comm _ _

/-- Whatever the order of a queue, what an answer leaves of it has all the numbers above the answer. -/
lemma filter_sublist_dropWhile (n : ℕ) (ns : List ℕ) :
    List.Sublist (ns.filter (n < ·)) (ns.dropWhile (· ≤ n)) := by
  induction ns with
  | nil => exact List.Sublist.refl _
  | cons m ns ih =>
    by_cases hm : m ≤ n
    · rw [List.filter_cons_of_neg (by simpa using hm), List.dropWhile_cons_of_pos (by simpa using hm)]
      exact ih
    · rw [List.dropWhile_cons_of_neg (by simpa using hm)]
      exact List.filter_sublist

def Within (W : ℕ) (ns : List Notice) : Prop :=
  Each see (fun w n => (w.see n).unanswered.length ≤ W) start ns

lemma Within.upTo {W : ℕ} {ns ts : List Notice} (h : Within W ns) (hts : ts <+: ns) :
    (ts.foldl see start).unanswered.length ≤ W := by
  have h' : Each see (fun w n => (see w n).unanswered.length ≤ W) start ns := h
  exact each_foldl (A := fun w : Since => w.unanswered.length ≤ W) h' (Nat.zero_le W) hts

lemma Within.last {W : ℕ} {ns : List Notice} (h : Within W ns) :
    (ns.foldl see start).unanswered.length ≤ W :=
  h.upTo (List.prefix_refl ns)

lemma Within.snoc {W : ℕ} {ns : List Notice} (h : Within W ns) {n : Notice}
    (hn : ((ns.foldl see start).see n).unanswered.length ≤ W) : Within W (ns ++ [n]) :=
  each_append.mpr ⟨h, hn, trivial⟩

lemma Within.silent {W : ℕ} {ns : List Notice} (h : Within W ns) {fs : List Fpdu}
    (hfs : ∀ f ∈ fs, Silent f) :
    Within W (ns ++ fs.map Notice.sent) ∧ (ns ++ fs.map Notice.sent).foldl see start =
    ns.foldl see start := by
  induction fs generalizing ns with
  | nil => simpa using h
  | cons f fs ih =>
    rw [List.forall_mem_cons] at hfs
    have hsee : (ns ++ [Notice.sent f]).foldl see start = ns.foldl see start := by
      rw [List.foldl_append]
      exact see_silent hfs.1
    have hfirst : Within W (ns ++ [Notice.sent f]) := by
      apply h.snoc
      rw [see_silent hfs.1]
      exact h.last
    obtain ⟨hall, hlast⟩ := ih hfirst hfs.2
    rw [List.append_assoc] at hall hlast
    exact ⟨hall, hlast.trans hsee⟩

/-- A SYN among data FPDUs, of which the first may have been sent and the rest not. -/
lemma Within.syn {W : ℕ} {ns : List Notice} (h : Within W ns)
    (hroom : (ns.foldl see start).unanswered.length < W) {as cs zs : List Fpdu}
    (has : ∀ f ∈ as, Silent f) (hcs : ∀ f ∈ cs, Silent f) {d : UInt8} {n : ℕ} (hn : n < 2 ^ 32)
    (hzs : zs <+: as ++ Builder.syn d n :: cs) :
    Within W (ns ++ zs.map Notice.sent) ∧
      List.Sublist ((ns ++ zs.map Notice.sent).foldl see start).unanswered
      ((ns.foldl see start).unanswered ++ [n]) := by
  have hsilent : ∀ {ys : List Fpdu}, ys <+: as → Within W (ns ++ ys.map Notice.sent) ∧
      (ns ++ ys.map Notice.sent).foldl see start = ns.foldl see start :=
    fun hys => h.silent fun f hf => has f (hys.subset hf)
  rcases List.prefix_or_prefix_of_prefix hzs (List.prefix_append as _) with hshort | ⟨ys, rfl⟩
  · obtain ⟨hall, hlast⟩ := hsilent hshort
    rw [hlast]
    exact ⟨hall, List.sublist_append_left _ _⟩
  · obtain ⟨hall, hlast⟩ := hsilent (List.prefix_refl as)
    rw [List.prefix_append_right_inj, List.prefix_cons_iff] at hzs
    rw [List.map_append, ← List.append_assoc]
    rcases hzs with rfl | ⟨ys, rfl, hys⟩
    · rw [List.map_nil, List.append_nil, hlast]
      exact ⟨hall, List.sublist_append_left _ _⟩
    · have hsee := see_syn ((ns ++ as.map Notice.sent).foldl see start) d hn
      have hsub := unanswered_syn ((ns ++ as.map Notice.sent).foldl see start) n
      rw [← hsee, hlast] at hsub
      have hsyn : Within W (ns ++ as.map Notice.sent ++ [Notice.sent (Builder.syn d n)]) := by
        apply hall.snoc
        rw [hlast]
        have hlen := hsub.length_le
        rw [List.length_append, List.length_singleton] at hlen
        omega
      obtain ⟨hrest, hsame⟩ := hsyn.silent fun f hf => hcs f (hys.subset hf)
      rw [List.append_assoc, List.singleton_append] at hrest hsame
      refine ⟨hrest, ?_⟩
      rw [List.map_cons, hsame, List.foldl_append, hlast]
      exact hsub

end Since

namespace Sending

open Since

variable {σ : Type} {src : ArticleSource σ} {p : DataParams} {x : Sending σ} {o : Occasion}

structure Windowed (p : DataParams) (x : Sending σ) : Prop where
  within : Within p.window (notices p.crc x.traffic)
  looping : ∀ s, x.phase = .looping s → ∃ bs, Stocked p s.entity bs ∧ (∀ f ∈ bs, Packed f) ∧
    List.Sublist (seen p.crc x.traffic).unanswered s.unacked ∧ s.unacked.length ≤ p.window

lemma hear_within (h : Within p.window (notices p.crc x.traffic)) (f : Fpdu) :
    Within p.window (notices p.crc (x.hear (.ok f)).traffic) := by
  have hlast := h.last
  rw [hear, notices_append]
  apply h.snoc
  by_cases hack : f.kind = .ackSyn
  · rw [unanswered_ackSyn _ hack]
    exact (List.length_filter_le _ _).trans hlast
  · rw [see_other hack]
    exact hlast

lemma seen_hear (x : Sending σ) (f : Fpdu) :
    seen p.crc (x.hear (.ok f)).traffic = (seen p.crc x.traffic).see (.received f) := by
  rw [seen, hear, notices_append, List.foldl_append]
  rfl

lemma follow_silent (h : Within p.window (notices p.crc x.traffic)) {act : Run (SendPhase σ)}
    (hs : ∀ f ∈ handed p.crc act.effects, Silent f) :
    Within p.window (notices p.crc (x.follow act).traffic) ∧
      seen p.crc (x.follow act).traffic = seen p.crc x.traffic := by
  rw [seen, follow_notices]
  exact h.silent hs

lemma handed_silent {act : Run (SendPhase σ)} {bs fs : List Fpdu} {Q : SendPhase σ → List Fpdu → Prop}
    (h : Puts p act bs fs Q) (hbs : ∀ f ∈ bs, Silent f) (hfs : ∀ f ∈ fs, Silent f) :
    ∀ f ∈ handed p.crc act.effects, Silent f := by
  intro f hf
  rcases List.mem_append.mp (h.handed.subset hf) with hm | hm
  · exact hbs f hm
  · exact hfs f hm

/-- Nothing but silent FPDUs is sent, and the loop is left. -/
lemma windowed_leave (h : Within p.window (notices p.crc x.traffic)) {act : Run (SendPhase σ)}
    {bs fs : List Fpdu} {Q : SendPhase σ → List Fpdu → Prop} (hputs : Puts p act bs fs Q)
    (hbs : ∀ f ∈ bs, Silent f) (hfs : ∀ f ∈ fs, Silent f)
    (hq : ∀ phase bs', Q phase bs' → ∀ s, phase ≠ .looping s) :
    Windowed p (x.follow act) := by
  refine ⟨(follow_silent h (handed_silent hputs hbs hfs)).1, ?_⟩
  intro s hs
  rcases x.follow_puts hputs with ⟨e, _, he, -, -⟩ | ⟨_, bs', hphase, -, -⟩
  · rw [he] at hs
    cases hs
  · exact absurd hs (hq _ bs' hphase s)

lemma windowed_failed (h : Within p.window (notices p.crc x.traffic)) (e : SessionError) :
    Windowed p (x.follow (Act.lift (.error e))) := by
  have hputs : Puts p (Act.lift (.error e)) [] [] fun (_ : SendPhase σ) _ => False := puts_lift (by simp)
  exact windowed_leave h hputs (by simp) (by simp) (by simp)

section Loop

variable {s : SendState σ} {bs : List Fpdu}

lemma windowed_turn (hphase : x.phase = .looping s) (h : Windowed p x) (hw : 0 < p.window)
    (hfull : windowFull p s = false) : Windowed p (x.follow (advance src p s)) := by
  obtain ⟨bs, hstock, hpacked, hsub, hlen⟩ := h.looping s hphase
  have hsilent : ∀ f ∈ bs, Silent f := fun f hf => silent_packed (hpacked f hf)
  cases hnext : src.nextArticle s.source with
  | none =>
    rw [advance_end hnext]
    refine windowed_leave h.within (endData_puts hstock) hsilent ?_ ?_
    · intro f hf
      rcases List.mem_append.mp hf with hf | hf
      · exact silent_packed (flush_packed _ f hf)
      · obtain rfl := List.mem_singleton.mp hf
        exact ⟨nofun, nofun⟩
    · rintro phase bs' ⟨-, m, rfl⟩ s'
      simp
  | some y =>
    obtain ⟨article, rest⟩ := y
    have hputs := advance_puts (p := p) hstock hnext
    have hroom : s.unacked.length < p.window := by
      simpa [windowFull, hw] using hfull
    have hpush :=
      push_packed (turnPacker p s article) (onWire p s.compressor s.bytesSinceSync article).2.1
    -- one SYN at most, and it joins the queue
    have hseen : Within p.window (notices p.crc (x.follow (advance src p s)).traffic) ∧
        List.Sublist (seen p.crc (x.follow (advance src p s)).traffic).unanswered
          (if (onWire p s.compressor s.bytesSinceSync article).1 then s.unacked ++ [nextSync s]
          else s.unacked) := by
      cases hsync : (onWire p s.compressor s.bytesSinceSync article).1 with
      | false =>
        have hfs : ∀ f ∈ turnFpdus p s article, Silent f := by
          simp only [turnFpdus, hsync, Bool.false_eq_true, if_false, List.nil_append]
          exact fun f hf => silent_packed (hpush f hf)
        obtain ⟨hall, hlast⟩ := follow_silent h.within (handed_silent hputs hsilent hfs)
        rw [hlast]
        exact ⟨hall, hsub⟩
      | true =>
        have hzs := hputs.handed
        simp only [turnFpdus, hsync, if_true, syncFpdus, List.append_assoc, List.singleton_append] at hzs
        rw [← List.append_assoc] at hzs
        have hn : nextSync s < 2 ^ 32 := Nat.mod_lt _ (by decide)
        have hbefore : (seen p.crc x.traffic).unanswered.length < p.window :=
          hsub.length_le.trans_lt hroom
        obtain ⟨hall, hlast⟩ := h.within.syn hbefore (by
            intro f hf
            rcases List.mem_append.mp hf with hf | hf
            · exact hsilent f hf
            · exact silent_packed (flush_packed _ f hf)) (fun f hf => silent_packed (hpush f hf)) hn hzs
        rw [seen, follow_notices]
        exact ⟨hall, hlast.trans (hsub.append (List.Sublist.refl _))⟩
    refine ⟨hseen.1, ?_⟩
    intro s' hs'
    rcases x.follow_puts hputs with ⟨e, _, he, -, -⟩ | ⟨_, bs',
      ⟨t, ht, hstock', hturned, -, htail⟩, -, -⟩
    · rw [he] at hs'
      cases hs'
    · obtain rfl := SendPhase.looping.inj (ht.symm.trans hs')
      refine ⟨bs', hstock', ?_, ?_, ?_⟩
      · intro f hf
        rcases List.mem_append.mp (htail.subset hf) with hf | hf
        · split at hf
          · cases hf
          · exact hpacked f hf
        · exact hpush f hf
      · rw [hturned.unacked]
        simpa [hw] using hseen.2
      · rw [hturned.unacked]
        split
        · rw [List.length_append, List.length_singleton]
          omega
        · omega

lemma windowed_async (hphase : x.phase = .looping s) (h : Windowed p x) (f : Fpdu) :
    Windowed p ((x.hear (.ok f)).follow (handleAsync src p x.store s f)) := by
  obtain ⟨bs, hstock, hpacked, hsub, hlen⟩ := h.looping s hphase
  have hwithin := hear_within h.within f
  have hseen := seen_hear (p := p) x f
  by_cases hresyn : f.kind = .resyn
  · have hputs : Puts p (handleAsync src p x.store s f) [] _ _ := resyn_puts hresyn
    have hone : ∀ zs, zs <+: [Builder.ackResyn p.peerId (resumed x.store f).sync] →
        handed p.crc (handleAsync src p x.store s f).effects = zs →
        Within p.window
        (notices p.crc ((x.hear (.ok f)).follow (handleAsync src p x.store s f)).traffic) ∧
          (zs ≠ [] → (seen p.crc
          ((x.hear (.ok f)).follow (handleAsync src p x.store s f)).traffic).unanswered = []) := by
      intro zs hzs heq
      rw [seen, follow_notices, heq]
      rcases List.prefix_cons_iff.mp hzs with rfl | ⟨zs, rfl, hnil⟩
      · exact ⟨by simpa using hwithin, fun hne => absurd rfl hne⟩
      · obtain rfl := List.prefix_nil.mp hnil
        refine ⟨hwithin.snoc (Nat.zero_le _), fun _ => ?_⟩
        rw [List.foldl_append]
        rfl
    rcases (x.hear (.ok f)).follow_puts hputs with ⟨e, zs, he, hzs, heq⟩ | ⟨zs, _,
      ⟨rfl, m, hm⟩, hzs, heq⟩
    · refine ⟨(hone zs hzs heq).1, ?_⟩
      intro s' hs'
      rw [he] at hs'
      cases hs'
    · rw [List.append_nil, List.nil_append] at hzs
      obtain ⟨hall, hnone⟩ := hone zs (hzs ▸ List.prefix_refl _) heq
      refine ⟨hall, ?_⟩
      intro s' hs'
      obtain rfl := SendPhase.looping.inj (hm.symm.trans hs')
      refine ⟨[], hstock.take, by simp, ?_, Nat.zero_le _⟩
      rw [hnone (by simp [hzs])]
      exact List.Sublist.refl _
  by_cases hidt : f.kind = .idt
  · refine windowed_leave hwithin (idt_puts hidt) (by simp) ?_ ?_
    · intro g hg
      obtain rfl := List.mem_singleton.mp hg
      exact ⟨nofun, nofun⟩
    · rintro phase bs' ⟨-, m, res, rfl⟩ s'
      simp
  by_cases hack : f.kind = .ackSyn
  · have hputs : Puts p (handleAsync src p x.store s f) [] [] _ := ackSyn_puts hack
    obtain ⟨hall, hlast⟩ := follow_silent hwithin (handed_silent hputs (by simp) (by simp))
    refine ⟨hall, ?_⟩
    intro s' hs'
    rcases (x.hear (.ok f)).follow_puts hputs with ⟨e, _, he, -, -⟩ | ⟨_, _, ⟨-, m, hm⟩, -, -⟩
    · rw [he] at hs'
      cases hs'
    · obtain rfl := SendPhase.looping.inj (hm.symm.trans hs')
      refine ⟨bs, hstock, hpacked, ?_, ?_⟩
      · rw [hlast, hseen, unanswered_ackSyn _ hack]
        exact (hsub.filter _).trans (filter_sublist_dropWhile _ _)
      · exact ((List.dropWhile_sublist _).length_le).trans hlen
  · have hputs : Puts p (handleAsync src p x.store s f) [] [] _ := other_puts hresyn hidt hack
    obtain ⟨hall, hlast⟩ := follow_silent hwithin (handed_silent hputs (by simp) (by simp))
    refine ⟨hall, ?_⟩
    intro s' hs'
    rcases (x.hear (.ok f)).follow_puts hputs with ⟨e, _, he, -, -⟩ | ⟨_, _, ⟨-, m, hm⟩, -, -⟩
    · rw [he] at hs'
      cases hs'
    · obtain rfl := SendPhase.looping.inj (hm.symm.trans hs')
      refine ⟨bs, hstock, hpacked, ?_, hlen⟩
      rw [hlast, hseen, see_other hack]
      exact hsub

end Loop

lemma windowed_take (hw : 0 < p.window) (h : Windowed p x) (o : Occasion) :
    Windowed p (x.take src p o) := by
  apply take_rule h
  · intro s hphase _ hfull
    exact windowed_turn hphase h hw hfull
  · intro s f hphase _
    exact windowed_async hphase h f
  · intro s hphase _
    obtain ⟨bs, hstock, hpacked, -, -⟩ := h.looping s hphase
    refine windowed_leave h.within (cancel_puts hstock) (fun f hf => silent_packed (hpacked f hf)) ?_ ?_
    · intro f hf
      obtain rfl := List.mem_singleton.mp hf
      exact ⟨nofun, nofun⟩
    · rintro phase bs' ⟨-, m, rfl⟩ s'
      simp
  · intro s f _ _
    refine windowed_leave (hear_within h.within f) (interrupted_puts f) (by simp) ?_ ?_
    · intro g hg
      split at hg
      · obtain rfl := List.mem_singleton.mp hg
        exact ⟨nofun, nofun⟩
      · cases hg
    · rintro phase bs' ⟨-, ⟨m, res, rfl⟩ | ⟨m, rfl⟩⟩ s'
      · simp
      · simp
  · exact windowed_failed h.within

lemma windowed_run (src : ArticleSource σ) (p : DataParams) (hw : 0 < p.window)
    (m : Machine) (source : σ) (store : MemoryCheckpoints) (cp : Checkpoint) (os : List Occasion) :
    Windowed p (run src p m source store cp os) := by
  apply run_rule
  · refine ⟨trivial, ?_⟩
    intro s hs
    obtain rfl := SendPhase.looping.inj hs
    exact ⟨[], .new p, by simp, List.Sublist.refl _, Nat.zero_le _⟩
  · intro x o h
    exact windowed_take hw h o

/-- Whatever arrives and whatever the source yields, at every point of what passes the link the window
bounds the SYN sent since the last (re)start that exceed all numbers acknowledged since then. -/
theorem unanswered_le_window (src : ArticleSource σ) (p : DataParams) (hw : 0 < p.window)
    (m : Machine) (source : σ) (store : MemoryCheckpoints) (cp : Checkpoint) (os : List Occasion)
    (ts : List Notice) (hts : ts <+: notices p.crc (run src p m source store cp os).traffic) :
    (ts.foldl see Since.start).unanswered.length ≤ p.window := by
  have hrun := windowed_run src p hw m source store cp os
  exact hrun.within.upTo hts

theorem unanswered_le_window_one :
    ((notices false (kilobyteRun threeTurns).traffic).foldl Since.see Since.start).unanswered = [1] ∧
    ((notices false (kilobyteRun threeTurns).traffic).foldl Since.see Since.start).unanswered.length ≤
    1 :=
  ⟨by decide +kernel,
    unanswered_le_window VecSource.ops kilobyteParams (by decide) _ _ _ _ _ _ (List.prefix_refl _)⟩

end Sending

end PesitWizard.Io
