import PesitWizard.Io.Guard

/-! The checkpoints of the two ends during a data phase: which points are recorded, answered and
acknowledged when, and what the stores still know of them. -/

namespace PesitWizard.Io

open PesitWizard.Core Library

namespace Reception

open SendData

variable {τ : Type} {ops : ArticleSink τ}

def writes (ws : List Effect) : List Bytes :=
  ws.filterMap fun
    | .write a => some a
    | _ => none

lemma writes_length {ws : List Effect} (h : ∀ w ∈ ws, ∃ a, w = .write a) :
    (writes ws).length = ws.length := by
  induction ws with
  | nil => rfl
  | cons w ws ih =>
    rw [List.forall_mem_cons] at h
    obtain ⟨a, rfl⟩ := h.1
    have := ih h.2
    simp only [writes, List.filterMap_cons, List.length_cons] at this ⊢
    omega

lemma records_writes {ws : List Effect} (h : ∀ w ∈ ws, ∃ a, w = .write a) : records ws = [] := by
  rw [records, List.filterMap_eq_nil_iff]
  intro w hw
  obtain ⟨a, rfl⟩ := h w hw
  rfl

lemma performAll_recorded (x : Reception τ) (ws : List Effect) :
    (x.performAll ops ws).recorded = x.recorded ++ records ws := by
  induction ws generalizing x with
  | nil => simp [performAll, records]
  | cons w ws ih =>
    have hcons : x.performAll ops (w :: ws) = (x.perform ops w).performAll ops ws := rfl
    rw [hcons, ih]
    cases w <;> simp [perform, records]

lemma performAll_written (x : Reception τ) {ws : List Effect} (h : ∀ pos, Effect.truncate pos ∉ ws) :
    (x.performAll ops ws).written = x.written ++ writes ws := by
  induction ws generalizing x with
  | nil => simp [performAll, writes]
  | cons w ws ih =>
    have hcons : x.performAll ops (w :: ws) = (x.perform ops w).performAll ops ws := rfl
    rw [hcons, ih (x.perform ops w) (fun pos hmem => h pos (List.mem_cons_of_mem _ hmem))]
    cases w with
    | truncate pos => exact absurd List.mem_cons_self (h pos)
    | _ => simp [perform, writes]

end Reception

namespace Session

open Reception SendData

variable {σ τ : Type} {u : Setup σ τ}

/-- Every answer to a point comes after the point has been recorded; `ns` are the
numbers recorded so far. -/
def Tidy (p : DataParams) : List ℕ → List Effect → Prop
  | _, [] => True
  | ns, .record cp :: ws => Tidy p (ns ++ [cp.sync]) ws
  | ns, .send e :: ws => (∀ n, n < 2 ^ 24 → e = ackEntity p n → n ∈ ns) ∧ Tidy p ns ws
  | ns, _ :: ws => Tidy p ns ws

lemma tidy_writes (p : DataParams) (ns : List ℕ) {ws : List Effect} (h : ∀ w ∈ ws, ∃ a, w = .write a) :
    Tidy p ns ws := by
  induction ws with
  | nil => trivial
  | cons w ws ih =>
    rw [List.forall_mem_cons] at h
    obtain ⟨a, rfl⟩ := h.1
    exact ih h.2

lemma answer_not_ack {p : DataParams} {f : Fpdu} (hf : Frame.Sound f)
    (hkind : f.kind ≠ .ackSyn) (ns : List ℕ) :
    ∀ n, n < 2 ^ 24 → Frame.image p.crc f = ackEntity p n → n ∈ ns := by
  intro n hn h
  have := image_injective hf (Builder.ackSyn_sound _ hn) h
  rw [this] at hkind
  exact absurd rfl hkind

lemma Reaction.tidy {p : DataParams} {pos : Position} {phase next : RecvPhase} {ws : List Effect}
    (h : Reaction p pos phase ws next) (ns : List ℕ) : Tidy p ns ws := by
  cases h with
  | articles hwrites _ _ _ => exact tidy_writes p ns hwrites
  | @point r n _ hr hn _ _ =>
    simp only [answers]
    split
    · refine ⟨?_, trivial⟩
      intro m hm heq
      rw [ackEntity_inj hn hm heq]
      simp
    · trivial
  | interruption _ _ => exact ⟨answer_not_ack (Builder.ackIdt_sound _) (by rintro ⟨⟩) ns, trivial⟩

end Session

namespace Transfer

open Reception SendData Session

variable {σ τ : Type} (t : Transfer σ τ) (total base : ℕ) (H : Prop) (S₀ R₀ : MemoryCheckpoints)

/-- What the stores of the two ends know; the data phase has started with the stores `S₀` and `R₀`. -/
structure Logged (c : Session σ τ) (written : List Bytes) : Prop where
  guarded : t.Guarded total base H c written
  level : ∀ r, c.receiver.phase = .receiving r → r.articles = (c.settled t.setup written).written.length
  earlier : ∀ cp ∈ c.receiver.recorded, cp.articles ≤ written.length
  next : ∀ cp ws, c.receiver.todo = .record cp :: ws → cp.articles = written.length ∧
    cp.fileOffset = (t.setup.ops.position c.receiver.sink).fileOffset
  first : records c.receiver.todo.tail = []
  tidy : Tidy t.setup.rp (c.receiver.recorded.map Checkpoint.sync) c.receiver.todo
  incoming : ∀ n, n < 2 ^ 24 → ackEntity t.setup.rp n ∈ c.sender.link.incoming →
    n ∈ c.receiver.recorded.map Checkpoint.sync
  acknowledging : ∀ n, Effect.acknowledge n ∈ c.sender.todo →
    n ∈ c.receiver.recorded.map Checkpoint.sync ∧ records c.sender.todo = []
  acknowledged : c.sender.store.acknowledged = S₀.acknowledged ∨
    c.sender.store.acknowledged ∈ c.receiver.recorded.map Checkpoint.sync
  store : ∀ cp ∈ c.receiver.recorded, c.receiver.store.get cp.sync = some cp
  points : (∀ cp ∈ R₀.points, cp.sync ≤ base) → c.receiver.store.points = R₀.points ++
    c.receiver.recorded
  stored : ∀ n, n ≠ 0 → c.sender.store.acknowledged ≤ n →
    c.sender.store.get n = (MemoryCheckpoints.latest c.sender.recorded n).or (S₀.get n)

variable {t total base H S₀ R₀} {c d : Session σ τ} {written : List Bytes}

section Numbers

lemma settled_recorded (c : Session σ τ) (written : List Bytes) :
    (c.settled t.setup written).recorded = c.receiver.recorded ++ records c.receiver.todo :=
    performAll_recorded _ _

lemma settled_written (h : c.Tame t.setup) :
    (c.settled t.setup written).written = written ++ writes c.receiver.todo :=
  performAll_written _ h.keeps

lemma Guarded.recorded_prefix (h : t.Guarded total base H c written) :
    (c.receiver.recorded ++ records c.receiver.todo).map Checkpoint.key <+: (marks c).map
    Checkpoint.key := by
  rw [← settled_recorded (t := t) c written]
  exact ((h.tame.settled_grows written).1.map _).trans h.within.recorded

lemma Guarded.recorded_few (h : t.Guarded total base H c written) :
    base + (c.receiver.recorded ++ records c.receiver.todo).length < 2 ^ 24 := by
  rw [← settled_recorded (t := t) c written]
  have hle := (h.tame.settled_grows written).1.length_le
  have hfew := h.within.few
  omega

lemma Guarded.recorded_syncs (h : t.Guarded total base H c written) :
    (c.receiver.recorded ++ records c.receiver.todo).map Checkpoint.sync =
      List.range' (base + 1) (c.receiver.recorded ++ records c.receiver.todo).length := by
  generalize hl : c.receiver.recorded ++ records c.receiver.todo = l
  have hprefix := h.recorded_prefix
  have hfew := h.recorded_few
  rw [hl] at hprefix hfew
  have hsyncs : l.map Checkpoint.sync <+: (marks c).map Checkpoint.sync := by
    have hkey : ∀ cps : List Checkpoint,
        cps.map Checkpoint.sync = (cps.map Checkpoint.key).map Prod.fst := by
      intro cps
      rw [List.map_map]
      rfl
    rw [hkey, hkey]
    exact hprefix.map _
  have hlen := hsyncs.length_le
  rw [List.length_map, List.length_map] at hlen
  have htake : l.map Checkpoint.sync = ((marks c).map Checkpoint.sync).take l.length := by
    rw [List.prefix_iff_eq_take] at hsyncs
    rwa [List.length_map] at hsyncs
  rw [htake, h.numbered.1]
  refine List.ext_getElem (by simp [hlen]) ?_
  intro i hi hi'
  rw [List.length_range'] at hi'
  rw [List.getElem_take, List.getElem_map, List.getElem_range', List.getElem_range']
  exact Nat.mod_eq_of_lt (by omega)

lemma Guarded.performed_syncs (h : t.Guarded total base H c written) :
    c.receiver.recorded.map Checkpoint.sync = List.range' (base + 1) c.receiver.recorded.length := by
  have htake := congrArg (List.take c.receiver.recorded.length) h.recorded_syncs
  rw [List.map_append, List.take_left' (by simp)] at htake
  rw [htake]
  exact List.take_range'_of_length_ge (by simp)

lemma Guarded.recorded_nodup (h : t.Guarded total base H c written) :
    ((c.receiver.recorded ++ records c.receiver.todo).map Checkpoint.sync).Nodup := by
  rw [h.recorded_syncs]
  exact List.nodup_range'

lemma Guarded.recorded_pos (h : t.Guarded total base H c written) {cp : Checkpoint}
    (hcp : cp ∈ c.receiver.recorded ++ records c.receiver.todo) : base < cp.sync := by
  have hmem : cp.sync ∈ (c.receiver.recorded ++ records c.receiver.todo).map Checkpoint.sync :=
    List.mem_map_of_mem hcp
  rw [h.recorded_syncs, List.mem_range'_1] at hmem
  omega

end Numbers

section Moves

lemma Logged.senderPerforms (h : t.Logged total base H S₀ R₀ c written)
    (hstep : c.senderPerforms = some d) :
    t.Logged total base H S₀ R₀ d written := by
  obtain ⟨hphase, htodo, -, -, -, -, hlink, -, hsettled, -⟩ :=
    senderPerforms_outlook written (u := t.setup) hstep
  have hguarded := h.guarded.senderPerforms hstep
  rcases senderPerforms_cases hstep with ⟨e, todo, hctodo, rfl⟩ | ⟨w, todo, hctodo, hne, rfl⟩
  · refine ⟨hguarded, ?_, h.earlier, h.next, h.first, h.tidy, h.incoming, ?_, h.acknowledged,
      h.store, h.points, h.stored⟩
    · intro r hr
      rw [hsettled]
      exact h.level r hr
    · intro n hn
      obtain ⟨hmem, hnone⟩ := h.acknowledging n (by rw [hctodo]; exact List.mem_cons_of_mem _ hn)
      rw [hctodo] at hnone
      exact ⟨hmem, hnone⟩
  · have hlevel : ∀ r, c.receiver.phase = .receiving r → r.articles = (({ c with
        sender := ({ c.sender with todo := todo } : Sender σ).perform w } : Session σ τ).settled t.setup
        written).written.length := by
      intro r hr
      rw [hsettled]
      exact h.level r hr
    have hacknowledging : ∀ n, Effect.acknowledge n ∈ todo →
        n ∈ c.receiver.recorded.map Checkpoint.sync ∧ records todo = [] := by
      intro n hn
      obtain ⟨hmem, hnone⟩ := h.acknowledging n (by rw [hctodo]; exact List.mem_cons_of_mem _ hn)
      have hcons : records (w :: todo) = records [w] ++ records todo := records_append [w] todo
      rw [hctodo, hcons, List.append_eq_nil_iff] at hnone
      exact ⟨hmem, hnone.2⟩
    cases w with
    | send e => exact absurd rfl (hne e)
    | record cp =>
      refine ⟨hguarded, hlevel, h.earlier, h.next, h.first, h.tidy, h.incoming, hacknowledging,
        h.acknowledged, h.store, h.points, ?_⟩
      intro n hn hle
      simp only [Sender.perform, MemoryCheckpoints.get_record _ _ hn, MemoryCheckpoints.latest_append]
      split
      · rfl
      · exact h.stored n hn hle
    | acknowledge n =>
      refine ⟨hguarded, hlevel, h.earlier, h.next, h.first, h.tidy, h.incoming, hacknowledging, ?_,
        h.store, h.points, ?_⟩
      · have hn := (h.acknowledging n (by rw [hctodo]; exact List.mem_cons_self)).1
        simp only [Sender.perform, MemoryCheckpoints.acknowledge_acknowledged]
        rcases max_choice c.sender.store.acknowledged n with hmax | hmax
        · rw [hmax]
          exact h.acknowledged
        · rw [hmax]
          exact .inr hn
      · intro k hk hle
        have hle' : (c.sender.store.acknowledge n).acknowledged ≤ k := hle
        exact (MemoryCheckpoints.get_acknowledge _ hle').trans
          (h.stored k hk (le_trans (le_max_left _ _) hle'))
    | write a =>
      exact ⟨hguarded, hlevel, h.earlier, h.next, h.first, h.tidy, h.incoming, hacknowledging,
        h.acknowledged, h.store, h.points, h.stored⟩
    | truncate pos =>
      exact ⟨hguarded, hlevel, h.earlier, h.next, h.first, h.tidy, h.incoming, hacknowledging,
        h.acknowledged, h.store, h.points, h.stored⟩

lemma receiverPerforms_fields {u : Setup σ τ} (hstep : c.receiverPerforms u = some d) {w : Effect}
    {todo : List Effect} (htodo : c.receiver.todo = w :: todo) :
    d.receiver.todo = todo ∧ d.receiver.phase = c.receiver.phase ∧
      d.receiver.recorded = c.receiver.recorded ++ records [w] ∧
      d.receiver.store =
      (match w with | .record cp => c.receiver.store.record cp | _ => c.receiver.store) ∧
      d.sender.todo = c.sender.todo ∧ d.sender.store = c.sender.store ∧
      d.sender.recorded = c.sender.recorded ∧
      d.sender.link.incoming = c.sender.link.incoming ++ sends [w] := by
  simp only [Session.receiverPerforms, htodo] at hstep
  cases w with
  | send e =>
    obtain rfl := (Option.some.inj hstep).symm
    simp [Link.deliver, records, SendData.sends]
  | _ =>
    obtain rfl := (Option.some.inj hstep).symm
    simp [Receiver.perform, records, SendData.sends]

section Performed

variable {w : Effect} {todo : List Effect}

lemma Logged.earlier_performed (h : t.Logged total base H S₀ R₀ c written)
    (hstep : c.receiverPerforms t.setup = some d) (htodo : c.receiver.todo = w :: todo) :
    ∀ cp ∈ d.receiver.recorded, cp.articles ≤ (wrote written w).length := by
  obtain ⟨-, -, hrec, -⟩ := receiverPerforms_fields hstep htodo
  intro cp hcp
  rw [hrec] at hcp
  rcases List.mem_append.mp hcp with hcp | hcp
  · have := h.earlier cp hcp
    cases w with
    | write a =>
      simp only [wrote, List.length_append]
      omega
    | truncate pos =>
      exact absurd (by rw [htodo]; exact List.mem_cons_self) (h.guarded.tame.keeps pos)
    | _ => exact this
  · cases w with
    | record cp' =>
      obtain rfl := List.mem_singleton.mp hcp
      exact (h.next cp todo htodo).1.le
    | _ => cases hcp

lemma Logged.first_performed (h : t.Logged total base H S₀ R₀ c written)
    (htodo : c.receiver.todo = w :: todo) : records todo = [] := by
  have hfirst := h.first
  rwa [htodo] at hfirst

lemma Logged.tidy_performed (h : t.Logged total base H S₀ R₀ c written)
    (hstep : c.receiverPerforms t.setup = some d) (htodo : c.receiver.todo = w :: todo) :
    Tidy t.setup.rp (d.receiver.recorded.map Checkpoint.sync) d.receiver.todo := by
  obtain ⟨hdtodo, -, hrec, -⟩ := receiverPerforms_fields hstep htodo
  have htidy := h.tidy
  rw [htodo] at htidy
  rw [hdtodo, hrec]
  cases w with
  | record cp =>
    simp only [records, List.filterMap_cons, List.filterMap_nil, List.map_append, List.map_cons,
      List.map_nil]
    exact htidy
  | send e => simpa [records] using htidy.2
  | write a => simpa [records] using (show Tidy _ _ todo from htidy)
  | acknowledge n => simpa [records] using (show Tidy _ _ todo from htidy)
  | truncate pos => simpa [records] using (show Tidy _ _ todo from htidy)

lemma recorded_performed (hstep : c.receiverPerforms t.setup = some d)
    (htodo : c.receiver.todo = w :: todo) {n : ℕ} (hn : n ∈ c.receiver.recorded.map Checkpoint.sync) :
    n ∈ d.receiver.recorded.map Checkpoint.sync := by
  obtain ⟨-, -, hrec, -⟩ := receiverPerforms_fields hstep htodo
  rw [hrec, List.map_append]
  exact List.mem_append_left _ hn

/-- An answer that goes out is one to a point that has been recorded. -/
lemma Logged.incoming_performed (h : t.Logged total base H S₀ R₀ c written)
    (hstep : c.receiverPerforms t.setup = some d) (htodo : c.receiver.todo = w :: todo) {n : ℕ}
    (hn : n < 2 ^ 24) (hmem : ackEntity t.setup.rp n ∈ d.sender.link.incoming) :
    n ∈ d.receiver.recorded.map Checkpoint.sync := by
  obtain ⟨-, -, -, -, -, -, -, hin⟩ := receiverPerforms_fields hstep htodo
  refine recorded_performed hstep htodo ?_
  rw [hin] at hmem
  rcases List.mem_append.mp hmem with hmem | hmem
  · exact h.incoming n hn hmem
  · have htidy := h.tidy
    rw [htodo] at htidy
    cases w with
    | send e => exact htidy.1 n hn (List.mem_singleton.mp hmem).symm
    | _ => cases hmem

lemma Logged.store_performed (h : t.Logged total base H S₀ R₀ c written)
    (hstep : c.receiverPerforms t.setup = some d) (htodo : c.receiver.todo = w :: todo) :
    ∀ cp ∈ d.receiver.recorded, d.receiver.store.get cp.sync = some cp := by
  obtain ⟨-, -, hrec, hstore, -⟩ := receiverPerforms_fields hstep htodo
  intro cp hcp
  rw [hstore]
  rw [hrec] at hcp
  cases w with
  | record cp' =>
    have hnodup := h.guarded.recorded_nodup
    have hpos : cp.sync ≠ 0 := by
      have hcons : records c.receiver.todo = records [.record cp'] ++ records todo := by
        rw [htodo, ← records_append]
        rfl
      have hmem : cp ∈ c.receiver.recorded ++ records c.receiver.todo := by
        rw [hcons, ← List.append_assoc]
        exact List.mem_append_left _ hcp
      have := h.guarded.recorded_pos hmem
      omega
    rw [MemoryCheckpoints.get_record _ _ hpos]
    rcases List.mem_append.mp hcp with hcp | hcp
    · rw [if_neg ?_]
      · exact h.store cp hcp
      · intro hsame
        rw [htodo, List.map_append, List.nodup_append] at hnodup
        exact hnodup.2.2 cp.sync (List.mem_map_of_mem hcp) cp'.sync (by simp [records]) hsame.symm
    · obtain rfl := List.mem_singleton.mp hcp
      rw [if_pos rfl]
  | _ =>
    simp only [records, List.filterMap_cons, List.filterMap_nil, List.append_nil] at hcp
    exact h.store cp hcp

/-- The points are recorded in the order of their numbers. -/
lemma Logged.points_performed (h : t.Logged total base H S₀ R₀ c written)
    (hstep : c.receiverPerforms t.setup = some d) (htodo : c.receiver.todo = w :: todo)
    (hold : ∀ cp ∈ R₀.points, cp.sync ≤ base) :
    d.receiver.store.points = R₀.points ++ d.receiver.recorded := by
  obtain ⟨-, -, hrec, hstore, -⟩ := receiverPerforms_fields hstep htodo
  rw [hstore, hrec, ← List.append_assoc, ← h.points hold]
  cases w with
  | record cp =>
    refine MemoryCheckpoints.insert_last ?_
    rw [h.points hold, List.forall_mem_append]
    have hsyncs := h.guarded.recorded_syncs
    rw [htodo] at hsyncs
    have hcp : cp.sync = base + 1 + c.receiver.recorded.length := by
      have hget := congrArg (fun l => l[c.receiver.recorded.length]?) hsyncs
      simpa [records] using hget
    refine ⟨fun c' hc' => ?_, fun c' hc' => ?_⟩
    · have := hold c' hc'
      omega
    · have hmem : c'.sync ∈ (c.receiver.recorded.map Checkpoint.sync) := List.mem_map_of_mem hc'
      rw [h.guarded.performed_syncs, List.mem_range'_1] at hmem
      omega
  | _ => simp [records]

lemma Logged.receiverPerforms (h : t.Logged total base H S₀ R₀ c written)
    (hstep : c.receiverPerforms t.setup = some d) (htodo : c.receiver.todo = w :: todo) :
    t.Logged total base H S₀ R₀ d (wrote written w) := by
  obtain ⟨hdtodo, hphase, -, -, hstodo, hsstore, hsrec, -⟩ := receiverPerforms_fields hstep htodo
  obtain ⟨w', todo', htodo', -, -, -, -, -, -, -, -, -, hsettled⟩ := receiverPerforms_cases written hstep
  obtain ⟨rfl, rfl⟩ := List.cons.inj (htodo'.symm.trans htodo)
  have hfirst := h.first_performed htodo
  refine ⟨h.guarded.receiverPerforms hstep htodo, ?_, h.earlier_performed hstep htodo, ?_, ?_,
    h.tidy_performed hstep htodo, fun n hn => h.incoming_performed hstep htodo hn, ?_, ?_,
    h.store_performed hstep htodo, h.points_performed hstep htodo, ?_⟩
  · intro r hr
    rw [hsettled]
    exact h.level r (hphase ▸ hr)
  · intro cp ws hws
    rw [hdtodo] at hws
    rw [hws] at hfirst
    cases hfirst
  · rw [hdtodo]
    cases todo' with
    | nil => rfl
    | cons v vs =>
      rw [records, List.filterMap_cons] at hfirst
      split at hfirst
      · exact hfirst
      · cases hfirst
  · intro n hn
    rw [hstodo] at hn ⊢
    exact (h.acknowledging n hn).imp_left (recorded_performed hstep htodo)
  · rw [hsstore]
    exact h.acknowledged.imp_right (recorded_performed hstep htodo)
  · rw [hsrec, hsstore]
    exact h.stored

end Performed

lemma Logged.receiverTakes (h : t.Logged total base H S₀ R₀ c written)
    (hstep : c.receiverTakes t.setup = some d) : t.Logged total base H S₀ R₀ d written := by
  obtain ⟨-, -, hsender, htodo, hstore, hrec, hsink, hreact⟩ :=
    h.guarded.tame.receiverTakes written hstep
  have hguarded := h.guarded.receiverTakes hstep
  have hwritten : ∀ r, c.receiver.phase = .receiving r → r.articles = written.length := by
    intro r hr
    have := h.level r hr
    rwa [settled_written h.guarded.tame, htodo, writes, List.filterMap_nil, List.append_nil] at this
  refine ⟨hguarded, ?_, ?_, ?_, ?_, ?_, ?_, ?_, ?_, ?_, ?_, ?_⟩
  · intro r' hr'
    rw [settled_written hguarded.tame, List.length_append]
    rw [hr'] at hreact
    generalize d.receiver.todo = ws at hreact ⊢
    cases hreact with
    | articles hwrites _ hlevel _ =>
      obtain ⟨r, hr, hcount⟩ := hlevel r' rfl
      rw [writes_length hwrites, hcount, hwritten r hr]
    | @point r n _ hr _ hlevel _ =>
      rw [hlevel r' rfl, hwritten r hr]
      simp [writes]
    | interruption hover _ => exact absurd rfl (hover r')
  · rw [hrec]
    exact h.earlier
  · intro cp ws hws
    rw [hws] at hreact
    cases hreact with
    | articles hwrites _ _ _ =>
      obtain ⟨a, ha⟩ := hwrites (.record cp) List.mem_cons_self
      cases ha
    | point hr _ _ _ => exact ⟨hwritten _ hr, by rw [hsink]⟩
  · generalize d.receiver.todo = ws at hreact ⊢
    cases hreact with
    | articles hwrites _ _ _ => exact records_writes (fun w hw => hwrites w (List.mem_of_mem_tail hw))
    | point hr _ _ _ => exact records_map_send _
    | interruption _ _ => rfl
  · exact Reaction.tidy hreact _
  · rw [hsender, hrec]
    exact h.incoming
  · rw [hsender, hrec]
    exact h.acknowledging
  · rw [hsender, hrec]
    exact h.acknowledged
  · rw [hstore, hrec]
    exact h.store
  · rw [hstore, hrec]
    exact h.points
  · rw [hsender]
    exact h.stored

lemma Logged.becomes (h : t.Logged total base H S₀ R₀ c written) (link : Link) {act : Run (SendPhase σ)}
    (hguarded : t.Guarded total base H
      { c with sender := { c.sender with link := link }.become act } written)
    (hlink : ∀ e ∈ link.incoming, e ∈ c.sender.link.incoming)
    (hact : ∀ n, Effect.acknowledge n ∈ act.effects →
      n ∈ c.receiver.recorded.map Checkpoint.sync ∧ records act.effects = []) :
    t.Logged total base H S₀ R₀ { c with
      sender := { c.sender with link := link }.become act } written := by
  refine ⟨hguarded, ?_, h.earlier, h.next, h.first, h.tidy, fun n hn hmem =>
    h.incoming n hn (hlink _ hmem), hact, h.acknowledged, h.store, h.points,
      h.stored⟩
  intro r hr
  rw [settled_written hguarded.tame]
  have := h.level r hr
  rwa [settled_written h.guarded.tame] at this

lemma Logged.senderReceives (h : t.Logged total base H S₀ R₀ c written)
    (hstep : c.senderPolls t.setup = some d ∨ c.senderWaits t.setup = some d) :
    t.Logged total base H S₀ R₀ d written := by
  have hguarded := h.guarded.senderReceives hstep
  obtain ⟨f, es, act, hf, htodo, hin, rfl, hact⟩ := h.guarded.tame.senderReceives t.agree.crc hstep
  refine h.becomes _ hguarded ?_ ?_
  · intro e he
    rw [hin]
    exact List.mem_cons_of_mem _ he
  · have hsend :
        ∀ act : Run (SendPhase σ), (act.effects = [] ∨ act.effects = [.send (ackIdtEntity t.setup.sp)]) →
        ∀ n, Effect.acknowledge n ∈ act.effects →
          n ∈ c.receiver.recorded.map Checkpoint.sync ∧ records act.effects = [] := by
      intro act heffects n hn
      rcases heffects with heffects | heffects <;> simp [heffects] at hn
    rcases hact with ⟨s, hs, rfl⟩ | ⟨s, hs, rfl⟩
    · obtain ⟨bs, ws, hload, -⟩ := h.guarded.loaded hs
      rcases handleAsync_answer t.setup.src (p := t.setup.sp) c.sender.store hload.machine hf with
        ⟨n, hn, rfl, hasync⟩ | ⟨-, heffects⟩
      · intro m hm
        rw [hasync] at hm
        obtain rfl := Effect.acknowledge.inj (List.mem_singleton.mp hm)
        exact ⟨h.incoming m hn (by rw [hin]; exact List.mem_cons_self), by rw [hasync]; rfl⟩
      · exact hsend _ heffects
    · exact hsend _ (stopped_effects t.setup.sp s f).2

lemma Logged.senderAdvances (h : t.Logged total base H S₀ R₀ c written)
    (hstep : c.senderAdvances t.setup = some d) : t.Logged total base H S₀ R₀ d written := by
  have hguarded := h.guarded.senderAdvances hstep
  obtain ⟨s, htodo, hphase, -, rfl⟩ := senderAdvances_cases hstep
  refine h.becomes c.sender.link hguarded (fun e he => he) ?_
  obtain ⟨bs, ws, hload, hready⟩ := h.guarded.loaded hphase
  intro n hn
  exfalso
  cases ha : t.articles[s.articles]? with
  | none =>
    obtain ⟨es, m, hrun, -⟩ := endData_spec t.setup.ops t.roomy t.agree.crc hload
    have hadvance :
        (advance t.setup.src t.setup.sp s).Returns (es.map .send) (.ended m (result s .completed)) := by
      rw [advance, t.yields.done hready.source ha]
      exact hrun
    rw [hadvance] at hn
    simp at hn
  | some a =>
    obtain ⟨rest, hnext, -⟩ := t.yields.next hready.source ha
    obtain ⟨effects, s', bs', ws', hrun, -, -, -, -, hnone, -⟩ :=
      sendArticle_spec t.setup.src t.setup.ops t.roomy t.agree.crc hload a rest
    have hadvance : (advance t.setup.src t.setup.sp s).Returns effects (.looping s') := by
      rw [advance, hnext, ← List.append_nil effects]
      exact hrun.bind (Act.returns_pure _)
    rw [hadvance] at hn
    exact hnone n hn

lemma Logged.senderCancels (h : t.Logged total base H S₀ R₀ c written)
    (hstep : c.senderCancels t.setup = some d) : t.Logged total base H S₀ R₀ d written := by
  have hguarded := h.guarded.senderCancels hstep
  obtain ⟨s, htodo, hphase, rfl⟩ := senderCancels_cases hstep
  refine h.becomes c.sender.link hguarded (fun e he => he) ?_
  intro n hn
  obtain ⟨-, tail, htail, heffects⟩ := cancel_effects t.setup.sp s
  rw [heffects] at hn
  exfalso
  rcases htail with rfl | rfl <;> split at hn <;> simp at hn

lemma Logged.receiverCancels (h : t.Logged total base H S₀ R₀ c written)
    (hstep : c.receiverCancels t.setup = some d) : t.Logged total base H S₀ R₀ d written := by
  have hguarded := h.guarded.receiverCancels hstep
  obtain ⟨s, htodo, hphase, rfl⟩ := receiverCancels_cases hstep
  obtain ⟨hdeaf, heffects⟩ := receiver_cancel_effects t.setup.rp s
  refine ⟨hguarded, fun r hr => absurd hr (hdeaf.1 r), h.earlier, ?_, ?_, ?_,
    h.incoming, h.acknowledging, h.acknowledged, h.store, h.points,
      h.stored⟩
  · intro cp ws hws
    have hws' : (ReceiveData.cancel t.setup.rp s).effects = .record cp :: ws := hws
    rcases heffects with heffects | heffects <;> simp [heffects] at hws'
  · show records (ReceiveData.cancel t.setup.rp s).effects.tail = []
    rcases heffects with heffects | heffects <;> simp [heffects, records]
  · show Tidy _ _ (ReceiveData.cancel t.setup.rp s).effects
    rcases heffects with heffects | heffects
    · rw [heffects]
      trivial
    · rw [heffects]
      exact ⟨answer_not_ack (Builder.idt_sound _ (cancelCode_cases _)) (by rintro ⟨⟩) _, trivial⟩

lemma wrote_prefix {w : Effect} (h : ∀ pos, w ≠ .truncate pos) (written : List Bytes) :
    written <+: wrote written w := by
  cases w with
  | write a => exact List.prefix_append _ _
  | truncate pos => exact absurd rfl (h pos)
  | _ => exact List.prefix_rfl

lemma Logged.happens (h : t.Logged total base H S₀ R₀ c written) (hstep : Session.Happens t.setup c d) :
    ∃ written', t.Logged total base H S₀ R₀ d written' ∧ written <+: written' := by
  rcases hstep with ⟨m, hm⟩ | hstep | hstep
  · cases m with
    | senderPerforms => exact ⟨written, h.senderPerforms hm, List.prefix_rfl⟩
    | senderPolls => exact ⟨written, h.senderReceives (.inl hm), List.prefix_rfl⟩
    | senderWaits => exact ⟨written, h.senderReceives (.inr hm), List.prefix_rfl⟩
    | senderAdvances => exact ⟨written, h.senderAdvances hm, List.prefix_rfl⟩
    | receiverPerforms =>
      obtain ⟨w, todo, htodo, -⟩ := receiverPerforms_cases written hm
      refine ⟨_, h.receiverPerforms hm htodo, wrote_prefix ?_ written⟩
      rintro pos rfl
      exact h.guarded.tame.keeps pos (htodo ▸ List.mem_cons_self)
    | receiverTakes => exact ⟨written, h.receiverTakes hm, List.prefix_rfl⟩
  · exact ⟨written, h.senderCancels hstep, List.prefix_rfl⟩
  · exact ⟨written, h.receiverCancels hstep, List.prefix_rfl⟩

end Moves

section Runs

lemma happens_recorded {u : Setup σ τ} (hstep : Session.Happens u c d) :
    c.receiver.recorded <+: d.receiver.recorded ∧ c.sender.recorded <+: d.sender.recorded := by
  have hsame : c.receiver.recorded = d.receiver.recorded → c.sender.recorded = d.sender.recorded →
      c.receiver.recorded <+: d.receiver.recorded ∧ c.sender.recorded <+: d.sender.recorded := by
    intro hr hs
    rw [hr, hs]
    exact ⟨List.prefix_rfl, List.prefix_rfl⟩
  rcases hstep with ⟨m, hm⟩ | hstep | hstep
  · cases m with
    | senderPerforms =>
      rcases senderPerforms_cases hm with ⟨e, todo, -, rfl⟩ | ⟨w, todo, -, -, rfl⟩
      · exact hsame rfl rfl
      · refine ⟨List.prefix_rfl, ?_⟩
        rw [(perform_fields ({ c.sender with todo := todo } : Sender σ) w).2.2.2]
        exact List.prefix_append _ _
    | senderPolls =>
      simp only [Session.step, Session.senderPolls] at hm
      split at hm
      · obtain rfl := Option.some.inj hm
        exact hsame rfl rfl
      · obtain rfl := Option.some.inj hm
        exact hsame rfl rfl
      · obtain rfl := Option.some.inj hm
        exact hsame rfl rfl
      · cases hm
    | senderWaits =>
      simp only [Session.step, Session.senderWaits] at hm
      split at hm
      · split at hm
        · obtain ⟨x, -, rfl⟩ := Option.map_eq_some_iff.mp hm
          exact hsame rfl rfl
        · cases hm
      · cases hm
    | senderAdvances =>
      obtain ⟨s, -, -, -, rfl⟩ := senderAdvances_cases hm
      exact hsame rfl rfl
    | receiverPerforms =>
      obtain ⟨w, todo, htodo, -⟩ := receiverPerforms_cases [] hm
      obtain ⟨-, -, hrec, -, -, -, hsrec, -⟩ := receiverPerforms_fields hm htodo
      rw [hrec, hsrec]
      exact ⟨List.prefix_append _ _, List.prefix_rfl⟩
    | receiverTakes =>
      obtain ⟨r, link, act, -, -, -, rfl⟩ := receiverTakes_cases hm
      exact hsame rfl rfl
  · obtain ⟨s, -, -, rfl⟩ := senderCancels_cases hstep
    exact hsame rfl rfl
  · obtain ⟨s, -, -, rfl⟩ := receiverCancels_cases hstep
    exact hsame rfl rfl

lemma run_recorded {u : Setup σ τ} (hrun : Relation.ReflTransGen (Session.Happens u) c d) :
    c.receiver.recorded <+: d.receiver.recorded ∧ c.sender.recorded <+: d.sender.recorded := by
  induction hrun with
  | refl => exact ⟨List.prefix_rfl, List.prefix_rfl⟩
  | tail _ hstep ih =>
    obtain ⟨hr, hs⟩ := happens_recorded hstep
    exact ⟨ih.1.trans hr, ih.2.trans hs⟩

lemma Logged.run (h : t.Logged total base H S₀ R₀ c written)
    (hrun : Relation.ReflTransGen (Session.Happens t.setup) c d) :
    ∃ written', t.Logged total base H S₀ R₀ d written' ∧ written <+: written' := by
  induction hrun with
  | refl => exact ⟨written, h, List.prefix_rfl⟩
  | tail _ hstep ih =>
    obtain ⟨w, hw, hgrown⟩ := ih
    obtain ⟨w', hw', hgrown'⟩ := hw.happens hstep
    exact ⟨w', hw', hgrown.trans hgrown'⟩

end Runs

end Transfer

end PesitWizard.Io
