import PesitWizard.Io.Crossing

/-! What both sides of a transfer conclude from the dialogue that closes it. -/

namespace PesitWizard.Io

open PesitWizard.Core Library Engine Exchange

variable {σ τ : Type}

/-- What closes a transfer, and what acknowledges it. -/
def closes (f : Fpdu) : Bool :=
  match f.kind with
  | .transEnd | .ackTransEnd | .crf | .ackCrf | .deselect | .ackDeselect => true
  | _ => false

def DataEnd.announced : DataEnd → Bool
  | .interrupted _ _ _ => false
  | _ => true

/-- The counts of an FPDU, as far as it has them, are those of the data. -/
def Counted (data : DataResult) (f : Fpdu) : Prop := checkCounts f data.dataBytes data.articles = .ok ()

lemma getNum_transEnd (id : UInt8) {bytes articles : ℕ} (hbytes : bytes < 2 ^ 64)
    (harticles : articles < 2 ^ 64) :
    (Builder.transEnd id (some bytes) (some articles)).getNum .byteCount = some bytes ∧
      (Builder.transEnd id (some bytes) (some articles)).getNum .articleCount = some articles := by
  refine ⟨FileSpec.read_num hbytes ?_, FileSpec.read_num harticles ?_⟩
  · rfl
  · rfl

lemma counted_transEnd (id : UInt8) {bytes articles : ℕ} (hbytes : bytes < 2 ^ 64)
    (harticles : articles < 2 ^ 64) (data : DataResult) :
    Counted data (Builder.transEnd id (some bytes) (some articles)) ↔ bytes = data.dataBytes ∧
    articles = data.articles := by
  obtain ⟨hb, ha⟩ := getNum_transEnd id hbytes harticles
  constructor
  · intro h
    obtain ⟨hb', ha'⟩ := Responder.checkCounts_ok h
    exact ⟨hb' _ hb, ha' _ ha⟩
  · rintro ⟨rfl, rfl⟩
    rw [Counted, checkCounts, hb, ha]
    simp

namespace Responder

variable {crc : Bool} {data : DataResult} {t : List (Exchange σ)} {diag : Diagnostic}

/-- A received FPDU that a server objects to when it closes a transfer. -/
def Objects (data : DataResult) (f : Fpdu) : Prop :=
  f.kind = .transEnd ∧ (f.diagOrOk.isOk = false ∨ ¬ Counted data f) ∨ f.kind = .crf ∧
    f.diagOrOk.isOk = false

/-- What a server says when it closes a transfer, with the diagnostic that it has come to. -/
def Answers (data : DataResult) (t : List (Exchange σ)) (diag : Diagnostic) (g : Fpdu) : Prop :=
  if g.kind = .ackTransEnd then
    ∃ f ∈ heardIn t, f.kind = .transEnd ∧
      (Counted data f ∧ g.isNegative = false ∨ ¬ Counted data f ∧ g.isNegative = true ∧
      diag.isOk = false)
  else g.isNegative = false

structure Concluding (crc : Bool) (data : DataResult) (t : List (Exchange σ))
    (diag : Diagnostic) : Prop where
  blamed : diag.isOk = false → ∃ f ∈ heardIn t, Objects data f
  answers : ∀ g ∈ saidIn crc t, Answers data t diag g

lemma Answers.mono {diag' : Diagnostic} {g : Fpdu} (h : Answers data t diag g) (w : List (Exchange σ))
    (hdiag : diag.isOk = false → diag'.isOk = false) : Answers data (t ++ w) diag' g := by
  rw [Answers] at h ⊢
  split
  · rename_i hk
    rw [if_pos hk] at h
    obtain ⟨f, hf, hkind, hcases⟩ := h
    refine ⟨f, ?_, hkind, ?_⟩
    · rw [heardIn_append]
      exact List.mem_append_left _ hf
    · rcases hcases with h | ⟨hc, hneg, hd⟩
      · exact .inl h
      · exact .inr ⟨hc, hneg, hdiag hd⟩
  · rename_i hk
    rwa [if_neg hk] at h

/-- An FPDU has been received that may change the diagnostic. -/
lemma Concluding.received (h : Concluding crc data t diag) {f : Fpdu} {diag' : Diagnostic}
    (hdiag : diag.isOk = false → diag'.isOk = false)
    (hblamed : diag'.isOk = false → diag.isOk = false ∨ Objects data f) :
    Concluding crc data (t ++ [⟨.recv, .ok f⟩]) diag' := by
  have hheard : heardIn (t ++ [⟨.recv, .ok f⟩]) = heardIn t ++ [f] := heardIn_concat
  have hsaid : saidIn crc (t ++ [⟨.recv, .ok f⟩]) = saidIn crc t :=
    saidIn_concat.trans (List.append_nil _)
  refine ⟨fun hd => ?_, fun g hg => ?_⟩
  · rw [hheard]
    rcases hblamed hd with hd | hf
    · obtain ⟨f', hf', hobj⟩ := h.blamed hd
      exact ⟨f', List.mem_append_left _ hf', hobj⟩
    · exact ⟨f, List.mem_append_right _ (List.mem_singleton_self f), hf⟩
  · exact (h.answers g (hsaid ▸ hg)).mono _ hdiag

lemma Concluding.sent (h : Concluding crc data t diag) {f : Fpdu} (hf : f.Composed)
    (hanswer : Answers data t diag f) :
    Concluding crc data (t ++ [⟨.send f, .ok ()⟩]) diag := by
  have hheard : heardIn (t ++ [⟨.send f, .ok ()⟩]) = heardIn t :=
    heardIn_concat.trans (List.append_nil _)
  refine ⟨fun hd => hheard ▸ h.blamed hd, fun g hg => ?_⟩
  rw [saidIn_concat] at hg
  rcases List.mem_append.mp hg with hg | hg
  · exact (h.answers g hg).mono _ id
  · obtain ⟨-, rfl⟩ := said_send hf hg
    exact hanswer.mono _ id

lemma answer_concluding {f : Fpdu} (hf : f.Composed) (machine : Machine) (h : Concluding crc data t diag)
    (hanswer : Answers data t diag f) :
    Proc.Yields (fun _ _ => True) (answer machine f : Engine σ Machine) t fun t' _ =>
    Concluding crc data t' diag := by
  refine Proc.Yields.bind (P := fun t' _ => t' = t) (Proc.yields_lift fun _ _ => rfl) ?_
  rintro _ m rfl r
  refine ⟨trivial, ?_⟩
  cases r with
  | error e => exact error_ok_elim
  | ok _ => exact Proc.yields_pure (h.sent hf hanswer)

lemma answers_other {f : Fpdu} (hk : f.kind ≠ .ackTransEnd) (hpos : f.isNegative = false) :
    Answers data t diag f := by
  rwa [Answers, if_neg hk]

lemma answers_transEnd {f g : Fpdu} (hk : f.kind = .transEnd) (hg : g.kind = .ackTransEnd)
    (hcases : Counted data f ∧ g.isNegative = false ∨ ¬ Counted data f ∧ g.isNegative = true ∧
      diag.isOk = false) :
    Answers data (t ++ [⟨.recv, .ok f⟩]) diag g := by
  have hheard : heardIn (t ++ [⟨.recv, .ok f⟩]) = heardIn t ++ [f] := heardIn_concat
  rw [Answers, if_pos hg, hheard]
  exact ⟨f, List.mem_append_right _ (List.mem_singleton_self f), hk, hcases⟩

lemma ackTransEnd_positive (peerId : UInt8) (bytes articles : ℕ) :
    (Builder.ackTransEnd peerId .ok (some bytes) (some articles)).isNegative = false := by
  have hdiag : (Builder.ackTransEnd peerId .ok (some bytes) (some articles)).diag = some .ok := by
    rw [Fpdu.diag, Builder.ackTransEnd_get_diag]
    rfl
  rw [Fpdu.isNegative, hdiag]
  rfl

/-- The diagnostic that an FPDU leaves, which is the one before it unless it complains. -/
lemma complaint_isOk {f : Fpdu} (diag : Diagnostic) :
    (if f.diagOrOk.isOk then diag else f.diagOrOk).isOk = false ↔ f.diagOrOk.isOk = false ∨
    diag.isOk = false := by
  cases hf : f.diagOrOk.isOk <;> simp [hf]

lemma closeTurn_concluding (c : Conn) {s : Machine × Diagnostic} (h : Concluding crc data t s.2) :
    Proc.Safe (fun _ _ => True) (closeTurn c data s) t
      (Proc.TurnPost (fun t' s' => Concluding crc data t' s'.2)
        fun t' r => ∀ v, r = .ok v → Concluding crc data t' v.1) := by
  obtain ⟨machine, diag⟩ := s
  intro r
  refine ⟨trivial, ?_⟩
  cases r with
  | error e => exact error_ok_elim
  | ok f =>
    show Proc.Safe _ (Proc.lift (applyReceived machine f) >>= _) (t ++ [⟨.recv, .ok f⟩]) _
    cases applyReceived machine f with
    | error e => exact error_ok_elim
    | ok v =>
      obtain ⟨ignored, m⟩ := v
      simp only [Proc.lift, Proc.done_bind]
      have hdiag : diag.isOk = false → (if f.diagOrOk.isOk then diag else f.diagOrOk).isOk = false :=
        fun hd => (complaint_isOk diag).mpr (.inr hd)
      have hanswer {g : Fpdu} {diag' : Diagnostic} (m : Machine) (hg : g.Composed)
          (h' : Concluding crc data (t ++ [⟨.recv, .ok f⟩]) diag')
          (hanswer : Answers data (t ++ [⟨.recv, .ok f⟩]) diag' g) :
          Proc.Safe (fun _ _ => True)
            (do pure (.inl (← answer m g, diag')) : Engine σ ((Machine × Diagnostic) ⊕ (Diagnostic × Machine)))
            (t ++ [⟨.recv, .ok f⟩]) (Proc.TurnPost (fun t' s' => Concluding crc data t' s'.2)
              fun t' r => ∀ v, r = .ok v → Concluding crc data t' v.1) := by
        refine Proc.Safe.bind (answer_concluding hg m h' hanswer) (fun t' m' ht' => ?_)
          fun _ _ _ => error_ok_elim
        exact ht' m' rfl
      split
      · exact h.received id .inl
      · split
        · rename_i hk
          split
          · rename_i hcounts
            have hcounted : Counted data f := hcounts
            refine hanswer m (Builder.ackTransEnd_composed _ _ _ _) (h.received hdiag fun hd => ?_) ?_
            · rcases (complaint_isOk diag).mp hd with hf | hd
              · exact .inr (.inl ⟨hk, .inl hf⟩)
              · exact .inl hd
            · exact answers_transEnd hk rfl (.inl ⟨hcounted, ackTransEnd_positive _ _ _⟩)
          · rename_i e hcounts
            have hcounted : ¬ Counted data f := by
              rw [Counted, hcounts]
              simp
            refine hanswer m (Builder.ackTransEnd_composed _ _ _ _)
              (h.received (fun _ => rfl) fun _ => ?_) ?_
            · exact .inr (.inl ⟨hk, .inr hcounted⟩)
            · exact answers_transEnd hk rfl (.inr ⟨hcounted, invalidCounts_negative _ _ _, rfl⟩)
        · rename_i hk
          refine hanswer m (Builder.diagnosed_composed rfl _ _ _) (h.received hdiag fun hd => ?_) ?_
          · rcases (complaint_isOk diag).mp hd with hf | hd
            · exact .inr (.inr ⟨hk, hf⟩)
            · exact .inl hd
          · exact answers_other (fun hk => by cases hk) rfl
        · refine Proc.Safe.bind (answer_concluding (Builder.diagnosed_composed rfl _ _ _) m
            (h.received id .inl) (answers_other (fun hk => by cases hk) rfl)) ?_
            fun _ _ _ => error_ok_elim
          intro t' m' ht' v hv
          obtain rfl := Except.ok.inj hv
          exact ht' m' rfl
        · exact error_ok_elim

lemma closeTransfer_concluding (turns : ℕ) (c : Conn) (machine : Machine) :
    Proc.Safe (fun _ _ => True) (closeTransfer turns c data machine : Engine σ _) []
      fun t r => ∀ v, r = .ok v → Concluding crc data t v.1 := by
  refine Proc.Safe.loop (fun t s => Concluding crc data t s.2)
    (fun _ _ => closeTurn_concluding c) turns ?_
  exact ⟨(by rintro ⟨⟩), (by rintro g ⟨⟩)⟩

end Responder

namespace Requester

variable {crc : Bool} (turns : ℕ) (r : Requester) {data : DataResult} {t : List (Exchange σ)}

/-- What a requester says when it closes a transfer. -/
def Asks (data : DataResult) (f : Fpdu) : Prop :=
  f = Builder.transEnd r.peerId (some data.dataBytes) (some data.articles) ∧
    data.ending.announced = true ∨
    f = Builder.crf r.peerId .ok ∨ f = Builder.deselect r.peerId .ok

lemma Asks.composed {f : Fpdu} (h : Asks r data f) : f.Composed := by
  rcases h with ⟨rfl, -⟩ | rfl | rfl
  · exact Builder.transEnd_composed _ _ _
  · exact Builder.diagnosed_composed rfl _ _ _
  · exact Builder.diagnosed_composed rfl _ _ _

def Asking (data : DataResult) (q : Call σ) : Prop := q = .recv ∨ ∃ f, q = .send f ∧ Asks r data f

lemma exchange_of {C : Call σ → Prop} (hrecv : C .recv) {f : Fpdu} (hsend : C (.send f))
    (event : LocalEvent) (expected : FpduKind) (machine : Machine) :
    (exchange turns f event expected machine : Engine σ _).Within C := by
  have hask : (ask f event machine : Engine σ Machine).Within C := by
    refine Proc.Within.bind trivial fun m => ?_
    exact Proc.Within.bind ⟨hsend, fun _ => trivial⟩ fun _ => trivial
  refine hask.bind fun m => ?_
  refine Proc.Within.loop (fun m => ?_) turns m
  refine Proc.Within.bind ⟨hrecv, fun _ => trivial⟩ fun reply => ?_
  refine Proc.Within.bind trivial fun v => ?_
  dsimp only
  split
  · trivial
  · split
    · trivial
    · split <;> trivial

lemma endTransfer_of {C : Call σ → Prop} (hrecv : C .recv)
    (hsend : data.ending.announced = true →
      C (.send (Builder.transEnd r.peerId (some data.dataBytes) (some data.articles))))
    (machine : Machine) : (endTransfer turns r data machine : Engine σ _).Within C := by
  have hannounce (h : data.ending.announced = true) :
      (announceEnd turns r data machine : Engine σ _).Within C := by
    refine (exchange_of turns hrecv (hsend h) _ _ machine).bind fun v => ?_
    dsimp only
    split <;> exact Proc.Within.bind trivial fun _ => trivial
  rw [endTransfer]
  cases hending : data.ending with
  | completed => exact hannounce (by rw [hending]; rfl)
  | endedWithError d => exact hannounce (by rw [hending]; rfl)
  | interrupted code d byPeer => trivial

lemma closeTransfer_of {C : Call σ → Prop} (hrecv : C .recv) (hsend : ∀ f, Asks r data f → C (.send f))
    (machine : Machine) :
    (closeTransfer turns r data machine : Engine σ _).Within C := by
  refine (endTransfer_of turns r hrecv (fun h => hsend _ (.inl ⟨rfl, h⟩)) machine).bind fun v => ?_
  refine (exchange_of turns hrecv (hsend _ (.inr (.inl rfl))) _ _ _).bind fun v => ?_
  refine Proc.Within.bind trivial fun diag => ?_
  refine (exchange_of turns hrecv (hsend _ (.inr (.inr rfl))) _ _ _).bind fun v => ?_
  exact Proc.Within.bind trivial fun diag => trivial

lemma closeTransfer_asking (machine : Machine) :
    (closeTransfer turns r data machine : Engine σ _).Within (Asking r data) :=
  closeTransfer_of turns r (.inl rfl) (fun f hf => .inr ⟨f, rfl, hf⟩) machine

/-- Every answer that closes the transfer is without a complaint. -/
def Untroubled (t : List (Exchange σ)) : Prop := ∀ g ∈ heardIn t, closes g = true → g.isNegative = false

lemma Untroubled.left {w : List (Exchange σ)} (h : Untroubled (t ++ w)) : Untroubled t := by
  intro g hg
  apply h g
  rw [heardIn_append]
  exact List.mem_append_left _ hg

lemma refusedWith_untroubled {expected : FpduKind}
    (hexpected : ∀ g : Fpdu, g.kind = expected → closes g = true)
    {reply : Except SessionError Fpdu} {diag diag' : Diagnostic} (hreply : Replied expected t reply)
    (h : refusedWith diag reply = .ok diag') (ht : Untroubled t) : diag' = diag := by
  obtain ⟨e, he, g, hg, hk, hcase⟩ := hreply
  cases reply with
  | ok ack => exact (Except.ok.inj h).symm
  | error err =>
    obtain ⟨request, message, rfl, hneg⟩ := hcase
    rw [ht g (List.mem_flatMap.mpr ⟨e, he, hg⟩) (hexpected g hk)] at hneg
    cases hneg

/-- What a requester makes of the answers to the end of its data: the end is acknowledged, with the
counts of the requester and without a complaint if it takes the transfer for good, and it does if it
hears no complaint. -/
structure Ended (data : DataResult) (t : List (Exchange σ)) (diag : Diagnostic) : Prop where
  acknowledged : data.ending.announced = true →
    ∃ g ∈ heardIn t, g.kind = .ackTransEnd ∧ (diag.isOk = true → g.isNegative = false ∧ Counted data g)
  untroubled : Untroubled t → diag.isOk = true

lemma endTransfer_ended (machine : Machine) :
    Proc.Yields (Calmly crc) (endTransfer turns r data machine : Engine σ _) t fun t' v =>
    Ended data t' v.1 := by
  have hannounce : Proc.Yields (Calmly crc) (announceEnd turns r data machine : Engine σ _) t fun t' v =>
    Ended data t' v.1 := by
    refine (exchange_calmly turns (Builder.transEnd_composed _ _ _) rfl _ _ machine).bind ?_
    rintro t' ⟨reply, m⟩ hreply
    have hreply' := hreply
    obtain ⟨e, he, g, hg, hk, hcase⟩ := hreply'
    have hmem : g ∈ heardIn t' := List.mem_flatMap.mpr ⟨e, he, hg⟩
    cases reply with
    | ok ack =>
      refine Proc.Yields.bind (P := fun t'' _ => t'' = t' ∧ Counted data ack)
        (Proc.yields_lift fun _ h => ⟨rfl, h⟩) ?_
      rintro _ - ⟨rfl, hcounted⟩
      obtain ⟨rfl, hpositive⟩ := hcase
      exact Proc.yields_pure ⟨fun _ => ⟨g, hmem, hk, fun _ => ⟨hpositive, hcounted⟩⟩, fun _ => rfl⟩
    | error err =>
      refine Proc.Yields.bind (P := fun t'' diag => t'' = t' ∧ refusedWith .ok (.error err) = .ok diag)
        (Proc.yields_lift fun _ h => ⟨rfl, h⟩) ?_
      rintro _ diag ⟨rfl, hdiag⟩
      refine Proc.yields_pure ⟨fun _ => ⟨g, hmem, hk, fun hok => ?_⟩, fun ht => ?_⟩
      · obtain ⟨-, ack, hack⟩ := refusedWith_ok hreply hdiag hok
        cases hack
      · have hsame : diag = .ok :=
          refusedWith_untroubled (by rintro g hk; rw [closes, hk]) hreply hdiag ht
        rw [hsame]
        rfl
  rw [endTransfer]
  cases hending : data.ending with
  | completed => exact hannounce
  | endedWithError d => exact hannounce
  | interrupted code d byPeer =>
    refine Proc.yields_pure ⟨fun h => ?_, fun _ => rfl⟩
    rw [hending] at h
    cases h

lemma Ended.append {diag diag' : Diagnostic} (h : Ended data t diag) (w : List (Exchange σ))
    (hok : diag'.isOk = true → diag' = diag) (hsame : Untroubled (t ++ w) → diag' = diag) :
    Ended data (t ++ w) diag' := by
  refine ⟨fun hannounced => ?_, fun ht => ?_⟩
  · obtain ⟨g, hg, hk, hpos⟩ := h.acknowledged hannounced
    refine ⟨g, ?_, hk, fun hd => hpos (hok hd ▸ hd)⟩
    rw [heardIn_append]
    exact List.mem_append_left _ hg
  · rw [hsame ht]
    exact h.untroubled ht.left

lemma refusedWith_ended {expected : FpduKind}
    (hexpected : ∀ g : Fpdu, g.kind = expected → closes g = true)
    {reply : Except SessionError Fpdu} {w : List (Exchange σ)} {diag : Diagnostic}
    (h : Ended data t diag) (hreply : Replied expected (t ++ w) reply) :
    Proc.Yields (Calmly crc) (Proc.lift (refusedWith diag reply)) (t ++ w) fun t' diag' =>
    Ended data t' diag' := by
  refine Proc.yields_lift fun diag' hdiag =>
    h.append w (fun hok => (refusedWith_ok hreply hdiag hok).1) fun ht => ?_
  exact refusedWith_untroubled hexpected hreply hdiag ht

lemma closeTransfer_ended (machine : Machine) :
    Proc.Yields (Calmly crc) (closeTransfer turns r data machine : Engine σ _) t fun t' v =>
    Ended data t' v.1 := by
  have hcloses {kind : FpduKind} (hkind : kind = .ackCrf ∨ kind = .ackDeselect) (g : Fpdu)
      (hk : g.kind = kind) :
      closes g = true := by
    rcases hkind with rfl | rfl <;> rw [closes, hk]
  refine (endTransfer_ended turns r machine).bind ?_
  rintro t₁ ⟨diag, m⟩ h₁
  refine (exchange_calmly turns (Builder.diagnosed_composed rfl _ _ _) rfl _ _ m).ran.bind ?_
    fun _ _ _ => error_ok_elim
  rintro _ ⟨reply, m₂⟩ ⟨hreply, w, rfl, -⟩
  refine (refusedWith_ended (hcloses (.inl rfl)) h₁ (hreply _ rfl)).bind fun t₂ diag₂ h₂ => ?_
  refine (exchange_calmly turns (Builder.diagnosed_composed rfl _ _ _) rfl _ _ m₂).ran.bind ?_
    fun _ _ _ => error_ok_elim
  rintro _ ⟨reply₃, m₃⟩ ⟨hreply₃, w₃, rfl, -⟩
  refine (refusedWith_ended (hcloses (.inr rfl)) h₂ (hreply₃ _ rfl)).bind fun t₃ diag₃ h₃ => ?_
  exact Proc.yields_pure h₃

end Requester

/-- Both sides of a transfer when its data phase is over, with what has been counted. -/
structure Conclusion where
  crc : Bool
  turns : ℕ
  requester : Requester
  sent : DataResult
  machine : Machine
  serverTurns : ℕ
  conn : Conn
  received : DataResult
  serverMachine : Machine
  counters : sent.dataBytes < 2 ^ 64 ∧ sent.articles < 2 ^ 64

namespace Conclusion

variable (c : Conclusion)

/-- The requester has closed the transfer with a diagnostic, and so has the server; nothing that closes a
transfer was on its way when they started. -/
structure Run (toServer toRequester : List Fpdu) (d : Dialogue σ τ)
    (diag diag' : Diagnostic) : Prop where
  requester : ∃ m, Proc.Runs (c.requester.closeTransfer c.turns c.sent c.machine) d.requester
    (some (.ok (diag, m)))
  server : ∃ m, Proc.Runs (Responder.closeTransfer c.serverTurns c.conn c.received c.serverMachine)
    d.server (some (.ok (diag', m)))
  inOrder : d.InOrder c.crc toServer toRequester
  before : (∀ f ∈ toServer, closes f = false) ∧ ∀ f ∈ toRequester, closes f = false

variable {c} {toServer toRequester : List Fpdu} {d : Dialogue σ τ} {diag diag' : Diagnostic}

/-- What closes the transfer on the side of the server has been said by the requester. -/
lemma Run.asked (h : c.Run toServer toRequester d diag diag') {f : Fpdu} (hf : f ∈ heardIn d.server)
    (hcloses : closes f = true) :
    c.requester.Asks c.sent f := by
  obtain ⟨m, hrequester⟩ := h.requester
  rcases List.mem_append.mp (h.inOrder.heard_first.2.subset hf) with hbefore | hsaid
  · rw [h.before.1 f hbefore] at hcloses
    cases hcloses
  · obtain ⟨⟨q, r⟩, he, hg⟩ := List.mem_flatMap.mp hsaid
    rcases (Requester.closeTransfer_asking c.turns c.requester c.machine).calls hrequester _
      he with rfl | ⟨g, rfl, hask⟩
    · rw [said_silent rfl] at hg
      cases hg
    · obtain ⟨-, rfl⟩ := said_send hask.composed hg
      exact hask

lemma Run.answered (h : c.Run toServer toRequester d diag diag') {g : Fpdu}
    (hg : g ∈ heardIn d.requester) (hcloses : closes g = true) :
    Responder.Answers c.received d.server diag' g := by
  obtain ⟨m, hserver⟩ := h.server
  have hconcluding : Responder.Concluding c.crc c.received d.server diag' :=
    ((Responder.closeTransfer_concluding c.serverTurns c.conn c.serverMachine).runs
      hserver).2 _ rfl _ rfl
  rcases List.mem_append.mp (h.inOrder.heard_first.1.subset hg) with hbefore | hsaid
  · rw [h.before.2 g hbefore] at hcloses
    cases hcloses
  · exact hconcluding.answers g hsaid

lemma Run.transEnd (h : c.Run toServer toRequester d diag diag') {f : Fpdu} (hf : f ∈ heardIn d.server)
    (hk : f.kind = .transEnd) : c.sent.ending.announced = true ∧ f.diagOrOk = .ok ∧
      (Counted c.received f ↔ c.sent.dataBytes = c.received.dataBytes ∧
        c.sent.articles = c.received.articles) := by
  rcases h.asked hf (by rw [closes, hk]) with ⟨rfl, hannounced⟩ | rfl | rfl
  · exact ⟨hannounced, rfl, counted_transEnd _ c.counters.1 c.counters.2 c.received⟩
  · cases hk
  · cases hk

lemma Run.crf (h : c.Run toServer toRequester d diag diag') {f : Fpdu} (hf : f ∈ heardIn d.server)
    (hk : f.kind = .crf) :
    f.diagOrOk = .ok := by
  rcases h.asked hf (by rw [closes, hk]) with ⟨rfl, -⟩ | rfl | rfl
  · cases hk
  · rfl
  · cases hk

/-- The counts are the same on both sides, if they are exchanged. -/
def Balanced (c : Conclusion) : Prop :=
  c.sent.ending.announced = true → c.sent.dataBytes = c.received.dataBytes ∧ c.sent.articles =
    c.received.articles

lemma Run.untroubled (h : c.Run toServer toRequester d diag diag') (hbalanced : c.Balanced) :
    Requester.Untroubled d.requester := by
  intro g hg hcloses
  have hanswer := h.answered hg hcloses
  rw [Responder.Answers] at hanswer
  split at hanswer
  · obtain ⟨f, hf, hk, ⟨-, hpos⟩ | ⟨hnot, -⟩⟩ := hanswer
    · exact hpos
    · obtain ⟨hannounced, -, hcounted⟩ := h.transEnd hf hk
      exact absurd (hcounted.mpr (hbalanced hannounced)) hnot
  · exact hanswer

lemma Run.unblamed (h : c.Run toServer toRequester d diag diag') (hbalanced : c.Balanced) {f : Fpdu}
    (hf : f ∈ heardIn d.server) : ¬ Responder.Objects c.received f := by
  rintro (⟨hk, hcase⟩ | ⟨hk, hbad⟩)
  · obtain ⟨hannounced, hok, hcounted⟩ := h.transEnd hf hk
    rcases hcase with hbad | hnot
    · rw [hok] at hbad
      cases hbad
    · exact hnot (hcounted.mpr (hbalanced hannounced))
  · rw [h.crf hf hk] at hbad
    cases hbad

/-- Both sides take the transfer for good, or neither does: they do if and only if their counts agree, or
are not exchanged because the transfer has been interrupted. -/
theorem conclusions_agree (h : c.Run toServer toRequester d diag diag') :
    diag'.isOk = diag.isOk ∧ (diag.isOk = true ↔ c.Balanced) := by
  obtain ⟨m, hrequester⟩ := h.requester
  obtain ⟨m', hserver⟩ := h.server
  have hended : Requester.Ended c.sent d.requester diag :=
    ((@Requester.closeTransfer_ended σ c.crc c.turns c.requester c.sent [] c.machine).runs
      hrequester).2 _ rfl _ rfl
  have hconcluding : Responder.Concluding c.crc c.received d.server diag' :=
    ((Responder.closeTransfer_concluding c.serverTurns c.conn c.serverMachine).runs
      hserver).2 _ rfl _ rfl
  by_cases hbalanced : c.Balanced
  · have hdiag : diag.isOk = true := hended.untroubled (h.untroubled hbalanced)
    have hdiag' : diag'.isOk = true := by
      by_contra hbad
      obtain ⟨f, hf, hobjects⟩ := hconcluding.blamed (by simpa using hbad)
      exact h.unblamed hbalanced hf hobjects
    exact ⟨hdiag'.trans hdiag.symm, iff_of_true hdiag hbalanced⟩
  · obtain ⟨hannounced, hcounts⟩ := Classical.not_imp.mp hbalanced
    obtain ⟨g, hg, hk, hpositive⟩ := hended.acknowledged hannounced
    have hanswer := h.answered hg (by rw [closes, hk])
    rw [Responder.Answers, if_pos hk] at hanswer
    obtain ⟨f, hf, hkf, ⟨hcounted, -⟩ | ⟨-, hnegative, hdiag'⟩⟩ := hanswer
    · exact absurd ((h.transEnd hf hkf).2.2.mp hcounted) hcounts
    · have hdiag : diag.isOk = false := by
        by_contra hok
        rw [(hpositive (by simpa using hok)).1] at hnegative
        cases hnegative
      refine ⟨hdiag'.trans hdiag.symm, iff_of_false ?_ hbalanced⟩
      rw [hdiag]
      exact Bool.false_ne_true

/-- A server that has received three bytes of the two that have been sent. -/
def unbalanced : Conclusion where
  crc := false
  turns := 2
  requester := WriteTransfer.sampleWrite.requester
  sent := ⟨.completed, 2, 1, 0⟩
  machine := ⟨.requester, .tde07A⟩
  serverTurns := 4
  conn := WriteTransfer.sampleWrite.conn
  received := ⟨.completed, 3, 1, 0⟩
  serverMachine := ⟨.server, .tde07B⟩
  counters := by decide

def closingLink (fs : List (ℕ × Fpdu)) : ℕ → (q : Call VecSource) → Call.Result q :=
  world [] sampleAccept Responder.sampleCreate (WriteTransfer.arriving fs) (fun _ => .ok ()) (.ok ())

@[irreducible] def closingRequester :
    List (Exchange VecSource) × Option (Except SessionError (Diagnostic × Machine)) :=
  Proc.play (closingLink [(1, Builder.ackTransEnd 1 .invalidCounts (some 3) (some 1)),
    (3, Builder.ackCrf 1 .ok), (5, Builder.ackDeselect 1 .ok)]) 0
    (unbalanced.requester.closeTransfer unbalanced.turns unbalanced.sent unbalanced.machine)

@[irreducible] def closingServer :
    List (Exchange VecSource) × Option (Except SessionError (Diagnostic × Machine)) :=
  Proc.play (closingLink [(0, Builder.transEnd 9 (some 2) (some 1)), (2, Builder.crf 9 .ok),
    (4, Builder.deselect 9 .ok)]) 0 (Responder.closeTransfer unbalanced.serverTurns unbalanced.conn
    unbalanced.received unbalanced.serverMachine)

def closingDialogue : Dialogue VecSource VecSource :=
  .inTurns [(1, 2), (2, 2), (2, 2)] closingRequester.1 closingServer.1

def concludes : Option (Except SessionError (Diagnostic × Machine)) → Bool
  | some (.ok _) => true
  | _ => false

lemma concludes_iff {o : Option (Except SessionError (Diagnostic × Machine))} (h : concludes o = true) :
    ∃ diag m, o = some (.ok (diag, m)) := by
  rw [concludes.eq_def] at h
  split at h
  · exact ⟨_, _, rfl⟩
  · cases h

lemma closing_run : ∃ diag diag', unbalanced.Run [] [] closingDialogue diag diag' := by
  obtain ⟨diag, m, hr⟩ := concludes_iff (o := closingRequester.2) (by decide +kernel)
  obtain ⟨diag', m', hr'⟩ := concludes_iff (o := closingServer.2) (by decide +kernel)
  refine ⟨diag, diag', ⟨⟨m, ?_⟩, ⟨m', ?_⟩, by decide +kernel, by simp, by simp⟩⟩
  · rw [closingDialogue, Dialogue.inTurns_requester, ← hr, closingRequester]
    exact Proc.play_runs _ 0 _
  · rw [closingDialogue, Dialogue.inTurns_server, ← hr', closingServer]
    exact Proc.play_runs _ 0 _

theorem conclusions_agree_unbalanced :
    ∃ d : Dialogue VecSource VecSource, ∃ diag diag', unbalanced.Run [] [] d diag diag' ∧
    diag'.isOk = diag.isOk ∧
      (diag.isOk = true ↔ unbalanced.Balanced) := by
  obtain ⟨diag, diag', hrun⟩ := closing_run
  exact ⟨closingDialogue, diag, diag', hrun, conclusions_agree hrun⟩

end Conclusion

end PesitWizard.Io
