import PesitWizard.Io.Commit
import PesitWizard.Io.Dialogue
import PesitWizard.Io.Requester

/-! What a requester says that writes a file, and what it has heard when it takes the
transfer for complete. -/

namespace PesitWizard.Io

open PesitWizard.Core Library Engine Exchange

variable {σ τ : Type}

/-- What a requester says that writes a file and does not complain. -/
def calm (f : Fpdu) : Bool :=
  match f.kind with
  | .select | .msg | .msgDm | .release => false
  | .dtfEnd | .transEnd | .crf => f.diagOrOk.isOk
  | _ => true

def Heard (P : Fpdu → Prop) (t : List (Exchange σ)) : Prop := ∃ e ∈ t, ∃ g ∈ e.heard, P g

def Gentle (t : List (Exchange σ)) : Prop := ∀ e ∈ t, ∀ g ∈ e.heard, calm g = true

section Traces

variable {t w : List (Exchange σ)} {P : Fpdu → Prop}

lemma Heard.append (h : Heard P t) (w : List (Exchange σ)) : Heard P (t ++ w) := by
  obtain ⟨e, he, hg⟩ := h
  exact ⟨e, List.mem_append_left w he, hg⟩

lemma heard_recv {f : Fpdu} (hf : P f) : Heard P (t ++ [⟨.recv, .ok f⟩]) :=
  ⟨_, List.mem_append_right t (List.mem_singleton_self _), f, List.mem_singleton_self f, hf⟩

lemma Gentle.left (h : Gentle (t ++ w)) : Gentle t := fun e he => h e (List.mem_append_left w he)

lemma Gentle.recv {f : Fpdu} (h : Gentle (t ++ [⟨.recv, .ok f⟩])) : calm f = true :=
  h _ (List.mem_append_right t (List.mem_singleton_self _)) f (List.mem_singleton_self f)

lemma gentle_append : Gentle (t ++ w) ↔ Gentle t ∧ Gentle w := by
  simp only [Gentle, List.mem_append, or_imp, forall_and]

end Traces

lemma calm_data {f : Fpdu} (h : f.kind.isData = true) : calm f = true := by
  cases hk : f.kind <;> simp [hk, FpduKind.isData, calm] at h ⊢

lemma negative_notOk {f : Fpdu} (h : f.isNegative = true) : f.diagOrOk.isOk = false := by
  rw [Fpdu.isNegative, Bool.and_eq_true] at h
  cases hd : f.diag with
  | none => simp [hd] at h
  | some d => simpa [hd, Fpdu.diagOrOk] using h.2

def Call.silent : Call σ → Bool
  | .send _ | .effect (.send _) => false
  | _ => true

lemma said_silent {crc : Bool} {q : Call σ} (hq : q.silent = true) (r : Call.Result q) :
    said crc ⟨q, r⟩ = [] := by
  cases q with
  | effect w =>
    cases w with
    | send entity => cases hq
    | _ => rfl
  | send f => cases hq
  | _ => rfl

namespace Requester

variable {crc : Bool} (turns : ℕ) {t : List (Exchange σ)}

/-- What an engine says is calm. -/
def Calmly (crc : Bool) (_ : List (Exchange σ)) (e : Exchange σ) : Prop :=
  ∀ g ∈ e.said crc, calm g = true

lemma calmly_silent {q : Call σ} (hq : q.silent = true) (r : Call.Result q) : Calmly crc t ⟨q, r⟩ := by
  intro g hg
  rw [said_silent hq] at hg
  cases hg

lemma calmly_send {f : Fpdu} (hf : f.Composed) (hcalm : calm f = true)
    (r : Call.Result (.send f : Call σ)) :
    Calmly crc t ⟨.send f, r⟩ := by
  intro g hg
  obtain ⟨-, rfl⟩ := said_send hf hg
  exact hcalm

lemma silent_calmly {α : Type} {y : Engine σ α} (hy : y.Within fun q => q.silent = true) :
    Proc.Safe (Calmly crc) y t fun t' _ => ∃ w, t' = t ++ w := by
  refine hy.safe (fun t' => ∃ w, t' = t ++ w) ?_ ⟨[], (List.append_nil t).symm⟩
  rintro h ⟨q, r⟩ ⟨w, rfl⟩ hq
  exact ⟨calmly_silent hq r, w ++ [⟨q, r⟩], List.append_assoc t w _⟩

/-- The answer that has been heard, and what it has been taken for. -/
def Replied (expected : FpduKind) (t : List (Exchange σ)) (reply : Except SessionError Fpdu) : Prop :=
  Heard (fun g => g.kind = expected ∧
    match reply with
    | .ok ack => g = ack ∧ ack.isNegative = false
    | .error e => ∃ request message, e = .refused request g.diagOrOk message ∧ g.isNegative = true) t

lemma replyTurn_calmly (request expected : FpduKind) (machine : Machine) :
    Proc.Safe (Calmly crc) (replyTurn request expected machine : Engine σ _) t
      (Proc.TurnPost (fun _ _ => True) fun t' r => ∀ v, r = .ok v → Replied expected t' v.1) := by
  intro r
  refine ⟨calmly_silent rfl r, ?_⟩
  cases r with
  | error e => exact error_ok_elim
  | ok f =>
    show Proc.Safe _ (Proc.lift (Responder.applyReceived machine f) >>= _) (t ++ [⟨.recv, .ok f⟩]) _
    cases Responder.applyReceived machine f with
    | error e => exact error_ok_elim
    | ok v =>
      obtain ⟨ignored, m⟩ := v
      simp only [Proc.lift, Proc.done_bind]
      split
      · trivial
      · split
        · exact error_ok_elim
        · rename_i hk
          have hkind : f.kind = expected := not_not.mp hk
          split
          · rename_i hneg
            rintro v hv
            obtain rfl := Except.ok.inj hv
            exact heard_recv ⟨hkind, _, _, rfl, hneg⟩
          · rename_i hneg
            rintro v hv
            obtain rfl := Except.ok.inj hv
            exact heard_recv ⟨hkind, rfl, by simpa using hneg⟩

lemma exchange_calmly {f : Fpdu} (hf : f.Composed) (hcalm : calm f = true) (event : LocalEvent)
    (expected : FpduKind) (machine : Machine) :
    Proc.Yields (Calmly crc) (exchange turns f event expected machine : Engine σ _) t
      fun t' v => Replied expected t' v.1 := by
  have hask : Proc.Yields (Calmly crc) (ask f event machine : Engine σ Machine) t fun _ _ => True := by
    refine Proc.Yields.bind (P := fun _ _ => True) (Proc.yields_lift fun _ _ => trivial) fun _ m _ => ?_
    refine Proc.Yields.bind (P := fun _ _ => True) ?_ fun _ _ _ => Proc.yields_pure trivial
    intro r
    refine ⟨calmly_send hf hcalm r, fun _ _ => trivial⟩
  refine hask.bind fun t' m _ => ?_
  exact Proc.Safe.loop (fun _ _ => True) (fun _ m _ => replyTurn_calmly f.kind expected m) turns trivial

lemma refusedWith_ok {expected : FpduKind} {reply : Except SessionError Fpdu} {diag diag' : Diagnostic}
    (hreply : Replied expected t reply) (h : refusedWith diag reply = .ok diag')
    (hok : diag'.isOk = true) :
    diag' = diag ∧ ∃ ack, reply = .ok ack := by
  obtain ⟨e, -, g, -, -, hg⟩ := hreply
  cases reply with
  | ok ack => exact ⟨(Except.ok.inj h).symm, ack, rfl⟩
  | error err =>
    obtain ⟨request, message, rfl, hneg⟩ := hg
    obtain rfl := Except.ok.inj h
    rw [negative_notOk hneg] at hok
    cases hok

/-- The transfer has been acknowledged without a complaint. -/
abbrev Acknowledged : List (Exchange σ) → Prop :=
  Heard fun g => g.kind = .ackTransEnd ∧ g.isNegative = false

lemma announceEnd_calmly (r : Requester) (data : DataResult) (machine : Machine) :
    Proc.Yields (Calmly crc) (announceEnd turns r data machine : Engine σ _) t
      fun t' v => v.1.isOk = true → Acknowledged t' := by
  refine (exchange_calmly turns (Builder.transEnd_composed _ _ _) rfl _ _ machine).bind ?_
  rintro t' ⟨reply, m⟩ hreply
  cases reply with
  | ok ack =>
    refine Proc.Yields.bind (P := fun t'' _ => t'' = t') (Proc.yields_lift fun _ _ => rfl) ?_
    rintro _ - rfl
    refine Proc.yields_pure fun _ => ?_
    obtain ⟨e, he, g, hg, hk, rfl, hpos⟩ := hreply
    exact ⟨e, he, g, hg, hk, hpos⟩
  | error err =>
    refine Proc.Yields.bind (P := fun _ diag => refusedWith .ok (.error err) = .ok diag)
      (Proc.yields_lift fun _ h => h) ?_
    intro t'' diag hdiag
    refine Proc.yields_pure fun hok => ?_
    obtain ⟨-, ack, hack⟩ := refusedWith_ok hreply hdiag hok
    cases hack

lemma endTransfer_calmly (r : Requester) (data : DataResult) (machine : Machine) :
    Proc.Yields (Calmly crc) (endTransfer turns r data machine : Engine σ _) t
      fun t' v => data.ending = .completed → v.1.isOk = true → Acknowledged t' := by
  rw [endTransfer]
  cases hending : data.ending with
  | completed => exact (announceEnd_calmly turns r data machine).mono fun _ _ h _ => h
  | endedWithError d => exact (announceEnd_calmly turns r data machine).mono fun _ _ h _ => h
  | interrupted code d byPeer => exact Proc.yields_pure fun h => by cases h

lemma closeTransfer_calmly (r : Requester) (data : DataResult) (machine : Machine) :
    Proc.Yields (Calmly crc) (closeTransfer turns r data machine : Engine σ _) t
      fun t' v => (data.ending = .completed → v.1.isOk = true → Acknowledged t') ∧
        Heard (fun g => g.kind = .ackDeselect) t' := by
  refine (endTransfer_calmly turns r data machine).bind ?_
  rintro t₁ ⟨diag, m⟩ h₁
  refine (exchange_calmly turns (Builder.diagnosed_composed rfl _ _ _) rfl _ _ m).ran.bind ?_
    fun _ _ _ => error_ok_elim
  rintro t₂ ⟨reply, m₂⟩ ⟨hreply, w, rfl, -⟩
  refine Proc.Yields.bind (P := fun t' diag' => t' = t₁ ++ w ∧ refusedWith diag reply = .ok diag')
    (Proc.yields_lift fun _ h => ⟨rfl, h⟩) ?_
  rintro _ diag₂ ⟨rfl, hdiag⟩
  refine (exchange_calmly turns (Builder.diagnosed_composed rfl _ _ _) rfl _ _ m₂).ran.bind ?_
    fun _ _ _ => error_ok_elim
  rintro t₃ ⟨reply₃, m₃⟩ ⟨hreply₃, w₃, rfl, -⟩
  refine Proc.Yields.bind (P := fun t' diag' => t' = t₁ ++ w ++ w₃ ∧
    refusedWith diag₂ reply₃ = .ok diag') (Proc.yields_lift fun _ h => ⟨rfl, h⟩) ?_
  rintro _ diag₃ ⟨rfl, hdiag₃⟩
  refine Proc.yields_pure ⟨fun hcompleted hok => ?_, ?_⟩
  · obtain ⟨rfl, -⟩ := refusedWith_ok (hreply₃ _ rfl) hdiag₃ hok
    obtain ⟨rfl, -⟩ := refusedWith_ok (hreply _ rfl) hdiag hok
    exact ((h₁ hcompleted hok).append w).append w₃
  · obtain ⟨e, he, g, hg, hk, -⟩ := hreply₃ _ rfl
    exact ⟨e, he, g, hg, hk⟩

section Sending

variable {p : DataParams} {src : ArticleSource σ} {bs fs : List Fpdu} {ws : List Effect}

lemma performAll_calmly (h : ∀ g ∈ handed crc ws, calm g = true) :
    Proc.Safe (Calmly crc) (performAll ws : Engine σ Unit) t fun _ _ => True := by
  induction ws generalizing t with
  | nil => trivial
  | cons w ws ih =>
    have hsplit : handed crc (w :: ws) = handed crc [w] ++ handed crc ws := handed_append crc [w] ws
    rw [hsplit, List.forall_mem_append] at h
    have heffect : Proc.Safe (Calmly crc) (effect w : Engine σ Unit) t fun _ _ => True := by
      intro r
      refine ⟨?_, trivial⟩
      cases w with
      | send entity =>
        intro g hg
        have hmem := Link.mem_fpdusIn (said_entity hg)
        rw [handed_send] at h
        exact h.1 g hmem
      | _ => exact calmly_silent rfl r
    exact heffect.bind (fun _ _ _ => ih h.2) fun _ _ _ => trivial

/-- What is in the builder of a sender is calm as well. -/
def Primed (p : DataParams) : SendPhase σ → Prop
  | .looping s => ∃ bs, Stocked p s.entity bs ∧ ∀ f ∈ bs, calm f = true
  | _ => True

lemma perform_calmly {x : Io.Run (SendPhase σ)} {Q : SendPhase σ → List Fpdu → Prop}
    (hx : Puts p x bs fs Q) (hbs : ∀ f ∈ bs, calm f = true) (hfs : ∀ f ∈ fs, calm f = true)
    (hQ : ∀ phase bs', Q phase bs' → (∀ f ∈ bs', calm f = true) → Primed p phase) :
    Proc.Yields (Calmly p.crc) (perform x : Engine σ (SendPhase σ)) t fun _ phase => Primed p phase := by
  have hcalm : ∀ g ∈ bs ++ fs, calm g = true := by
    intro g hg
    rcases List.mem_append.mp hg with hg | hg
    · exact hbs g hg
    · exact hfs g hg
  refine Proc.Safe.bind (performAll_calmly fun g hg => hcalm g (hx.handed.subset hg)) ?_
    fun _ _ _ => error_ok_elim
  intro t' _ _
  refine Proc.yields_lift fun phase hphase => ?_
  obtain ⟨bs', hq, hws⟩ := Act.Meets.ok hx hphase
  exact hQ phase bs' hq fun f hf => hcalm f (hws ▸ List.mem_append_right _ hf)

lemma packed_calm {f : Fpdu} (h : SendData.Packed f) : calm f = true := calm_data h.1

lemma syncFpdus_calm (s : SendState σ) : ∀ f ∈ SendData.syncFpdus p s, calm f = true := by
  intro f hf
  rcases List.mem_append.mp hf with hf | hf
  · exact packed_calm (SendData.flush_packed _ f hf)
  · obtain rfl := List.mem_singleton.mp hf
    rfl

lemma turnFpdus_calm (s : SendState σ) (article : Bytes) :
    ∀ f ∈ SendData.turnFpdus p s article, calm f = true := by
  intro f hf
  rcases List.mem_append.mp hf with hf | hf
  · split at hf
    · exact syncFpdus_calm s f hf
    · cases hf
  · exact packed_calm (SendData.push_packed _ _ f hf)

lemma endFpdus_calm (s : SendState σ) : ∀ f ∈ SendData.endFpdus p s, calm f = true := by
  intro f hf
  rcases List.mem_append.mp hf with hf | hf
  · exact packed_calm (SendData.flush_packed _ f hf)
  · obtain rfl := List.mem_singleton.mp hf
    rfl

lemma advance_calmly {s : SendState σ} (h : Stocked p s.entity bs) (hbs : ∀ f ∈ bs, calm f = true) :
    Proc.Yields (Calmly p.crc) (perform (SendData.advance src p s) : Engine σ (SendPhase σ)) t
      fun _ phase => Primed p phase := by
  cases hnext : src.nextArticle s.source with
  | none =>
    rw [SendData.advance_end hnext]
    refine perform_calmly (SendData.endData_puts h) hbs (endFpdus_calm s) ?_
    rintro _ bs' ⟨-, m, rfl⟩ -
    trivial
  | some v =>
    obtain ⟨article, rest⟩ := v
    refine perform_calmly (SendData.advance_puts h hnext) hbs (turnFpdus_calm s article) ?_
    rintro _ bs' ⟨s', rfl, hs', -⟩ hcalm
    exact ⟨bs', hs', hcalm⟩

lemma handleAsync_calmly (store : MemoryCheckpoints) {s : SendState σ} (h : Stocked p s.entity bs)
    (hbs : ∀ f ∈ bs, calm f = true) (f : Fpdu) :
    Proc.Yields (Calmly p.crc)
    (perform (SendData.handleAsync src p store s f) : Engine σ (SendPhase σ)) t
      fun _ phase => Primed p phase := by
  have hone {g : Fpdu} (hg : calm g = true) : ∀ f ∈ [g], calm f = true := by simpa using hg
  by_cases hresyn : f.kind = .resyn
  · refine perform_calmly (SendData.resyn_puts hresyn) (by simp) (hone rfl) ?_
    rintro _ bs' ⟨rfl, m, rfl⟩ -
    exact ⟨[], h.take, by simp⟩
  by_cases hidt : f.kind = .idt
  · refine perform_calmly (SendData.idt_puts hidt) (by simp) (hone rfl) ?_
    rintro _ bs' ⟨-, m, res, rfl⟩ -
    trivial
  by_cases hack : f.kind = .ackSyn
  · refine perform_calmly (SendData.ackSyn_puts hack) hbs (by simp) ?_
    rintro _ _ ⟨rfl, m, rfl⟩ -
    exact ⟨bs, h, hbs⟩
  · refine perform_calmly (SendData.other_puts hresyn hidt hack) hbs (by simp) ?_
    rintro _ _ ⟨rfl, m, rfl⟩ -
    exact ⟨bs, h, hbs⟩

lemma cancel_calmly {s : SendState σ} (h : Stocked p s.entity bs) (hbs : ∀ f ∈ bs, calm f = true) :
    Proc.Yields (Calmly p.crc) (perform (SendData.cancel p s) : Engine σ (SendPhase σ)) t fun _ phase =>
    Primed p phase := by
  refine perform_calmly (SendData.cancel_puts h) hbs (fun f hf => ?_) ?_
  · obtain rfl := List.mem_singleton.mp hf
    rfl
  · rintro _ bs' ⟨-, m, rfl⟩ -
    trivial

lemma interrupted_calmly (s : SendState σ) (f : Fpdu) :
    Proc.Yields (Calmly p.crc) (perform (SendData.interrupted p s f) : Engine σ (SendPhase σ)) t
      fun _ phase => Primed p phase := by
  refine perform_calmly (SendData.interrupted_puts f) (by simp) (fun g hg => ?_) ?_
  · split at hg
    · obtain rfl := List.mem_singleton.mp hg
      rfl
    · cases hg
  · rintro _ bs' ⟨-, ⟨m, res, rfl⟩ | ⟨m, rfl⟩⟩ -
    · trivial
    · trivial

lemma sendData_calmly (turns : ℕ) (machine : Machine) (source : σ) (start : Checkpoint) :
    Proc.Safe (Calmly p.crc)
    (SendData.sendData src p (fun _ => pure ()) turns machine source start : Engine σ _) t
      fun _ _ => True := by
  have hrewind {t : List (Exchange σ)} :
      Proc.Safe (Calmly p.crc) (rewind : Engine σ Unit) t fun _ _ => True :=
    (silent_calmly (y := rewind) ⟨rfl, fun _ => trivial⟩).mono fun _ _ _ => trivial
  refine hrewind.bind (fun t₁ _ _ => ?_) fun _ _ _ => trivial
  refine Proc.Safe.loop (fun _ phase => Primed p phase) ?_ turns ⟨[], Stocked.new p, by simp⟩
  intro t phase hphase
  have hturn {y : Engine σ (SendPhase σ)} {t : List (Exchange σ)}
      (hy : Proc.Yields (Calmly p.crc) y t fun _ phase => Primed p phase) :
      Proc.Safe (Calmly p.crc) (do pure (.inl (← y)) : Engine σ (SendPhase σ ⊕ (Machine × DataResult))) t
        (Proc.TurnPost (fun _ phase => Primed p phase) fun _ _ => True) :=
    Proc.Safe.bind hy (fun _ a ha => ha a rfl) fun _ _ _ => trivial
  cases phase with
  | ended m res => trivial
  | failed e => trivial
  | interrupting s =>
    intro r
    refine ⟨calmly_silent rfl r, ?_⟩
    cases r with
    | error e => trivial
    | ok f => exact hturn (interrupted_calmly s f)
  | looping s =>
    obtain ⟨bs, hs, hbs⟩ := hphase
    have hasync {t : List (Exchange σ)} (f : Fpdu) :
        Proc.Yields (Calmly p.crc) (SendData.takeAsync src p s f : Engine σ (SendPhase σ)) t
        fun _ phase => Primed p phase := by
      intro store
      refine ⟨calmly_silent rfl store, ?_⟩
      refine (handleAsync_calmly store hs hbs f).bind fun t₃ phase hphase => ?_
      refine Proc.Safe.bind (P := fun _ _ => True) ?_ (fun _ _ _ => Proc.yields_pure hphase)
        fun _ _ _ => error_ok_elim
      rw [when]
      split
      · exact hrewind
      · trivial
    intro r
    refine ⟨calmly_silent rfl r, ?_⟩
    cases r with
    | error e => trivial
    | ok f =>
      cases f with
      | some f => exact hturn (hasync f)
      | none =>
        intro b
        refine ⟨calmly_silent rfl b, ?_⟩
        cases b with
        | true => exact hturn (cancel_calmly hs hbs)
        | false =>
          change Proc.Safe _ (if SendData.windowFull p s then _ else _) _ _
          split
          · intro r
            refine ⟨calmly_silent rfl r, ?_⟩
            cases r with
            | error e => trivial
            | ok f => exact hturn (hasync f)
          · refine hturn ?_
            intro r
            refine ⟨calmly_silent rfl r, ?_⟩
            cases r with
            | error e => exact error_ok_elim
            | ok _ =>
              refine (advance_calmly hs hbs).bind fun t₃ phase hphase => ?_
              cases SendData.progressOf phase <;> exact Proc.yields_pure hphase

end Sending

lemma request_calmly {f : Fpdu} (hf : f.Composed) (hcalm : calm f = true) (event : LocalEvent)
    (expected : FpduKind) (machine : Machine) :
    Proc.Yields (Calmly crc)
    (request turns f event expected machine : Engine σ _) t fun _ _ => True := by
  refine (exchange_calmly turns hf hcalm event expected machine).bind fun t' v _ => ?_
  refine Proc.Yields.bind (P := fun _ _ => True) (Proc.yields_lift fun _ _ => trivial) fun _ _ _ => ?_
  exact Proc.yields_pure trivial

lemma create_calm (file : FileSpec) (id : UInt8) : calm (file.create id) = true := by
  rw [(file.create_laid id).eq]
  rfl

lemma orf_calm (id : UInt8) (c : Compression) : calm (Builder.orf id c) = true := by
  rw [(Builder.orf_laid id c).eq]
  rfl

lemma write_composed (id : UInt8) : (Builder.write id).Composed :=
  ((Fpdu.Built.new .write rfl).withIds id 0).composed

lemma clear_calmly (c : Prop) [Decidable c] :
    Proc.Yields (Calmly crc) (when c clear : Engine σ Unit) t fun t' _ => t <+: t' := by
  refine (silent_calmly (when_within (x := clear) ⟨rfl, fun _ => trivial⟩)).mono ?_
  rintro _ _ ⟨w, rfl⟩ _ -
  exact List.prefix_append t w

lemma sendStart_calmly (file : FileSpec) (ack : Fpdu) :
    Proc.Yields (Calmly crc) (sendStart file ack : Engine σ Checkpoint) t fun _ _ => True := by
  refine (silent_calmly ?_).mono fun _ _ _ _ _ => trivial
  rw [sendStart]
  split
  · refine Proc.Within.bind (Proc.within_query rfl) fun store => ?_
    split <;> trivial
  · trivial

/-- A requester that takes its transfer for complete has been told so by the server, and all that it
has said is calm. -/
lemma sendFile_calmly (src : ArticleSource σ) (r : Requester) (spec : TransferSpec) (source : σ)
    (machine : Machine) :
    Proc.Yields (Calmly r.negotiated.crc) (sendFile turns src r spec source machine : Engine σ _) t
      fun t' v => v.1.isComplete → Acknowledged t' ∧ Heard (fun g => g.kind = .ackDeselect) t' := by
  refine (request_calmly turns (FileSpec.create_built _ _).composed (create_calm _ _) _
    _ machine).bind ?_
  rintro t₁ ⟨created, m₁⟩ -
  refine (request_calmly turns (Builder.orf_built _ _).composed (orf_calm _ _) _ _ m₁).bind ?_
  rintro t₂ ⟨opened, m₂⟩ -
  refine (request_calmly turns (write_composed _) rfl _ _ m₂).bind ?_
  rintro t₃ ⟨written, m₃⟩ -
  refine (sendStart_calmly _ written).bind fun t₄ start _ => ?_
  refine (clear_calmly _).bind fun t₅ _ _ => ?_
  refine Proc.Safe.bind (sendData_calmly (p := r.dataParams _ _ _) turns m₃ source start) ?_
    fun _ _ _ => error_ok_elim
  rintro t₆ ⟨m₆, data⟩ -
  refine (closeTransfer_calmly turns r data m₆).bind ?_
  rintro t₇ ⟨diag, m₇⟩ ⟨hack, hdeselect⟩
  refine (clear_calmly _).bind ?_
  rintro _ _ ⟨w, rfl⟩
  refine Proc.yields_pure ?_
  rintro ⟨hcompleted, hok⟩
  exact ⟨(hack hcompleted hok).append w, hdeselect.append w⟩

end Requester

end PesitWizard.Io
