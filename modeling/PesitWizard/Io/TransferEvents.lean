import PesitWizard.Io.Responder
import PesitWizard.Library.Lifecycle

/-! The transfers that a handler accepts, and the events by which it learns what becomes of them. -/

namespace PesitWizard.Io

open PesitWizard.Core Library Engine

variable {σ : Type}

namespace Exchange

def accepts : Exchange σ → Option ℕ
  | ⟨.create _ _, r⟩ =>
    match (r : Except Refusal CreateAccept) with
    | .ok a => some a.handle
    | .error _ => none
  | ⟨.select _ _ _, r⟩ =>
    match (r : Except Refusal (SelectAccept σ)) with
    | .ok a => some a.handle
    | .error _ => none
  | _ => none

def reports : Exchange σ → Option ℕ
  | ⟨.event h _, _⟩ => some h
  | _ => none

def terminates : Exchange σ → Bool
  | ⟨.event _ (.ended _ _), _⟩ | ⟨.event _ (.failed _), _⟩ => true
  | _ => false

/-- Whether a call that may fail has failed. -/
def fails : Exchange σ → Bool
  | ⟨.send _, r⟩ | ⟨.finish, r⟩ | ⟨.clear, r⟩ =>
    match (r : Except SessionError Unit) with
    | .ok _ => false
    | .error _ => true
  | _ => false

/-- Whether the transfer is complete but for the clearing of its checkpoints. -/
def concludes : Exchange σ → Bool
  | ⟨.finish, _⟩ => true
  | ⟨.send f, _⟩ => f.kind = .ackDeselect
  | _ => false

/-- The calls whose failure nobody tells the handler: the answer to a request that it has accepted, and
what completes a transfer after its last FPDU. -/
def LosesAt (t : List (Exchange σ)) (e : Exchange σ) : Prop :=
  e.fails = true ∧
    match e.1 with
    | .send _ => ∃ d, t.getLast? = some d ∧ d.accepts ≠ none
    | .finish => True
    | .clear => ∃ d, t.getLast? = some d ∧ d.concludes = true
    | _ => False

def Loses (t : List (Exchange σ)) : Prop := ∃ u e v, t = u ++ e :: v ∧ LosesAt u e

lemma loses_nil : ¬ Loses ([] : List (Exchange σ)) := by
  rintro ⟨u, e, v, h, -⟩
  simp at h

lemma loses_concat (t : List (Exchange σ)) (e : Exchange σ) :
    Loses (t ++ [e]) ↔ Loses t ∨ LosesAt t e := by
  constructor
  · rintro ⟨u, d, v, h, hd⟩
    rcases List.eq_nil_or_concat v with rfl | ⟨v, c, rfl⟩
    · obtain ⟨rfl, rfl⟩ := List.append_inj' h rfl |>.imp id fun h => List.cons.inj h |>.1
      exact .inr hd
    · have h' : t ++ [e] = (u ++ d :: v) ++ [c] := by rw [h]; simp
      obtain ⟨rfl, -⟩ := List.append_inj' h' rfl
      exact .inl ⟨u, d, v, rfl, hd⟩
  · rintro (⟨u, d, v, rfl, hd⟩ | hd)
    · exact ⟨u, d, v ++ [e], by simp, hd⟩
    · exact ⟨t, e, [], rfl, hd⟩

end Exchange

open Exchange

def transfers : Lifecycle (Exchange σ) ℕ := ⟨accepts, reports, terminates⟩

lemma transfers_lawful : (transfers : Lifecycle (Exchange σ) ℕ).Lawful where
  used := by
    rintro ⟨q, r⟩ h
    cases q <;> first | exact ⟨_, rfl⟩ | cases h
  apart := by
    rintro ⟨q, r⟩ h
    cases q <;> first | rfl | cases h

structure Idle (t : List (Exchange σ)) : Prop where
  closed : transfers.current t = none
  kept : ¬ Loses t

structure Busy (x : ℕ) (t : List (Exchange σ)) : Prop where
  isOpen : transfers.current t = some x
  kept : ¬ Loses t
  answered : ∀ d, t.getLast? = some d → d.accepts = none

structure Broken (t : List (Exchange σ)) : Prop where
  isOpen : transfers.current t ≠ none
  lost : Loses t

section Steps

variable {t : List (Exchange σ)} {e : Exchange σ} {x : ℕ}

lemma Idle.answered (h : Idle t) : ∀ d, t.getLast? = some d → d.accepts = none := by
  intro d hd
  obtain ⟨u, rfl⟩ := List.getLast?_eq_some_iff.mp hd
  cases ha : d.accepts with
  | none => rfl
  | some y =>
    have hcurrent := h.closed
    rw [Lifecycle.current_concat, Lifecycle.next_opens ha] at hcurrent
    cases hcurrent

lemma admits_other (ha : e.accepts = none) (hr : e.reports = none) : transfers.Admits t e := by
  refine ⟨fun h => absurd ha h, ?_⟩
  intro y hy
  rw [show transfers.uses e = e.reports from rfl, hr] at hy
  cases hy

lemma not_terminates (hr : e.reports = none) : e.terminates = false := by
  obtain ⟨q, r⟩ := e
  cases q <;> first | rfl | cases hr

lemma current_other (ha : e.accepts = none) (hr : e.terminates = false) :
    transfers.current (t ++ [e]) = transfers.current t := by
  rw [Lifecycle.current_concat]
  exact Lifecycle.next_idle ha hr

lemma Idle.other (h : Idle t) (ha : e.accepts = none) (hr : e.reports = none) (hl : ¬ LosesAt t e) :
    transfers.Admits t e ∧ Idle (t ++ [e]) := by
  refine ⟨admits_other ha hr, ?_, ?_⟩
  · rw [current_other ha (not_terminates hr), h.closed]
  · rw [loses_concat]
    exact not_or.mpr ⟨h.kept, hl⟩

lemma Busy.other (h : Busy x t) (ha : e.accepts = none) (hr : e.reports = none) (hl : ¬ LosesAt t e) :
    transfers.Admits t e ∧ Busy x (t ++ [e]) := by
  refine ⟨admits_other ha hr, ?_, ?_, ?_⟩
  · rw [current_other ha (not_terminates hr), h.isOpen]
  · rw [loses_concat]
    exact not_or.mpr ⟨h.kept, hl⟩
  · intro d hd
    obtain rfl : e = d := by simpa using hd
    exact ha

lemma Broken.other (h : Broken t) (ha : e.accepts = none) (hr : e.reports = none) :
    transfers.Admits t e ∧ Broken (t ++ [e]) := by
  refine ⟨admits_other ha hr, ?_, ?_⟩
  · rw [current_other ha (not_terminates hr)]
    exact h.isOpen
  · rw [loses_concat]
    exact .inl h.lost

lemma traffic_accepts {q : Call σ} (hq : q.traffic = true) (r : Call.Result q) :
    accepts ⟨q, r⟩ = none := by
  cases q <;> first | rfl | cases hq

lemma traffic_reports {q : Call σ} (hq : q.traffic = true) (r : Call.Result q) :
    reports ⟨q, r⟩ = none := by
  cases q <;> first | rfl | cases hq

lemma traffic_keeps {q : Call σ} (hq : q.traffic = true) {r : Call.Result q}
    (h : ∀ d, t.getLast? = some d → d.accepts = none) :
    ¬ LosesAt t ⟨q, r⟩ := by
  rintro ⟨-, hl⟩
  cases q <;> first | exact hl | cases hq
  obtain ⟨d, hd, hne⟩ := hl
  exact hne (h d hd)

lemma Idle.traffic (h : Idle t) {q : Call σ} (hq : q.traffic = true) (r : Call.Result q) :
    transfers.Admits t ⟨q, r⟩ ∧ Idle (t ++ [⟨q, r⟩]) :=
  h.other (traffic_accepts hq r) (traffic_reports hq r) (traffic_keeps hq h.answered)

lemma Busy.traffic (h : Busy x t) {q : Call σ} (hq : q.traffic = true) (r : Call.Result q) :
    transfers.Admits t ⟨q, r⟩ ∧ Busy x (t ++ [⟨q, r⟩]) :=
  h.other (traffic_accepts hq r) (traffic_reports hq r) (traffic_keeps hq h.answered)

lemma Busy.report (h : Busy x t) {e : TransferEvent} {r : Call.Result (.event x e : Call σ)}
    (he : terminates (⟨.event x e, r⟩ : Exchange σ) = false) :
    transfers.Admits t ⟨.event x e, r⟩ ∧ Busy x (t ++ [⟨.event x e, r⟩]) := by
  refine ⟨⟨fun ha => absurd rfl ha, ?_⟩, ?_, ?_, ?_⟩
  · intro y hy
    obtain rfl : x = y := Option.some.inj hy
    exact h.isOpen
  · rw [current_other rfl he, h.isOpen]
  · rw [loses_concat]
    exact not_or.mpr ⟨h.kept, fun hl => hl.2⟩
  · intro d hd
    obtain rfl : (⟨.event x e, r⟩ : Exchange σ) = d := by simpa using hd
    rfl

lemma Busy.terminate (h : Busy x t) {e : TransferEvent} {r : Call.Result (.event x e : Call σ)}
    (he : terminates (⟨.event x e, r⟩ : Exchange σ) = true) :
    transfers.Admits t ⟨.event x e, r⟩ ∧ Idle (t ++ [⟨.event x e, r⟩]) := by
  refine ⟨⟨fun ha => absurd rfl ha, ?_⟩, ?_, ?_⟩
  · intro y hy
    obtain rfl : x = y := Option.some.inj hy
    exact h.isOpen
  · rw [Lifecycle.current_concat]
    exact Lifecycle.next_closes rfl he
  · rw [loses_concat]
    exact not_or.mpr ⟨h.kept, fun hl => hl.2⟩

end Steps

namespace Responder

section Lifecycle

variable (turns : ℕ) {t : List (Exchange σ)} {x : ℕ}

/-- The calls of a transfer that only moves data. -/
def Moves (x : ℕ) (q : Call σ) : Prop := q.traffic = true ∨ ∃ p, q = .event x (.progress p)

lemma busy_safe {α : Type} {y : Engine σ α} (hy : y.Within (Moves x)) (h : Busy x t) :
    Proc.Safe transfers.Admits y t (fun t' _ => Busy x t') := by
  refine hy.safe (Busy x) ?_ h
  rintro t ⟨q, r⟩ ht (hq | ⟨p, rfl⟩)
  · exact ht.traffic hq r
  · exact ht.report rfl

lemma moves_traffic (q : Call σ) (hq : q.traffic = true) : Moves x q := .inl hq

def Concluded (t : List (Exchange σ)) : Prop := ∃ d, t.getLast? = some d ∧ d.concludes = true

/-- What a transfer leaves: it is still open, and if there is a result it is complete and the machine is
where it was before the file was selected. -/
def Left (x : ℕ) {α : Type} (machine : α → Machine) (t : List (Exchange σ)) (r : Except SessionError α) :
    Prop :=
  Busy x t ∧ ∀ a, r = .ok a → Concluded t ∧ (machine a).state = .cn03

lemma Left.of_error {α : Type} {machine : α → Machine} (h : Busy x t) (e : SessionError) :
    Left x machine t (.error e) := ⟨h, error_ok_elim⟩

lemma deselect_state {s s' : State} {n : Bool} (h : s.apply (.received .deselect n) = .next s') :
    s' = .sf04B := by
  cases s <;> cases n <;> first | (cases h; rfl) | cases h

lemma answerDeselect_busy {machine : Machine} (hm : machine.state = .sf04B) (d : UInt8) (h : Busy x t) :
    Proc.Safe transfers.Admits (answer machine (Builder.ackDeselect d .ok)) t (Left x id) := by
  rw [answer, applyLocal_next (s := .cn03) (by rw [hm]; rfl)]
  intro r
  obtain ⟨hadmits, h'⟩ := h.traffic (q := .send (Builder.ackDeselect d .ok)) rfl r
  refine ⟨hadmits, ?_⟩
  cases r with
  | error e => exact .of_error h' e
  | ok _ =>
    refine ⟨h', ?_⟩
    rintro m hm
    obtain rfl := Except.ok.inj hm
    exact ⟨⟨_, List.getLast?_concat, rfl⟩, rfl⟩

lemma closeTransfer_busy (c : Conn) (data : DataResult) (machine : Machine) (h : Busy x t) :
    Proc.Safe transfers.Admits (closeTransfer turns c data machine) t (Left x Prod.snd) := by
  refine Proc.Safe.loop (fun t _ => Busy x t) ?_ turns h
  rintro t ⟨machine, diag⟩ h
  refine (busy_safe (y := recv) ⟨.inl rfl, fun _ => trivial⟩ h).bind ?_ fun t' e ht' => .of_error ht' e
  intro t₁ f h₁
  dsimp only
  cases hm : applyReceived machine f with
  | error e => exact .of_error h₁ e
  | ok v =>
    obtain ⟨ignored, m⟩ := v
    have hanswer : ∀ (g : Fpdu) (diag : Diagnostic), Proc.Safe transfers.Admits
        (do pure (.inl (← answer m g, diag)) : Engine σ ((Machine × Diagnostic) ⊕ (Diagnostic × Machine))) t₁
        (Proc.TurnPost (fun t _ => Busy x t) (Left x Prod.snd)) := by
      intro g diag
      refine (busy_safe (answer_within moves_traffic m g) h₁).bind ?_ fun t' e ht' => .of_error ht' e
      exact fun t' _ ht' => ht'
    show Proc.Safe transfers.Admits (if ignored = true then _ else _) t₁ _
    split
    · exact h₁
    · rename_i hignored
      split
      · split
        · exact hanswer _ _
        · exact hanswer _ _
      · exact hanswer _ _
      · rename_i hkind
        rcases applyReceived_state hm with ⟨rfl, -⟩ | ⟨-, hnext⟩
        · exact absurd rfl hignored
        · rw [hkind] at hnext
          refine (answerDeselect_busy (deselect_state hnext) c.peerId h₁).bind ?_ fun t' e ht' =>
            .of_error ht'.1 e
          intro t' m' ht'
          refine ⟨ht'.1, ?_⟩
          rintro ⟨d, m''⟩ hv
          obtain ⟨-, rfl⟩ := Prod.mk.inj (Except.ok.inj hv)
          exact ht'.2 _ rfl
      · exact .of_error h₁ _

lemma clear_busy (c : Prop) [Decidable c] (h : Busy x t) (hc : ¬ Concluded t) :
    Proc.Safe transfers.Admits (when c clear) t (fun t' _ => Busy x t') := by
  rw [when]
  split
  · intro r
    obtain ⟨hadmits, h'⟩ := h.other (e := ⟨.clear, r⟩) rfl rfl fun hl => hc hl.2
    refine ⟨hadmits, ?_⟩
    cases r with
    | error e => exact h'
    | ok _ => exact h'
  · exact h

lemma effect_busy (w : Effect) (h : Busy x t) :
    Proc.Safe transfers.Admits (effect w) t
    (fun t' r => Busy x t' ∧ ∀ a, r = .ok a → ¬ Concluded t') := by
  intro r
  obtain ⟨hadmits, h'⟩ := h.traffic (q := .effect w) rfl r
  refine ⟨hadmits, ?_⟩
  have hopen : ¬ Concluded (t ++ [(⟨.effect w, r⟩ : Exchange σ)]) := by
    rintro ⟨d, hd, hconcludes⟩
    obtain rfl := Option.some.inj (List.getLast?_concat.symm.trans hd)
    cases hconcludes
  cases r with
  | error e => exact ⟨h', error_ok_elim⟩
  | ok _ => exact ⟨h', fun _ _ => hopen⟩

lemma answer_busy (machine : Machine) {f : Fpdu} (hf : f.kind ≠ .ackDeselect) (h : Busy x t) :
    Proc.Safe transfers.Admits (answer machine f) t
    (fun t' r => Busy x t' ∧ ∀ a, r = .ok a → ¬ Concluded t') := by
  refine (busy_safe (y := Proc.lift _) trivial h).bind ?_ fun t' e ht' => ⟨ht', error_ok_elim⟩
  intro t₁ machine h₁ r
  obtain ⟨hadmits, h₂⟩ := h₁.traffic (q := .send f) rfl r
  refine ⟨hadmits, ?_⟩
  have hopen : ¬ Concluded (t₁ ++ [(⟨.send f, r⟩ : Exchange σ)]) := by
    rintro ⟨d, hd, hconcludes⟩
    obtain rfl := Option.some.inj (List.getLast?_concat.symm.trans hd)
    exact hf (of_decide_eq_true hconcludes)
  cases r with
  | error e => exact ⟨h₂, error_ok_elim⟩
  | ok _ => exact ⟨h₂, fun _ _ => hopen⟩

lemma notify_busy {e : TransferEvent}
    (he : ∀ r : Call.Result (.event x e : Call σ), terminates ⟨.event x e, r⟩ = false)
    (h : Busy x t) : Proc.Safe transfers.Admits (notify x e) t (fun t' _ => Busy x t') :=
  fun r => h.report (he r)

lemma report_within (p : Progress) : (notify x (.progress p) : Engine σ Unit).Within (Moves x) :=
  ⟨.inr ⟨p, rfl⟩, fun _ => trivial⟩

lemma Left.of_close {diag : Diagnostic} {machine : Machine} (h : Left x Prod.snd t (.ok (diag, machine)))
    (data : DataResult) :
    Left x (fun v : DataResult × Diagnostic × Machine => v.2.2) t (.ok (data, diag, machine)) := by
  refine ⟨h.1, ?_⟩
  rintro v hv
  obtain rfl := Except.ok.inj hv
  exact h.2 _ rfl

lemma runWrite_busy (c : Conn) (machine : Machine) (spec : FileSpec) (a : CreateAccept)
    (maxEntity : UInt16) (transferId : UInt32) (h : Busy a.handle t) :
    Proc.Safe transfers.Admits (runWrite turns c machine spec a maxEntity transferId) t
    (Left a.handle fun v => v.2.2) := by
  refine (busy_safe (openFile_within turns moves_traffic c machine) h).bind ?_
    fun t' e ht' => .of_error ht' e
  rintro t₁ ⟨compression, machine⟩ h₁
  refine (busy_safe (expect_within turns moves_traffic .write machine) h₁).bind ?_
    fun t' e ht' => .of_error ht' e
  rintro t₂ ⟨f, machine⟩ h₂
  refine (busy_safe (answer_within moves_traffic machine _) h₂).bind ?_ fun t' e ht' => .of_error ht' e
  intro t₃ machine h₃
  refine (effect_busy _ h₃).bind ?_ fun t' e ht' => .of_error ht'.1 e
  intro t₄ _ h₄
  refine (clear_busy _ h₄.1 (h₄.2 _ rfl)).bind ?_ fun t' e ht' => .of_error ht' e
  intro t₅ _ h₅
  refine (notify_busy (fun _ => rfl) h₅).bind ?_ fun t' e ht' => .of_error ht' e
  intro t₆ _ h₆
  refine (busy_safe (ReceiveData.receiveData_within moves_traffic report_within _ turns
    machine _) h₆).bind ?_ fun t' e ht' => .of_error ht' e
  rintro t₇ ⟨machine, data⟩ h₇
  refine (closeTransfer_busy turns c data machine h₇).bind ?_ fun t' e ht' => .of_error ht'.1 e
  rintro t₈ ⟨diag, machine⟩ h₈
  exact Left.of_close h₈ data

lemma runRead_busy (src : ArticleSource σ) (c : Conn) (machine : Machine) (spec : FileSpec)
    (a : SelectAccept σ) (maxEntity : UInt16) (transferId : UInt32) (h : Busy a.handle t) :
    Proc.Safe transfers.Admits (runRead turns src c machine spec a maxEntity transferId) t
    (Left a.handle fun v => v.2.2) := by
  refine (busy_safe (openFile_within turns moves_traffic c machine) h).bind ?_
    fun t' e ht' => .of_error ht' e
  rintro t₁ ⟨compression, machine⟩ h₁
  refine (busy_safe (expect_within turns moves_traffic .read machine) h₁).bind ?_
    fun t' e ht' => .of_error ht' e
  rintro t₂ ⟨f, machine⟩ h₂
  refine (busy_safe (y := checkpoints) ⟨.inl rfl, fun _ => trivial⟩ h₂).bind ?_
    fun t' e ht' => .of_error ht' e
  intro t₃ store h₃
  dsimp only
  cases readFrom store (f.restartPoint.getD 0) with
  | none =>
    refine (busy_safe (reject_within moves_traffic machine _) h₃).bind ?_ fun t' e ht' => .of_error ht' e
    exact fun t' m ht' => .of_error ht' _
  | some start =>
    refine (answer_busy machine (show FpduKind.ackRead ≠ .ackDeselect by decide) h₃).bind ?_
      fun t' e ht' => .of_error ht'.1 e
    intro t₄ machine h₄
    refine (clear_busy _ h₄.1 (h₄.2 _ rfl)).bind ?_ fun t' e ht' => .of_error ht' e
    intro t₅ _ h₅
    refine (notify_busy (fun _ => rfl) h₅).bind ?_ fun t' e ht' => .of_error ht' e
    intro t₆ _ h₆
    refine (busy_safe (SendData.sendData_within moves_traffic report_within src _ turns
      machine _ _) h₆).bind ?_ fun t' e ht' => .of_error ht' e
    rintro t₇ ⟨machine, data⟩ h₇
    refine (closeTransfer_busy turns c data machine h₇).bind ?_ fun t' e ht' => .of_error ht'.1 e
    rintro t₈ ⟨diag, machine⟩ h₈
    exact Left.of_close h₈ data

def Handled (t : List (Exchange σ)) : Except SessionError Machine → Prop
  | .ok machine => Idle t ∧ machine.state = .cn03
  | .error _ => Idle t ∨ Broken t

lemma idle_safe {α : Type} {y : Engine σ α} (hy : y.Within (fun q => q.traffic = true)) (h : Idle t) :
    Proc.Safe transfers.Admits y t (fun t' _ => Idle t') := by
  refine hy.safe Idle ?_ h
  rintro t ⟨q, r⟩ ht hq
  exact ht.traffic hq r

lemma broken_safe {α : Type} {y : Engine σ α}
    (hy : y.Within (fun q => q.traffic = true)) (h : Broken t) :
    Proc.Safe transfers.Admits y t (fun t' _ => Broken t') := by
  refine hy.safe Broken ?_ h
  rintro t ⟨q, r⟩ ht hq
  exact ht.other (traffic_accepts hq r) (traffic_reports hq r)

lemma answer_accepted (h : Idle t) {e : Exchange σ} (he : e.accepts = some x) {machine : Machine}
    (hm : machine.state = .sf01B ∨ machine.state = .sf02B) (g : Fpdu) :
    Proc.Safe transfers.Admits (answer machine g) (t ++ [e]) (fun t' r =>
      match r with
      | .ok _ => Busy x t'
      | .error _ => Broken t') := by
  have hnext : machine.state.apply (.ofLocal .accept) = .next .sf03 := by
    rcases hm with hm | hm
    · rw [hm]
      rfl
    · rw [hm]
      rfl
  have hopen : transfers.current (t ++ [e]) = some x := by
    rw [Lifecycle.current_concat]
    exact Lifecycle.next_opens he
  have hkept : ¬ Loses (t ++ [e]) := by
    rw [loses_concat]
    refine not_or.mpr ⟨h.kept, ?_⟩
    rintro ⟨hfails, -⟩
    obtain ⟨q, r⟩ := e
    cases q <;> first | cases hfails | cases he
  rw [answer, applyLocal_next hnext]
  intro r
  refine ⟨admits_other rfl rfl, ?_⟩
  have hopen' : transfers.current (t ++ [e] ++ [⟨.send g, r⟩]) = some x := by
    rw [current_other rfl rfl, hopen]
  cases r with
  | error err =>
    refine ⟨by rw [hopen']; simp, ?_⟩
    rw [loses_concat]
    refine .inr ⟨rfl, e, List.getLast?_concat, ?_⟩
    rw [he]
    simp
  | ok _ =>
    refine ⟨hopen', ?_, ?_⟩
    · rw [loses_concat]
      exact not_or.mpr ⟨hkept, fun hl => by cases hl.1⟩
    · intro d hd
      obtain rfl := Option.some.inj (List.getLast?_concat.symm.trans hd)
      rfl

lemma accepts_admitted (h : Idle t) (e : Exchange σ) (hr : e.reports = none) : transfers.Admits t e := by
  refine ⟨fun _ => h.closed, ?_⟩
  intro y hy
  rw [show transfers.uses e = e.reports from rfl, hr] at hy
  cases hy

lemma refused (h : Idle t) {e : Exchange σ} (he : e.accepts = none) (hr : e.reports = none)
    (hf : e.fails = false) :
    Idle (t ++ [e]) := by
  refine (h.other he hr ?_).2
  rintro ⟨hfails, -⟩
  rw [hf] at hfails
  cases hfails

lemma reject_idle {machine : Machine} (hm : machine.state = .sf01B ∨ machine.state = .sf02B)
    (g : Fpdu) (h : Idle t) :
    Proc.Safe transfers.Admits (reject machine g) t Handled := by
  have hnext : machine.state.apply (.ofLocal .reject) = .next .cn03 := by
    rcases hm with hm | hm
    · rw [hm]
      rfl
    · rw [hm]
      rfl
  rw [reject, applyLocal_next hnext]
  intro r
  obtain ⟨hadmits, h'⟩ := h.traffic (q := .send g) rfl r
  refine ⟨hadmits, ?_⟩
  cases r with
  | error e => exact .inl h'
  | ok _ => exact ⟨h', rfl⟩

lemma end_idle {e : TransferEvent}
    (he : ∀ r : Call.Result (.event x e : Call σ), terminates ⟨.event x e, r⟩ = true)
    (h : Busy x t) : Proc.Safe transfers.Admits (notify x e) t (fun t' _ => Idle t') :=
  fun r => h.terminate (he r)

def Completes (x : ℕ) (t : List (Exchange σ)) : Except SessionError Unit → Prop
  | .ok _ => Busy x t
  | .error _ => Broken t

lemma busy_broken (h : Busy x t) {e : Exchange σ} (he : e.accepts = none) (hr : e.reports = none)
    (hl : LosesAt t e) :
    Broken (t ++ [e]) := by
  refine ⟨?_, ?_⟩
  · rw [current_other he (not_terminates hr), h.isOpen]
    simp
  · rw [loses_concat]
    exact .inr hl

lemma finish_busy (h : Busy x t) :
    Proc.Safe transfers.Admits finish t
    (fun t' r => Completes x t' r ∧ ∀ a, r = .ok a → Concluded t') := by
  intro r
  refine ⟨admits_other rfl rfl, ?_⟩
  cases r with
  | error e => exact ⟨busy_broken h rfl rfl ⟨rfl, trivial⟩, error_ok_elim⟩
  | ok u =>
    have hbusy := h.other (e := ⟨.finish, .ok u⟩) rfl rfl (fun hl => by cases hl.1)
    exact ⟨hbusy.2, fun _ _ => ⟨_, List.getLast?_concat, rfl⟩⟩

lemma clear_completes (h : Busy x t) (hc : Concluded t) :
    Proc.Safe transfers.Admits clear t (Completes x) := by
  intro r
  refine ⟨admits_other rfl rfl, ?_⟩
  cases r with
  | error e => exact busy_broken h rfl rfl ⟨rfl, hc⟩
  | ok u => exact (h.other (e := ⟨.clear, .ok u⟩) rfl rfl (fun hl => by cases hl.1)).2

lemma when_completes (c : Prop) [Decidable c] {y : Engine σ Unit} (h : Busy x t)
    (hy : Proc.Safe transfers.Admits y t (Completes x)) :
    Proc.Safe transfers.Admits (when c y) t (Completes x) := by
  rw [when]
  split
  · exact hy
  · exact h

lemma conclude_idle {c : Prop} [Decidable c] {y : Engine σ Unit} (data : DataResult) (diag : Diagnostic)
    {machine : Machine} (hm : machine.state = .cn03) (h : Busy x t)
    (hy : Proc.Safe transfers.Admits y t (Completes x)) :
    Proc.Safe transfers.Admits
    (do when c y; notify x (.ended data diag); pure machine : Engine σ Machine) t Handled := by
  refine (when_completes c h hy).bind ?_ fun t' e ht' => .inr ht'
  intro t₁ _ h₁
  refine (end_idle (fun _ => rfl) h₁).bind ?_ fun t' e ht' => .inl ht'
  exact fun t' _ ht' => ⟨ht', hm⟩

lemma failure_idle (e : SessionError) (h : Busy x t) :
    Proc.Safe transfers.Admits
    (do notify x (.failed e); Proc.lift (.error e) : Engine σ Machine) t Handled := by
  refine (end_idle (fun _ => rfl) h).bind ?_ fun t' e ht' => .inl ht'
  exact fun t' _ ht' => .inl ht'

lemma handleCreate_handled (c : Conn) {machine : Machine} (hm : machine.state = .sf01B)
    (f : Fpdu) (h : Idle t) :
    Proc.Safe transfers.Admits (handleCreate turns c machine f) t Handled := by
  intro r
  refine ⟨accepts_admitted h _ rfl, ?_⟩
  cases r with
  | error r => exact reject_idle (.inl hm) _ (refused h rfl rfl rfl)
  | ok a =>
    refine (answer_accepted h rfl (.inl hm) _).bind ?_ fun t' e ht' => .inr ht'
    intro t₁ machine h₁
    refine (runWrite_busy turns c machine _ a _ _ h₁).attempt_bind ?_
    intro t₂ r h₂
    cases r with
    | error e => exact failure_idle e h₂.1
    | ok v =>
      obtain ⟨data, diag, machine⟩ := v
      obtain ⟨hconcluded, hm'⟩ := h₂.2 _ rfl
      refine conclude_idle data diag hm' h₂.1 ?_
      refine (finish_busy h₂.1).bind ?_ fun t' e ht' => ht'.1
      exact fun t' u ht' => clear_completes ht'.1 (ht'.2 u rfl)

lemma handleSelect_handled (src : ArticleSource σ) (c : Conn) {machine : Machine}
    (hm : machine.state = .sf02B) (f : Fpdu) (h : Idle t) :
    Proc.Safe transfers.Admits (handleSelect turns src c machine f) t Handled := by
  intro r
  refine ⟨accepts_admitted h _ rfl, ?_⟩
  cases r with
  | error r => exact reject_idle (.inr hm) _ (refused h rfl rfl rfl)
  | ok a =>
    refine (answer_accepted h rfl (.inr hm) _).bind ?_ fun t' e ht' => .inr ht'
    intro t₁ machine h₁
    refine (runRead_busy turns src c machine _ a _ _ h₁).attempt_bind ?_
    intro t₂ r h₂
    cases r with
    | error e => exact failure_idle e h₂.1
    | ok v =>
      obtain ⟨data, diag, machine⟩ := v
      obtain ⟨hconcluded, hm'⟩ := h₂.2 _ rfl
      exact conclude_idle data diag hm' h₂.1 (clear_completes h₂.1 hconcluded)

lemma lastSegment_state {s s' : State} {n : Bool} (h : s.apply (.received .msgFm n) = .next s') :
    s' = .mg04B := by
  cases s <;> cases n <;> first | (cases h; rfl) | cases h

lemma wholeMessage_idle (kind : FpduKind) {machine : Machine}
    (hm : kind ≠ .msgDm → machine.state = .mg04B) (head : Bytes)
    (h : Idle t) : Proc.Safe transfers.Admits (wholeMessage turns kind (machine, head)) t (fun t' r =>
      Idle t' ∧ ∀ v, r = .ok v → v.1.state = .mg04B) := by
  rw [wholeMessage]
  split
  · refine Proc.Safe.loop (fun t _ => Idle t) ?_ turns h
    rintro t ⟨machine, message⟩ h
    refine (idle_safe (y := recv) ⟨rfl, fun _ => trivial⟩ h).bind ?_ fun t' e ht' => ⟨ht', error_ok_elim⟩
    intro t₁ f h₁
    dsimp only
    cases hr : applyReceived machine f with
    | error e => exact ⟨h₁, error_ok_elim⟩
    | ok v =>
      obtain ⟨ignored, m⟩ := v
      show Proc.Safe transfers.Admits (if ignored = true then _ else _) t₁ _
      split
      · exact h₁
      · rename_i hignored
        split
        · exact h₁
        · rename_i hkind
          rcases applyReceived_state hr with ⟨rfl, -⟩ | ⟨-, hnext⟩
          · exact absurd rfl hignored
          · rw [hkind] at hnext
            refine ⟨h₁, ?_⟩
            intro v hv
            obtain rfl := Except.ok.inj hv
            exact lastSegment_state hnext
        · exact ⟨h₁, error_ok_elim⟩
  · rename_i hkind
    refine ⟨h, ?_⟩
    intro v hv
    obtain rfl := Except.ok.inj hv
    exact hm hkind

lemma handleMessage_handled (c : Conn) {machine : Machine} (f : Fpdu)
    (hm : f.kind ≠ .msgDm → machine.state = .mg04B) (h : Idle t) :
    Proc.Safe transfers.Admits (handleMessage turns c machine f) t Handled := by
  refine (wholeMessage_idle turns f.kind hm _ h).bind ?_ fun t' e ht' => .inl ht'.1
  rintro t₁ ⟨machine, message⟩ ⟨h₁, hm₁⟩ r
  obtain ⟨hadmits, h₂⟩ := h₁.other (e := ⟨.message c.info _ message _, r⟩) rfl rfl fun hl => hl.2
  refine ⟨hadmits, ?_⟩
  have hnext : machine.state.apply (.ofLocal .accept) = .next .cn03 := by
    rw [hm₁ _ rfl]
    rfl
  show Proc.Safe transfers.Admits (answer machine _) _ _
  rw [answer, applyLocal_next hnext]
  intro r
  obtain ⟨hadmits, h₃⟩ := h₂.traffic (q := .send _) rfl r
  refine ⟨hadmits, ?_⟩
  cases r with
  | error e => exact .inl h₃
  | ok _ => exact ⟨h₃, rfl⟩

lemma selecting_received {kind : FpduKind} {n : Bool} {s : State}
    (h : State.cn03.apply (.received kind n) = .next s) :
    (kind = .create → s = .sf01B) ∧ (kind = .select → s = .sf02B) ∧ (kind = .msg → s = .mg04B) := by
  refine ⟨?_, ?_, ?_⟩
  all_goals
    rintro rfl
    cases n
    · cases h
      rfl
    · cases h

lemma selecting_ignore (e : Event) : State.cn03.apply e ≠ .ignore := by
  intro h
  cases e with
  | received kind n => cases kind <;> cases n <;> cases h
  | ofLocal e => cases e <;> cases h

lemma selectionTurn_safe (src : ArticleSource σ) (c : Conn) {machine : Machine}
    (hm : machine.state = .cn03) (h : Idle t) :
    Proc.Safe transfers.Admits (selectionTurn turns src c machine) t
      (Proc.TurnPost (fun t m => Idle t ∧ m.state = .cn03) (fun t _ => Idle t ∨ Broken t)) := by
  refine (idle_safe (y := recv) ⟨rfl, fun _ => trivial⟩ h).bind ?_ fun t' e ht' => .inl ht'
  intro t₁ f h₁
  dsimp only
  cases hr : applyReceived machine f with
  | error e => exact .inl h₁
  | ok v =>
    obtain ⟨ignored, m⟩ := v
    obtain ⟨-, -, hignore⟩ | ⟨rfl, hnext⟩ := applyReceived_state hr
    · rw [hm] at hignore
      exact absurd hignore (selecting_ignore _)
    rw [hm] at hnext
    obtain ⟨hcreate, hselect, hmsg⟩ := selecting_received hnext
    have hturn : ∀ {y : Engine σ Machine}, Proc.Safe transfers.Admits y t₁ Handled →
        Proc.Safe transfers.Admits (do pure (.inl (← y)) : Engine σ (Machine ⊕ Unit)) t₁
          (Proc.TurnPost (fun t m => Idle t ∧ m.state = .cn03) (fun t _ => Idle t ∨ Broken t)) := by
      intro y hy
      exact hy.bind (fun t' m ht' => ht') fun t' e ht' => ht'
    simp only [Proc.lift, Proc.done_bind]
    split
    · rename_i hkind
      split
      · exact hturn (handleCreate_handled turns c (hcreate hkind) f h₁)
      · exact hturn (reject_idle (.inl (hcreate hkind)) _ h₁)
    · rename_i hkind
      split
      · exact hturn (handleSelect_handled turns src c (hselect hkind) f h₁)
      · exact hturn (reject_idle (.inr (hselect hkind)) _ h₁)
    · rename_i hkind
      exact hturn (handleMessage_handled turns c f (fun _ => hmsg hkind) h₁)
    · rename_i hkind
      exact hturn (handleMessage_handled turns c f (fun hne => absurd hkind hne) h₁)
    · refine (idle_safe (answer_within (fun _ hq => hq) m _) h₁).bind ?_ fun t' e ht' => .inl ht'
      exact fun t' _ ht' => .inl ht'
    · exact .inl h₁

lemma selectionPhase_safe (src : ArticleSource σ) (c : Conn) {machine : Machine}
    (hm : machine.state = .cn02B) (h : Idle t) :
    Proc.Safe transfers.Admits (selectionPhase turns src c machine) t
    (fun t' _ => Idle t' ∨ Broken t') := by
  have hnext : machine.state.apply (.ofLocal .accept) = .next .cn03 := by
    rw [hm]
    rfl
  rw [selectionPhase, answer, applyLocal_next hnext]
  intro r
  obtain ⟨hadmits, h'⟩ := h.traffic (q := .send _) rfl r
  refine ⟨hadmits, ?_⟩
  cases r with
  | error e => exact .inl h'
  | ok _ =>
    refine Proc.Safe.loop (fun t m => Idle t ∧ m.state = .cn03) ?_ turns ⟨h', rfl⟩
    rintro t m ⟨ht, hm⟩
    exact selectionTurn_safe turns src c hm ht

lemma connect_received {n : Bool} {o : Outcome} (h : State.cn01.apply (.received .connect n) = o)
    (ho : o ≠ .error) :
    o = .next .cn02B := by
  subst h
  cases n
  · rfl
  · exact absurd rfl ho

lemma readRequest_ok {cfg : ResponderConfig} {entity : Bytes}
    {preconnect : Option (String × String)} {connect : Fpdu} {req : ConnectRequest} {machine : Machine}
    (h : readRequest cfg entity preconnect = .ok (connect, req, machine)) :
    readConnect entity = .ok connect ∧ connect.kind = .connect ∧
    req = connectRequest connect preconnect cfg.remoteAddr ∧
      machine.state = .cn02B := by
  rw [readRequest] at h
  cases hc : readConnect entity with
  | error e =>
    rw [hc] at h
    cases h
  | ok f =>
    rw [hc] at h
    change (if f.kind ≠ .connect then _ else _) = _ at h
    split at h
    · cases h
    · rename_i hkind
      rw [not_not] at hkind
      cases hr : applyReceived (.new .server) f with
      | error e =>
        rw [hr] at h
        cases h
      | ok v =>
        obtain ⟨ignored, m⟩ := v
        rw [hr] at h
        cases h
        refine ⟨rfl, hkind, rfl, ?_⟩
        obtain ⟨-, -, hs⟩ | ⟨-, hs⟩ := applyReceived_state hr
        · rw [hkind] at hs
          cases connect_received hs (by simp)
        · rw [hkind] at hs
          exact Outcome.next.inj (connect_received hs (by simp))

lemma closed_safe (c : Conn) (error : Option SessionError) (h : Idle t ∨ Broken t)
    (r : Call.Result (.sessionClosed c.info error : Call σ)) :
    transfers.Admits t ⟨.sessionClosed c.info error, r⟩ ∧
      (Idle (t ++ [⟨.sessionClosed c.info error, r⟩]) ∨
        Broken (t ++ [⟨.sessionClosed c.info error, r⟩])) := by
  rcases h with h | h
  · exact (h.other rfl rfl fun hl => hl.2).imp_right .inl
  · exact (h.other rfl rfl).imp_right .inr

lemma abortOn_safe (connId peerId : UInt8) (e : SessionError) (h : Idle t ∨ Broken t) :
    Proc.Safe transfers.Admits (abortOn connId peerId e : Engine σ Unit) t
    (fun t' _ => Idle t' ∨ Broken t') := by
  rcases h with h | h
  · exact (idle_safe (abortOn_within (fun _ hq => hq) connId peerId e) h).mono fun _ _ => .inl
  · exact (broken_safe (abortOn_within (fun _ hq => hq) connId peerId e) h).mono fun _ _ => .inr

lemma authenticate_safe (cfg : ResponderConfig) (entity : Bytes) (connect : Fpdu) (req : ConnectRequest)
    (machine : Machine) (h : Idle t) :
    Proc.Safe transfers.Admits (authenticate cfg entity connect req machine : Engine σ Conn) t
    (fun t' _ => Idle t') := by
  change Proc.Safe transfers.Admits (if _ then _ else _) t _
  split
  · exact h
  · intro r
    obtain ⟨hadmits, h₁⟩ := h.other (e := ⟨.authenticate req, r⟩) rfl rfl fun hl => hl.2
    refine ⟨hadmits, ?_⟩
    cases r with
    | ok a => exact h₁
    | error r =>
      refine (idle_safe (reject_within (fun _ hq => hq) machine _) h₁).bind ?_ fun t' e ht' => ht'
      exact fun t' _ ht' => ht'

theorem serve_safe (src : ArticleSource σ) (cfg : ResponderConfig) :
    Proc.Safe transfers.Admits (serve turns src cfg) [] (fun t' _ => Idle t' ∨ Broken t') := by
  have hidle : Idle ([] : List (Exchange σ)) := ⟨rfl, loses_nil⟩
  refine (idle_safe (awaitConnect_within fun _ hq => hq) hidle).bind ?_ fun t' e ht' => .inl ht'
  rintro t₁ ⟨entity, preconnect⟩ h₁
  dsimp only
  cases hr : readRequest cfg entity preconnect with
  | error e => exact .inl h₁
  | ok v =>
    obtain ⟨connect, req, machine⟩ := v
    obtain ⟨-, -, -, hm⟩ := readRequest_ok hr
    refine (authenticate_safe cfg entity connect req machine h₁).attempt_bind ?_
    intro t₂ r h₂
    cases r with
    | error e =>
      refine (abortOn_safe cfg.connId connect.idSrc e (.inl h₂)).bind ?_ fun t' e ht' => ht'
      exact fun t' _ ht' => ht'
    | ok c =>
      refine (selectionPhase_safe turns src c hm h₂).attempt_bind ?_
      intro t₃ r h₃
      cases r with
      | ok u =>
        intro r
        exact closed_safe c none h₃ r
      | error e =>
        intro r
        obtain ⟨hadmits, h₄⟩ := closed_safe c (some e) h₃ r
        refine ⟨hadmits, ?_⟩
        refine (abortOn_safe c.connId c.peerId e h₄).bind ?_ fun t' e ht' => ht'
        exact fun t' _ ht' => ht'

end Lifecycle

def brokenLink : ℕ → Except SessionError Fpdu
  | 3 => .ok (sampleFile.create 9)
  | _ => .error (.transport .closed)

def sampleServer : ResponderConfig := ⟨"S", 9, ""⟩

def sampleCreate : CreateAccept := ⟨none, none, 0, 1, none⟩

@[irreducible] def reportedSession : List (Exchange VecSource) × Option (Except SessionError Unit) :=
  Proc.play (world sampleConnectEntity sampleAccept sampleCreate brokenLink (fun _ => .ok ()) (.ok ())) 0
    (serve 2 VecSource.ops sampleServer)

lemma reportedSession_runs :
    Proc.Runs (serve 2 VecSource.ops sampleServer) reportedSession.1 reportedSession.2 := by
  rw [reportedSession]
  exact Proc.play_runs _ 0 _

end Responder

end PesitWizard.Io
