import PesitWizard.Io.TransferEvents

/-! What the server application keeps of the transfers of a session: the ones in progress, their
cancellation flags and their records. -/

namespace PesitWizard.Node

open PesitWizard.Core Io Library

inductive TransferStatus
  | initiated | inProgress | paused | interrupted | completed | failed | cancelled
  deriving DecidableEq

structure TransferRecord where
  status : TransferStatus
  lastSyncPoint : ℕ

/-- A record that waits for the end of its transfer. -/
def TransferRecord.isOpen (r : TransferRecord) : Prop := r.status = .initiated ∨ r.status = .inProgress

structure PwHandler where
  active : List (ℕ × ℕ)
  cancels : List ℕ
  records : List TransferRecord

namespace PwHandler

def new : PwHandler := ⟨[], [], []⟩

def register (s : PwHandler) (handle lastSyncPoint : ℕ) : PwHandler :=
  let id := s.records.length
  ⟨s.active ++ [(handle, id)], s.cancels ++ [id], s.records ++ [⟨.initiated, lastSyncPoint⟩]⟩

def update (s : PwHandler) (id : ℕ) (f : TransferRecord → TransferRecord) : PwHandler :=
  { s with records := s.records.modify id f }

def remove (s : PwHandler) (handle id : ℕ) : PwHandler :=
  { s with
    active := s.active.filter (fun a => a.1 ≠ handle)
    cancels := s.cancels.filter (fun i => i ≠ id) }

def endStatus (data : DataResult) (diag : Diagnostic) : TransferStatus :=
  match data.ending with
  | .completed => if diag.isOk then .completed else .failed
  | .endedWithError _ => .failed
  | .interrupted _ _ byPeer => if byPeer then .interrupted else .cancelled

/-- An event for a handle that is not active is ignored. A progress that changes nothing here
may not be noted. -/
def transferEvent (s : PwHandler) (handle : ℕ) (e : TransferEvent) : PwHandler :=
  match s.active.lookup handle with
  | none => s
  | some id =>
    match e with
    | .started _ start => s.update id fun _ => ⟨.inProgress, start.sync⟩
    | .progress p => s.update id fun _ => ⟨.inProgress, p.sync⟩
    | .ended data diag => (s.remove handle id).update id fun _ => ⟨endStatus data diag, data.lastSync⟩
    | .failed _ =>
      (s.remove handle id).update id fun r =>
        { r with status := if 0 < r.lastSyncPoint then .interrupted else .failed }

variable {σ : Type}

def observe (s : PwHandler) : Exchange σ → PwHandler
  | ⟨.create _ _, r⟩ =>
    match (r : Except Refusal CreateAccept) with
    | .ok a => s.register a.handle ((a.restart.map Checkpoint.sync).getD 0)
    | .error _ => s
  | ⟨.select _ _ _, r⟩ =>
    match (r : Except Refusal (SelectAccept σ)) with
    | .ok a => s.register a.handle 0
    | .error _ => s
  | ⟨.event handle e, _⟩ => s.transferEvent handle e
  | _ => s

def after (t : List (Exchange σ)) : PwHandler := t.foldl observe .new

structure Released (s : PwHandler) : Prop where
  active : s.active = []
  cancels : s.cancels = []
  records : ∀ r ∈ s.records, ¬ r.isOpen

structure Follows (s : PwHandler) (x : ℕ) : Prop where
  kept : ∃ id r, s.active = [(x, id)] ∧ s.cancels = [id] ∧ s.records[id]? = some r ∧ r.isOpen ∧
    ∀ j r', j ≠ id → s.records[j]? = some r' → ¬ r'.isOpen

def Tracks (s : PwHandler) : Option ℕ → Prop
  | none => s.Released
  | some x => s.Follows x

lemma endStatus_closed (data : DataResult) (diag : Diagnostic) (n : ℕ) :
    ¬ (⟨endStatus data diag, n⟩ : TransferRecord).isOpen := by
  rw [TransferRecord.isOpen, endStatus]
  cases data.ending with
  | completed => cases diag.isOk <;> simp
  | endedWithError d => simp
  | interrupted code d byPeer => cases byPeer <;> simp

lemma register_follows {s : PwHandler} (h : s.Released) (x n : ℕ) : (s.register x n).Follows x := by
  refine ⟨s.records.length, ⟨.initiated, n⟩, ?_, ?_, ?_, .inl rfl, ?_⟩
  · simp [register, h.active]
  · simp [register, h.cancels]
  · simp [register]
  · intro j r' hj hr'
    simp only [register] at hr'
    rcases Nat.lt_or_ge j s.records.length with hlt | hge
    · rw [List.getElem?_append_left hlt] at hr'
      exact h.records r' (List.mem_of_getElem? hr')
    · rw [List.getElem?_eq_none (by simp; omega)] at hr'
      cases hr'

lemma Follows.update {s : PwHandler} {x : ℕ} (h : s.Follows x) {id : ℕ}
    (hid : s.active.lookup x = some id) (n : ℕ) : (s.update id fun _ => ⟨.inProgress, n⟩).Follows x := by
  obtain ⟨i, r, hactive, hcancels, hr, hopen, hother⟩ := h.kept
  rw [hactive] at hid
  obtain rfl : i = id := by simpa using hid
  refine ⟨i, ⟨.inProgress, n⟩, hactive, hcancels, ?_, .inr rfl, ?_⟩
  · simp [PwHandler.update, hr]
  · intro j r' hj hr'
    simp only [PwHandler.update, List.getElem?_modify, if_neg (Ne.symm hj)] at hr'
    exact hother j r' hj (by simpa using hr')

lemma Follows.remove {s : PwHandler} {x : ℕ} (h : s.Follows x) {id : ℕ}
    (hid : s.active.lookup x = some id) {f : TransferRecord → TransferRecord}
    (hf : ∀ r, ¬ (f r).isOpen) : ((s.remove x id).update id f).Released := by
  obtain ⟨i, r, hactive, hcancels, hr, hopen, hother⟩ := h.kept
  rw [hactive] at hid
  obtain rfl : i = id := by simpa using hid
  refine ⟨by simp [PwHandler.update, PwHandler.remove, hactive], by
    simp [PwHandler.update, PwHandler.remove, hcancels], ?_⟩
  intro r' hr'
  obtain ⟨j, hj⟩ := List.mem_iff_getElem?.mp hr'
  simp only [PwHandler.update, PwHandler.remove, List.getElem?_modify] at hj
  by_cases hij : i = j
  · subst hij
    obtain ⟨r₀, -, rfl⟩ := by simpa [hr] using hj
    exact hf _
  · simp only [if_neg hij] at hj
    exact hother j r' (Ne.symm hij) (by simpa using hj)

lemma Follows.lookup {s : PwHandler} {x : ℕ} (h : s.Follows x) : ∃ id, s.active.lookup x = some id := by
  obtain ⟨id, r, hactive, -⟩ := h.kept
  exact ⟨id, by simp [hactive]⟩

lemma transferEvent_tracks {s : PwHandler} {x : ℕ} (h : s.Follows x) (e : TransferEvent)
    {r : Call.Result (.event x e : Call σ)} :
    (s.transferEvent x e).Tracks (transfers.next (some x) (⟨.event x e, r⟩ : Exchange σ)) := by
  obtain ⟨id, hid⟩ := h.lookup
  cases e with
  | started transferId start =>
    simp only [transferEvent, hid]
    exact h.update hid start.sync
  | progress p =>
    simp only [transferEvent, hid]
    exact h.update hid p.sync
  | ended data diag =>
    simp only [transferEvent, hid]
    exact h.remove hid fun _ => endStatus_closed data diag _
  | failed e =>
    simp only [transferEvent, hid]
    refine h.remove hid fun r => ?_
    rw [TransferRecord.isOpen]
    split <;> simp

lemma observe_tracks {s : PwHandler} {t : List (Exchange σ)} {e : Exchange σ}
    (h : s.Tracks (transfers.current t)) (he : transfers.Admits t e) :
    (s.observe e).Tracks (transfers.next (transfers.current t) e) := by
  obtain ⟨q, r⟩ := e
  cases q with
  | create info file =>
    cases r with
    | error r => exact h
    | ok a =>
      rw [he.1 (by simp [transfers, Exchange.accepts])] at h
      exact register_follows h a.handle _
  | select info file attrs =>
    cases r with
    | error r => exact h
    | ok a =>
      rw [he.1 (by simp [transfers, Exchange.accepts])] at h
      exact register_follows h a.handle _
  | event x e =>
    have hx := he.2 x rfl
    rw [hx] at h ⊢
    exact transferEvent_tracks h e
  | _ => exact h

lemma after_tracks {t : List (Exchange σ)} (h : transfers.InOrder t) :
    (after t).Tracks (transfers.current t) := by
  induction t using List.reverseRecOn with
  | nil => exact ⟨rfl, rfl, by simp [after, new]⟩
  | append_singleton t e ih =>
    rw [Lifecycle.current_concat, after, List.foldl_append]
    exact observe_tracks (ih h.init) (h t e [] rfl)

lemma released_iff {t : List (Exchange σ)} (h : transfers.InOrder t) :
    (after t).Released ↔ transfers.current t = none := by
  have htracks := after_tracks h
  cases hc : transfers.current t with
  | none =>
    rw [hc] at htracks
    exact ⟨fun _ => rfl, fun _ => htracks⟩
  | some x =>
    rw [hc] at htracks
    obtain ⟨id, r, hactive, -⟩ := htracks.kept
    refine ⟨fun hr => ?_, fun hn => by cases hn⟩
    rw [hr.active] at hactive
    cases hactive

end PwHandler

open PwHandler Exchange

section Sessions

variable {σ : Type} (turns : ℕ) (src : ArticleSource σ) (cfg : ResponderConfig)

lemma serve_inOrder {t : List (Exchange σ)} {o : Option (Except SessionError Unit)}
    (h : Proc.Runs (Responder.serve turns src cfg) t o) : transfers.InOrder t := by
  intro u e v hu
  exact (Responder.serve_safe turns src cfg).runs h |>.1 u e v hu

/-- In a session that has come to its end, every transfer that the handler accepted got one terminal
event after all others, and nothing of it is kept, exactly if none of the failures that are not told to
the handler occurred. -/
theorem terminal_event_iff {t : List (Exchange σ)} {r : Except SessionError Unit}
    (h : Proc.Runs (Responder.serve turns src cfg) t (some r)) :
    (transfers.Settled t ∧ (after t).Released) ↔ ¬ Loses t := by
  have horder := serve_inOrder turns src cfg h
  rw [horder.settled_iff transfers_lawful, released_iff horder, and_self]
  have hend := ((Responder.serve_safe turns src cfg).runs h).2 r rfl
  rw [List.nil_append] at hend
  rcases hend with hidle | hbroken
  · exact ⟨fun _ => hidle.kept, fun _ => hidle.closed⟩
  · exact ⟨fun hn => absurd hn hbroken.isOpen, fun hn => absurd hbroken.lost hn⟩

theorem terminal_event_reported : ¬ Loses Responder.reportedSession.1 := by
  obtain ⟨r, hr⟩ :=
    Option.isSome_iff_exists.mp (show Responder.reportedSession.2.isSome = true by decide +kernel)
  have hruns := Responder.reportedSession_runs
  rw [hr] at hruns
  have hclosed : transfers.current Responder.reportedSession.1 = none := by decide +kernel
  have horder := serve_inOrder 2 VecSource.ops Responder.sampleServer hruns
  refine (terminal_event_iff 2 VecSource.ops Responder.sampleServer hruns).mp ⟨?_, ?_⟩
  · exact (horder.settled_iff transfers_lawful).mpr hclosed
  · exact (released_iff horder).mpr hclosed

@[irreducible] def unreportedSession : List (Exchange VecSource) × Option (Except SessionError Unit) :=
  Proc.play (world sampleConnectEntity sampleAccept Responder.sampleCreate Responder.brokenLink
    (fun f => if f.kind = .ackCreate then .error (.transport .closed) else .ok ()) (.ok ())) 0
    (Responder.serve 2 VecSource.ops Responder.sampleServer)

lemma unreportedSession_runs :
    Proc.Runs (Responder.serve 2 VecSource.ops Responder.sampleServer) unreportedSession.1
    unreportedSession.2 := by
  rw [unreportedSession]
  exact Proc.play_runs _ 0 _

/-- The transfer gets no terminal event, and the handler keeps it. -/
theorem terminal_event_missing :
    ∃ r, Proc.Runs (Responder.serve 2 VecSource.ops Responder.sampleServer)
    unreportedSession.1 (some r) ∧
      ¬ (transfers.Settled unreportedSession.1 ∧ (after unreportedSession.1).Released) := by
  obtain ⟨r, hr⟩ :=
    Option.isSome_iff_exists.mp (show unreportedSession.2.isSome = true by decide +kernel)
  have hruns := unreportedSession_runs
  rw [hr] at hruns
  have hopen : transfers.current unreportedSession.1 = some 1 := by decide +kernel
  have horder := serve_inOrder 2 VecSource.ops Responder.sampleServer hruns
  refine ⟨r, hruns, ?_⟩
  rintro ⟨hsettled, -⟩
  rw [horder.settled_iff transfers_lawful, hopen] at hsettled
  cases hsettled

end Sessions

end PesitWizard.Node
