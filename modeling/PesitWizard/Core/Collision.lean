import Mathlib.Tactic.Common
import PesitWizard.Core.JointSound

/-! Resynchronisation by either side of a data phase. The data sender may send a RESYN as well, and the
tables then hold as long as no RESYN crosses another one. -/

namespace PesitWizard.Core.Joint

section Resynchronising

def requesterResyncs (c d : Config) : Prop :=
  ∃ r, c.req.apply (.ofLocal .resync) = .ok (false, r) ∧
    d = { c with req := r, toSrv := c.toSrv ++ [positive .resyn] }

def serverResyncs (c d : Config) : Prop :=
  ∃ s, c.srv.apply (.ofLocal .resync) = .ok (false, s) ∧
    d = { c with srv := s, toReq := c.toReq ++ [positive .resyn] }

/-- A step of a connection in which both sides resynchronise wherever their rows allow it. -/
def Resyncing (c d : Config) : Prop := Step c d ∨ requesterResyncs c d ∨ serverResyncs c d

/-- No RESYN is sent while one of the peer is on its way, nor by a server that has to
answer TRANS.END. -/
def Apart (c d : Config) : Prop :=
  (requesterResyncs c d → positive .resyn ∉ c.toReq) ∧
    (serverResyncs c d → positive .resyn ∉ c.toSrv ∧ c.srv.state ≠ .tdl08B)

def ApartStep (c d : Config) : Prop := Resyncing c d ∧ Apart c d

end Resynchronising

section Rows

/-- The states of a data phase outside its end: each side transfers data, waits for ACK(RESYN), or has
to answer a RESYN. -/
structure Rows where
  sends : State
  senderCalls : State
  senderCalled : State
  receives : State
  receiverCalls : State
  receiverCalled : State

def writeRows : Rows := ⟨.tde02A, .tde03A, .tde04A, .tde02B, .tde03B, .tde04B⟩

def readRows : Rows := ⟨.tdl02B, .tdl03B, .tdl04B, .tdl02A, .tdl03A, .tdl04A⟩

def transfers : List Rows := [writeRows, readRows]

def stream (m : Msg) : Bool := !m.negative && (m.kind.isData || m.kind = .syn)

/-- The data sender has sent a RESYN: its state, that of the receiver, and the queues to the
receiver and back. -/
inductive Called (w : Rows) : State → State → List Msg → List Msg → Prop
  | sent {q n} :
    (∀ m ∈ q, stream m = true) → Called w w.senderCalls w.receives (q ++ [positive .resyn]) (syns n)
  -- the RESYN follows the answer to one of the receiver
  | sentAgain {q q'} : (∀ m ∈ q, sent m = true) → (∀ m ∈ q', stream m = true) →
      Called w w.senderCalls w.receiverCalls (q ++ positive .ackResyn :: (q' ++ [positive .resyn])) []
  -- the RESYN is the answer to one of the receiver
  | countered {q} : (∀ m ∈ q, sent m = true) →
      Called w w.senderCalls w.receiverCalls (q ++ [positive .resyn]) []
  | seen {n} : Called w w.senderCalls w.receiverCalled [] (syns n)
  | accepted {n k} : Called w w.senderCalls w.receives [] (syns n ++ positive .ackResyn :: syns k)
  | acceptedAndCalled {n k} :
      Called w w.senderCalls w.receiverCalls []
      (syns n ++ positive .ackResyn :: (syns k ++ [positive .resyn]))
  | refused {n} : Called w w.senderCalls w.receiverCalls [] (syns n ++ [positive .resyn])

inductive Resumed (w : Rows) : State → State → List Msg → List Msg → Prop
  | data {k} : Resumed w w.sends w.receives [] (syns k)
  | calledAgain {k} : Resumed w w.sends w.receiverCalls [] (syns k ++ [positive .resyn])
  | called : Resumed w w.senderCalled w.receiverCalls [] []

variable {w : Rows} {a b : State} {m : Msg} {q p : List Msg} {e : LocalEvent} {g : Bool}

lemma receives_stream (hw : w ∈ transfers) (hm : stream m = true) :
    w.receives.apply m.event = .next w.receives := by
  obtain ⟨k, n⟩ := m
  simp only [transfers, List.mem_cons, List.not_mem_nil, or_false] at hw
  rcases hw with rfl | rfl <;> cases n <;> cases k <;>
    simp_all [stream, FpduKind.isData, Msg.event, writeRows, readRows, State.apply,
    State.row, State.receiving]

lemma calls_sent (hw : w ∈ transfers) (hm : sent m = true) :
    w.receiverCalls.apply m.event = .ignore := by
  simp only [transfers, List.mem_cons, List.not_mem_nil, or_false] at hw
  rcases hw with rfl | rfl <;> exact resync_ignores (by decide) hm

lemma rows_deliver : ∀ w ∈ transfers,
    w.receives.apply (positive .resyn).event = .next w.receiverCalled ∧
    w.receiverCalls.apply (positive .ackResyn).event = .next w.receives ∧
    w.receiverCalls.apply (positive .resyn).event = .next w.receiverCalled ∧
    w.senderCalls.apply (positive .ackSyn).event = .ignore ∧
    w.senderCalls.apply (positive .ackResyn).event = .next w.sends ∧
    w.senderCalls.apply (positive .resyn).event = .next w.senderCalled := by decide

lemma calls_silent {s : State} (hw : w ∈ transfers) (hs : s = w.senderCalls ∨ s = w.receiverCalls)
    (hm : m ∈ emits g s e) (ha : s.apply (.ofLocal e) = .next a) : False := by
  simp only [transfers, List.mem_cons, List.not_mem_nil, or_false] at hw
  rcases hw with rfl | rfl <;> rcases hs with rfl | rfl <;> cases e <;>
    simp [writeRows, readRows, emits, State.apply, State.row, State.senderResyncSent,
    State.receiverResyncSent] at hm ha

lemma receives_local (hw : w ∈ transfers) (hm : m ∈ emits g w.receives e)
    (ha : w.receives.apply (.ofLocal e) = .next b) :
    m = positive .ackSyn ∧ b = w.receives ∨ m = positive .resyn ∧ b = w.receiverCalls ∧ e = .resync := by
  simp only [transfers, List.mem_cons, List.not_mem_nil, or_false] at hw
  rcases hw with rfl | rfl <;> cases e <;>
    simp_all [writeRows, readRows, emits, State.apply, State.row, State.receiving]

lemma called_local (hw : w ∈ transfers) (hm : m ∈ emits g w.receiverCalled e)
    (ha : w.receiverCalled.apply (.ofLocal e) = .next b) :
    m = positive .ackResyn ∧ b = w.receives ∨ m = positive .resyn ∧ b = w.receiverCalls := by
  simp only [transfers, List.mem_cons, List.not_mem_nil, or_false] at hw
  rcases hw with rfl | rfl <;> cases e <;>
    simp_all [writeRows, readRows, emits, State.apply, State.row, State.receiverResyncRcvd]

end Rows

section Calls

variable {w : Rows} {a b a' b' : State} {m : Msg} {q p : List Msg} {e : LocalEvent} {g : Bool}

lemma Called.toReceiver (hw : w ∈ transfers) (h : Called w a b (m :: q) p) :
    Taken b m (fun b' => Called w a b' q p) := by
  obtain ⟨hreceives, hanswer, hcalls, -⟩ := rows_deliver w hw
  generalize hq : m :: q = mq at h
  cases h with
  | seen | accepted | acceptedAndCalled | refused => cases hq
  | @sent q₀ n hstream =>
    cases q₀ with
    | nil =>
      cases hq
      exact .inl ⟨_, hreceives, .seen⟩
    | cons m' q₀ =>
      cases hq
      exact .inl ⟨_, receives_stream hw (hstream m List.mem_cons_self),
        .sent (fun x hx => hstream x (.tail _ hx))⟩
  | @sentAgain q₀ q₁ hsent hstream =>
    cases q₀ with
    | nil =>
      cases hq
      exact .inl ⟨_, hanswer, .sent (n := 0) hstream⟩
    | cons m' q₀ =>
      cases hq
      exact .inr ⟨calls_sent hw (hsent m List.mem_cons_self),
        .sentAgain (fun x hx => hsent x (.tail _ hx)) hstream⟩
  | @countered q₀ hsent =>
    cases q₀ with
    | nil =>
      cases hq
      exact .inl ⟨_, hcalls, .seen (n := 0)⟩
    | cons m' q₀ =>
      cases hq
      exact .inr ⟨calls_sent hw (hsent m List.mem_cons_self),
        .countered (fun x hx => hsent x (.tail _ hx))⟩

lemma Called.toSender (hw : w ∈ transfers) (h : Called w a b q (m :: p)) :
    Taken a m (fun a' => Called w a' b q p ∨ Resumed w a' b q p) := by
  obtain ⟨-, -, -, hsyn, hanswer, hcalled⟩ := rows_deliver w hw
  generalize hp : m :: p = mp at h
  cases h with
  | sentAgain | countered => cases hp
  | sent hstream =>
    rcases syns_cons (show _ = syns _ ++ [] by simpa using hp) with ⟨k, rfl, rfl, rfl⟩ | ⟨-, h⟩
    · exact .inr ⟨hsyn, .inl (by simpa using Called.sent hstream)⟩
    · cases h
  | seen =>
    rcases syns_cons (show _ = syns _ ++ [] by simpa using hp) with ⟨k, rfl, rfl, rfl⟩ | ⟨-, h⟩
    · exact .inr ⟨hsyn, .inl (by simpa using Called.seen)⟩
    · cases h
  | accepted =>
    rcases syns_cons hp with ⟨k, rfl, rfl, rfl⟩ | ⟨-, h⟩
    · exact .inr ⟨hsyn, .inl .accepted⟩
    · cases h
      exact .inl ⟨_, hanswer, .inr .data⟩
  | acceptedAndCalled =>
    rcases syns_cons hp with ⟨k, rfl, rfl, rfl⟩ | ⟨-, h⟩
    · exact .inr ⟨hsyn, .inl .acceptedAndCalled⟩
    · cases h
      exact .inl ⟨_, hanswer, .inr .calledAgain⟩
  | refused =>
    rcases syns_cons hp with ⟨k, rfl, rfl, rfl⟩ | ⟨-, h⟩
    · exact .inr ⟨hsyn, .inl .refused⟩
    · cases h
      exact .inl ⟨_, hcalled, .inr .called⟩

lemma Called.sender_silent (hw : w ∈ transfers) (h : Called w a b q p) (hm : m ∈ emits g a e)
    (ha : a.apply (.ofLocal e) = .next a') : False := by
  obtain rfl : a = w.senderCalls := by cases h <;> rfl
  exact calls_silent hw (.inl rfl) hm ha

lemma Called.receiver (hw : w ∈ transfers) (h : Called w a b q p) (hm : m ∈ emits g b e)
    (hb : b.apply (.ofLocal e) = .next b') (hapart : e = .resync → positive .resyn ∉ q) :
    Called w a b' q (p ++ [m]) := by
  cases h with
  | sent hstream =>
    rcases receives_local hw hm hb with ⟨rfl, rfl⟩ | ⟨-, -, he⟩
    · rw [syns_succ]
      exact .sent hstream
    · exact absurd (List.mem_append_right _ (List.mem_singleton.mpr rfl)) (hapart he)
  | sentAgain | countered | acceptedAndCalled | refused => exact (calls_silent hw (.inr rfl) hm hb).elim
  | seen =>
    rcases called_local hw hm hb with ⟨rfl, rfl⟩ | ⟨rfl, rfl⟩
    · exact .accepted (k := 0)
    · exact .refused
  | accepted =>
    rw [List.append_assoc, List.cons_append]
    rcases receives_local hw hm hb with ⟨rfl, rfl⟩ | ⟨rfl, rfl, -⟩
    · rw [syns_succ]
      exact .accepted
    · exact .acceptedAndCalled

lemma Resumed.write {r s : State} (h : Resumed writeRows r s q p) : Inv r s q p g := by
  cases h with
  | data => exact .write rfl (by decide) (by simp) rfl
  | calledAgain => exact .writeResync rfl (by simp)
  | called => exact .writeResyncSeen (by simp)

lemma Resumed.read {r s : State} (h : Resumed readRows s r p q) : Inv r s q p g := by
  cases h with
  | data => exact .read rfl (by decide) (by simp) rfl
  | calledAgain => exact .readResync rfl (by simp)
  | called => exact .readResyncSeen (by simp)

end Calls

section Entries

variable {r s r' s' : State} {m : Msg} {q p : List Msg} {g : Bool}

lemma sent_cases (h : sent m = true) :
    m ∈ [FpduKind.dtf, .dtfDa, .dtfMa, .dtfFa, .syn, .dtfEnd, .transEnd].map positive := by
  obtain ⟨k, n⟩ := m
  cases n <;> cases k <;> simp_all [sent, FpduKind.isData]

lemma stream_of_next :
    ∀ m ∈ [FpduKind.dtf, .dtfDa, .dtfMa, .dtfFa, .syn, .dtfEnd, .transEnd].map positive,
    ∀ w ∈ transfers, ∀ s ∈ [State.tde02B, .tde07B, .tde08B] ++ [State.tdl02A, .tdl07A],
      s.apply m.event = .next w.receives → s = w.receives ∧ stream m = true := by decide

lemma write_stream (hs : s ∈ [State.tde02B, .tde07B, .tde08B]) (hsent : ∀ m ∈ q, sent m = true)
    (hf : feed s q = some .tde02B) : s = .tde02B ∧ ∀ m ∈ q, stream m = true := by
  induction q generalizing s with
  | nil => exact ⟨feed_nil hf, by simp⟩
  | cons m q ih =>
    rw [List.forall_mem_cons] at hsent ⊢
    obtain ⟨s', ha, hf'⟩ := feed_cons hf
    obtain ⟨rfl, hq⟩ := ih (write_receives hs hsent.1 ha) hsent.2 hf'
    obtain ⟨hsame, hm⟩ := stream_of_next m (sent_cases hsent.1) writeRows (by simp [transfers]) s
      (List.mem_append_left _ hs) ha
    exact ⟨hsame, hm, hq⟩

lemma read_stream (hr : r ∈ [State.tdl02A, .tdl07A]) (hsent : ∀ m ∈ p, sent m = true)
    (hf : feed r p = some .tdl02A) : r = .tdl02A ∧ ∀ m ∈ p, stream m = true := by
  induction p generalizing r with
  | nil => exact ⟨feed_nil hf, by simp⟩
  | cons m p ih =>
    rw [List.forall_mem_cons] at hsent ⊢
    obtain ⟨r', ha, hf'⟩ := feed_cons hf
    obtain ⟨rfl, hp⟩ := ih (read_receives hr hsent.1 ha) hsent.2 hf'
    obtain ⟨hsame, hm⟩ := stream_of_next m (sent_cases hsent.1) readRows (by simp [transfers]) r
      (List.mem_append_right _ hr) ha
    exact ⟨hsame, hm, hp⟩

lemma asking_calls : ∀ x ∈ exchanges, x.asking.apply (.ofLocal .resync) = .error := by decide

lemma idle_calls :
    ∀ s ∈ [State.cn01, .cn03, .sf03, .of02], s.apply (.ofLocal .resync) = .error := by decide

lemma requester_calls (h : Inv r s q p g) (ha : r.apply (.ofLocal .resync) = .next r')
    (hapart : positive .resyn ∉ p) :
    Inv r' s (q ++ [positive .resyn]) p g ∨ Called writeRows r' s (q ++ [positive .resyn]) p := by
  cases h with
  | idle hs => simp [idle_calls _ hs] at ha
  | asked hx | pending hx | answered hx => simp [asking_calls _ hx] at ha
  | segments | lastSegment | segmentsAnswered | writeOpen | writeOpenResync | writeDone | readOpen
  | readResync
  | readResyncSeen | readResyncAcked | readEnding | readEnded | readDone => cases ha
  | write hr hs hsent hf =>
    cases r <;> simp only [writeMate, reduceCtorEq, Option.some.injEq] at hr <;> subst hr <;> cases ha
    obtain ⟨rfl, hstream⟩ := write_stream hs hsent hf
    exact .inr (.sent (w := writeRows) hstream)
  | writeResync => exact absurd (List.mem_append_right _ (List.mem_singleton.mpr rfl)) hapart
  | writeResyncSeen hsent =>
    cases ha
    exact .inr (.countered (w := writeRows) hsent)
  | writeResyncAcked hr hsent hsent' hf =>
    cases r <;> simp only [writeMate, reduceCtorEq, Option.some.injEq] at hr <;> subst hr <;> cases ha
    obtain ⟨-, hstream⟩ := write_stream (by decide) hsent' hf
    rw [List.append_assoc, List.cons_append]
    exact .inr (.sentAgain (w := writeRows) hsent hstream)
  | read hs hr hsent hf =>
    simp only [List.mem_cons, List.not_mem_nil, or_false] at hr
    rcases hr with rfl | rfl <;> cases ha <;> exact .inl (.readResync hs hsent)

def CalledEarly (r s : State) (q p : List Msg) : Prop :=
  r = .tdl01A ∧ s = .tdl03B ∧ q = [] ∧
    ∃ p', (∀ m ∈ p', stream m = true) ∧ p = positive .ackRead :: (p' ++ [positive .resyn])

lemma server_calls (h : Inv r s q p g) (ha : s.apply (.ofLocal .resync) = .next s')
    (hapart : positive .resyn ∉ q) (hend : s ≠ .tdl08B) :
    Inv r s' q (p ++ [positive .resyn]) g ∨ Called readRows s' r (p ++ [positive .resyn]) q ∨
      CalledEarly r s' q (p ++ [positive .resyn]) := by
  cases h with
  | idle hs => simp [idle_calls _ hs] at ha
  | asked hx => simp [idle_calls _ (exchange_base _ hx)] at ha
  | @pending x _ hx =>
    have hasked : ∀ x ∈ exchanges, x.asked.apply (.ofLocal .resync) = .error := by decide
    simp [hasked _ hx] at ha
  | answered hx hans => simp [idle_calls _ (exchange_answer _ hx _ hans).2] at ha
  | segments hs | lastSegment hs =>
    have hmessage : ∀ s ∈ [State.cn03, .mg01B, .mg04B], s.apply (.ofLocal .resync) = .error := by decide
    simp [hmessage _ hs] at ha
  | segmentsAnswered | writeOpenResync | writeResync | writeResyncSeen | writeResyncAcked | writeDone
  | readEnding | readDone => cases ha
  | readEnded => exact absurd rfl hend
  | writeOpen =>
    cases ha
    rw [List.cons_append]
    exact .inl .writeOpenResync
  | write hr hs hsent hf =>
    simp only [List.mem_cons, List.not_mem_nil, or_false] at hs
    rcases hs with rfl | rfl | rfl <;> cases ha <;> exact .inl (.writeResync hr hsent)
  | readOpen hs hsent hf =>
    cases s <;> simp only [readMate, reduceCtorEq, Option.some.injEq] at hs <;> subst hs <;> cases ha
    obtain ⟨-, hstream⟩ := read_stream (by decide) hsent hf
    exact .inr (.inr ⟨rfl, rfl, rfl, _, hstream, rfl⟩)
  | read hs hr hsent hf =>
    cases s <;> simp only [readMate, reduceCtorEq, Option.some.injEq] at hs <;> subst hs <;> cases ha
    obtain ⟨rfl, hstream⟩ := read_stream hr hsent hf
    exact .inr (.inl (.sent (w := readRows) hstream))
  | readResync => exact absurd (List.mem_append_right _ (List.mem_singleton.mpr rfl)) hapart
  | readResyncSeen hsent =>
    cases ha
    exact .inr (.inl (.countered (w := readRows) hsent))
  | readResyncAcked hs hsent hsent' hf =>
    cases s <;> simp only [readMate, reduceCtorEq, Option.some.injEq] at hs <;> subst hs <;> cases ha
    obtain ⟨-, hstream⟩ := read_stream (by decide) hsent' hf
    rw [List.append_assoc, List.cons_append]
    exact .inr (.inl (.sentAgain (w := readRows) hsent hstream))

end Entries

section Runs

variable {r s r' s' : State} {m : Msg} {q p : List Msg} {e : LocalEvent} {g : Bool} {c d : Config}

def Resynced (r s : State) (q p : List Msg) (g : Bool) : Prop :=
  Inv r s q p g ∨ Called writeRows r s q p ∨ Called readRows s r p q ∨ CalledEarly r s q p

lemma Taken.imp {P Q : State → Prop} (h : Taken s m P) (hPQ : ∀ x, P x → Q x) : Taken s m Q := by
  rcases h with ⟨x, hx, hP⟩ | ⟨hx, hP⟩
  · exact .inl ⟨x, hx, hPQ x hP⟩
  · exact .inr ⟨hx, hPQ s hP⟩

lemma Resynced.toServer (h : Resynced r s (m :: q) p g) : Taken s m (fun s' => Resynced r s' q p g) := by
  rcases h with h | h | h | ⟨-, -, hq, -⟩
  · exact (deliver_server h).imp (fun _ => .inl)
  · exact (h.toReceiver (by simp [transfers])).imp (fun _ hx => .inr (.inl hx))
  · refine (h.toSender (by simp [transfers])).imp ?_
    rintro x (hx | hx)
    · exact .inr (.inr (.inl hx))
    · exact .inl hx.read
  · cases hq

lemma Resynced.toRequester (h : Resynced r s q (m :: p) g) :
    Taken r m (fun r' => Resynced r' s q p g) := by
  rcases h with h | h | h | ⟨rfl, rfl, rfl, p', hstream, hp⟩
  · exact (deliver_requester h).imp (fun _ => .inl)
  · refine (h.toSender (by simp [transfers])).imp ?_
    rintro x (hx | hx)
    · exact .inr (.inl hx)
    · exact .inl hx.write
  · exact (h.toReceiver (by simp [transfers])).imp (fun _ hx => .inr (.inr (.inl hx)))
  · cases hp
    exact .inl ⟨.tdl02A, rfl, .inr (.inr (.inl (.sent (w := readRows) (n := 0) hstream)))⟩

lemma early_requester (hm : m ∈ emits g .tdl01A e) (ha : State.tdl01A.apply (.ofLocal e) = .next r') :
    False := by
  cases e <;> simp [emits, State.apply, State.row, State.awaiting] at hm ha

lemma emits_resync (hm : m ∈ emits g s .resync) : m = positive .resyn := by
  revert hm
  cases s <;> simp [emits]

lemma mem_emits_resync (g : Bool) (s : State) : positive .resyn ∈ emits g s .resync := by
  cases s <;> simp [emits]

lemma Resynced.requester (h : Resynced r s q p g) (hperm : permitted .requester r e = true ∨ e = .resync)
    (hm : m ∈ emits g r e) (ha : r.apply (.ofLocal e) = .next r')
    (hapart : e = .resync → positive .resyn ∉ p) :
    Resynced r' s (q ++ [m]) p (if e = .message then m.kind = .msgDm else g) := by
  rcases h with h | h | h | ⟨rfl, -⟩
  · by_cases he : e = .resync
    · subst he
      obtain rfl := emits_resync hm
      exact (requester_calls h ha (hapart rfl)).imp_right .inl
    · exact .inl (local_requester h (hperm.resolve_right he) hm ha)
  · exact (h.sender_silent (by simp [transfers]) hm ha).elim
  · exact .inr (.inr (.inl (h.receiver (by simp [transfers]) hm ha hapart)))
  · exact (early_requester hm ha).elim

lemma Resynced.server (h : Resynced r s q p g) (hperm : permitted .server s e = true ∨ e = .resync)
    (hm : m ∈ emits g s e) (ha : s.apply (.ofLocal e) = .next s')
    (hapart : e = .resync → positive .resyn ∉ q ∧ s ≠ .tdl08B) : Resynced r s' q (p ++ [m]) g := by
  rcases h with h | h | h | ⟨-, rfl, -⟩
  · by_cases he : e = .resync
    · subst he
      obtain rfl := emits_resync hm
      rcases server_calls h ha (hapart rfl).1 (hapart rfl).2 with h | h | h
      · exact .inl h
      · exact .inr (.inr (.inl h))
      · exact .inr (.inr (.inr h))
    · exact .inl (local_server h (hperm.resolve_right he) hm ha)
  · exact .inr (.inl (h.receiver (by simp [transfers]) hm ha (fun he => (hapart he).1)))
  · exact (h.sender_silent (by simp [transfers]) hm ha).elim
  · exact (calls_silent (w := readRows) (by simp [transfers]) (.inl rfl) hm ha).elim

def Config.Resynced (c : Config) : Prop :=
  Joint.Resynced c.req.state c.srv.state c.toSrv c.toReq c.segmented

lemma step_resynced (hc : c.Resynced) (h : Step c d) (hapart : Apart c d) : d.Resynced := by
  cases h with
  | @requester e m x hp hm ha =>
    refine hc.requester (.inl hp) hm (apply_local ha) ?_
    rintro rfl
    obtain rfl := emits_resync hm
    exact hapart.1 ⟨x, ha, rfl⟩
  | @server e m x hp hm ha =>
    refine hc.server (.inl hp) hm (apply_local ha) ?_
    rintro rfl
    obtain rfl := emits_resync hm
    exact hapart.2 ⟨x, ha, rfl⟩
  | toServer hq ha =>
    rw [Config.Resynced, hq] at hc
    exact hc.toServer.apply ha
  | toRequester hq ha =>
    rw [Config.Resynced, hq] at hc
    exact hc.toRequester.apply ha

lemma ApartStep.resynced (h : ApartStep c d) (hc : c.Resynced) : d.Resynced := by
  obtain ⟨hstep | hcall | hcall, hapart⟩ := h
  · exact step_resynced hc hstep hapart
  · have hclear := hapart.1 hcall
    obtain ⟨x, ha, rfl⟩ := hcall
    exact hc.requester (.inr rfl) (mem_emits_resync _ _) (apply_local ha) (fun _ => hclear)
  · have hclear := hapart.2 hcall
    obtain ⟨x, ha, rfl⟩ := hcall
    exact hc.server (.inr rfl) (mem_emits_resync _ _) (apply_local ha) (fun _ => hclear)

lemma run_resynced (h : Relation.ReflTransGen ApartStep initial c) : c.Resynced := by
  induction h with
  | refl => exact .inl (.idle (by decide))
  | tail _ hstep ih => exact hstep.resynced ih

/-- As long as no two RESYN cross and none is sent after TRANS.END of a read, no FPDU is an error,
whichever side resynchronises and whatever the interleaving. -/
theorem resync_sound (h : Relation.ReflTransGen ApartStep initial c) :
    (∀ m q, c.toSrv = m :: q → c.srv.state.apply m.event ≠ .error) ∧
    (∀ m p, c.toReq = m :: p → c.req.state.apply m.event ≠ .error) := by
  have hc := run_resynced h
  refine ⟨?_, ?_⟩
  · intro m q hq
    rw [Config.Resynced, hq] at hc
    exact hc.toServer.not_error
  · intro m p hp
    rw [Config.Resynced, hp] at hc
    exact hc.toRequester.not_error

end Runs

section Plays

inductive Doing
  | requester (e : LocalEvent) (m : Msg)
  | server (e : LocalEvent) (m : Msg)
  | toServer
  | toRequester

def Config.perform (c : Config) : Doing → Option Config
  | .requester e m =>
    match c.req.apply (.ofLocal e) with
    | .ok (false, r) =>
      if (permitted .requester c.req.state e ∨ e = .resync) ∧ m ∈ emits c.segmented c.req.state e then
        some { c with
          req := r
          toSrv := c.toSrv ++ [m]
          segmented := if e = .message then m.kind = .msgDm else c.segmented }
      else none
    | _ => none
  | .server e m =>
    match c.srv.apply (.ofLocal e) with
    | .ok (false, s) =>
      if (permitted .server c.srv.state e ∨ e = .resync) ∧ m ∈ emits c.segmented c.srv.state e then
        some { c with srv := s, toReq := c.toReq ++ [m] }
      else none
    | _ => none
  | .toServer =>
    match c.toSrv with
    | [] => none
    | m :: q =>
      match c.srv.apply m.event with
      | .ok (_, s) => some { c with srv := s, toSrv := q }
      | .error _ => none
  | .toRequester =>
    match c.toReq with
    | [] => none
    | m :: p =>
      match c.req.apply m.event with
      | .ok (_, r) => some { c with req := r, toReq := p }
      | .error _ => none

lemma perform_resyncing {c d : Config} {a : Doing} (h : c.perform a = some d) : Resyncing c d := by
  cases a with
  | requester e m =>
    simp only [Config.perform] at h
    split at h
    · rename_i r hr
      split at h
      · rename_i hcan
        obtain rfl := Option.some.inj h
        rcases hcan with ⟨hperm | rfl, hm⟩
        · exact .inl (.requester hperm hm hr)
        · obtain rfl := emits_resync hm
          exact .inr (.inl ⟨r, hr, rfl⟩)
      · cases h
    · cases h
  | server e m =>
    simp only [Config.perform] at h
    split at h
    · rename_i s hs
      split at h
      · rename_i hcan
        obtain rfl := Option.some.inj h
        rcases hcan with ⟨hperm | rfl, hm⟩
        · exact .inl (.server hperm hm hs)
        · obtain rfl := emits_resync hm
          exact .inr (.inr ⟨s, hs, rfl⟩)
      · cases h
    · cases h
  | toServer =>
    simp only [Config.perform] at h
    split at h
    · cases h
    · rename_i m q hq
      split at h
      · rename_i ignored s hs
        obtain rfl := Option.some.inj h
        exact .inl (.toServer hq hs)
      · cases h
  | toRequester =>
    simp only [Config.perform] at h
    split at h
    · cases h
    · rename_i m p hp
      split at h
      · rename_i ignored r hr
        obtain rfl := Option.some.inj h
        exact .inl (.toRequester hp hr)
      · cases h

def Config.play (test : Config → Bool) (c : Config) : List Doing → Option Config
  | [] => some c
  | a :: as => if test c then (c.perform a).bind (fun d => d.play test as) else none

lemma play_steps {test : Config → Bool} {R : Config → Config → Prop}
    (hR : ∀ c d, test c = true → Resyncing c d → R c d) {c d : Config} {as : List Doing}
    (h : c.play test as = some d) : Relation.ReflTransGen R c d := by
  induction as generalizing c with
  | nil =>
    obtain rfl := Option.some.inj h
    exact .refl
  | cons a as ih =>
    rw [Config.play] at h
    split at h
    · rename_i htest
      obtain ⟨e, he, hd⟩ := Option.bind_eq_some_iff.mp h
      exact .head (hR c e htest (perform_resyncing he)) (ih hd)
    · cases h

def Config.clear (c : Config) : Bool :=
  positive .resyn ∉ c.toReq ∧ positive .resyn ∉ c.toSrv ∧ c.srv.state ≠ .tdl08B

lemma apart_of_clear {c d : Config} (hc : c.clear = true) (h : Resyncing c d) : ApartStep c d := by
  obtain ⟨hreq, hsrv, hend⟩ := of_decide_eq_true hc
  exact ⟨h, fun _ => hreq, fun _ => ⟨hsrv, hend⟩⟩

def accepted (e : LocalEvent) (request answer : Msg) : List Doing :=
  [.requester e request, .toServer, .server .accept answer, .toRequester]

def opened (selection : List Doing) : List Doing :=
  accepted .connect (positive .connect) (positive .aconnect) ++ selection ++
    accepted .open (positive .orf) (positive .ackOrf)

def writing : List Doing :=
  opened (accepted .create (positive .create) (positive .ackCreate)) ++
    accepted .write (positive .write) (positive .ackWrite)

def reading : List Doing :=
  opened (accepted .select (positive .select) (positive .ackSelect)) ++
    accepted .read (positive .read) (positive .ackRead)

theorem resync_sound_called :
    ∃ c, Relation.ReflTransGen ApartStep initial c ∧ c.toSrv = [positive .resyn] ∧
    c.srv.state.apply (positive .resyn).event ≠ .error := by
  have hplay :
      (initial.play Config.clear (writing ++ [.requester .resync (positive .resyn)])).map Config.toSrv =
      some [positive .resyn] := by decide
  obtain ⟨c, hc, hq⟩ := Option.map_eq_some_iff.mp hplay
  have hrun := play_steps (fun _ _ => apart_of_clear) hc
  exact ⟨c, hrun, hq, (resync_sound hrun).1 _ _ hq⟩

/-- Two RESYN cross and both are accepted: the ACK(RESYN) meets a side that transfers data again. And a
RESYN after TRANS.END meets a requester that waits for ACK(TRANS.END). -/
theorem resync_collision :
    (∃ c, Relation.ReflTransGen Resyncing initial c ∧ c.toReq = [positive .ackResyn] ∧
      c.req.state.apply (positive .ackResyn).event = .error) ∧
    (∃ c, Relation.ReflTransGen Resyncing initial c ∧ c.toReq = [positive .resyn] ∧
      c.req.state.apply (positive .resyn).event = .error) := by
  have hcrossed : (initial.play (fun _ => true) (writing ++
      [.requester .resync (positive .resyn), .server .resync (positive .resyn), .toServer, .toRequester,
        .requester .accept (positive .ackResyn), .server .accept (positive .ackResyn)])).map
      (fun c => (c.toReq, c.req.state)) = some ([positive .ackResyn], .tde02A) := by decide
  have hlate : (initial.play (fun _ => true) (reading ++
      [.server .dataEnd (positive .dtfEnd), .toRequester,
      .requester .transferEnd (positive .transEnd), .toServer,
        .server .resync (positive .resyn)])).map
      (fun c => (c.toReq, c.req.state)) = some ([positive .resyn], .tdl08A) := by decide
  obtain ⟨c, hc, hcrossing⟩ := Option.map_eq_some_iff.mp hcrossed
  obtain ⟨d, hd, hending⟩ := Option.map_eq_some_iff.mp hlate
  obtain ⟨hcq, hcs⟩ := Prod.mk.inj hcrossing
  obtain ⟨hdq, hds⟩ := Prod.mk.inj hending
  exact ⟨⟨c, play_steps (fun _ _ _ => id) hc, hcq, by rw [hcs]; rfl⟩,
    ⟨d, play_steps (fun _ _ _ => id) hd, hdq, by rw [hds]; rfl⟩⟩

end Plays

end PesitWizard.Core.Joint
