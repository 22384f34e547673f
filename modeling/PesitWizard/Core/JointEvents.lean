import Mathlib.Tactic.Common
import PesitWizard.Core.Joint

/-! What one event does to the states and queues of a connection. -/

namespace PesitWizard.Core.Joint

lemma feed_snoc {s t u : State} {q : List Msg} {m : Msg} (hq : feed s q = some t)
    (hm : t.apply m.event = .next u) : feed s (q ++ [m]) = some u := by
  induction q generalizing s with
  | nil =>
    obtain rfl : s = t := Option.some.inj hq
    simp only [List.nil_append, feed, hm]
  | cons m' q ih =>
    simp only [feed] at hq
    split at hq
    · rename_i s' hs
      simp only [List.cons_append, feed, hs]
      exact ih hq
    · cases hq

lemma feed_cons {s t : State} {q : List Msg} {m : Msg} (h : feed s (m :: q) = some t) :
    ∃ s', s.apply m.event = .next s' ∧ feed s' q = some t := by
  simp only [feed] at h
  split at h
  · rename_i s' hs
    exact ⟨s', hs, h⟩
  · cases h

lemma syns_succ (n : ℕ) : syns n ++ [positive .ackSyn] = syns (n + 1) :=
  List.replicate_succ'.symm

lemma syns_cons {n : ℕ} {m : Msg} {p rest : List Msg} (h : m :: p = syns n ++ rest) :
    (∃ k, n = k + 1 ∧ m = positive .ackSyn ∧ p = syns k ++ rest) ∨ n = 0 ∧ m :: p = rest := by
  cases n with
  | zero => exact .inr ⟨rfl, h⟩
  | succ k =>
    have hk : m :: p = positive .ackSyn :: (syns k ++ rest) := h
    injection hk with hm hp
    exact .inl ⟨k, rfl, hm, hp⟩

lemma all_snoc {P : Msg → Prop} {q : List Msg} {m : Msg} (hq : ∀ x ∈ q, P x) (hm : P m) :
    ∀ x ∈ q ++ [m], P x := by
  intro x hx
  rcases List.mem_append.mp hx with h | h
  · exact hq x h
  · exact List.mem_singleton.mp h ▸ hm

section Exchanges

attribute [local simp] State.apply State.row State.awaiting State.answering permitted emits

lemma exchange_request : ∀ x ∈ exchanges, x.base.apply x.request.event = .next x.asked := by decide

lemma exchange_answer : ∀ x ∈ exchanges, ∀ a ∈ x.answers,
    x.asking.apply a.1.event = .next a.2 ∧ a.2 ∈ [State.cn01, .cn03, .sf03, .of02] := by decide

lemma exchange_base : ∀ x ∈ exchanges, x.base ∈ [State.cn01, .cn03, .sf03, .of02] := by decide

lemma idle_server {s : State} {e : LocalEvent} {m : Msg} {g : Bool}
    (hs : s ∈ [State.cn01, .cn03, .sf03, .of02]) (hp : permitted .server s e = true)
    (hm : m ∈ emits g s e) : False := by
  simp only [List.mem_cons, List.not_mem_nil, or_false] at hs
  rcases hs with rfl | rfl | rfl | rfl <;> cases e <;> simp_all [dataReceiver]

lemma asking_requester {x : Exchange} {e : LocalEvent} {m : Msg} {g : Bool} {r : State}
    (hx : x ∈ exchanges) (hg : x.asking = .mg01A → g = false) (hm : m ∈ emits g x.asking e)
    (ha : x.asking.apply (.ofLocal e) = .next r) : False := by
  simp only [exchanges, List.mem_cons, List.not_mem_nil, or_false] at hx
  rcases hx with rfl | rfl | rfl | rfl | rfl | rfl | rfl | rfl | rfl | rfl <;> cases e <;>
    simp_all

lemma asked_server {x : Exchange} {e : LocalEvent} {m : Msg} {g : Bool} {s : State} (hx : x ∈ exchanges)
    (hm : m ∈ emits g x.asked e) (ha : x.asked.apply (.ofLocal e) = .next s) :
    (m, s) ∈ x.answers ∨ x.asking = .tde01A ∧ m = positive .ackWrite ∧ s = .tde02B ∨
      x.asking = .tdl01A ∧ m = positive .ackRead ∧ s = .tdl02B := by
  simp only [exchanges, List.mem_cons, List.not_mem_nil, or_false] at hx
  rcases hx with rfl | rfl | rfl | rfl | rfl | rfl | rfl | rfl | rfl | rfl <;> cases e <;>
    simp_all

lemma idle_requester {s r : State} {e : LocalEvent} {m : Msg} {g : Bool}
    (hs : s ∈ [State.cn01, .cn03, .sf03, .of02]) (hm : m ∈ emits g s e)
    (ha : s.apply (.ofLocal e) = .next r) :
    (∃ x ∈ exchanges, x.base = s ∧ x.request = m ∧ x.asking = r ∧
      (r = .mg01A → e = .message ∧ m.kind ≠ .msgDm)) ∨
      e = .message ∧ s = .cn03 ∧ m = positive .msgDm ∧ r = .mg01A := by
  simp only [List.mem_cons, List.not_mem_nil, or_false] at hs
  rcases hs with rfl | rfl | rfl | rfl <;> cases e <;>
    simp_all [exchanges] <;> grind

end Exchanges

section Sending

attribute [local simp] State.apply State.row State.receiving State.receiverResyncSent State.answering

lemma write_sends {r r' t : State} {e : LocalEvent} {m : Msg} {g : Bool} (hr : writeMate r = some t)
    (hp : permitted .requester r e = true) (hm : m ∈ emits g r e)
    (ha : r.apply (.ofLocal e) = .next r') :
    e ≠ .message ∧ sent m = true ∧ ∃ t', writeMate r' = some t' ∧ t.apply m.event = .next t' := by
  cases r <;> simp only [writeMate, reduceCtorEq, Option.some.injEq] at hr <;> subst hr <;> cases e <;>
    simp only [permitted, emits, dataReceiver, List.mem_cons, List.not_mem_nil, or_false,
      Bool.false_eq_true] at hp hm <;>
    simp only [State.apply, State.row, State.sending, Outcome.next.injEq] at ha <;> subst ha
  · rcases hm with rfl | rfl | rfl | rfl <;> exact ⟨nofun, rfl, _, rfl, rfl⟩
  all_goals
    subst hm
    exact ⟨nofun, rfl, _, rfl, rfl⟩

lemma read_sends {s s' t : State} {e : LocalEvent} {m : Msg} {g : Bool} (hs : readMate s = some t)
    (hp : permitted .server s e = true) (hm : m ∈ emits g s e) (ha : s.apply (.ofLocal e) = .next s') :
    sent m = true ∧ ∃ t', readMate s' = some t' ∧ t.apply m.event = .next t' := by
  cases s <;> simp only [readMate, reduceCtorEq, Option.some.injEq] at hs <;> subst hs <;> cases e <;>
    simp only [permitted, emits, dataReceiver, List.mem_cons, List.not_mem_nil, or_false, reduceCtorEq,
      Bool.false_eq_true] at hp hm <;>
    simp only [State.apply, State.row, State.sending, Outcome.next.injEq] at ha <;> subst ha
  · rcases hm with rfl | rfl | rfl | rfl <;> exact ⟨rfl, _, rfl, rfl⟩
  all_goals
    subst hm
    exact ⟨rfl, _, rfl, rfl⟩

lemma write_receives {s s' : State} {m : Msg} (hs : s ∈ [State.tde02B, .tde07B, .tde08B])
    (hm : sent m = true) (ha : s.apply m.event = .next s') : s' ∈ [State.tde02B, .tde07B, .tde08B] := by
  obtain ⟨k, n⟩ := m
  simp only [List.mem_cons, List.not_mem_nil, or_false] at hs ⊢
  rcases hs with rfl | rfl | rfl <;> cases n <;> cases k <;>
    simp_all [sent, FpduKind.isData, Msg.event]

lemma read_receives {r r' : State} {m : Msg} (hr : r ∈ [State.tdl02A, .tdl07A]) (hm : sent m = true)
    (ha : r.apply m.event = .next r') : r' ∈ [State.tdl02A, .tdl07A] := by
  obtain ⟨k, n⟩ := m
  simp only [List.mem_cons, List.not_mem_nil, or_false] at hr ⊢
  rcases hr with rfl | rfl <;> cases n <;> cases k <;>
    simp_all [sent, FpduKind.isData, Msg.event]

lemma message_receives {s s' : State} {m : Msg} (hs : s ∈ [State.cn03, .mg01B, .mg04B])
    (hm : segment m = true) (ha : s.apply m.event = .next s') : s' ∈ [State.cn03, .mg01B, .mg04B] := by
  obtain ⟨k, n⟩ := m
  simp only [List.mem_cons, List.not_mem_nil, or_false] at hs ⊢
  rcases hs with rfl | rfl | rfl <;> cases n <;> cases k <;>
    simp_all [segment, Msg.event]

lemma feed_full {s t : State} {q : List Msg} {P : Msg → Prop}
    (hP : ∀ m, P m → ∀ u, s.apply m.event ≠ .next u) (hq : ∀ m ∈ q, P m) (hf : feed s q = some t) :
    q = [] ∧ t = s := by
  cases q with
  | nil => exact ⟨rfl, (Option.some.inj hf).symm⟩
  | cons m q =>
    obtain ⟨u, hu, -⟩ := feed_cons hf
    exact absurd hu (hP m (hq m List.mem_cons_self) u)

lemma tde08B_full {m : Msg} (hm : sent m = true) (u : State) : State.tde08B.apply m.event ≠ .next u := by
  obtain ⟨k, n⟩ := m
  cases n <;> cases k <;> simp_all [sent, FpduKind.isData, Msg.event]

lemma tdl07A_full {m : Msg} (hm : sent m = true) (u : State) : State.tdl07A.apply m.event ≠ .next u := by
  obtain ⟨k, n⟩ := m
  cases n <;> cases k <;> simp_all [sent, FpduKind.isData, Msg.event]

lemma mg04B_full {m : Msg} (hm : segment m = true) (u : State) :
    State.mg04B.apply m.event ≠ .next u := by
  obtain ⟨k, n⟩ := m
  cases n <;> cases k <;> simp_all [segment, Msg.event]

lemma resync_ignores {s : State} {m : Msg} (hs : s ∈ [State.tde03B, .tdl03A]) (hm : sent m = true) :
    s.apply m.event = .ignore := by
  obtain ⟨k, n⟩ := m
  simp only [List.mem_cons, List.not_mem_nil, or_false] at hs
  rcases hs with rfl | rfl <;> cases n <;> cases k <;>
    simp_all [sent, FpduKind.isData, Msg.event]

end Sending

end PesitWizard.Core.Joint
