import PesitWizard.Core.JointSound
import PesitWizard.Library.Attainable

/-! A connection never gets stuck: whatever has happened on it, the two machines can still
bring it to an end. -/

namespace PesitWizard.Core.Joint

open Library

def Config.inFlight (c : Config) : ℕ := c.toSrv.length + c.toReq.length

def Config.Quiet (c : Config) : Prop := c.toSrv = [] ∧ c.toReq = []

/-- Both sides are disconnected, and nothing is in flight. -/
def Config.Released (c : Config) : Prop := c.req.state = .cn01 ∧ c.srv.state = .cn01 ∧ c.Quiet

abbrev Soon (n : ℕ) (c : Config) (P : Config → Prop) : Prop :=
  Attainable Step (fun d => Reachable d ∧ P d) n c

section Draining

variable {c : Config}

lemma applies {m : Machine} {e : Event} (h : m.state.apply e ≠ .error) :
    ∃ ignored m', m.apply e = .ok (ignored, m') := by
  rw [Machine.apply]
  cases hs : m.state.apply e with
  | next s => exact ⟨_, _, rfl⟩
  | ignore => exact ⟨_, _, rfl⟩
  | error => exact absurd hs h

lemma delivers (h : Reachable c) (hne : ¬ c.Quiet) : Soon 1 c fun d => d.inFlight < c.inFlight := by
  obtain ⟨hsrv, hreq, -⟩ := joint_sound h
  cases hq : c.toSrv with
  | cons m q =>
    obtain ⟨ignored, s, hs⟩ := applies (hsrv m q hq)
    have hstep : Step c { c with srv := s, toSrv := q } := .toServer hq hs
    exact .later hstep (.now ⟨h.tail hstep, by simp [Config.inFlight, hq]⟩)
  | nil =>
    cases hp : c.toReq with
    | nil => exact absurd ⟨hq, hp⟩ hne
    | cons m p =>
      obtain ⟨ignored, r, hr⟩ := applies (hreq m p hp)
      have hstep : Step c { c with req := r, toReq := p } := .toRequester hp hr
      exact .later hstep (.now ⟨h.tail hstep, by simp [Config.inFlight, hp]⟩)

lemma drains (h : Reachable c) : Soon c.inFlight c Config.Quiet := by
  rw [← Nat.one_mul c.inFlight]
  refine Attainable.of_measure Config.inFlight Reachable 1 (fun d hd => ?_) h
  by_cases hq : d.Quiet
  · exact .inl ⟨hd, hq⟩
  · exact .inr (delivers hd hq)

end Draining

section Turns

/-- How many exchanges a requester is away from the end of its connection, when nothing is in flight. -/
def distance : State → ℕ
  | .cn02A | .cn04A => 1
  | .cn03 => 2
  | .sf01A | .sf02A | .sf04A | .mg04A => 3
  | .sf03 | .mg01A => 4
  | .of01A | .of03A => 5
  | .of02 => 6
  | .tde01A | .tdl01A | .tde08A | .tdl08A => 7
  | .tde07A | .tdl07A => 8
  | .tde02A | .tdl02A => 9
  | .tde04A | .tdl03A => 10
  | _ => 0

variable {r s : State} {g : Bool}

/-- The requester says something that brings the end nearer once the server has heard it. -/
def RequesterTurn (g : Bool) (r s : State) : Prop :=
  ∃ e m r' s', permitted .requester r e = true ∧ m ∈ emits g r e ∧ r.apply (.ofLocal e) = .next r' ∧
    s.apply m.event = .next s' ∧ distance r' < distance r

def ServerTurn (g : Bool) (r s : State) : Prop :=
  ∃ e m s' r', permitted .server s e = true ∧ m ∈ emits g s e ∧ s.apply (.ofLocal e) = .next s' ∧
    r.apply m.event = .next r' ∧ distance r' < distance r

lemma idle_turn (hs : s ∈ [State.cn01, .cn03, .sf03, .of02]) : s = .cn01 ∨ RequesterTurn g s s := by
  simp only [List.mem_cons, List.not_mem_nil, or_false] at hs
  rcases hs with rfl | rfl | rfl | rfl
  · exact .inl rfl
  · exact .inr ⟨.release, _, _, _, rfl, .head _, rfl, rfl, by decide⟩
  · exact .inr ⟨.deselect, _, _, _, rfl, .head _, rfl, rfl, by decide⟩
  · exact .inr ⟨.close, _, _, _, rfl, .head _, rfl, rfl, by decide⟩

lemma exchange_turn {x : Exchange} (hx : x ∈ exchanges) : ServerTurn g x.asking x.asked := by
  simp only [exchanges, List.mem_cons, List.not_mem_nil, or_false] at hx
  rcases hx with rfl | rfl | rfl | rfl | rfl | rfl | rfl | rfl | rfl | rfl <;>
    exact ⟨.reject, _, _, _, rfl, .head _, rfl, rfl, by decide⟩

lemma write_turn {t : State} (hr : writeMate r = some t) : RequesterTurn g r t ∨ ServerTurn g r t := by
  cases r <;> simp only [writeMate, reduceCtorEq, Option.some.injEq] at hr <;> subst hr
  · exact .inl ⟨.dataEnd, _, _, _, rfl, .head _, rfl, rfl, by decide⟩
  · exact .inl ⟨.transferEnd, _, _, _, rfl, .head _, rfl, rfl, by decide⟩
  · exact .inr ⟨.accept, _, _, _, rfl, .head _, rfl, rfl, by decide⟩

lemma read_turn {t : State} (hs : readMate s = some t) : RequesterTurn g t s ∨ ServerTurn g t s := by
  cases s <;> simp only [readMate, reduceCtorEq, Option.some.injEq] at hs <;> subst hs
  · exact .inr ⟨.dataEnd, _, _, _, rfl, .head _, rfl, rfl, by decide⟩
  · exact .inl ⟨.transferEnd, _, _, _, rfl, .head _, rfl, rfl, by decide⟩

/-- When nothing is in flight, it is somebody's turn unless both sides are disconnected. -/
lemma quiet_turn {q p : List Msg} (h : Inv r s q p g) (hq : q = []) (hp : p = []) :
    r = .cn01 ∧ s = .cn01 ∨ RequesterTurn g r s ∨ ServerTurn g r s := by
  cases h with
  | idle hs => exact (idle_turn hs).imp (fun h => ⟨h, h⟩) .inl
  | pending hx => exact .inr (.inr (exchange_turn hx))
  | segments _ _ hf =>
    subst hq
    obtain rfl := feed_nil hf
    exact .inr (.inl ⟨.dataEnd, _, _, _, rfl, .head _, rfl, rfl, by decide⟩)
  | lastSegment _ _ hf =>
    subst hq
    obtain rfl := feed_nil hf
    exact .inr (.inr ⟨.accept, _, _, _, rfl, .head _, rfl, rfl, by decide⟩)
  | write hr _ _ hf =>
    subst hq
    obtain rfl := feed_nil hf
    exact .inr (write_turn hr)
  | read hs _ _ hf =>
    subst hp
    obtain rfl := feed_nil hf
    exact .inr (read_turn hs)
  | writeResyncSeen => exact .inr (.inl ⟨.accept, _, _, _, rfl, .head _, rfl, rfl, by decide⟩)
  | readResyncSeen => exact .inr (.inr ⟨.accept, _, _, _, rfl, .head _, rfl, rfl, by decide⟩)
  | readEnded => exact .inr (.inr ⟨.accept, _, _, _, rfl, .head _, rfl, rfl, by decide⟩)
  | asked | writeResyncAcked | readResync | readEnding => simp at hq
  | answered | segmentsAnswered | writeOpen | writeOpenResync | writeResync | writeDone | readOpen
  | readResyncAcked | readDone => simp at hp

end Turns

section Endings

variable {c : Config}

lemma machine_next {m : Machine} {e : Event} {s : State} (h : m.state.apply e = .next s) :
    m.apply e = .ok (false, { m with state := s }) := by rw [Machine.apply, h]

/-- What a turn brings when both sides have taken it: the requester is nearer to the end. -/
abbrev Nearer (c : Config) : Prop :=
  Attainable Step (fun d => (Reachable d ∧ d.Quiet) ∧ distance d.req.state < distance c.req.state) 2 c

lemma RequesterTurn.taken (h : Reachable c) (hq : c.Quiet)
    (hturn : RequesterTurn c.segmented c.req.state c.srv.state) :
    Nearer c := by
  obtain ⟨e, m, r', s', hperm, hm, hr, hs, hlt⟩ := hturn
  have hsays := Step.requester hperm hm (machine_next hr)
  have hsrv : c.toSrv ++ [m] = [m] := by rw [hq.1, List.nil_append]
  have hhears := Step.toServer (c := { c with
    req := { c.req with state := r' }
    toSrv := c.toSrv ++ [m]
    segmented := if e = .message then m.kind = .msgDm else c.segmented }) hsrv (machine_next hs)
  exact .later hsays (.later hhears (.now ⟨⟨(h.tail hsays).tail hhears, rfl, hq.2⟩, hlt⟩))

lemma ServerTurn.taken (h : Reachable c) (hq : c.Quiet)
    (hturn : ServerTurn c.segmented c.req.state c.srv.state) :
    Nearer c := by
  obtain ⟨e, m, s', r', hperm, hm, hs, hr, hlt⟩ := hturn
  have hsays := Step.server hperm hm (machine_next hs)
  have hreq : c.toReq ++ [m] = [m] := by rw [hq.2, List.nil_append]
  have hhears :=
    Step.toRequester (c := { c with srv := { c.srv with state := s' }, toReq := c.toReq ++ [m] }) hreq
    (machine_next hr)
  exact .later hsays (.later hhears (.now ⟨⟨(h.tail hsays).tail hhears, hq.1, rfl⟩, hlt⟩))

lemma distance_le (s : State) : distance s ≤ 10 := by cases s <;> decide

lemma quiet_released (h : Reachable c) (hq : c.Quiet) : Attainable Step Config.Released 20 c := by
  have hnear : Attainable Step Config.Released (2 * distance c.req.state) c := by
    refine Attainable.of_measure (fun d => distance d.req.state) (fun d => Reachable d ∧ d.Quiet) 2
      (fun d hd => ?_) ⟨h, hq⟩
    rcases quiet_turn (reachable_sound hd.1) hd.2.1 hd.2.2 with ⟨hr, hs⟩ | hturn | hturn
    · exact .inl ⟨hr, hs, hd.2⟩
    · exact .inr (hturn.taken hd.1 hd.2)
    · exact .inr (hturn.taken hd.1 hd.2)
  exact hnear.le (Nat.mul_le_mul_left 2 (distance_le _))

/-- Whatever has happened on a connection, it can be released, at most 20 steps after what is in
flight has arrived. -/
theorem joint_releasable (h : Reachable c) : Attainable Step Config.Released (c.inFlight + 20) c :=
  (drains h).trans fun _ hd => quiet_released hd.1 hd.2

theorem joint_releasable_crossing : Attainable Step Config.Released 23 crossing :=
  joint_releasable crossing_reachable

end Endings

end PesitWizard.Core.Joint
