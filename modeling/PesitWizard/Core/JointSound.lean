import Mathlib.Tactic.Common
import PesitWizard.Core.JointEvents

/-! The two machines never meet an FPDU that their tables refuse. -/

namespace PesitWizard.Core.Joint

section Deliveries

def Taken (s : State) (m : Msg) (P : State → Prop) : Prop :=
  (∃ s', s.apply m.event = .next s' ∧ P s') ∨ s.apply m.event = .ignore ∧ P s

lemma Taken.not_error {s : State} {m : Msg} {P : State → Prop} (h : Taken s m P) :
    s.apply m.event ≠ .error := by
  rcases h with ⟨s', hs, -⟩ | ⟨hs, -⟩ <;> simp [hs]

lemma write_takes_ackSyn {r t : State} {P : State → Prop} (hr : writeMate r = some t) (hP : P r) :
    Taken r (positive .ackSyn) P := by
  cases r <;> simp only [writeMate, reduceCtorEq] at hr
  · exact .inl ⟨_, rfl, hP⟩
  · exact .inl ⟨_, rfl, hP⟩
  · exact .inr ⟨rfl, hP⟩

lemma read_takes_ackSyn {s t : State} {P : State → Prop} (hs : readMate s = some t) (hP : P s) :
    Taken s (positive .ackSyn) P := by
  cases s <;> simp only [readMate, reduceCtorEq] at hs
  · exact .inl ⟨_, rfl, hP⟩
  · exact .inr ⟨rfl, hP⟩

lemma write_takes_resyn {r t : State} (hr : writeMate r = some t) :
    r.apply (positive .resyn).event = .next .tde04A := by
  cases r <;> simp only [writeMate, reduceCtorEq] at hr <;> rfl

lemma read_takes_resyn {s t : State} (hs : readMate s = some t) :
    s.apply (positive .resyn).event = .next .tdl04B := by
  cases s <;> simp only [readMate, reduceCtorEq] at hs <;> rfl

variable {r s : State} {m : Msg} {q p : List Msg} {g : Bool}

lemma deliver_server (h : Inv r s (m :: q) p g) : Taken s m (fun s' => Inv r s' q p g) := by
  generalize hq : m :: q = mq at h
  cases h with
  | idle | pending | answered | segmentsAnswered | writeOpen | writeOpenResync | writeDone | readOpen
  | readResyncSeen | readResyncAcked | readEnded | readDone => cases hq
  | asked hx hg =>
    cases hq
    exact .inl ⟨_, exchange_request _ hx, .pending hx hg⟩
  | segments hs hsent hf =>
    subst hq
    obtain ⟨s', ha, hf'⟩ := feed_cons hf
    have hs' := message_receives hs (hsent m List.mem_cons_self) ha
    exact .inl ⟨s', ha, .segments hs' (fun x hx => hsent x (.tail _ hx)) hf'⟩
  | lastSegment hs hsent hf =>
    subst hq
    obtain ⟨s', ha, hf'⟩ := feed_cons hf
    have hs' := message_receives hs (hsent m List.mem_cons_self) ha
    exact .inl ⟨s', ha, .lastSegment hs' (fun x hx => hsent x (.tail _ hx)) hf'⟩
  | write hr hs hsent hf =>
    subst hq
    obtain ⟨s', ha, hf'⟩ := feed_cons hf
    have hs' := write_receives hs (hsent m List.mem_cons_self) ha
    exact .inl ⟨s', ha, .write hr hs' (fun x hx => hsent x (.tail _ hx)) hf'⟩
  | writeResync hr hsent =>
    subst hq
    have ha := resync_ignores (s := .tde03B) (by decide) (hsent m List.mem_cons_self)
    exact .inr ⟨ha, .writeResync hr (fun x hx => hsent x (.tail _ hx))⟩
  | writeResyncSeen hsent =>
    subst hq
    have ha := resync_ignores (s := .tde03B) (by decide) (hsent m List.mem_cons_self)
    exact .inr ⟨ha, .writeResyncSeen (fun x hx => hsent x (.tail _ hx))⟩
  | @writeResyncAcked _ q₀ q₁ _ _ hr hsent hsent' hf =>
    cases q₀ with
    | nil =>
      cases hq
      exact .inl ⟨.tde02B, rfl, .write (n := 0) hr (by decide) hsent' hf⟩
    | cons m' q₀ =>
      cases hq
      have ha := resync_ignores (s := .tde03B) (by decide) (hsent m List.mem_cons_self)
      exact .inr ⟨ha, .writeResyncAcked hr (fun x hx => hsent x (.tail _ hx)) hsent' hf⟩
  | @read _ _ _ n _ _ hs hr hsent hf =>
    rcases syns_cons (show _ = syns _ ++ [] by simpa using hq) with ⟨k, rfl, rfl, rfl⟩ | ⟨-, h⟩
    · exact read_takes_ackSyn hs (by simpa using Inv.read hs hr hsent hf)
    · cases h
  | readResync hs hsent =>
    rcases syns_cons hq with ⟨k, rfl, rfl, rfl⟩ | ⟨-, h⟩
    · exact read_takes_ackSyn hs (.readResync hs hsent)
    · cases h
      exact .inl ⟨_, read_takes_resyn hs, .readResyncSeen hsent⟩
  | readEnding =>
    rcases syns_cons hq with ⟨k, rfl, rfl, rfl⟩ | ⟨-, h⟩
    · exact .inr ⟨rfl, .readEnding⟩
    · cases h
      exact .inl ⟨_, rfl, .readEnded⟩

lemma deliver_requester (h : Inv r s q (m :: p) g) : Taken r m (fun r' => Inv r' s q p g) := by
  generalize hp : m :: p = mp at h
  cases h with
  | idle | pending | asked | segments | lastSegment | writeResyncSeen | writeResyncAcked | readEnding
  | readEnded => cases hp
  | answered hx ha hg =>
    cases hp
    obtain ⟨happ, hidle⟩ := exchange_answer _ hx _ ha
    exact .inl ⟨_, happ, .idle hidle⟩
  | segmentsAnswered hm =>
    cases hp
    simp only [List.mem_cons, List.not_mem_nil, or_false] at hm
    rcases hm with rfl | rfl <;> exact .inl ⟨.cn03, rfl, .idle (by decide)⟩
  | writeOpen =>
    cases hp
    exact .inl ⟨.tde02A, rfl, .write rfl (by decide) (by simp) rfl⟩
  | writeOpenResync =>
    cases hp
    exact .inl ⟨.tde02A, rfl, .writeResync rfl (by simp)⟩
  | write hr hs hsent hf =>
    rcases syns_cons (show _ = syns _ ++ [] by simpa using hp) with ⟨k, rfl, rfl, rfl⟩ | ⟨-, h⟩
    · exact write_takes_ackSyn hr (by simpa using Inv.write hr hs hsent hf)
    · cases h
  | writeResync hr hsent =>
    rcases syns_cons hp with ⟨k, rfl, rfl, rfl⟩ | ⟨-, h⟩
    · exact write_takes_ackSyn hr (.writeResync hr hsent)
    · cases h
      exact .inl ⟨_, write_takes_resyn hr, .writeResyncSeen hsent⟩
  | writeDone hm =>
    rcases syns_cons hp with ⟨k, rfl, rfl, rfl⟩ | ⟨-, h⟩
    · exact .inr ⟨rfl, .writeDone hm⟩
    · cases h
      simp only [List.mem_cons, List.not_mem_nil, or_false] at hm
      rcases hm with rfl | rfl <;> exact .inl ⟨.of02, rfl, .idle (by decide)⟩
  | readOpen hs hsent hf =>
    cases hp
    exact .inl ⟨.tdl02A, rfl, .read (n := 0) hs (by decide) hsent hf⟩
  | read hs hr hsent hf =>
    subst hp
    obtain ⟨r', ha, hf'⟩ := feed_cons hf
    have hr' := read_receives hr (hsent m List.mem_cons_self) ha
    exact .inl ⟨r', ha, .read hs hr' (fun x hx => hsent x (.tail _ hx)) hf'⟩
  | readResync hs hsent =>
    subst hp
    have ha := resync_ignores (s := .tdl03A) (by decide) (hsent m List.mem_cons_self)
    exact .inr ⟨ha, .readResync hs (fun x hx => hsent x (.tail _ hx))⟩
  | readResyncSeen hsent =>
    subst hp
    have ha := resync_ignores (s := .tdl03A) (by decide) (hsent m List.mem_cons_self)
    exact .inr ⟨ha, .readResyncSeen (fun x hx => hsent x (.tail _ hx))⟩
  | @readResyncAcked _ p₀ _ _ _ hs hsent hsent' hf =>
    cases p₀ with
    | nil =>
      cases hp
      exact .inl ⟨.tdl02A, rfl, .read (n := 0) hs (by decide) hsent' hf⟩
    | cons m' p₀ =>
      cases hp
      have ha := resync_ignores (s := .tdl03A) (by decide) (hsent m List.mem_cons_self)
      exact .inr ⟨ha, .readResyncAcked hs (fun x hx => hsent x (.tail _ hx)) hsent' hf⟩
  | readDone hm =>
    cases hp
    simp only [List.mem_cons, List.not_mem_nil, or_false] at hm
    rcases hm with rfl | rfl <;> exact .inl ⟨.of02, rfl, .idle (by decide)⟩

end Deliveries

section LocalEvents

lemma readMate_tdl07A {s : State} (h : readMate s = some .tdl07A) : s = .tdl07B := by
  cases s <;> simp [readMate] at h ⊢

lemma writeMate_tde08B {r : State} (h : writeMate r = some .tde08B) : r = .tde08A := by
  cases r <;> simp [writeMate] at h ⊢

variable {r r' s s' : State} {e : LocalEvent} {m : Msg} {q p : List Msg} {g : Bool}

lemma local_requester (h : Inv r s q p g) (hperm : permitted .requester r e = true)
    (hm : m ∈ emits g r e) (ha : r.apply (.ofLocal e) = .next r') :
    Inv r' s (q ++ [m]) p (if e = .message then m.kind = .msgDm else g) := by
  cases h with
  | idle hs =>
    rcases idle_requester hs hm ha with ⟨x, hx, rfl, rfl, rfl, he⟩ | ⟨rfl, rfl, rfl, rfl⟩
    · refine .asked hx ?_
      intro hmg
      obtain ⟨rfl, hk⟩ := he hmg
      simp [hk]
    · exact .segments (by decide) (by decide) rfl
  | asked hx hg => exact (asking_requester hx hg hm ha).elim
  | pending hx hg => exact (asking_requester hx hg hm ha).elim
  | answered hx _ hg => exact (asking_requester hx hg hm ha).elim
  | segments hs hsent hf =>
    cases e <;> simp only [emits, if_true, List.mem_cons, List.not_mem_nil, or_false] at hm <;>
      simp only [State.apply, State.row, reduceCtorEq, Outcome.next.injEq] at ha
    · subst hm ha
      exact .segments hs (all_snoc hsent rfl) (feed_snoc hf rfl)
    · subst hm ha
      exact .lastSegment hs (all_snoc hsent rfl) (feed_snoc hf rfl)
  | lastSegment | segmentsAnswered | writeOpen | writeOpenResync | writeDone | readOpen
  | readEnding | readEnded | readDone =>
    cases e <;> simp [emits, State.apply, State.row, State.awaiting] at hm ha
  | write hr hs hsent hf =>
    obtain ⟨he, hsm, t', hr', ht'⟩ := write_sends hr hperm hm ha
    simp only [if_neg he]
    exact .write hr' hs (all_snoc hsent hsm) (feed_snoc hf ht')
  | writeResync hr hsent =>
    obtain ⟨he, hsm, t', hr', ht'⟩ := write_sends hr hperm hm ha
    exact .writeResync hr' (all_snoc hsent hsm)
  | writeResyncSeen hsent =>
    cases e <;> simp only [permitted, emits, dataReceiver, List.mem_cons, List.not_mem_nil, or_false,
      Bool.false_eq_true] at hm hperm
    subst hm
    obtain rfl : State.tde02A = r' := Outcome.next.inj ha
    exact .writeResyncAcked rfl hsent (by simp) rfl
  | writeResyncAcked hr hsent hsent' hf =>
    obtain ⟨he, hsm, t', hr', ht'⟩ := write_sends hr hperm hm ha
    rw [List.append_assoc, List.cons_append]
    exact .writeResyncAcked hr' hsent (all_snoc hsent' hsm) (feed_snoc hf ht')
  | read hs hr hsent hf =>
    simp only [List.mem_cons, List.not_mem_nil, or_false] at hr
    rcases hr with rfl | rfl <;> cases e <;>
      simp only [emits, List.mem_cons, List.not_mem_nil, or_false] at hm <;>
      simp only [State.apply, State.row, State.receiving, Outcome.next.injEq] at ha <;> subst hm ha
    · exact .readResync hs hsent
    · rw [syns_succ]
      exact .read hs (by decide) hsent hf
    · obtain ⟨rfl, rfl⟩ := feed_full (fun _ => tdl07A_full) hsent hf
      obtain rfl := readMate_tdl07A hs
      exact .readEnding
    · exact .readResync hs hsent
    · rw [syns_succ]
      exact .read hs (by decide) hsent hf
  | readResync | readResyncSeen | readResyncAcked =>
    cases e <;> simp [emits, State.apply, State.row, State.receiverResyncSent] at hm ha

lemma local_server (h : Inv r s q p g) (hperm : permitted .server s e = true) (hm : m ∈ emits g s e)
    (ha : s.apply (.ofLocal e) = .next s') : Inv r s' q (p ++ [m]) g := by
  cases h with
  | idle hs => exact (idle_server hs hperm hm).elim
  | asked hx hg => exact (idle_server (exchange_base _ hx) hperm hm).elim
  | pending hx hg =>
    rcases asked_server hx hm ha with hans | ⟨hw, rfl, rfl⟩ | ⟨hr, rfl, rfl⟩
    · exact .answered hx hans hg
    · rw [hw]
      exact .writeOpen (n := 0)
    · rw [hr]
      exact .readOpen rfl (by simp) rfl
  | answered hx hans hg => exact (idle_server (exchange_answer _ hx _ hans).2 hperm hm).elim
  | segments hs hsent hf =>
    simp only [List.mem_cons, List.not_mem_nil, or_false] at hs
    rcases hs with rfl | rfl | rfl
    · exact (idle_server (by decide) hperm hm).elim
    · cases e <;> simp [emits, State.apply, State.row] at hm ha
    · obtain ⟨rfl, ht⟩ := feed_full (fun _ => mg04B_full) hsent hf
      cases ht
  | lastSegment hs hsent hf =>
    simp only [List.mem_cons, List.not_mem_nil, or_false] at hs
    rcases hs with rfl | rfl | rfl
    · exact (idle_server (by decide) hperm hm).elim
    · cases e <;> simp [emits, State.apply, State.row] at hm ha
    · obtain ⟨rfl, ht⟩ := feed_full (fun _ => mg04B_full) hsent hf
      cases e <;> simp only [emits, List.mem_cons, List.not_mem_nil, or_false] at hm <;>
        simp only [State.apply, State.row, State.answering, reduceCtorEq, Outcome.next.injEq]
        at ha <;> subst ha <;> exact .segmentsAnswered (by simp [hm])
  | segmentsAnswered | writeDone | readDone => exact (idle_server (by decide) hperm hm).elim
  | writeOpen =>
    cases e <;> simp only [emits, List.mem_cons, List.not_mem_nil, or_false] at hm <;>
      simp only [State.apply, State.row, State.receiving, Outcome.next.injEq] at ha <;> subst hm ha
    · exact .writeOpenResync
    · rw [List.cons_append, syns_succ]
      exact .writeOpen
  | writeOpenResync | writeResync | writeResyncSeen | writeResyncAcked =>
    cases e <;> simp [emits, State.apply, State.row, State.receiverResyncSent] at hm ha
  | write hr hs hsent hf =>
    simp only [List.mem_cons, List.not_mem_nil, or_false] at hs
    rcases hs with rfl | rfl | rfl
    · cases e <;> simp only [emits, List.mem_cons, List.not_mem_nil, or_false] at hm <;>
        simp only [State.apply, State.row, State.receiving, Outcome.next.injEq] at ha <;> subst hm ha
      · exact .writeResync hr hsent
      · rw [syns_succ]
        exact .write hr (by decide) hsent hf
    · cases e <;> simp only [emits, List.mem_cons, List.not_mem_nil, or_false] at hm <;>
        simp only [State.apply, State.row, Outcome.next.injEq] at ha <;> subst hm ha
      · exact .writeResync hr hsent
      · rw [syns_succ]
        exact .write hr (by decide) hsent hf
    · cases e <;> simp only [emits, List.mem_cons, List.not_mem_nil, or_false] at hm <;>
        simp only [State.apply, State.row, Outcome.next.injEq] at ha <;> subst ha
      · subst hm
        exact .writeResync hr hsent
      all_goals
        obtain ⟨rfl, rfl⟩ := feed_full (fun _ => tde08B_full) hsent hf
        obtain rfl := writeMate_tde08B hr
        exact .writeDone (by simp [hm])
  | readOpen hs hsent hf =>
    obtain ⟨hsm, t', hs', ht'⟩ := read_sends hs hperm hm ha
    exact .readOpen hs' (all_snoc hsent hsm) (feed_snoc hf ht')
  | read hs hr hsent hf =>
    obtain ⟨hsm, t', hs', ht'⟩ := read_sends hs hperm hm ha
    exact .read hs' hr (all_snoc hsent hsm) (feed_snoc hf ht')
  | readResync hs hsent =>
    obtain ⟨hsm, t', hs', -⟩ := read_sends hs hperm hm ha
    exact .readResync hs' (all_snoc hsent hsm)
  | readResyncSeen hsent =>
    cases e <;> simp only [permitted, emits, dataReceiver, List.mem_cons, List.not_mem_nil, or_false,
      Bool.false_eq_true] at hm hperm
    subst hm
    obtain rfl : State.tdl02B = s' := Outcome.next.inj ha
    exact .readResyncAcked rfl hsent (by simp) rfl
  | readResyncAcked hs hsent hsent' hf =>
    obtain ⟨hsm, t', hs', ht'⟩ := read_sends hs hperm hm ha
    rw [List.append_assoc, List.cons_append]
    exact .readResyncAcked hs' hsent (all_snoc hsent' hsm) (feed_snoc hf ht')
  | readEnding => cases e <;> simp [permitted, emits, dataReceiver] at hperm hm
  | readEnded =>
    cases e <;> simp only [permitted, emits, dataReceiver, List.mem_cons, List.not_mem_nil, or_false,
      Bool.false_eq_true] at hperm hm <;>
      simp only [State.apply, State.row, Outcome.next.injEq] at ha <;> subst ha <;>
      exact .readDone (by simp [hm])

end LocalEvents

section Runs

def Config.Sound (c : Config) : Prop := Inv c.req.state c.srv.state c.toSrv c.toReq c.segmented

lemma apply_local {m m' : Machine} {e : LocalEvent} (h : m.apply (.ofLocal e) = .ok (false, m')) :
    m.state.apply (.ofLocal e) = .next m'.state := by
  simp only [Machine.apply] at h
  split at h <;>
    simp only [Except.ok.injEq, Prod.mk.injEq, Bool.true_eq_false, reduceCtorEq, false_and] at h
  rename_i s hs
  rw [hs, ← h.2]

lemma Taken.apply {x y : Machine} {m : Msg} {P : State → Prop} {ignored : Bool} (h : Taken x.state m P)
    (ha : x.apply m.event = .ok (ignored, y)) : P y.state := by
  simp only [Machine.apply] at ha
  rcases h with ⟨s, hs, hP⟩ | ⟨hs, hP⟩
  · simp only [hs, Except.ok.injEq, Prod.mk.injEq] at ha
    rw [← ha.2]
    exact hP
  · simp only [hs, Except.ok.injEq, Prod.mk.injEq] at ha
    rw [← ha.2]
    exact hP

lemma step_sound {c d : Config} (hc : c.Sound) (h : Step c d) : d.Sound := by
  cases h with
  | requester hp hm ha => exact local_requester hc hp hm (apply_local ha)
  | server hp hm ha => exact local_server hc hp hm (apply_local ha)
  | toServer hq ha =>
    rw [Config.Sound, hq] at hc
    exact (deliver_server hc).apply ha
  | toRequester hq ha =>
    rw [Config.Sound, hq] at hc
    exact (deliver_requester hc).apply ha

lemma reachable_sound {c : Config} (h : Reachable c) : c.Sound := by
  induction h with
  | refl => exact .idle (by decide)
  | tail _ hstep ih => exact step_sound ih hstep

lemma feed_nil {s t : State} (h : feed s [] = some t) : s = t := Option.some.inj h

lemma quiet_agrees {r s : State} {q p : List Msg} {g : Bool} (h : Inv r s q p g)
    (hq : q = []) (hp : p = []) :
    ∀ i ∈ [State.cn03, .sf03, .of02], r = i ↔ s = i := by
  have hasked : ∀ x ∈ exchanges, ∀ i ∈ [State.cn03, .sf03, .of02], x.asking = i ↔
      x.asked = i := by decide
  cases h with
  | idle => exact fun _ _ => Iff.rfl
  | pending hx => exact hasked _ hx
  | segments _ _ hf | lastSegment _ _ hf =>
    subst hq
    rw [feed_nil hf]
    decide
  | write hr _ _ hf =>
    subst hq
    rw [feed_nil hf]
    cases r <;> simp only [writeMate, reduceCtorEq, Option.some.injEq] at hr <;> subst hr <;> decide
  | read hs _ _ hf =>
    subst hp
    rw [feed_nil hf]
    cases s <;> simp only [readMate, reduceCtorEq, Option.some.injEq] at hs <;> subst hs <;> decide
  | writeResyncSeen | readResyncSeen | readEnded => decide
  | asked | writeResyncAcked | readResync | readEnding => simp at hq
  | answered | segmentsAnswered | writeOpen | writeOpenResync | writeResync | writeDone | readOpen
  | readResyncAcked | readDone => simp at hp

/-- Whatever the interleaving, a delivered FPDU is never an error, and when nothing is in flight both
sides are in the same state between two exchanges. -/
theorem joint_sound {c : Config} (h : Reachable c) :
    (∀ m q, c.toSrv = m :: q → c.srv.state.apply m.event ≠ .error) ∧
    (∀ m p, c.toReq = m :: p → c.req.state.apply m.event ≠ .error) ∧
    (c.toSrv = [] → c.toReq = [] →
      ∀ i ∈ [State.cn03, .sf03, .of02], c.req.state = i ↔ c.srv.state = i) := by
  have hc : Inv c.req.state c.srv.state c.toSrv c.toReq c.segmented := reachable_sound h
  refine ⟨?_, ?_, ?_⟩
  · intro m q hq
    rw [hq] at hc
    exact (deliver_server hc).not_error
  · intro m p hp
    rw [hp] at hc
    exact (deliver_requester hc).not_error
  · intro hq hp
    exact quiet_agrees hc hq hp

inductive Turn
  | requester (e : LocalEvent) (m : Msg)
  | server (e : LocalEvent) (m : Msg)
  | toServer
  | toRequester

def Config.turn (c : Config) : Turn → Option Config
  | .requester e m =>
    match c.req.apply (.ofLocal e) with
    | .ok (false, r) =>
      if permitted .requester c.req.state e = true ∧ m ∈ emits c.segmented c.req.state e then
        some { c with
          req := r
          toSrv := c.toSrv ++ [m]
          segmented := if e = .message then m.kind = .msgDm else c.segmented }
      else none
    | _ => none
  | .server e m =>
    match c.srv.apply (.ofLocal e) with
    | .ok (false, s) =>
      if permitted .server c.srv.state e = true ∧ m ∈ emits c.segmented c.srv.state e then
        some { c with srv := s, toReq := c.toReq ++ [m] }
      else none
    | _ => none
  | .toServer =>
    match c.toSrv with
    | m :: q => (c.srv.apply m.event).toOption.map fun r => { c with srv := r.2, toSrv := q }
    | [] => none
  | .toRequester =>
    match c.toReq with
    | m :: q => (c.req.apply m.event).toOption.map fun r => { c with req := r.2, toReq := q }
    | [] => none

lemma turn_step {c c' : Config} {t : Turn} (h : c.turn t = some c') : Step c c' := by
  cases t with
  | requester e m =>
    simp only [Config.turn] at h
    split at h
    · rename_i r happly
      split at h
      · rename_i hsaid
        cases h
        exact .requester hsaid.1 hsaid.2 happly
      · cases h
    · cases h
  | server e m =>
    simp only [Config.turn] at h
    split at h
    · rename_i s happly
      split at h
      · rename_i hsaid
        cases h
        exact .server hsaid.1 hsaid.2 happly
      · cases h
    · cases h
  | toServer =>
    simp only [Config.turn] at h
    split at h
    · rename_i m q hq
      cases happly : c.srv.apply m.event with
      | error e => simp [happly, Except.toOption] at h
      | ok r =>
        rw [happly] at h
        cases h
        exact .toServer hq happly
    · cases h
  | toRequester =>
    simp only [Config.turn] at h
    split at h
    · rename_i m q hq
      cases happly : c.req.apply m.event with
      | error e => simp [happly, Except.toOption] at h
      | ok r =>
        rw [happly] at h
        cases h
        exact .toRequester hq happly
    · cases h

lemma Reachable.turns {c c' : Config} {ts : List Turn} (hc : Reachable c)
    (h : ts.foldlM Config.turn c = some c') :
    Reachable c' := by
  induction ts generalizing c with
  | nil =>
    cases h
    exact hc
  | cons t ts ih =>
    rw [List.foldlM_cons] at h
    obtain ⟨d, hd, hrest⟩ := Option.bind_eq_some_iff.mp h
    exact ih (hc.tail (turn_step hd)) hrest

def exchanged (e : LocalEvent) (request answer : FpduKind) : List Turn :=
  [.requester e (positive request), .toServer, .server .accept (positive answer), .toRequester]

/-- A file is being written, and the server asks to resynchronise while a point and data are still
on their way to it. -/
def resynchronising : List Turn :=
  exchanged .connect .connect .aconnect ++ exchanged .create .create .ackCreate ++
    exchanged .open .orf .ackOrf ++ exchanged .write .write .ackWrite ++
    [.requester .sendData (positive .dtf), .requester .sync (positive .syn), .toServer,
    .server .resync (positive .resyn),
      .requester .sendData (positive .dtf)]

def crossing : Config :=
  ⟨⟨.requester, .tde02A⟩, ⟨.server, .tde03B⟩, [positive .syn, positive .dtf], [positive .resyn], false⟩

lemma crossing_reachable : Reachable crossing := by
  have hrun : resynchronising.foldlM Config.turn initial = some crossing := rfl
  exact Reachable.turns .refl hrun

theorem joint_sound_crossing :
    crossing.srv.state.apply (positive .syn).event ≠ .error ∧
    crossing.req.state.apply (positive .resyn).event ≠ .error :=
  have h := joint_sound crossing_reachable
  ⟨h.1 _ _ rfl, h.2.1 _ _ rfl⟩

end Runs

end PesitWizard.Core.Joint
