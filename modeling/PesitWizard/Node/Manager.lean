import PesitWizard.Library.Moves
import PesitWizard.Library.Ownership
import PesitWizard.Node.Api

/-! The listeners of a node, which the calls of its interface start and stop, several
of them at a time. -/

namespace PesitWizard.Node

open App Library

/-- An accept loop ends once its `shutdown` channel is written or has lost its sender. -/
structure AcceptLoop where
  serverId : String
  address : String × ℕ
  told : Bool
  listening : Bool
  deriving DecidableEq

structure Running where
  shutdown : ℕ
  port : ℕ
  deriving DecidableEq

/-- How far a call has come: to start a listener, it has looked at those that run, and then it
loads the configuration, binds, spawns the accept loop and registers it. To stop one, it takes it
out and then signals it. -/
inductive ManagerCall
  | starting (serverId : String)
  | loaded (serverId : String) (cfg : PesitServerConfig)
  | bound (serverId : String) (cfg : PesitServerConfig)
  | spawned (serverId : String) (r : Running)
  | started (serverId : String)
  | stopping (serverId : String) (r : Running)
  | stopped (serverId : String)
  | done

namespace ManagerCall

/-- The sender of a `shutdown` channel that the call has in its hands. -/
def held : ManagerCall → Option (String × Running)
  | spawned serverId r | stopping serverId r => some (serverId, r)
  | _ => none

def socket : ManagerCall → Option (String × ℕ)
  | bound _ cfg => some (cfg.bindAddress, cfg.port)
  | _ => none

end ManagerCall

structure ServerManager where
  store : JsonStore
  running : Table String Running
  loops : List AcceptLoop
  calls : List ManagerCall

/-- What comes of the TLS settings of a listener and of its socket. The call may be dropped while it
waits for the socket. -/
inductive Opening
  | untrusted | refused | unbound | dropped | ready
  deriving DecidableEq

inductive ManagerMove
  | start (serverId : String)
  | load (c : ℕ)
  | listen (c : ℕ) (now : String) (opening : Opening)
  | spawn (c : ℕ)
  | register (c : ℕ)
  | stop (serverId : String)
  | signal (c : ℕ)
  | report (c : ℕ) (now : String)
  | hear (i : ℕ)
  | edit (store : JsonStore)
  | restart

namespace ServerManager

def initial (store : JsonStore) : ServerManager := ⟨store, .empty, [], []⟩

def goOn (s : ServerManager) (c : ℕ) (call : ManagerCall) : ServerManager :=
  { s with calls := s.calls.set c call }

def tell (s : ServerManager) (i : ℕ) : ServerManager :=
  { s with loops := s.loops.modify i fun l => { l with told := true } }

/-- The address that a listener or a call listens on. -/
def socket (s : ServerManager) : ℕ ⊕ ℕ → Option (String × ℕ)
  | .inl i => (s.loops[i]?.filter (·.listening)).map (·.address)
  | .inr c => s.calls[c]?.bind (·.socket)

def taken (s : ServerManager) (address : String × ℕ) : Bool :=
  s.loops.any (fun l => l.listening && l.address = address) || s.calls.any fun call =>
    call.socket = some address

def acceptLoop (s : ServerManager) (serverId : String) (address : String × ℕ) : ServerManager :=
  { s with loops := s.loops ++ [⟨serverId, address, false, true⟩] }

def isRunning (s : ServerManager) (serverId : String) : Bool := (s.running.find serverId).isSome

/-- The new entry takes the place of an old one, whose sender is dropped. -/
def insert (s : ServerManager) (serverId : String) (r : Running) : ServerManager :=
  let s := match s.running.find serverId with
    | some old => s.tell old.shutdown
    | none => s
  { s with running := s.running.put serverId r }

def step (s : ServerManager) : ManagerMove → Option ServerManager
  | .start serverId => if s.isRunning serverId then some s else
    some { s with calls := s.calls ++ [.starting serverId] }
  | .load c =>
    match s.calls[c]? with
    | some (.starting serverId) =>
      match s.store.get "servers" serverId with
      | some (some cfg) => some (s.goOn c (.loaded serverId cfg))
      | _ => some (s.goOn c .done)
    | _ => none
  | .listen c now opening =>
    match s.calls[c]? with
    | some (.loaded serverId cfg) =>
      match opening with
      | .untrusted => some { s.goOn c .done with store := setStatus now s.store serverId .error }
      | .refused | .dropped => some (s.goOn c .done)
      | .unbound => some { s.goOn c .done with store := setStatus now s.store serverId .error }
      | .ready =>
        if s.taken (cfg.bindAddress, cfg.port) then
          some { s.goOn c .done with store := setStatus now s.store serverId .error }
        else some (s.goOn c (.bound serverId cfg))
    | _ => none
  | .spawn c =>
    match s.calls[c]? with
    | some (.bound serverId cfg) =>
      some ((s.goOn c (.spawned serverId ⟨s.loops.length, cfg.port⟩)).acceptLoop serverId
        (cfg.bindAddress, cfg.port))
    | _ => none
  | .register c =>
    match s.calls[c]? with
    | some (.spawned serverId r) => some ((s.insert serverId r).goOn c (.started serverId))
    | _ => none
  | .stop serverId =>
    match s.running.find serverId with
    | some r =>
      some { s with running := s.running.erase serverId, calls := s.calls ++ [.stopping serverId r] }
    | none => some s
  | .signal c =>
    match s.calls[c]? with
    | some (.stopping serverId r) => some ((s.tell r.shutdown).goOn c (.stopped serverId))
    | _ => none
  | .report c now =>
    match s.calls[c]? with
    | some (.started serverId) =>
      some { s.goOn c .done with store := setStatus now s.store serverId .running }
    | some (.stopped serverId) =>
      some { s.goOn c .done with store := setStatus now s.store serverId .stopped }
    | _ => none
  | .hear i =>
    match s.loops[i]? with
    | some l =>
      if l.told then some { s with loops := s.loops.set i { l with listening := false } } else none
    | none => none
  | .edit store => some { s with store := store }
  | .restart => some (initial s.store)

/-- Who may have the sender of a `shutdown` channel: the table of the listeners, under their
ids, and the calls. -/
def owns (s : ServerManager) : String ⊕ ℕ → Option (String × Running)
  | .inl serverId => (s.running.find serverId).map fun r => (serverId, r)
  | .inr c => s.calls[c]?.bind (·.held)

/-- The accept loop listens and has not been told to end. -/
def Live (s : ServerManager) (x : String × Running) : Prop :=
  ∃ l, s.loops[x.2.shutdown]? = some l ∧ l.serverId = x.1 ∧ l.address.2 = x.2.port ∧
    l.listening = true ∧ l.told = false

structure Sound (s : ServerManager) : Prop where
  owned : Linear s.owns s.Live
  sockets : Sole s.socket

variable {s : ServerManager} {c : ℕ} {call old : ManagerCall} {serverId : String} {r : Running}

section Calls

lemma bind_set {α β : Type} {l : List α} {c : ℕ} (hc : c < l.length) (a : α) (f : α → Option β) (d : ℕ) :
    (l.set c a)[d]?.bind f = if d = c then f a else l[d]?.bind f := by
  by_cases hd : d = c
  · subst hd
    simp [hc]
  · rw [List.getElem?_set_ne (Ne.symm hd), if_neg hd]

lemma bind_concat {α β : Type} (l : List α) (a : α) (f : α → Option β) (d : ℕ) :
    (l ++ [a])[d]?.bind f = if d = l.length then f a else l[d]?.bind f := by
  by_cases hd : d = l.length
  · subst hd
    simp
  · rw [if_neg hd]
    rcases Nat.lt_or_gt_of_ne hd with hlt | hgt
    · rw [List.getElem?_append_left hlt]
    · rw [List.getElem?_eq_none (by simp; omega), List.getElem?_eq_none (by omega)]

lemma owns_goOn (h : s.calls[c]? = some old) (call : ManagerCall) :
    (s.goOn c call).owns = Function.update s.owns (.inr c) call.held := by
  funext o
  cases o with
  | inl serverId => rfl
  | inr d => simp [owns, goOn, bind_set (List.getElem?_eq_some_iff.mp h).1, Function.update_apply]

lemma socket_goOn (h : s.calls[c]? = some old) (call : ManagerCall) :
    (s.goOn c call).socket = Function.update s.socket (.inr c) call.socket := by
  funext o
  cases o with
  | inl i => rfl
  | inr d => simp [socket, goOn, bind_set (List.getElem?_eq_some_iff.mp h).1, Function.update_apply]

lemma owns_call (h : s.calls[c]? = some call) :
    s.owns (.inr c) = call.held := by rw [owns, h, Option.bind_some]

lemma socket_call (h : s.calls[c]? = some call) :
    s.socket (.inr c) = call.socket := by rw [socket, h, Option.bind_some]

lemma owns_begin (s : ServerManager) (call : ManagerCall) :
    owns { s with calls := s.calls ++ [call] } = Function.update s.owns
    (.inr s.calls.length) call.held := by
  funext o
  cases o with
  | inl serverId => rfl
  | inr d => simp [owns, bind_concat, Function.update_apply]

lemma socket_begin (s : ServerManager) (call : ManagerCall) :
    socket { s with calls := s.calls ++ [call] } = Function.update s.socket (.inr s.calls.length)
    call.socket := by
  funext o
  cases o with
  | inl i => rfl
  | inr d => simp [socket, bind_concat, Function.update_apply]

lemma owns_new (s : ServerManager) : s.owns (.inr s.calls.length) = none := by simp [owns]

end Calls

section Loops

lemma live_unique {x y : String × Running} (hx : s.Live x) (hy : s.Live y)
    (h : x.2.shutdown = y.2.shutdown) : x = y := by
  obtain ⟨l, hl, hid, hport, -⟩ := hx
  obtain ⟨m, hm, hid', hport', -⟩ := hy
  rw [h, hm] at hl
  obtain rfl := Option.some.inj hl
  apply Prod.ext
  · exact hid.symm.trans hid'
  · obtain ⟨id, i, port⟩ := x
    obtain ⟨id', j, port'⟩ := y
    obtain rfl : i = j := h
    obtain rfl : port = port' := hport.symm.trans hport'
    rfl

lemma live_tell (i : ℕ) (x : String × Running) : (s.tell i).Live x ↔ s.Live x ∧ x.2.shutdown ≠ i := by
  simp only [Live, tell, List.getElem?_modify]
  constructor
  · rintro ⟨l, hl, hid, hport, hlisten, htold⟩
    obtain ⟨m, hm, heq⟩ := Option.map_eq_some_iff.mp hl
    by_cases hi : i = x.2.shutdown
    · rw [if_pos hi] at heq
      rw [← heq] at htold
      cases htold
    · rw [if_neg hi] at heq
      obtain rfl : m = l := heq
      exact ⟨⟨m, hm, hid, hport, hlisten, htold⟩, Ne.symm hi⟩
  · rintro ⟨⟨l, hl, hrest⟩, hi⟩
    exact ⟨l, by simp [hl, Ne.symm hi], hrest⟩

/-- Once its accept loop is told to end, nothing but the entry is lost. -/
lemma live_told {x : String × Running} (hx : s.Live x) (y : String × Running) :
    (s.tell x.2.shutdown).Live y ↔ s.Live y ∧ y ≠ x := by
  rw [live_tell]
  refine and_congr_right fun hy => not_congr ⟨live_unique hy hx, ?_⟩
  rintro rfl
  rfl

lemma socket_tell (i : ℕ) : (s.tell i).socket = s.socket := by
  funext o
  cases o with
  | inr c => rfl
  | inl j =>
    simp only [socket, tell, List.getElem?_modify]
    cases s.loops[j]? with
    | none => rfl
    | some l => by_cases hi : i = j <;> cases hl : l.listening <;> simp [Option.filter, hi, hl]

lemma live_acceptLoop (serverId : String) (address : String × ℕ) (x : String × Running) :
    (s.acceptLoop serverId address).Live x ↔ s.Live x ∨ x = (serverId, ⟨s.loops.length, address.2⟩) := by
  constructor
  · rintro ⟨l, hl, hid, hport, hrest⟩
    rcases Nat.lt_or_ge x.2.shutdown s.loops.length with hlt | hge
    · exact .inl ⟨l, (List.getElem?_append_left hlt).symm.trans hl, hid, hport, hrest⟩
    · obtain ⟨id, i, port⟩ := x
      have hi := (List.getElem?_eq_some_iff.mp hl).1
      simp only [acceptLoop, List.length_append, List.length_singleton] at hi hge
      obtain rfl : i = s.loops.length := by omega
      simp only [acceptLoop, List.getElem?_concat_length, Option.some.injEq] at hl
      subst hl
      obtain rfl : serverId = id := hid
      obtain rfl : address.2 = port := hport
      exact .inr rfl
  · rintro (⟨l, hl, hrest⟩ | rfl)
    · exact ⟨l, (List.getElem?_append_left (List.getElem?_eq_some_iff.mp hl).1).trans hl, hrest⟩
    · exact ⟨_, List.getElem?_concat_length, rfl, rfl, rfl, rfl⟩

lemma not_live_new (s : ServerManager) (serverId : String) (port : ℕ) :
    ¬ s.Live (serverId, ⟨s.loops.length, port⟩) := by
  rintro ⟨l, hl, -⟩
  rw [List.getElem?_eq_none (Nat.le_refl _)] at hl
  cases hl

lemma socket_acceptLoop (serverId : String) (address : String × ℕ) :
    (s.acceptLoop serverId address).socket = Function.update s.socket (.inl s.loops.length)
    (some address) := by
  funext o
  cases o with
  | inr c => rfl
  | inl i =>
    rw [Function.update_apply]
    by_cases hi : i = s.loops.length
    · subst hi
      simp [socket, acceptLoop]
    · rw [if_neg (by simpa using hi)]
      rcases Nat.lt_or_gt_of_ne hi with hlt | hgt
      · simp only [socket, acceptLoop, List.getElem?_append_left hlt]
      · have hnone : s.loops[i]? = none := List.getElem?_eq_none (by omega)
        have hnone' : (s.loops ++ [⟨serverId, address, false, true⟩])[i]? = none :=
          List.getElem?_eq_none (by simp; omega)
        simp only [socket, acceptLoop, hnone, hnone']

lemma owns_insert :
    (s.insert serverId r).owns = Function.update s.owns (.inl serverId) (some (serverId, r)) := by
  funext o
  rw [insert, Function.update_apply]
  cases o with
  | inr c =>
    rw [if_neg (by simp)]
    split <;> rfl
  | inl id =>
    by_cases hid : id = serverId
    · subst hid
      simp [owns]
    · rw [if_neg (by simpa using hid)]
      simp only [owns, Table.find_put, if_neg hid]
      split <;> rfl

lemma owns_erase (s : ServerManager) (serverId : String) :
    owns { s with running := s.running.erase serverId } = Function.update s.owns
    (.inl serverId) none := by
  funext o
  cases o with
  | inr c => rfl
  | inl id => by_cases hid : id = serverId <;> simp [owns, hid]

lemma socket_insert : (s.insert serverId r).socket = s.socket := by
  rw [insert]
  split
  · exact socket_tell _
  · rfl

lemma not_taken {address : String × ℕ} (h : s.taken address = false) (o : ℕ ⊕ ℕ) :
    s.socket o ≠ some address := by
  rw [taken, Bool.or_eq_false_iff, List.any_eq_false, List.any_eq_false] at h
  cases o with
  | inl i =>
    intro hi
    obtain ⟨l, hl, rfl⟩ := Option.map_eq_some_iff.mp hi
    obtain ⟨hget, hlisten⟩ := Option.filter_eq_some_iff.mp hl
    exact h.1 l (List.mem_of_getElem? hget) (by simp [hlisten])
  | inr c =>
    intro hc
    obtain ⟨call, hget, hcall⟩ := Option.bind_eq_some_iff.mp hc
    exact h.2 call (List.mem_of_getElem? hget) (by simp [hcall])

end Loops

section Steps

lemma Sound.store (h : Sound s) (store : JsonStore) : Sound { s with store := store } :=
  ⟨h.owned, h.sockets⟩

/-- A call goes on without a sender and without a socket. -/
lemma Sound.goOn (h : Sound s) (hc : s.calls[c]? = some old) (hold : old.held = none)
    (hheld : call.held = none) (hsocket : call.socket = none) : Sound (s.goOn c call) := by
  constructor
  · rw [owns_goOn hc, hheld]
    exact h.owned.drop_none ((owns_call hc).trans hold)
  · rw [socket_goOn hc, hsocket]
    exact h.sockets.drop _

lemma Sound.bind {cfg : PesitServerConfig} (h : Sound s) (hc : s.calls[c]? = some (.loaded serverId cfg))
    (hfree : s.taken (cfg.bindAddress, cfg.port) = false) : Sound (s.goOn c (.bound serverId cfg)) := by
  constructor
  · rw [owns_goOn hc]
    exact h.owned.drop_none (owns_call hc)
  · rw [socket_goOn hc]
    exact h.sockets.take (not_taken hfree) _

lemma Sound.spawn {cfg : PesitServerConfig} (h : Sound s)
    (hc : s.calls[c]? = some (.bound serverId cfg)) :
    Sound ((s.goOn c (.spawned serverId ⟨s.loops.length, cfg.port⟩)).acceptLoop serverId
      (cfg.bindAddress, cfg.port)) := by
  constructor
  · have howns : ((s.goOn c (.spawned serverId ⟨s.loops.length, cfg.port⟩)).acceptLoop serverId
        (cfg.bindAddress, cfg.port)).owns = Function.update s.owns (.inr c)
        (some (serverId, ⟨s.loops.length, cfg.port⟩)) :=
      owns_goOn hc _
    rw [howns]
    exact h.owned.take (owns_call hc) (not_live_new s _ _) fun y => live_acceptLoop ..
  · rw [socket_acceptLoop, socket_goOn hc]
    exact h.sockets.hand (socket_call hc) _

lemma Sound.register (h : Sound s) (hc : s.calls[c]? = some (.spawned serverId r)) :
    Sound ((s.insert serverId r).goOn c (.started serverId)) := by
  have hcall : (s.insert serverId r).calls[c]? = some (.spawned serverId r) := by
    rw [insert]
    split <;> exact hc
  have hdrop : Linear (Function.update s.owns (.inl serverId) none) (s.insert serverId r).Live := by
    rw [insert]
    cases hfind : s.running.find serverId with
    | none => exact h.owned.drop_none (by rw [owns, hfind, Option.map_none])
    | some old =>
      have hold : s.owns (.inl serverId) = some (serverId, old) := by rw [owns, hfind, Option.map_some]
      exact h.owned.drop hold (live_told ((h.owned.covers _).mpr ⟨_, hold⟩))
  constructor
  · rw [owns_goOn hcall, owns_insert]
    have hheld : Function.update s.owns (.inl serverId) none (.inr c) = some (serverId, r) := by
      rw [Function.update_of_ne (by simp), owns_call hc]
      rfl
    have hhand := hdrop.hand hheld (Function.update_self ..)
    rw [Function.update_comm (by simp), Function.update_idem] at hhand
    exact hhand
  · rw [socket_goOn hcall, socket_insert]
    exact h.sockets.drop _

lemma Sound.stop (h : Sound s) (hr : s.running.find serverId = some r) :
    Sound { s with
      running := s.running.erase serverId, calls := s.calls ++ [.stopping serverId r] } := by
  have hold : s.owns (.inl serverId) = some (serverId, r) := by rw [owns, hr, Option.map_some]
  constructor
  · rw [owns_begin { s with running := s.running.erase serverId }, owns_erase]
    exact h.owned.hand hold (owns_new s)
  · rw [socket_begin { s with running := s.running.erase serverId }]
    exact h.sockets.drop _

lemma Sound.signal (h : Sound s) (hc : s.calls[c]? = some (.stopping serverId r)) :
    Sound ((s.tell r.shutdown).goOn c (.stopped serverId)) := by
  have hlive : s.Live (serverId, r) := (h.owned.covers _).mpr ⟨_, owns_call hc⟩
  constructor
  · have howns :
        ((s.tell r.shutdown).goOn c (.stopped serverId)).owns = Function.update s.owns (.inr c) none :=
      owns_goOn hc _
    rw [howns]
    exact h.owned.drop (owns_call hc) fun y => live_told hlive y
  · have hsocket : ((s.tell r.shutdown).goOn c (.stopped serverId)).socket =
        Function.update (s.tell r.shutdown).socket (.inr c) none :=
        socket_goOn (s := s.tell r.shutdown) hc _
    rw [hsocket, socket_tell]
    exact h.sockets.drop _

lemma Sound.hear {i : ℕ} {l : AcceptLoop} (h : Sound s) (hl : s.loops[i]? = some l)
    (htold : l.told = true) :
    Sound { s with loops := s.loops.set i { l with listening := false } } := by
  have hi := (List.getElem?_eq_some_iff.mp hl).1
  constructor
  · refine h.owned.congr fun x => exists_congr fun m => ?_
    by_cases hx : x.2.shutdown = i
    · rw [hx, List.getElem?_set_self hi, hl]
      constructor
      · rintro ⟨hm, -, -, hlisten, -⟩
        obtain rfl := Option.some.inj hm
        cases hlisten
      · rintro ⟨hm, -, -, -, huntold⟩
        obtain rfl := Option.some.inj hm
        rw [htold] at huntold
        cases huntold
    · rw [List.getElem?_set_ne (Ne.symm hx)]
  · have hsocket : socket { s with loops := s.loops.set i { l with listening := false } } =
        Function.update s.socket (.inl i) none := by
      funext o
      cases o with
      | inr c => rfl
      | inl j =>
        by_cases hj : j = i
        · subst hj
          simp [socket, hi]
        · simp [socket, hj, List.getElem?_set_ne (Ne.symm hj)]
    rw [hsocket]
    exact h.sockets.drop _

lemma sound_initial (store : JsonStore) : Sound (initial store) := by
  have howns : (initial store).owns = fun _ => none := by
    funext o
    cases o <;> simp [owns, initial]
  have hsocket : (initial store).socket = fun _ => none := by
    funext o
    cases o <;> simp [socket, initial]
  constructor
  · rw [howns]
    exact ⟨sole_empty, fun x => by simp [Live, initial]⟩
  · rw [hsocket]
    exact sole_empty

lemma sound_listen {c : ℕ} {now : String} {opening : Opening} {s' : ServerManager} (h : Sound s)
    (hs : s.step (.listen c now opening) = some s') : Sound s' := by
  simp only [step] at hs
  split at hs
  · rename_i serverId cfg hc
    have hdone : Sound (s.goOn c .done) := h.goOn hc rfl rfl rfl
    cases opening with
    | untrusted | unbound => exact Option.some.inj hs ▸ hdone.store _
    | refused | dropped => exact Option.some.inj hs ▸ hdone
    | ready =>
      by_cases htaken : s.taken (cfg.bindAddress, cfg.port) = true
      · rw [if_pos htaken] at hs
        exact Option.some.inj hs ▸ hdone.store _
      · rw [if_neg htaken] at hs
        exact Option.some.inj hs ▸ h.bind hc (Bool.eq_false_iff.mpr htaken)
  · cases hs

lemma sound_step {s' : ServerManager} {move : ManagerMove} (h : Sound s) (hs : s.step move = some s') :
    Sound s' := by
  cases move with
  | start serverId =>
    rw [step] at hs
    split at hs <;> obtain rfl := Option.some.inj hs
    · exact h
    · constructor
      · rw [owns_begin]
        exact h.owned.drop_none (owns_new s)
      · rw [socket_begin]
        exact h.sockets.drop _
  | load c =>
    simp only [step] at hs
    split at hs
    · rename_i serverId hc
      split at hs <;> exact Option.some.inj hs ▸ h.goOn hc rfl rfl rfl
    · cases hs
  | listen c now opening => exact sound_listen h hs
  | spawn c =>
    simp only [step] at hs
    split at hs
    · rename_i serverId cfg hc
      exact Option.some.inj hs ▸ h.spawn hc
    · cases hs
  | register c =>
    simp only [step] at hs
    split at hs
    · rename_i serverId r hc
      exact Option.some.inj hs ▸ h.register hc
    · cases hs
  | stop serverId =>
    simp only [step] at hs
    split at hs
    · rename_i r hr
      exact Option.some.inj hs ▸ h.stop hr
    · exact Option.some.inj hs ▸ h
  | signal c =>
    simp only [step] at hs
    split at hs
    · rename_i serverId r hc
      exact Option.some.inj hs ▸ h.signal hc
    · cases hs
  | report c now =>
    simp only [step] at hs
    split at hs
    · rename_i serverId hc
      exact Option.some.inj hs ▸ (h.goOn hc rfl rfl rfl).store _
    · rename_i serverId hc
      exact Option.some.inj hs ▸ (h.goOn hc rfl rfl rfl).store _
    · cases hs
  | hear i =>
    simp only [step] at hs
    split at hs
    · rename_i l hl
      by_cases htold : l.told = true
      · rw [if_pos htold] at hs
        exact Option.some.inj hs ▸ h.hear hl htold
      · rw [if_neg htold] at hs
        cases hs
    · cases hs
  | edit store => exact Option.some.inj hs ▸ h.store store
  | restart => exact Option.some.inj hs ▸ sound_initial s.store

lemma sound_run (store : JsonStore) (moves : List ManagerMove) :
    Sound (moves.foldl (after step) (initial store)) :=
  Moves.invariant (fun _ _ _ h _ hs => sound_step h hs) (moves_foldl moves _) (sound_initial store)

end Steps

/-- A call that has yet to put the listener among those that run, or to signal it, has its accept
loop in its hands. -/
def UnderWay (s : ServerManager) (serverId : String) (i : ℕ) : Prop :=
  ∃ call ∈ s.calls, ∃ r, call.held = some (serverId, r) ∧ r.shutdown = i

/-- Whatever calls are made and however they interleave: an accept loop goes on only as the one that runs
under its id or in the hands of a call under way, each listener that runs has its accept loop on its
port, and no two accept loops share an address. -/
theorem listeners_owned (store : JsonStore) (moves : List ManagerMove) :
    let s := moves.foldl (after step) (initial store)
    (∀ i l, s.loops[i]? = some l → l.listening = true → l.told = true ∨
      (∃ r, s.running.find l.serverId = some r ∧ r.shutdown = i) ∨ s.UnderWay l.serverId i) ∧
    (∀ serverId r, s.running.find serverId = some r → ∃ l, s.loops[r.shutdown]? = some l ∧
      l.serverId = serverId ∧
      l.address.2 = r.port ∧ l.listening = true ∧ l.told = false) ∧
    ∀ (i j : ℕ) (l m : AcceptLoop), s.loops[i]? = some l → s.loops[j]? = some m → l.listening = true →
      m.listening = true →
      l.address = m.address → i = j := by
  intro s
  have h : Sound s := sound_run store moves
  refine ⟨?_, ?_, ?_⟩
  · intro i l hl hlisten
    cases htold : l.told with
    | true => exact .inl rfl
    | false =>
      obtain ⟨o, ho⟩ :=
        (h.owned.covers (l.serverId, ⟨i, l.address.2⟩)).mp ⟨l, hl, rfl, rfl, hlisten, htold⟩
      refine .inr ?_
      cases o with
      | inl serverId =>
        obtain ⟨r, hr, heq⟩ := Option.map_eq_some_iff.mp ho
        obtain ⟨rfl, rfl⟩ := Prod.mk.inj heq
        exact .inl ⟨_, hr, rfl⟩
      | inr c =>
        obtain ⟨call, hcall, hheld⟩ := Option.bind_eq_some_iff.mp ho
        exact .inr ⟨call, List.mem_of_getElem? hcall, _, hheld, rfl⟩
  · intro serverId r hr
    exact (h.owned.covers (serverId, r)).mpr ⟨.inl serverId, by rw [owns, hr, Option.map_some]⟩
  · intro i j l m hl hm hlisten hlisten' haddress
    have hi : s.socket (.inl i) = some l.address := by simp [socket, hl, Option.filter, hlisten]
    have hj : s.socket (.inl j) = some l.address := by
      simp [socket, hm, Option.filter, hlisten', haddress]
    exact Sum.inl.inj (h.sockets _ _ _ hi hj)

end ServerManager

end PesitWizard.Node
