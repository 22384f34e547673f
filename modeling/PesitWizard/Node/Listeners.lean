import PesitWizard.App.Documents
import PesitWizard.Library.Ensures
import PesitWizard.Library.Moves
import PesitWizard.Node.Api

/-! The table of listeners, and which of its changes keep their addresses apart and their
settings in range. -/

namespace PesitWizard.Node

open App Library

inductive ListenerRequest
  | create (now : String) (cfg : PesitServerConfig)
  | update (now id : String) (cfg : PesitServerConfig)
  | delete (id : String)
  | setStatus (now serverId : String) (status : ServerStatus)
  | bootstrap (now : String) (boot : Bootstrap)

def ListenerRequest.run (s : JsonStore) : ListenerRequest → Except ApiError JsonStore
  | create now cfg => createServer now s cfg
  | update now id cfg => updateServer now s id cfg
  | delete id => deleteServer s id
  | setStatus now serverId status => .ok (Node.setStatus now s serverId status)
  | bootstrap now boot => .ok (Node.bootstrap now s boot)

def ListenerRequest.handle (s : JsonStore) (r : ListenerRequest) : JsonStore := settle s (r.run s)

def Listens (s : JsonStore) (k : String) (cfg : PesitServerConfig) : Prop := s.Holds "servers" k cfg

def SameAddress (a b : PesitServerConfig) : Prop := a.bindAddress = b.bindAddress ∧ a.port = b.port

structure Listeners (s : JsonStore) : Prop where
  addresses : ∀ k j a b, Listens s k a → Listens s j b → SameAddress a b → k = j
  valid : ∀ k a, Listens s k a → validateServer a = .ok ()

/-- The entry of the file that is the last one for a listener. -/
def Bootstrap.listed (boot : Bootstrap) (k : String) : Option PesitServerConfig :=
  Table.lastFor (boot.servers.map fun cfg => (cfg.serverId, cfg)) k

structure Bootstrap.Fits (boot : Bootstrap) (s : JsonStore) : Prop where
  valid : ∀ k cfg, boot.listed k = some cfg → validateServer cfg = .ok ()
  apart : ∀ k j a b, boot.listed k = some a → boot.listed j = some b → SameAddress a b → k = j
  free : ∀ k j a b, boot.listed k = some a → boot.listed j = none → Listens s j b → ¬ SameAddress a b

def ListenerRequest.Permitted (s : JsonStore) : ListenerRequest → Prop
  | update _ id cfg =>
    (∃ old, Listens s id old) → validateServer { cfg with serverId := id } = .ok () →
      ∀ k other, Listens s k other → SameAddress other cfg → k = id
  | bootstrap _ boot => boot.Fits s
  | _ => True

abbrev Named (s : JsonStore) : Prop := s.KeyedBy PesitServerConfig.serverId "servers"

/-- Two configurations that agree on all that makes a listener one of the table. -/
structure Alike (a b : PesitServerConfig) : Prop where
  serverId : a.serverId = b.serverId
  bindAddress : a.bindAddress = b.bindAddress
  port : a.port = b.port
  maxEntitySize : a.maxEntitySize = b.maxEntitySize
  syncWindow : a.syncWindow = b.syncWindow

lemma Alike.validateServer {a b : PesitServerConfig} (h : Alike a b) :
    validateServer a = validateServer b := by
  simp only [Node.validateServer, h.serverId, h.port, h.maxEntitySize, h.syncWindow]

lemma Alike.sameAddress {a b c d : PesitServerConfig} (h : Alike a b) (h' : Alike c d) :
    SameAddress a c ↔ SameAddress b d := by
  rw [SameAddress, SameAddress, h.bindAddress, h.port, h'.bindAddress, h'.port]

lemma Alike.refl (a : PesitServerConfig) : Alike a a := ⟨rfl, rfl, rfl, rfl, rfl⟩

section Puts

variable {s : JsonStore} {x : PesitServerConfig}

def putListener (s : JsonStore) (x : PesitServerConfig) : JsonStore :=
  s.put "servers" x.serverId (toValue x)

lemma listens_put {k : String} {a : PesitServerConfig} :
    Listens (putListener s x) k a ↔ k = x.serverId ∧ a = x ∨ k ≠ x.serverId ∧ Listens s k a :=
    JsonStore.holds_put

lemma named_put (h : Named s) (x : PesitServerConfig) : Named (putListener s x) := by
  intro k a ha
  rcases listens_put.mp ha with ⟨rfl, rfl⟩ | ⟨-, ha⟩
  · rfl
  · exact h k a ha

lemma listeners_put (h : Listeners s) (hvalid : validateServer x = .ok ()) :
    Listeners (putListener s x) ↔ ∀ k other, Listens s k other → SameAddress other x →
    k = x.serverId := by
  constructor
  · intro hnew k other hother hsame
    by_contra hk
    exact hk (hnew.addresses k _ other x (listens_put.mpr (.inr ⟨hk, hother⟩))
      (listens_put.mpr (.inl ⟨rfl, rfl⟩)) hsame)
  · intro hfree
    refine ⟨?_, ?_⟩
    · intro k j a b ha hb hsame
      rcases listens_put.mp ha with ⟨rfl, rfl⟩ | ⟨-, ha'⟩ <;>
        rcases listens_put.mp hb with ⟨rfl, rfl⟩ | ⟨-, hb'⟩
      · rfl
      · exact (hfree j b hb' ⟨hsame.1.symm, hsame.2.symm⟩).symm
      · exact hfree k a ha' hsame
      · exact h.addresses k j a b ha' hb' hsame
    · intro k a ha
      rcases listens_put.mp ha with ⟨-, rfl⟩ | ⟨-, ha'⟩
      · exact hvalid
      · exact h.valid k a ha'

end Puts

section Requests

variable {s : JsonStore}

structure Keeps (s s' : JsonStore) : Prop where
  named : Named s'
  listeners : Listeners s → Listeners s'

lemma createServer_keeps (h : Named s) (now : String) (cfg : PesitServerConfig) :
    Ensures (createServer now s cfg) (Keeps s) := by
  apply Ensures.bind
  intro _ hvalid
  apply Ensures.ite
  · exact fun _ => Ensures.error _
  · intro _
    apply Ensures.bind
    intro others hothers
    apply Ensures.ite
    · exact fun _ => Ensures.error _
    · intro hfree
      apply Ensures.ok
      -- the counter does not touch the table
      refine ⟨named_put (s := (s.nextCounter "server_id").2) h _, fun hl => ?_⟩
      refine (listeners_put (s := (s.nextCounter "server_id").2) ⟨hl.addresses, hl.valid⟩ ?_).mpr ?_
      · exact hvalid
      intro k other hother hsame
      refine absurd
        (List.any_eq_true.mpr ⟨other, (JsonStore.mem_fetchAll hothers).mpr ⟨k, hother⟩, ?_⟩) hfree
      rw [Bool.and_eq_true, beq_iff_eq, beq_iff_eq]
      exact ⟨hsame.2, hsame.1⟩

lemma deleteServer_keeps (h : Named s) (id : String) : Ensures (deleteServer s id) (Keeps s) := by
  apply Ensures.ite
  · intro _
    apply Ensures.ok
    have hless {k : String} {a : PesitServerConfig} (ha : Listens (s.delete "servers" id) k a) :
        Listens s k a :=
      (JsonStore.holds_delete.mp ha).2
    refine ⟨fun k a ha => h k a (hless ha), fun hl => ⟨?_, fun k a ha => hl.valid k a (hless ha)⟩⟩
    exact fun k j a b ha hb => hl.addresses k j a b (hless ha) (hless hb)
  · exact fun _ => Ensures.error _

lemma replaced_keeps (h : Named s) {k : String} {old x : PesitServerConfig} (hold : Listens s k old)
    (halike : Alike x old) :
    Keeps s (putListener s x) := by
  have hk : x.serverId = k := halike.serverId.trans (h k old hold)
  refine ⟨named_put h x, fun hl => ?_⟩
  refine (listeners_put hl (halike.validateServer.trans (hl.valid k old hold))).mpr ?_
  intro j other hother hsame
  rw [hk]
  exact hl.addresses j k other old hother hold (((Alike.refl other).sameAddress halike).mp hsame)

lemma setStatus_keeps (h : Named s) (now serverId : String) (status : ServerStatus) :
    Keeps s (Node.setStatus now s serverId status) := by
  rw [Node.setStatus]
  split
  · rename_i c hc
    have hold : Listens s serverId c := hc
    have hid := h _ _ hold
    have hput {x : PesitServerConfig} (hx : Alike x c) :
        Keeps s (s.put "servers" serverId (toValue x)) := by
      have hkeeps := replaced_keeps h hold hx
      rwa [putListener, hx.serverId, hid] at hkeeps
    cases status <;> exact hput ⟨rfl, rfl, rfl, rfl, rfl⟩
  · exact ⟨h, fun hl => hl⟩

lemma updateServer_ok (now : String) {id : String} {cfg old : PesitServerConfig}
    (hold : Listens s id old) (hvalid : validateServer { cfg with serverId := id } = .ok ()) :
    ∃ x, updateServer now s id cfg = .ok (putListener s x) ∧ Alike x { cfg with serverId := id } := by
  have hfetch : (fetch s "servers" id : Except ApiError (Option PesitServerConfig)) = .ok (some old) :=
    JsonStore.fetch_iff.mpr hold
  refine ⟨{ cfg with
    serverId := id, id := old.id, createdAt := old.createdAt, lastStartedAt := old.lastStartedAt,
    lastStoppedAt := old.lastStoppedAt, status := old.status, updatedAt := some now }, ?_,
    ⟨rfl, rfl, rfl, rfl, rfl⟩⟩
  rw [updateServer, hfetch]
  simp only [bind, Except.bind, hvalid]
  rfl

lemma updateServer_found {now id : String} {cfg : PesitServerConfig} {s' : JsonStore}
    (h : updateServer now s id cfg = .ok s') :
    (∃ old, Listens s id old) ∧ validateServer { cfg with serverId := id } = .ok () := by
  rw [updateServer] at h
  cases hfetch : (fetch s "servers" id : Except ApiError (Option PesitServerConfig)) with
  | error e =>
    rw [hfetch] at h
    cases h
  | ok found =>
    cases found with
    | none =>
      rw [hfetch] at h
      cases h
    | some old =>
      refine ⟨⟨old, JsonStore.fetch_iff.mp hfetch⟩, ?_⟩
      cases hvalid : validateServer { cfg with serverId := id } with
      | error e =>
        rw [hfetch] at h
        simp only [bind, Except.bind, hvalid] at h
        cases h
      | ok _ => rfl

end Requests

section Bootstrapping

variable {s : JsonStore} {now : String}

lemma listens_other {table key : String} {doc : Value} (h : "servers" ≠ table) {k : String}
    {a : PesitServerConfig} :
    Listens (s.put table key doc) k a ↔ Listens s k a := JsonStore.holds_other h

lemma listens_boot_others (boot : Bootstrap) {k : String} {a : PesitServerConfig} :
    Listens (boot.remotePartners.foldl (bootRemotePartner now)
      (boot.files.foldl (bootEntity now .virtualFile) (boot.partners.foldl (bootEntity now .partner) s)))
      k a ↔ Listens s k a := by
  have hfold {α : Type} {f : JsonStore → α → JsonStore}
      (hf : ∀ s e, Listens (f s e) k a ↔ Listens s k a) (l : List α)
      (s : JsonStore) : Listens (l.foldl f s) k a ↔ Listens s k a := by
    induction l generalizing s with
    | nil => exact Iff.rfl
    | cons e l ih => exact (ih _).trans (hf s e)
  have hremote := hfold (f := bootRemotePartner now) fun s e => listens_other (by decide)
  have hfile := hfold (f := bootEntity now .virtualFile) fun s e => listens_other (by decide)
  have hpartner := hfold (f := bootEntity now .partner) fun s e => listens_other (by decide)
  rw [hremote, hfile, hpartner]

def booted (now : String) (cfg : PesitServerConfig) (id : ℕ) : PesitServerConfig :=
  { cfg with id := some id, createdAt := some (cfg.createdAt.getD now), updatedAt := some now }

lemma listens_bootServer (now : String) (s : JsonStore) (cfg : PesitServerConfig) :
    ∃ x, Alike x cfg ∧ ∀ k a, Listens (bootServer now s cfg) k a ↔ k = cfg.serverId ∧ a = x ∨
    k ≠ cfg.serverId ∧ Listens s k a := by
  rw [bootServer]
  cases cfg.id with
  | some id =>
    exact ⟨booted now cfg id, ⟨rfl, rfl, rfl, rfl, rfl⟩, fun k a => listens_put (x := booted now cfg id)⟩
  | none =>
    exact ⟨booted now cfg (s.nextCounter "server_id").1, ⟨rfl, rfl, rfl, rfl, rfl⟩, fun k a =>
      listens_put (s := (s.nextCounter "server_id").2)
        (x := booted now cfg (s.nextCounter "server_id").1)⟩

lemma listens_bootServers (now : String) (s : JsonStore)
    (servers : List PesitServerConfig) (k : String) :
    match Table.lastFor (servers.map fun cfg => (cfg.serverId, cfg)) k with
    | some cfg => ∃ x, Alike x cfg ∧ ∀ a, Listens (servers.foldl (bootServer now) s) k a ↔ a = x
    | none => ∀ a, Listens (servers.foldl (bootServer now) s) k a ↔ Listens s k a := by
  induction servers using List.reverseRecOn with
  | nil => exact fun a => Iff.rfl
  | append_singleton servers cfg ih =>
    obtain ⟨x, hx, hput⟩ := listens_bootServer now (servers.foldl (bootServer now) s) cfg
    rw [List.map_append, List.map_singleton, Table.lastFor_concat]
    simp only [List.foldl_append, List.foldl_cons, List.foldl_nil]
    by_cases hk : k = cfg.serverId
    · rw [if_pos hk]
      exact ⟨x, hx, fun a => by rw [hput]; simp [hk]⟩
    · rw [if_neg hk]
      cases hlast : Table.lastFor (servers.map fun cfg => (cfg.serverId, cfg)) k with
      | none =>
        rw [hlast] at ih
        exact fun a => by rw [hput, ← ih a]; simp [hk]
      | some d =>
        rw [hlast] at ih
        obtain ⟨y, hy, hiff⟩ := ih
        exact ⟨y, hy, fun a => by rw [hput, ← hiff a]; simp [hk]⟩

variable {boot : Bootstrap} {k : String} {a : PesitServerConfig}

lemma listens_listed (now : String) (s : JsonStore) {cfg : PesitServerConfig}
    (h : boot.listed k = some cfg) :
    ∃ x, Alike x cfg ∧ ∀ a, Listens (bootstrap now s boot) k a ↔ a = x := by
  have hboot := listens_bootServers now (boot.remotePartners.foldl (bootRemotePartner now)
    (boot.files.foldl (bootEntity now .virtualFile) (boot.partners.foldl (bootEntity now .partner) s)))
    boot.servers k
  rw [Bootstrap.listed] at h
  rw [h] at hboot
  exact hboot

lemma listens_unlisted (h : boot.listed k = none) :
    Listens (bootstrap now s boot) k a ↔ Listens s k a := by
  have hboot := listens_bootServers now (boot.remotePartners.foldl (bootRemotePartner now)
    (boot.files.foldl (bootEntity now .virtualFile) (boot.partners.foldl (bootEntity now .partner) s)))
    boot.servers k
  rw [Bootstrap.listed] at h
  rw [h] at hboot
  exact (hboot a).trans (listens_boot_others boot)

lemma listed_serverId {cfg : PesitServerConfig} (h : boot.listed k = some cfg) : cfg.serverId = k := by
  obtain ⟨c, -, heq⟩ := List.mem_map.mp (Table.mem_of_lastFor h)
  obtain ⟨rfl, rfl⟩ := Prod.mk.inj heq
  rfl

lemma named_bootstrap (h : Named s) (now : String) (boot : Bootstrap) :
    Named (bootstrap now s boot) := by
  intro k a ha
  cases hlisted : boot.listed k with
  | none => exact h k a ((listens_unlisted hlisted).mp ha)
  | some cfg =>
    obtain ⟨x, hx, hiff⟩ := listens_listed now s hlisted
    rw [(hiff a).mp ha, hx.serverId, listed_serverId hlisted]

/-- A listener after the start is one of the file, or one of before that the file does not name. -/
lemma listens_bootstrap (ha : Listens (bootstrap now s boot) k a) :
    (∃ cfg, boot.listed k = some cfg ∧ Alike a cfg) ∨ boot.listed k = none ∧ Listens s k a := by
  cases hlisted : boot.listed k with
  | none => exact .inr ⟨rfl, (listens_unlisted hlisted).mp ha⟩
  | some cfg =>
    obtain ⟨x, hx, hiff⟩ := listens_listed now s hlisted
    exact .inl ⟨cfg, rfl, (hiff a).mp ha ▸ hx⟩

lemma listeners_bootstrap (h : Listeners s) (now : String) (boot : Bootstrap) :
    Listeners (bootstrap now s boot) ↔ boot.Fits s := by
  have hlisted {k : String} {cfg : PesitServerConfig} (hk : boot.listed k = some cfg) :
      ∃ x, Alike x cfg ∧ Listens (bootstrap now s boot) k x := by
    obtain ⟨x, hx, hiff⟩ := listens_listed now s hk
    exact ⟨x, hx, (hiff x).mpr rfl⟩
  constructor
  · intro hnew
    refine ⟨?_, ?_, ?_⟩
    · intro k cfg hk
      obtain ⟨x, hx, hlistens⟩ := hlisted hk
      rw [← hx.validateServer]
      exact hnew.valid k x hlistens
    · intro k j a b ha hb hsame
      obtain ⟨x, hx, hk⟩ := hlisted ha
      obtain ⟨y, hy, hj⟩ := hlisted hb
      exact hnew.addresses k j x y hk hj ((hx.sameAddress hy).mpr hsame)
    · intro k j a b ha hb hstored hsame
      obtain ⟨x, hx, hk⟩ := hlisted ha
      have heq := hnew.addresses k j x b hk ((listens_unlisted hb).mpr hstored)
        ((hx.sameAddress (Alike.refl b)).mpr hsame)
      rw [← heq, ha] at hb
      cases hb
  · intro hfits
    refine ⟨?_, ?_⟩
    · intro k j a b ha hb hsame
      rcases listens_bootstrap ha with ⟨c, hc, hac⟩ | ⟨hk, ha'⟩ <;>
        rcases listens_bootstrap hb with ⟨d, hd, hbd⟩ | ⟨hj, hb'⟩
      · exact hfits.apart k j c d hc hd ((hac.sameAddress hbd).mp hsame)
      · exact absurd ((hac.sameAddress (Alike.refl b)).mp hsame) (hfits.free k j c b hc hj hb')
      · exact absurd ((hbd.sameAddress (Alike.refl a)).mp ⟨hsame.1.symm, hsame.2.symm⟩)
          (hfits.free j k d a hd hk ha')
      · exact h.addresses k j a b ha' hb' hsame
    · intro k a ha
      rcases listens_bootstrap ha with ⟨c, hc, hac⟩ | ⟨-, ha'⟩
      · rw [hac.validateServer]
        exact hfits.valid k c hc
      · exact h.valid k a ha'

end Bootstrapping

namespace ListenerRequest

variable {s : JsonStore}

lemma handle_update (s : JsonStore) (now id : String) (cfg : PesitServerConfig) :
    (∃ old x, Listens s id old ∧ validateServer { cfg with serverId := id } = .ok () ∧
        handle s (.update now id cfg) = putListener s x ∧ Alike x { cfg with serverId := id }) ∨
      ((∃ old, Listens s id old) → validateServer { cfg with serverId := id } ≠ .ok ()) ∧
        handle s (.update now id cfg) = s := by
  by_cases hgo : (∃ old, Listens s id old) ∧ validateServer { cfg with serverId := id } = .ok ()
  · obtain ⟨⟨old, hold⟩, hvalid⟩ := hgo
    obtain ⟨x, hx, halike⟩ := updateServer_ok now hold hvalid
    refine .inl ⟨old, x, hold, hvalid, ?_, halike⟩
    rw [handle, run, hx, settle]
  · refine .inr ⟨fun hold hvalid => hgo ⟨hold, hvalid⟩, ?_⟩
    rw [handle, run]
    cases hrun : updateServer now s id cfg with
    | error e => rfl
    | ok s' => exact absurd (updateServer_found hrun) hgo

lemma handle_keeps (h : Named s) (r : ListenerRequest) :
    (∃ now id cfg, r = .update now id cfg) ∨ (∃ now boot, r = .bootstrap now boot) ∨
      Keeps s (handle s r) ∧ r.Permitted s := by
  cases r with
  | create now cfg =>
    exact .inr (.inr ⟨(createServer_keeps h now cfg).settled ⟨h, fun hl => hl⟩, trivial⟩)
  | update now id cfg => exact .inl ⟨now, id, cfg, rfl⟩
  | delete id => exact .inr (.inr ⟨(deleteServer_keeps h id).settled ⟨h, fun hl => hl⟩, trivial⟩)
  | setStatus now serverId status => exact .inr (.inr ⟨setStatus_keeps h now serverId status, trivial⟩)
  | bootstrap now boot => exact .inr (.inl ⟨now, boot, rfl⟩)

lemma handle_named (h : Named s) (r : ListenerRequest) : Named (handle s r) := by
  rcases handle_keeps h r with ⟨now, id, cfg, rfl⟩ | ⟨now, boot, rfl⟩ | ⟨hkeeps, -⟩
  · rcases handle_update s now id cfg with ⟨old, x, -, -, hput, -⟩ | ⟨-, hsame⟩
    · rw [hput]
      exact named_put h x
    · rw [hsame]
      exact h
  · exact named_bootstrap h now boot
  · exact hkeeps.named

lemma handle_listeners_iff (h : Named s) (hl : Listeners s) (r : ListenerRequest) :
    Listeners (handle s r) ↔ r.Permitted s := by
  rcases handle_keeps h r with ⟨now, id, cfg, rfl⟩ | ⟨now, boot, rfl⟩ | ⟨hkeeps, hpermitted⟩
  · rcases handle_update s now id cfg with ⟨old, x, hold, hvalid, hput, halike⟩ | ⟨hnot, hsame⟩
    · have hsame (other : PesitServerConfig) : SameAddress other x ↔ SameAddress other cfg := by
        rw [SameAddress, SameAddress, halike.bindAddress, halike.port]
      rw [hput, listeners_put hl (halike.validateServer.trans hvalid), halike.serverId]
      simp only [hsame]
      exact ⟨fun hfree _ _ => hfree, fun hpermitted => hpermitted ⟨old, hold⟩ hvalid⟩
    · rw [hsame]
      exact iff_of_true hl fun hold hvalid => absurd hvalid (hnot hold)
  · exact listeners_bootstrap hl now boot
  · exact iff_of_true (hkeeps.listeners hl) hpermitted

end ListenerRequest

open ListenerRequest

/-- The table of listeners stays in order all along exactly if each change of one takes a free address
and each start reads a file that fits. -/
theorem listeners_kept_iff (requests : List ListenerRequest) :
    (∀ rs, rs <+: requests → Listeners (rs.foldl handle .empty)) ↔
    Each handle Permitted .empty requests := by
  refine prefixes_iff Named Listeners (fun s r hs => handle_named hs r)
    (fun s r hs hl => handle_listeners_iff hs hl r) requests ?_ ?_
  · exact fun k x hx => absurd hx JsonStore.holds_empty
  · exact ⟨fun _ _ _ _ ha => absurd ha JsonStore.holds_empty, fun _ _ ha =>
      absurd ha JsonStore.holds_empty⟩

def sampleListener (serverId : String) (port : ℕ) : PesitServerConfig where
  id := none
  serverId := serverId
  port := port
  bindAddress := "0.0.0.0"
  maxEntitySize := 4096
  syncWindow := 4
  autoStart := false
  status := .stopped
  createdAt := none
  updatedAt := none
  lastStartedAt := none
  lastStoppedAt := none
  extra := .none

theorem listeners_same_port :
    ¬ ∀ requests : List ListenerRequest, ∀ rs, rs <+: requests → Listeners (rs.foldl handle .empty) := by
  intro h
  have hl := h [.create "t" (sampleListener "A" 5001), .create "t" (sampleListener "B" 5002),
    .update "t" "B" (sampleListener "B" 5001)] _ (List.prefix_refl _)
  have hone := hl.addresses "A" "B" _ _ rfl rfl ⟨rfl, rfl⟩
  exact absurd hone (by decide)

end PesitWizard.Node
