import PesitWizard.App.Documents
import PesitWizard.Client.Api
import PesitWizard.Library.Ensures
import PesitWizard.Node.Pki
import PesitWizard.Node.Schedule

/-! The configurations that a node can come to hold, and what a backup of one keeps. -/

namespace PesitWizard.Node

open App Library NodeClusterHandler

inductive Write
  | createEntity (now : String) (kind : EntityKind) (body : Entity)
  | updateEntity (now : String) (kind : EntityKind) (id : String) (body : Entity)
  | deleteEntity (kind : EntityKind) (id : String)
  | createListener (now : String) (cfg : PesitServerConfig)
  | updateListener (now id : String) (cfg : PesitServerConfig)
  | deleteListener (id : String)
  | setStatus (now serverId : String) (status : ServerStatus)
  | bootstrap (now : String) (boot : Bootstrap)
  | createSchedule (now : String) (nowMs : ℤ) (id : String) (body : ScheduledTransfer)
  | updateSchedule (now : String) (nowMs : ℤ) (id : String) (body : ScheduledTransfer)
  | deleteSchedule (id : String)
  | runSchedule (now outcome id : String)
  | advanceSchedule (now : String) (nowMs : ℤ) (outcome : String) (schedule : ScheduledTransfer)
  | createRemote (now id : String) (server : Client.PesitServer)
  | updateRemote (now id : String) (server : Client.PesitServer)
  | deleteRemote (id : String)
  | setDefault (now id : String)
  | uploadTruststore (now id path : String)
  | deleteTruststore (id : String)
  | uploadKeystore (now id path : String)
  | registerCli (now : String) (server : Client.PesitServer)
  | createIdentity (now id : String) (partner : Client.Partner)
  | updateIdentity (now id : String) (partner : Client.Partner)
  | deleteIdentity (id : String)
  | setVault (cfg : Value)
  | clearVault
  | revoke (now serial : String)
  | issue (name : String) (m : PkiState.IssueMeta)
  | restore (tables : List (String × Value))

def quietly (r : Except ApiError JsonStore) : Except ApiError Written := r.map fun s => ⟨s, none⟩

namespace Write

variable (cron : Cron) (nodeId : String)

def perform (s : JsonStore) : Write → Except ApiError Written
  | createEntity now kind body => create nodeId now kind s body
  | updateEntity now kind id body => update nodeId now kind s id body
  | deleteEntity kind id => delete nodeId kind s id
  | createListener now cfg => quietly (createServer now s cfg)
  | updateListener now id cfg => quietly (updateServer now s id cfg)
  | deleteListener id => quietly (deleteServer s id)
  | setStatus now serverId status => .ok ⟨Node.setStatus now s serverId status, none⟩
  | bootstrap now boot => .ok ⟨Node.bootstrap now s boot, none⟩
  | createSchedule now nowMs id body => Schedule.create cron nodeId now nowMs id s body
  | updateSchedule now nowMs id body => Schedule.update cron nodeId now nowMs s id body
  | deleteSchedule id => Schedule.delete nodeId s id
  | runSchedule now outcome id => Schedule.runNow now outcome s id
  | advanceSchedule now nowMs outcome x =>
    let doc := toValue (Schedule.advance cron now nowMs outcome x)
    .ok ⟨s.put "schedules" x.id doc, publish nodeId "put" "schedules" x.id (some doc)⟩
  | createRemote now id server => quietly (Client.createServer now id s server)
  | updateRemote now id server => quietly (Client.updateServer now s id server)
  | deleteRemote id => quietly (Client.deleteServer s id)
  | setDefault now id => quietly (Client.setDefault now s id)
  | uploadTruststore now id path => quietly (Client.uploadTruststore now s id path)
  | deleteTruststore id => quietly (Client.deleteTruststore s id)
  | uploadKeystore now id path => quietly (Client.uploadKeystore now s id path)
  | registerCli now server => .ok ⟨Client.registerCliServer now s server, none⟩
  | createIdentity now id partner => quietly (Client.createPartner now id s partner)
  | updateIdentity now id partner => quietly (Client.updatePartner now s id partner)
  | deleteIdentity id => quietly (Client.deletePartner s id)
  | setVault cfg => .ok ⟨PkiState.setVault s cfg, none⟩
  | clearVault => .ok ⟨PkiState.clearVault s, none⟩
  | revoke now serial => quietly (PkiState.revoke now s serial)
  | issue name m => .ok ⟨PkiState.issue s name m, none⟩
  | restore tables => .ok ⟨(applyTables s tables).1, none⟩

end Write

/-- The configurations that come about by writes on a node, by the changes that other nodes publish and
by the snapshots that they hand out. -/
inductive Reachable (cron : Cron) : JsonStore → Prop
  | empty : Reachable cron .empty
  | write {s : JsonStore} (nodeId : String) (w : Write) {r : Written} :
      Reachable cron s → w.perform cron nodeId s = .ok r → Reachable cron r.store
  | replicated {s peer : JsonStore} {nodeId : String} {w : Write} {r : Written} {c : ConfigChange} :
      Reachable cron s → Reachable cron peer → w.perform cron nodeId peer = .ok r →
      r.published = some c →
      Reachable cron (apply s c)
  | synced {s peer : JsonStore} :
    Reachable cron s → Reachable cron peer →
    Reachable cron (NodeClusterHandler.restore s (snapshot peer))

/-- The documents of a table stand under the keys that are read off them. -/
def KeyedIn (t : String) (s : JsonStore) : Prop :=
  ∀ row ∈ (s.tables t).rows, backupKey t row.2 = some row.1

def Keyed (s : JsonStore) : Prop := ∀ t ∈ CONFIG_TABLES, t ≠ "pki" → KeyedIn t s

namespace KeyedIn

variable {s : JsonStore} {u : String}

lemma put (h : KeyedIn u s) {t key : String} {doc : Value} (hdoc : u = t → backupKey t doc = some key) :
    KeyedIn u (s.put t key doc) := by
  intro row hrow
  rw [JsonStore.put_tables] at hrow
  by_cases hut : u = t
  · rw [if_pos hut, Table.mem_put_rows] at hrow
    rcases hrow with rfl | ⟨hrow, -⟩
    · rw [hut]
      exact hdoc hut
    · exact h row hrow
  · rw [if_neg hut] at hrow
    exact h row hrow

lemma delete (h : KeyedIn u s) (t key : String) : KeyedIn u (s.delete t key) := by
  intro row hrow
  rw [JsonStore.delete_tables] at hrow
  by_cases hut : u = t
  · rw [if_pos hut] at hrow
    exact h row (List.mem_of_mem_filter hrow)
  · rw [if_neg hut] at hrow
    exact h row hrow

end KeyedIn

namespace Keyed

variable {s : JsonStore}

lemma empty : Keyed .empty := by
  intro t _ _ row hrow
  cases hrow

lemma put (h : Keyed s) {t key : String} {doc : Value} (hdoc : t ≠ "pki" → backupKey t doc = some key) :
    Keyed (s.put t key doc) :=
  fun u hu hpki => (h u hu hpki).put fun hut => hdoc (hut ▸ hpki)

lemma delete (h : Keyed s) (t key : String) : Keyed (s.delete t key) :=
  fun u hu hpki => (h u hu hpki).delete t key

lemma foldl {α : Type} {f : JsonStore → α → JsonStore}
    (hf : ∀ s, Keyed s → ∀ x, Keyed (f s x)) (l : List α) (h : Keyed s) : Keyed (l.foldl f s) := by
  induction l generalizing s with
  | nil => exact h
  | cons x l ih => exact ih (hf s h x)

lemma putAll (h : Keyed s) (tables : List (String × Value)) : Keyed (applyTables s tables).1 := by
  intro t ht hpki row hrow
  rw [applyTables_tables, if_pos ht] at hrow
  have hfind := Table.find_eq_some.mpr hrow
  rw [Table.find_putAll] at hfind
  cases hlast : Table.lastFor (rowsFor t tables) row.1 with
  | none =>
    rw [hlast] at hfind
    exact h t ht hpki row (Table.find_eq_some.mp hfind)
  | some doc =>
    rw [hlast] at hfind
    obtain rfl : doc = row.2 := by simpa using hfind
    exact backupKey_of_rowsFor (Table.mem_of_lastFor hlast)

end Keyed

/-- The change of a row that is told to the others names the key that is read off its document. -/
def Told (c : ConfigChange) : Prop :=
  c.table ≠ "pki" ∧ ∀ doc, c.doc = some doc → backupKey c.table doc = some c.key

lemma KeyedIn.apply {s : JsonStore} {t : String} (h : KeyedIn t s) {c : ConfigChange} (hc : Told c) :
    KeyedIn t (apply s c) := by
  rw [NodeClusterHandler.apply]
  split
  · split
    · exact h.delete _ _
    · split
      · rename_i doc hdoc
        exact h.put fun _ => hc.2 doc hdoc
      · exact h
  · exact h

structure Sound (r : Written) : Prop where
  keyed : Keyed r.store
  told : ∀ c, r.published = some c → Told c

section Writes

variable {s : JsonStore}

lemma told_publish {nodeId op t key : String} {doc : Option Value}
    (h : ∀ d, doc = some d → backupKey t d = some key) (c : ConfigChange)
    (hc : publish nodeId op t key doc = some c) : Told c := by
  rw [publish] at hc
  by_cases ht : t ∈ CLUSTER_TABLES
  · rw [if_pos ht] at hc
    obtain rfl := Option.some.inj hc
    refine ⟨?_, h⟩
    rintro (rfl : t = "pki")
    exact absurd ht (by decide)
  · rw [if_neg ht] at hc
    cases hc

lemma sound_quiet (h : Keyed s) : Sound ⟨s, none⟩ := ⟨h, fun c hc => by cases hc⟩

lemma ensures_quietly {r : Except ApiError JsonStore} (h : Ensures r Keyed) :
    Ensures (quietly r) Sound :=
  Ensures.map fun s hs => sound_quiet (h s hs)

lemma backupKey_entity (kind : EntityKind) (e : Entity) :
    backupKey kind.table (toValue e) = some e.id := by
  cases kind <;> rfl

lemma backupKey_schedule (x : ScheduledTransfer) : backupKey "schedules" (toValue x) = some x.id := rfl

inductive Touches (nodeId : String) (s : JsonStore) (t key : String) : Written → Prop
  | put (doc : Value) : backupKey t doc = some key →
      Touches nodeId s t key ⟨s.put t key doc, publish nodeId "put" t key (some doc)⟩
  | delete : Touches nodeId s t key ⟨s.delete t key, publish nodeId "delete" t key none⟩

lemma Touches.sound (h : Keyed s) {nodeId t key : String} {r : Written} (hr : Touches nodeId s t key r) :
    Sound r := by
  cases hr with
  | put doc hdoc => exact ⟨h.put fun _ => hdoc, told_publish fun d hd => by rwa [← Option.some.inj hd]⟩
  | delete => exact ⟨h.delete t key, told_publish fun d hd => by cases hd⟩

lemma create_touches (nodeId now : String) (kind : EntityKind) (body : Entity) :
    Ensures (create nodeId now kind s body) (Touches nodeId s kind.table body.id) := by
  apply Ensures.bind
  intro _ _
  apply Ensures.ite
  · exact fun _ => Ensures.error _
  · intro _
    apply Ensures.ok
    exact .put _ (backupKey_entity kind _)

lemma update_touches (nodeId now : String) (kind : EntityKind) (id : String) (body : Entity) :
    Ensures (update nodeId now kind s id body) (Touches nodeId s kind.table id) := by
  apply Ensures.bind
  intro old _
  cases old with
  | none => exact Ensures.error _
  | some old =>
    apply Ensures.bind
    intro _ _
    apply Ensures.ok
    exact .put _ (backupKey_entity kind _)

lemma delete_touches (nodeId : String) (kind : EntityKind) (id : String) :
    Ensures (delete nodeId kind s id) (Touches nodeId s kind.table id) := by
  apply Ensures.ite
  · exact fun _ => Ensures.ok .delete
  · exact fun _ => Ensures.error _

lemma createServer_keyed (h : Keyed s) (now : String) (cfg : PesitServerConfig) :
    Ensures (createServer now s cfg) Keyed := by
  apply Ensures.bind
  intro _ _
  apply Ensures.ite
  · exact fun _ => Ensures.error _
  · intro _
    apply Ensures.bind
    intro others _
    apply Ensures.ite
    · exact fun _ => Ensures.error _
    · intro _
      apply Ensures.ok
      exact Keyed.put (s := (s.nextCounter "server_id").2) h fun _ => rfl

lemma updateServer_keyed (h : Keyed s) (now id : String) (cfg : PesitServerConfig) :
    Ensures (updateServer now s id cfg) Keyed := by
  apply Ensures.bind
  intro old _
  cases old with
  | none => exact Ensures.error _
  | some old =>
    apply Ensures.bind
    intro _ _
    exact Ensures.ok (h.put fun _ => rfl)

lemma deleteServer_keyed (h : Keyed s) (id : String) : Ensures (deleteServer s id) Keyed := by
  apply Ensures.ite
  · exact fun _ => Ensures.ok (h.delete _ _)
  · exact fun _ => Ensures.error _

lemma find_keyed {t key : String} (h : KeyedIn t s) {doc : Value}
    (hfind : (s.tables t).find key = some doc) :
    backupKey t doc = some key := h _ (Table.find_eq_some.mp hfind)

lemma listener_serverId {doc : Value} {c : PesitServerConfig} {key : String}
    (h : Document.ofValue doc = some c) (hkey : backupKey "servers" doc = some key) :
    c.serverId = key := by
  obtain ⟨fields, hfields, h⟩ := Option.bind_eq_some_iff.mp h
  obtain ⟨id, -, h⟩ := Option.bind_eq_some_iff.mp h
  obtain ⟨serverId, hid, h⟩ := Option.bind_eq_some_iff.mp h
  -- the other fields do not matter
  iterate 10 obtain ⟨_, -, h⟩ := Option.bind_eq_some_iff.mp h
  obtain rfl := Option.some.inj h
  have hread : Value.readString fields "serverId" "" = some key := Value.readString_of_get hfields hkey
  rw [hid] at hread
  exact Option.some.inj hread

lemma schedule_id {doc : Value} {x : ScheduledTransfer} {key : String}
    (h : Document.ofValue doc = some x) (hkey : backupKey "schedules" doc = some key) : x.id = key := by
  obtain ⟨fields, hfields, h⟩ := Option.bind_eq_some_iff.mp h
  obtain ⟨id, hid, h⟩ := Option.bind_eq_some_iff.mp h
  iterate 11 obtain ⟨_, -, h⟩ := Option.bind_eq_some_iff.mp h
  obtain rfl := Option.some.inj h
  have hread : Value.readString fields "id" "" = some key := Value.readString_of_get hfields hkey
  rw [hid] at hread
  exact Option.some.inj hread

lemma setStatus_keyed (h : Keyed s) (now serverId : String) (status : ServerStatus) :
    Keyed (setStatus now s serverId status) := by
  rw [setStatus]
  split
  · rename_i c hc
    obtain ⟨doc, hdoc, hread⟩ := JsonStore.holds_iff.mp hc
    have hid := listener_serverId hread (find_keyed (h "servers" (by decide) (by decide)) hdoc)
    apply h.put
    intro _
    cases status <;> exact congrArg some hid
  · exact h

lemma bootstrap_keyed (h : Keyed s) (now : String) (boot : Bootstrap) :
    Keyed (bootstrap now s boot) := by
  have hentity : ∀ kind s, Keyed s → ∀ e, Keyed (bootEntity now kind s e) := fun kind s h e =>
    h.put fun _ => backupKey_entity kind _
  have hremote : ∀ s, Keyed s → ∀ e, Keyed (bootRemotePartner now s e) := fun s h e => h.put fun _ => rfl
  have hserver : ∀ s, Keyed s → ∀ c, Keyed (bootServer now s c) := by
    intro s h c
    rw [bootServer]
    cases c.id with
    | some id => exact h.put fun _ => rfl
    | none => exact Keyed.put (s := (s.nextCounter "server_id").2) h fun _ => rfl
  exact ((h.foldl (hentity .partner) _).foldl (hentity .virtualFile) _).foldl hremote _
    |>.foldl hserver _

variable (cron : Cron)

lemma createSchedule_touches (nodeId now : String) (nowMs : ℤ) (id : String) (body : ScheduledTransfer) :
    Ensures (Schedule.create cron nodeId now nowMs id s body) (Touches nodeId s "schedules" id) := by
  apply Ensures.ite
  · exact fun _ => Ensures.error _
  · intro _
    apply Ensures.bind
    intro _ _
    apply Ensures.ite
    · exact fun _ => Ensures.error _
    · exact fun _ => Ensures.ok (.put _ rfl)

lemma fetch_schedule (h : KeyedIn "schedules" s) {id : String} {x : ScheduledTransfer}
    (hx : fetch s "schedules" id = .ok (some x)) :
    x.id = id := by
  obtain ⟨doc, hdoc, hread⟩ := JsonStore.holds_iff.mp (JsonStore.fetch_iff.mp hx)
  exact schedule_id hread (find_keyed h hdoc)

lemma updateSchedule_touches (h : KeyedIn "schedules" s) (nodeId now : String) (nowMs : ℤ) (id : String)
    (body : ScheduledTransfer) :
    Ensures (Schedule.update cron nodeId now nowMs s id body) (Touches nodeId s "schedules" id) := by
  apply Ensures.bind
  intro old hold
  cases old with
  | none => exact Ensures.error _
  | some old =>
    have hid := fetch_schedule h hold
    apply Ensures.bind
    intro _ _
    apply Ensures.ok
    apply Touches.put
    rw [backupKey_schedule]
    split <;> exact congrArg some hid

lemma runSchedule_sound (h : Keyed s) (now outcome id : String) :
    Ensures (Schedule.runNow now outcome s id) Sound := by
  apply Ensures.bind
  intro old hold
  cases old with
  | none => exact Ensures.error _
  | some old =>
    have hid := fetch_schedule (h "schedules" (by decide) (by decide)) hold
    exact Ensures.ok (sound_quiet (h.put fun _ => congrArg some hid))

lemma deleteSchedule_touches (nodeId id : String) :
    Ensures (Schedule.delete nodeId s id) (Touches nodeId s "schedules" id) := by
  apply Ensures.ite
  · exact fun _ => Ensures.ok .delete
  · exact fun _ => Ensures.error _

lemma putServer_keyed (h : Keyed s) (server : Client.PesitServer) : Keyed (Client.putServer s server) :=
  h.put fun _ => rfl

lemma findServer_keyed (h : Keyed s) (id : String) (f : Client.PesitServer → Client.PesitServer) :
    Ensures (Client.findServer s id >>= fun server => .ok (Client.putServer s (f server))) Keyed := by
  apply Ensures.bind
  intro server _
  exact Ensures.ok (putServer_keyed h _)

lemma createRemote_keyed (h : Keyed s) (now id : String) (server : Client.PesitServer) :
    Ensures (Client.createServer now id s server) Keyed := by
  apply Ensures.bind
  intro _ _
  apply Ensures.bind
  intro all _
  apply Ensures.ite
  · exact fun _ => Ensures.error _
  · intro _
    apply Ensures.ok
    apply putServer_keyed
    split
    · exact h.foldl (fun s hs o => putServer_keyed hs _) _
    · exact h

lemma updateRemote_keyed (h : Keyed s) (now id : String) (server : Client.PesitServer) :
    Ensures (Client.updateServer now s id server) Keyed := by
  apply Ensures.bind
  intro old _
  apply Ensures.bind
  intro _ _
  exact Ensures.ok (putServer_keyed h _)

lemma deleteRemote_keyed (h : Keyed s) (id : String) : Ensures (Client.deleteServer s id) Keyed := by
  apply Ensures.bind
  intro old _
  exact Ensures.ok (h.delete _ _)

lemma setDefault_keyed (h : Keyed s) (now id : String) : Ensures (Client.setDefault now s id) Keyed := by
  apply Ensures.bind
  intro target _
  apply Ensures.bind
  intro all _
  apply Ensures.ok
  apply h.foldl
  intro s hs o
  split
  · exact hs
  · exact putServer_keyed hs _

lemma createIdentity_keyed (h : Keyed s) (now id : String) (partner : Client.Partner) :
    Ensures (Client.createPartner now id s partner) Keyed := by
  apply Ensures.ite
  · exact fun _ => Ensures.error _
  · intro _
    apply Ensures.bind
    intro all _
    apply Ensures.ite
    · exact fun _ => Ensures.error _
    · exact fun _ => Ensures.ok (h.put fun _ => rfl)

lemma updateIdentity_keyed (h : Keyed s) (now id : String) (partner : Client.Partner) :
    Ensures (Client.updatePartner now s id partner) Keyed := by
  apply Ensures.bind
  intro old _
  cases old with
  | none => exact Ensures.error _
  | some old => exact Ensures.ok (h.put fun _ => rfl)

lemma deleteIdentity_keyed (h : Keyed s) (id : String) : Ensures (Client.deletePartner s id) Keyed := by
  apply Ensures.ite
  · exact fun _ => Ensures.ok (h.delete _ _)
  · exact fun _ => Ensures.error _

lemma revoke_keyed (h : Keyed s) (now serial : String) :
    Ensures (PkiState.revoke now s serial) Keyed := by
  apply Ensures.ite
  · exact fun _ => Ensures.error _
  · intro _
    apply Ensures.ite
    · exact fun _ => Ensures.ok h
    · exact fun _ => Ensures.ok (h.put fun hpki => absurd rfl hpki)

lemma perform_sound (h : Keyed s) (nodeId : String) (w : Write) :
    Ensures (w.perform cron nodeId s) Sound := by
  cases w with
  | createEntity now kind body =>
    exact (create_touches nodeId now kind body).mono fun _ => Touches.sound h
  | updateEntity now kind id body =>
    exact (update_touches nodeId now kind id body).mono fun _ => Touches.sound h
  | deleteEntity kind id => exact (delete_touches nodeId kind id).mono fun _ => Touches.sound h
  | createListener now cfg => exact ensures_quietly (createServer_keyed h now cfg)
  | updateListener now id cfg => exact ensures_quietly (updateServer_keyed h now id cfg)
  | deleteListener id => exact ensures_quietly (deleteServer_keyed h id)
  | setStatus now serverId status =>
    exact Ensures.ok (sound_quiet (setStatus_keyed h now serverId status))
  | bootstrap now boot => exact Ensures.ok (sound_quiet (bootstrap_keyed h now boot))
  | createSchedule now nowMs id body =>
    exact (createSchedule_touches cron nodeId now nowMs id body).mono fun _ => Touches.sound h
  | updateSchedule now nowMs id body =>
    exact (updateSchedule_touches cron (h _ (by decide) (by decide)) nodeId now nowMs id body).mono
      fun _ => Touches.sound h
  | deleteSchedule id => exact (deleteSchedule_touches nodeId id).mono fun _ => Touches.sound h
  | runSchedule now outcome id => exact runSchedule_sound h now outcome id
  | advanceSchedule now nowMs outcome x => exact Ensures.ok (Touches.sound h (.put _ rfl))
  | createRemote now id server => exact ensures_quietly (createRemote_keyed h now id server)
  | updateRemote now id server => exact ensures_quietly (updateRemote_keyed h now id server)
  | deleteRemote id => exact ensures_quietly (deleteRemote_keyed h id)
  | setDefault now id => exact ensures_quietly (setDefault_keyed h now id)
  | uploadTruststore now id path => exact ensures_quietly (findServer_keyed h id _)
  | deleteTruststore id => exact ensures_quietly (findServer_keyed h id _)
  | uploadKeystore now id path => exact ensures_quietly (findServer_keyed h id _)
  | registerCli now server => exact Ensures.ok (sound_quiet (putServer_keyed h _))
  | createIdentity now id partner => exact ensures_quietly (createIdentity_keyed h now id partner)
  | updateIdentity now id partner => exact ensures_quietly (updateIdentity_keyed h now id partner)
  | deleteIdentity id => exact ensures_quietly (deleteIdentity_keyed h id)
  | setVault cfg => exact Ensures.ok (sound_quiet (h.put fun hpki => absurd rfl hpki))
  | clearVault => exact Ensures.ok (sound_quiet (h.delete _ _))
  | revoke now serial => exact ensures_quietly (revoke_keyed h now serial)
  | issue name m => exact Ensures.ok (sound_quiet (h.put fun hpki => absurd rfl hpki))
  | restore tables => exact Ensures.ok (sound_quiet (h.putAll tables))

end Writes

lemma Reachable.keyed {cron : Cron} {s : JsonStore} (h : Reachable cron s) : Keyed s := by
  induction h with
  | empty => exact Keyed.empty
  | write nodeId w hs hw ih => exact (perform_sound cron ih nodeId w _ hw).keyed
  | replicated hs hpeer hw hc ih ihpeer =>
    exact fun t ht hpki => (ih t ht hpki).apply ((perform_sound cron ihpeer _ _ _ hw).told _ hc)
  | synced hs hpeer ih ihpeer => exact ih.putAll _

def restored (s : JsonStore) : JsonStore := (applyTables .empty ((dump s).asObject.getD [])).1

lemma rowsFor_dumpOnly (s : JsonStore) {t : String} {which : List String} (ht : t ∈ which)
    (hnodup : which.Nodup) :
    rowsFor t (which.map fun t => (t, Value.array (s.list t))) = keyed t (s.list t) := by
  induction which with
  | nil => cases ht
  | cons u which ih =>
    rw [List.nodup_cons] at hnodup
    rw [List.map_cons, rowsFor_cons]
    by_cases hu : t = u
    · subst hu
      have hnone : rowsFor t (which.map fun t => (t, Value.array (s.list t))) = [] := by
        rw [rowsFor, List.filter_eq_nil_iff.mpr, List.flatMap_nil]
        intro entry hentry
        obtain ⟨v, hv, rfl⟩ := List.mem_map.mp hentry
        simpa using fun h : v = t => hnodup.1 (h ▸ hv)
      rw [if_pos rfl, hnone, List.append_nil]
      rfl
    · have hmem : t ∈ which := (List.mem_cons.mp ht).resolve_left hu
      rw [if_neg hu, List.nil_append, ih hmem hnodup.2]

lemma keyed_docs {t : String} {rows : List (String × Value)}
    (h : ∀ row ∈ rows, backupKey t row.2 = some row.1) :
    keyed t (rows.map Prod.snd) = rows := by
  induction rows with
  | nil => rfl
  | cons row rows ih =>
    rw [List.map_cons, keyed, List.filterMap_cons, h row List.mem_cons_self]
    simp only [Option.map_some, List.cons.injEq, true_and]
    exact ih fun r hr => h r (List.mem_cons_of_mem row hr)

lemma keyed_pki (docs : List Value) : keyed "pki" docs = docs.map fun doc => ("vault", doc) := by
  induction docs with
  | nil => rfl
  | cons doc docs ih =>
    rw [List.map_cons, ← ih]
    rfl

lemma restored_tables (s : JsonStore) {t : String} (ht : t ∈ CONFIG_TABLES) :
    (restored s).tables t = Table.empty.putAll (keyed t (s.list t)) := by
  rw [restored, applyTables_tables, if_pos ht]
  congr 1
  exact rowsFor_dumpOnly s ht (by decide)

lemma restored_of_keyed {s : JsonStore} (h : Keyed s) {t : String} (ht : t ∈ CONFIG_TABLES)
    (hpki : t ≠ "pki") :
    (restored s).tables t = s.tables t := by
  rw [restored_tables s ht, JsonStore.list, Table.docs, keyed_docs (h t ht hpki), Table.putAll_rows]

lemma restored_pki (s : JsonStore) {row : String × Value} (h : row ∈ ((restored s).tables "pki").rows) :
    row.1 = "vault" := by
  have hfind := Table.find_eq_some.mpr h
  rw [restored_tables s (by decide), Table.find_putAll, Table.find_empty, Option.or_none,
    keyed_pki] at hfind
  obtain ⟨doc, -, hdoc⟩ := List.mem_map.mp (Table.mem_of_lastFor hfind)
  exact (Prod.mk.inj hdoc).1.symm

lemma restored_pki_vault {s : JsonStore} (h : ∀ row ∈ (s.tables "pki").rows, row.1 = "vault") :
    (restored s).tables "pki" = s.tables "pki" := by
  have hrows : keyed "pki" (s.list "pki") = (s.tables "pki").rows :=
    keyed_docs fun row hrow => congrArg some (h row hrow).symm
  rw [restored_tables s (by decide), hrows, Table.putAll_rows]

/-- A backup brings back all of the configuration. -/
def Restores (s : JsonStore) : Prop :=
  ∀ t ∈ CONFIG_TABLES, ∀ row, row ∈ ((restored s).tables t).rows ↔ row ∈ (s.tables t).rows

/-- A backup brings back the configuration exactly if there is nothing on certificates but the
access to the vault. -/
theorem backup_restore_iff {cron : Cron} {s : JsonStore} (h : Reachable cron s) :
    Restores s ↔ ∀ row ∈ (s.tables "pki").rows, row.1 = "vault" := by
  constructor
  · intro hsame row hrow
    exact restored_pki s ((hsame "pki" (by decide) row).mpr hrow)
  · intro hvault t ht row
    by_cases hpki : t = "pki"
    · subst hpki
      rw [restored_pki_vault hvault]
    · rw [restored_of_keyed h.keyed ht hpki]

def noCron : Cron := ⟨fun e => .error e⟩

def vaultConfig : Value := .object [("address", .string "https://vault:8200"), ("role", .string "pesit")]

def vaultStore : JsonStore := PkiState.setVault .empty vaultConfig

lemma vaultStore_reachable : Reachable noCron vaultStore :=
  Reachable.write "node-1" (.setVault vaultConfig) .empty rfl

def namedEntity (id : String) : Entity := ⟨id, none, none, ⟨[("description", .string id)], by simp⟩⟩

def partnerCreated : JsonStore :=
  JsonStore.put .empty "partners" "A" (toValue ((namedEntity "A").touch "now" true))

def fileReplicated : JsonStore :=
  partnerCreated.put "virtual_files" "F" (toValue ((namedEntity "F").touch "later" true))

/-- A partner is created on the node, a virtual file on another one, then a connector and the access to
the vault are set on the node. -/
def configuredStore : JsonStore :=
  PkiState.setVault
    (fileReplicated.put "connectors" "archive"
    (toValue ((namedEntity "archive").touch "now" true))) vaultConfig

lemma configuredStore_reachable : Reachable noCron configuredStore := by
  have hpartner : Reachable noCron partnerCreated :=
    Reachable.write "node-1" (.createEntity "now" .partner (namedEntity "A")) .empty rfl
  have hfile : Reachable noCron fileReplicated :=
    Reachable.replicated hpartner .empty
      (rfl : Write.perform noCron "node-2" .empty
      (.createEntity "later" .virtualFile (namedEntity "F")) = .ok _) rfl
  have hconnector :=
    Reachable.write "node-1" (.createEntity "now" .connector (namedEntity "archive")) hfile rfl
  exact Reachable.write "node-1" (.setVault vaultConfig) hconnector rfl

theorem backup_restore_configured : Restores configuredStore := by
  refine (backup_restore_iff configuredStore_reachable).mpr ?_
  decide
def revokedStore : JsonStore :=
  vaultStore.put "pki" "revoked" (.array [RevokedEntry.toValue ⟨"0a", "2026-01-01"⟩])

theorem backup_restore_loses :
    ¬ ∀ (cron : Cron) (s : JsonStore), Reachable cron s → Restores s := by
  intro h
  have hreach : Reachable noCron revokedStore :=
    Reachable.write "node-1" (.revoke "2026-01-01" "0A") vaultStore_reachable rfl
  have hrow : ("revoked", .array [RevokedEntry.toValue ⟨"0a", "2026-01-01"⟩]) ∈
      (revokedStore.tables "pki").rows := by
    rw [revokedStore, JsonStore.put_tables, if_pos rfl, Table.mem_put_rows]
    exact .inl rfl
  have hvault := restored_pki revokedStore ((h noCron revokedStore hreach "pki" (by decide) _).mpr hrow)
  exact absurd hvault (by decide)

end PesitWizard.Node
