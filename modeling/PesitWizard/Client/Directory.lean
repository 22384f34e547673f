import PesitWizard.App.Documents
import PesitWizard.Client.Api
import PesitWizard.Library.Ensures
import PesitWizard.Library.Moves

/-! Requests on the servers one after the other, and which of them keep the names and
the default apart. -/

namespace PesitWizard.Client

open App Library

inductive ServerRequest
  | create (now id : String) (server : PesitServer)
  | update (now id : String) (server : PesitServer)
  | setDefault (now id : String)
  | delete (id : String)

def ServerRequest.run (s : JsonStore) : ServerRequest → Except ApiError JsonStore
  | create now id server => createServer now id s server
  | update now id server => updateServer now s id server
  | setDefault now id => Client.setDefault now s id
  | delete id => deleteServer s id

def ServerRequest.handle (s : JsonStore) (r : ServerRequest) : JsonStore := settle s (r.run s)

def Stores (s : JsonStore) (k : String) (server : PesitServer) : Prop :=
  s.Holds "remote_servers" k server

structure Directory (s : JsonStore) : Prop where
  names : ∀ k j a b, Stores s k a → Stores s j b → a.name = b.name → k = j
  single : ∀ k j a b, Stores s k a → Stores s j b → a.defaultServer = true →
    b.defaultServer = true → k = j

/-- Two servers that may stand in one directory. -/
def Apart (a b : PesitServer) : Prop :=
  a.name ≠ b.name ∧ ¬ (a.defaultServer = true ∧ b.defaultServer = true)

/-- A request to change a server that would go through leaves it apart from all the others. -/
def ServerRequest.Permitted (s : JsonStore) : ServerRequest → Prop
  | update _ id server =>
    ∀ old, findServer s id = .ok old → validateServer server = .ok () →
      ∀ k other, Stores s k other → k ≠ old.id → Apart other server
  | _ => True

abbrev Keyed (s : JsonStore) : Prop := s.KeyedBy PesitServer.id "remote_servers"

variable {s : JsonStore} {x : PesitServer}

lemma stores_put {k : String} {a : PesitServer} :
    Stores (putServer s x) k a ↔ k = x.id ∧ a = x ∨ k ≠ x.id ∧ Stores s k a := JsonStore.holds_put

lemma keyed_put (h : Keyed s) (x : PesitServer) : Keyed (putServer s x) := by
  intro k a ha
  rcases stores_put.mp ha with ⟨rfl, rfl⟩ | ⟨-, ha⟩
  · rfl
  · exact h k a ha

lemma directory_put (h : Directory s) :
    Directory (putServer s x) ↔ ∀ k other, Stores s k other → k ≠ x.id → Apart other x := by
  constructor
  · intro hnew k other hother hk
    have hself : Stores (putServer s x) x.id x := stores_put.mpr (.inl ⟨rfl, rfl⟩)
    have hkept : Stores (putServer s x) k other := stores_put.mpr (.inr ⟨hk, hother⟩)
    exact ⟨fun hname => hk (hnew.names _ _ _ _ hkept hself hname),
      fun hboth => hk (hnew.single _ _ _ _ hkept hself hboth.1 hboth.2)⟩
  · intro hapart
    refine ⟨?_, ?_⟩
    · intro k j a b ha hb hname
      rcases stores_put.mp ha with ⟨rfl, rfl⟩ | ⟨hk, ha'⟩ <;>
        rcases stores_put.mp hb with ⟨rfl, rfl⟩ | ⟨hj, hb'⟩
      · rfl
      · exact absurd hname.symm (hapart j b hb' hj).1
      · exact absurd hname (hapart k a ha' hk).1
      · exact h.names k j a b ha' hb' hname
    · intro k j a b ha hb hda hdb
      rcases stores_put.mp ha with ⟨rfl, rfl⟩ | ⟨hk, ha'⟩ <;>
        rcases stores_put.mp hb with ⟨rfl, rfl⟩ | ⟨hj, hb'⟩
      · rfl
      · exact absurd ⟨hdb, hda⟩ (hapart j b hb' hj).2
      · exact absurd ⟨hda, hdb⟩ (hapart k a ha' hk).2
      · exact h.single k j a b ha' hb' hda hdb

/-- Servers that are rewritten keep their places and their names. -/
lemma stores_rewrite (h : Keyed s) {all l : List PesitServer}
    (hall : fetchAll s "remote_servers" = .ok all) (hl : l ⊆ all)
    {f : PesitServer → PesitServer} (hf : ∀ o, (f o).id = o.id) {k : String} {a : PesitServer} :
    Stores (l.foldl (fun s o => putServer s (f o)) s) k a ↔ ∃ o, Stores s k o ∧
    (o ∈ l ∧ a = f o ∨ o ∉ l ∧ a = o) := by
  have hput : (fun s o => putServer s (f o)) = fun s o =>
    s.put "remote_servers" o.id (toValue (f o)) := by
    funext s o
    rw [putServer, hf]
  have hstored : ∀ o ∈ l, Stores s o.id o := by
    intro o ho
    obtain ⟨k, hk⟩ := (JsonStore.mem_fetchAll hall).mp (hl ho)
    rw [h k o hk]
    exact hk
  rw [hput]
  exact JsonStore.holds_rewrite h hstored

lemma keyed_rewrite (h : Keyed s) {l : List PesitServer} {f : PesitServer → PesitServer} :
    Keyed (l.foldl (fun s o => putServer s (f o)) s) := by
  induction l generalizing s with
  | nil => exact h
  | cons o l ih => exact ih (keyed_put h (f o))

/-- What a request that goes through makes of a directory that is keyed by its identifiers. -/
structure Keeps (s s' : JsonStore) : Prop where
  keyed : Keyed s'
  directory : Directory s → Directory s'

lemma Directory.of_names {s' : JsonStore} (h : Directory s)
    (hname : ∀ k a, Stores s' k a → ∃ o, Stores s k o ∧ a.name = o.name)
    (hsingle : ∀ k j a b, Stores s' k a → Stores s' j b → a.defaultServer = true →
      b.defaultServer = true → k = j) :
    Directory s' := by
  refine ⟨?_, hsingle⟩
  intro k j a b ha hb heq
  obtain ⟨o, ho, hao⟩ := hname k a ha
  obtain ⟨p, hp, hbp⟩ := hname j b hb
  exact h.names k j o p ho hp (by rw [← hao, heq, hbp])

section Rewriting

variable {all : List PesitServer} {k : String} {a : PesitServer}

def cleared (s : JsonStore) (all : List PesitServer) : JsonStore :=
  (all.filter PesitServer.defaultServer).foldl (fun s o => putServer s { o with
    defaultServer := false }) s

lemma cleared_stores (h : Keyed s) (hall : fetchAll s "remote_servers" = .ok all)
    (ha : Stores (cleared s all) k a) :
    ∃ o, Stores s k o ∧ a.name = o.name ∧ a.defaultServer = false := by
  rw [cleared, stores_rewrite h hall (List.filter_subset_self _)
    (f := fun o => { o with defaultServer := false }) fun _ => rfl] at ha
  obtain ⟨o, ho, ⟨-, rfl⟩ | ⟨hnot, rfl⟩⟩ := ha
  · exact ⟨o, ho, rfl, rfl⟩
  · refine ⟨a, ho, rfl, ?_⟩
    by_contra hd
    exact hnot (List.mem_filter.mpr ⟨(JsonStore.mem_fetchAll hall).mpr ⟨k, ho⟩, by simpa using hd⟩)

lemma cleared_directory (h : Keyed s) (hd : Directory s) (hall : fetchAll s "remote_servers" = .ok all) :
    Directory (cleared s all) := by
  refine hd.of_names ?_ ?_
  · intro k a ha
    obtain ⟨o, ho, heq, -⟩ := cleared_stores h hall ha
    exact ⟨o, ho, heq⟩
  · intro k j a b ha _ hda _
    obtain ⟨-, -, -, hfalse⟩ := cleared_stores h hall ha
    rw [hfalse] at hda
    cases hda

def chosen (now : String) (target o : PesitServer) : PesitServer :=
  { o with defaultServer := o.id == target.id, updatedAt := some now }

def outOfStep (target o : PesitServer) : Bool := !(o.defaultServer == (o.id == target.id))

lemma chosen_stores (h : Keyed s) (hall : fetchAll s "remote_servers" = .ok all) {now : String}
    {target : PesitServer}
    (ha : Stores
      ((all.filter (outOfStep target)).foldl (fun s o => putServer s (chosen now target o)) s) k a) :
    ∃ o, Stores s k o ∧ a.name = o.name ∧ a.defaultServer = (k == target.id) := by
  rw [stores_rewrite h hall (List.filter_subset_self _) (f := chosen now target) fun _ => rfl] at ha
  obtain ⟨o, ho, ⟨-, rfl⟩ | ⟨hnot, rfl⟩⟩ := ha
  · exact ⟨o, ho, rfl, by rw [← h k o ho]; rfl⟩
  · refine ⟨a, ho, rfl, ?_⟩
    by_contra hd
    rw [← h k a ho] at hd
    exact hnot (List.mem_filter.mpr ⟨(JsonStore.mem_fetchAll hall).mpr ⟨k, ho⟩, by
      simpa [outOfStep] using hd⟩)

end Rewriting

lemma createServer_keeps (h : Keyed s) (now id : String) (server : PesitServer) :
    Ensures (createServer now id s server) (Keeps s) := by
  apply Ensures.bind
  intro _ _
  apply Ensures.bind
  intro all hall
  apply Ensures.ite
  · exact fun _ => Ensures.error _
  · intro hnew
    apply Ensures.ok
    have hname : ∀ k a, Stores s k a → a.name ≠ server.name := by
      intro k a ha heq
      exact hnew (List.any_eq_true.mpr ⟨a, (JsonStore.mem_fetchAll hall).mpr ⟨k, ha⟩, by
        simpa using heq⟩)
    split
    · refine ⟨keyed_put (keyed_rewrite h) _, fun hd =>
        (directory_put (cleared_directory h hd hall)).mpr ?_⟩
      intro k a ha _
      obtain ⟨o, ho, heq, hfalse⟩ := cleared_stores h hall ha
      exact ⟨fun hsame => hname k o ho (heq.symm.trans hsame), fun hboth => by
        rw [hfalse] at hboth; cases hboth.1⟩
    · rename_i hdefault
      refine ⟨keyed_put h _, fun hd => (directory_put hd).mpr ?_⟩
      intro k a ha _
      exact ⟨hname k a ha, fun hboth => hdefault hboth.2⟩

lemma deleteServer_keeps (h : Keyed s) (id : String) : Ensures (deleteServer s id) (Keeps s) := by
  apply Ensures.bind
  intro old _
  apply Ensures.ok
  have hless {k : String} {a : PesitServer} (ha : Stores (s.delete "remote_servers" old.id) k a) :
      Stores s k a :=
    (JsonStore.holds_delete.mp ha).2
  refine ⟨fun k a ha => h k a (hless ha), fun hd => ⟨?_, ?_⟩⟩
  · exact fun k j a b ha hb hname => hd.names k j a b (hless ha) (hless hb) hname
  · exact fun k j a b ha hb hda hdb => hd.single k j a b (hless ha) (hless hb) hda hdb

lemma setDefault_keeps (h : Keyed s) (now id : String) : Ensures (setDefault now s id) (Keeps s) := by
  apply Ensures.bind
  intro target _
  apply Ensures.bind
  intro all hall
  apply Ensures.ok
  have hfold : all.foldl (fun s o =>
        if o.defaultServer == (o.id == target.id) then s
        else putServer s { o with defaultServer := o.id == target.id, updatedAt := some now }) s =
      (all.filter (outOfStep target)).foldl (fun s o => putServer s (chosen now target o)) s := by
    rw [List.foldl_filter]
    congr 1
    funext s o
    cases heq : o.defaultServer == (o.id == target.id) <;> simp [outOfStep, chosen, heq]
  rw [hfold]
  refine ⟨keyed_rewrite h, fun hd => hd.of_names ?_ ?_⟩
  · intro k a ha
    obtain ⟨o, ho, heq, -⟩ := chosen_stores h hall ha
    exact ⟨o, ho, heq⟩
  · intro k j a b ha hb hda hdb
    obtain ⟨-, -, -, hk⟩ := chosen_stores h hall ha
    obtain ⟨-, -, -, hj⟩ := chosen_stores h hall hb
    rw [hda] at hk
    rw [hdb] at hj
    rw [eq_of_beq hk.symm, eq_of_beq hj.symm]

lemma updateServer_ok (now : String) {id : String} {server old : PesitServer}
    (hfind : findServer s id = .ok old) (hvalid : validateServer server = .ok ()) :
    ∃ x, updateServer now s id server = .ok (putServer s x) ∧ x.id = old.id ∧ x.name = server.name ∧
      x.defaultServer = server.defaultServer := by
  refine ⟨_, by rw [updateServer, hfind]; simp only [hvalid, bind, Except.bind]; rfl, ?_⟩
  simp only [refreshTlsFlags]
  refine ⟨?_, ?_, ?_⟩ <;> split <;> split <;> rfl

lemma updateServer_found {now id : String} {server : PesitServer} {s' : JsonStore}
    (h : updateServer now s id server = .ok s') :
    ∃ old, findServer s id = .ok old ∧ validateServer server = .ok () := by
  rw [updateServer] at h
  cases hfind : findServer s id with
  | error e =>
    rw [hfind] at h
    cases h
  | ok old =>
    cases hvalid : validateServer server with
    | error e =>
      rw [hfind, hvalid] at h
      cases h
    | ok _ => exact ⟨old, rfl, rfl⟩

namespace ServerRequest

lemma handle_keeps (h : Keyed s) (r : ServerRequest) :
    (∃ now id server, r = .update now id server) ∨ Keeps s (handle s r) ∧ r.Permitted s := by
  cases r with
  | create now id server =>
    exact .inr ⟨(createServer_keeps h now id server).settled ⟨h, fun hd => hd⟩, trivial⟩
  | update now id server => exact .inl ⟨now, id, server, rfl⟩
  | setDefault now id =>
    exact .inr ⟨(setDefault_keeps h now id).settled ⟨h, fun hd => hd⟩, trivial⟩
  | delete id => exact .inr ⟨(deleteServer_keeps h id).settled ⟨h, fun hd => hd⟩, trivial⟩

lemma handle_update (s : JsonStore) (now id : String) (server : PesitServer) :
    (∃ old x, findServer s id = .ok old ∧ validateServer server = .ok () ∧
      handle s (.update now id server) = putServer s x ∧
        x.id = old.id ∧ x.name = server.name ∧ x.defaultServer = server.defaultServer) ∨
      (∀ old, findServer s id = .ok old → validateServer server ≠ .ok ()) ∧
      handle s (.update now id server) = s := by
  by_cases hgo : ∃ old, findServer s id = .ok old ∧ validateServer server = .ok ()
  · obtain ⟨old, hfind, hvalid⟩ := hgo
    obtain ⟨x, hx, hsame⟩ := updateServer_ok now hfind hvalid
    refine .inl ⟨old, x, hfind, hvalid, ?_, hsame⟩
    rw [handle, run, hx, settle]
  · refine .inr ⟨fun old hfind hvalid => hgo ⟨old, hfind, hvalid⟩, ?_⟩
    rw [handle, run]
    cases hrun : updateServer now s id server with
    | error e => rfl
    | ok s' =>
      obtain ⟨old, hfound⟩ := updateServer_found hrun
      exact absurd ⟨old, hfound⟩ hgo

lemma handle_keyed (h : Keyed s) (r : ServerRequest) : Keyed (handle s r) := by
  rcases handle_keeps h r with ⟨now, id, server, rfl⟩ | ⟨hkeeps, -⟩
  · rcases handle_update s now id server with ⟨old, x, -, -, hput, -⟩ | ⟨-, hsame⟩
    · rw [hput]
      exact keyed_put h x
    · rw [hsame]
      exact h
  · exact hkeeps.keyed

lemma handle_directory_iff (h : Keyed s) (hd : Directory s) (r : ServerRequest) :
    Directory (handle s r) ↔ r.Permitted s := by
  rcases handle_keeps h r with ⟨now, id, server, rfl⟩ | ⟨hkeeps, hpermitted⟩
  · rcases handle_update s now id server with ⟨old, x, hfind, hvalid, hput, hid, hname,
      hdefault⟩ | ⟨hnot, hsame⟩
    · rw [hput, directory_put hd, hid]
      simp only [Apart, hname, hdefault]
      constructor
      · intro hapart old' hfind' _
        obtain rfl : old = old' := Except.ok.inj (hfind.symm.trans hfind')
        exact hapart
      · intro hpermitted
        exact hpermitted old hfind hvalid
    · rw [hsame]
      exact iff_of_true hd fun old hfind hvalid => absurd hvalid (hnot old hfind)
  · exact iff_of_true (hkeeps.directory hd) hpermitted

end ServerRequest

open ServerRequest

/-- Names and the default stay apart all along exactly if each change of a server leaves it
apart from the others. -/
theorem directory_kept_iff (requests : List ServerRequest) :
    (∀ rs, rs <+: requests → Directory (rs.foldl handle .empty)) ↔
      Each handle Permitted .empty requests := by
  refine prefixes_iff Keyed Directory (fun s r hs => handle_keyed hs r)
    (fun s r hs hd => handle_directory_iff hs hd r) requests ?_ ?_
  · intro k x hx
    exact absurd hx JsonStore.holds_empty
  · exact ⟨fun _ _ _ _ ha => absurd ha JsonStore.holds_empty, fun _ _ _ _ ha =>
      absurd ha JsonStore.holds_empty⟩

def sampleServer (name : String) (defaultServer : Bool) : PesitServer where
  id := ""
  name := name
  host := "localhost"
  port := 5001
  tlsEnabled := false
  caFile := none
  certFile := none
  keyFile := none
  truststoreConfigured := false
  keystoreConfigured := false
  defaultServer := defaultServer
  createdAt := none
  updatedAt := none
  extra := .none

theorem directory_two_defaults :
    ¬ ∀ requests : List ServerRequest, ∀ rs, rs <+: requests → Directory (rs.foldl handle .empty) := by
  intro h
  have hd := h [.create "t" "1" (sampleServer "A" true), .create "t" "2" (sampleServer "B" false),
    .update "t" "2" (sampleServer "B" true)] _ (List.prefix_refl _)
  have hone := hd.single "1" "2" _ _ rfl rfl rfl rfl
  exact absurd hone (by decide)

end PesitWizard.Client
