import PesitWizard.Io.Engine
import PesitWizard.Io.Outgoing

/-! Two engines with a link between them, which keeps the order of what is sent. -/

namespace PesitWizard.Io

open PesitWizard.Core Library

namespace Link

/-- What a link makes of an entity, up to the first FPDU that it cannot decode. -/
def fpdusOf (crc : Bool) (entity : Bytes) : List Fpdu :=
  match Frame.splitEntity entity crc with
  | .error _ => []
  | .ok parts => (decodeParts parts).1

lemma decodeParts_lenient {parts : List Bytes} {g : Fpdu} (h : g ∈ (decodeParts parts).1) :
    ∃ v ∈ parts, Fpdu.decodeLenient v = .ok g := by
  induction parts with
  | nil => cases h
  | cons v parts ih =>
    rw [decodeParts] at h
    cases hd : Fpdu.decode v with
    | error e =>
      rw [hd] at h
      cases h
    | ok f =>
      rw [hd] at h
      rcases List.mem_cons.mp h with rfl | h
      · exact ⟨v, List.mem_cons_self, Fpdu.decodeWith_lenient hd⟩
      · obtain ⟨u, hu, hg⟩ := ih h
        exact ⟨u, List.mem_cons_of_mem v hu, hg⟩

lemma mem_fpdusIn {crc : Bool} {entity : Bytes} {g : Fpdu} (h : g ∈ fpdusOf crc entity) :
    g ∈ Frame.fpdusIn crc entity := by
  rw [fpdusOf] at h
  rw [Frame.fpdusIn]
  cases hs : Frame.splitEntity entity crc with
  | error e =>
    rw [hs] at h
    cases h
  | ok parts =>
    rw [hs] at h
    obtain ⟨v, hv, hg⟩ := decodeParts_lenient h
    exact List.mem_filterMap.mpr ⟨v, hv, by rw [hg]; rfl⟩

lemma fpdusOf_image {crc : Bool} {f g : Fpdu} (hf : f.Composed) (henc : f.Encodable)
    (h : g ∈ fpdusOf crc (Frame.image crc f)) : g = f := by
  have himages :=
    Frame.fpdusIn_images crc (show ∀ g ∈ [f], g.Composed ∧ g.Encodable by simpa using ⟨hf, henc⟩)
  rw [List.flatMap_singleton] at himages
  have hmem := mem_fpdusIn h
  rw [himages] at hmem
  exact List.mem_singleton.mp hmem

/-- The same for an FPDU that is sent on its own. -/
def fpdusSent (crc : Bool) (f : Fpdu) : List Fpdu :=
  match Frame.singleEntity f crc with
  | .ok entity => fpdusOf crc entity
  | .error _ => []

lemma mem_fpdusSent {crc : Bool} {f g : Fpdu} (hf : f.Composed) (h : g ∈ fpdusSent crc f) : g = f := by
  rw [fpdusSent] at h
  split at h
  · rename_i entity he
    obtain ⟨henc, rfl⟩ := Frame.singleEntity_iff.mp he
    exact fpdusOf_image hf henc h
  · cases h

end Link

variable {σ τ : Type}

namespace Exchange

def heard : Exchange σ → List Fpdu
  | ⟨.recv, r⟩ =>
    match (r : Except SessionError Fpdu) with
    | .ok f => [f]
    | .error _ => []
  | ⟨.tryRecv, r⟩ =>
    match (r : Except SessionError (Option Fpdu)) with
    | .ok f => f.toList
    | .error _ => []
  | _ => []

def carried (r : Except SessionError Unit) (fs : List Fpdu) : List Fpdu :=
  match r with
  | .ok _ => fs
  | .error _ => []

lemma mem_carried {r : Except SessionError Unit} {fs : List Fpdu} {g : Fpdu} :
    g ∈ carried r fs ↔ r = .ok () ∧ g ∈ fs := by
  cases r with
  | ok u => simp [carried]
  | error e => simp [carried]

/-- What the link at the other end will make of what has been sent. -/
def said (crc : Bool) : Exchange σ → List Fpdu
  | ⟨.send f, r⟩ => carried r (Link.fpdusSent crc f)
  | ⟨.effect (.send entity), r⟩ => carried r (Link.fpdusOf crc entity)
  | _ => []

variable {crc : Bool} {f g : Fpdu}

lemma said_send {r : Call.Result (.send f : Call σ)} (hf : f.Composed) (h : g ∈ said crc ⟨.send f, r⟩) :
    r = .ok () ∧ g = f := (mem_carried.mp h).imp_right (Link.mem_fpdusSent hf)

lemma said_entity {entity : Bytes} {r : Call.Result (.effect (.send entity) : Call σ)}
    (h : g ∈ said crc ⟨.effect (.send entity), r⟩) : g ∈ Link.fpdusOf crc entity := (mem_carried.mp h).2

end Exchange

abbrev Dialogue (σ τ : Type) := List (Exchange σ ⊕ Exchange τ)

namespace Dialogue

open Exchange

def requester (d : Dialogue σ τ) : List (Exchange σ) := d.filterMap Sum.getLeft?

def server (d : Dialogue σ τ) : List (Exchange τ) := d.filterMap Sum.getRight?

/-- What is heard is what stands first in the queue to that side, and what is said goes to the end of the
queue to the other one. -/
def InOrder (crc : Bool) (toServer toRequester : List Fpdu) : Dialogue σ τ → Prop
  | [] => True
  | .inl e :: d => e.heard <+: toRequester ∧ InOrder crc (toServer ++ e.said crc)
    (toRequester.drop e.heard.length) d
  | .inr e :: d => e.heard <+: toServer ∧ InOrder crc (toServer.drop e.heard.length)
    (toRequester ++ e.said crc) d

def decideInOrder (crc : Bool) : (toServer toRequester : List Fpdu) → (d : Dialogue σ τ) →
    Decidable (InOrder crc toServer toRequester d)
  | _, _, [] => isTrue trivial
  | toServer, toRequester, .inl e :: d =>
    have := decideInOrder crc (toServer ++ e.said crc) (toRequester.drop e.heard.length) d
    inferInstanceAs (Decidable (_ ∧ _))
  | toServer, toRequester, .inr e :: d =>
    have := decideInOrder crc (toServer.drop e.heard.length) (toRequester ++ e.said crc) d
    inferInstanceAs (Decidable (_ ∧ _))

instance (crc : Bool) (toServer toRequester : List Fpdu) (d : Dialogue σ τ) :
    Decidable (InOrder crc toServer toRequester d) := decideInOrder crc toServer toRequester d

variable {crc : Bool} {toServer toRequester : List Fpdu}

lemma taken_first {α : Type} {a q b c : List α} (ha : a <+: q) (hb : b <+: q.drop a.length ++ c) :
    a ++ b <+: q ++ c := by
  obtain ⟨rest, rfl⟩ := ha
  rw [List.drop_left] at hb
  rw [List.append_assoc]
  exact (List.prefix_append_right_inj a).mpr hb

/-- Each side has heard the first part of what was on its way to it and what the other side has said. -/
lemma InOrder.heard_first {d : Dialogue σ τ} (h : InOrder crc toServer toRequester d) :
    d.requester.flatMap Exchange.heard <+: toRequester ++ d.server.flatMap (said crc) ∧
      d.server.flatMap Exchange.heard <+: toServer ++ d.requester.flatMap (said crc) := by
  induction d generalizing toServer toRequester with
  | nil => exact ⟨List.nil_prefix, List.nil_prefix⟩
  | cons e d ih =>
    cases e with
    | inl e =>
      obtain ⟨hfirst, hrest⟩ := h
      obtain ⟨hreq, hsrv⟩ := ih hrest
      refine ⟨taken_first hfirst hreq, ?_⟩
      rw [List.append_assoc] at hsrv
      exact hsrv
    | inr e =>
      obtain ⟨hfirst, hrest⟩ := h
      obtain ⟨hreq, hsrv⟩ := ih hrest
      refine ⟨?_, taken_first hfirst hsrv⟩
      rw [List.append_assoc] at hreq
      exact hreq

variable {d : Dialogue σ τ} {e : Exchange σ} {e' : Exchange τ} {g : Fpdu}

lemma InOrder.said_to_requester (h : InOrder crc [] [] d) (he : e ∈ d.requester) (hg : g ∈ e.heard) :
    ∃ e' ∈ d.server, g ∈ e'.said crc := by
  have hmem : g ∈ d.requester.flatMap Exchange.heard := List.mem_flatMap.mpr ⟨e, he, hg⟩
  exact List.mem_flatMap.mp (h.heard_first.1.subset hmem)

lemma InOrder.said_to_server (h : InOrder crc [] [] d) (he : e' ∈ d.server) (hg : g ∈ e'.heard) :
    ∃ e ∈ d.requester, g ∈ e.said crc := by
  have hmem : g ∈ d.server.flatMap Exchange.heard := List.mem_flatMap.mpr ⟨e', he, hg⟩
  exact List.mem_flatMap.mp (h.heard_first.2.subset hmem)

/-- The exchanges of both sides in turns, each of so many on the one side and then on the other. -/
def inTurns : List (ℕ × ℕ) → List (Exchange σ) → List (Exchange τ) → Dialogue σ τ
  | [], xs, ys => xs.map .inl ++ ys.map .inr
  | (m, n) :: ns, xs, ys => (xs.take m).map .inl ++ (ys.take n).map .inr ++
    inTurns ns (xs.drop m) (ys.drop n)

section Turns

variable (ns : List (ℕ × ℕ)) (xs : List (Exchange σ)) (ys : List (Exchange τ))

lemma requester_turn : requester (xs.map .inl ++ ys.map .inr : Dialogue σ τ) = xs := by
  rw [requester, List.filterMap_append, List.filterMap_map, List.filterMap_map]
  simp [Function.comp_def]

lemma server_turn : server (xs.map .inl ++ ys.map .inr : Dialogue σ τ) = ys := by
  rw [server, List.filterMap_append, List.filterMap_map, List.filterMap_map]
  simp [Function.comp_def]

lemma inTurns_requester : (inTurns ns xs ys).requester = xs := by
  induction ns generalizing xs ys with
  | nil => exact requester_turn xs ys
  | cons n ns ih =>
    have hrest := ih (xs.drop n.1) (ys.drop n.2)
    rw [requester] at hrest
    rw [inTurns, requester, List.filterMap_append, hrest]
    exact (congrArg (· ++ _) (requester_turn _ _)).trans (List.take_append_drop n.1 xs)

lemma inTurns_server : (inTurns ns xs ys).server = ys := by
  induction ns generalizing xs ys with
  | nil => exact server_turn xs ys
  | cons n ns ih =>
    have hrest := ih (xs.drop n.1) (ys.drop n.2)
    rw [server] at hrest
    rw [inTurns, server, List.filterMap_append, hrest]
    exact (congrArg (· ++ _) (server_turn _ _)).trans (List.take_append_drop n.2 ys)

end Turns

end Dialogue

end PesitWizard.Io
