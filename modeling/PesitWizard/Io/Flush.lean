import PesitWizard.Io.Journal
import PesitWizard.Library.Moves

/-! A data phase with the flushes of the receiver's sink. A point is recorded once checkpoint() has
returned for it; a checkpoint() that fails ends the receiver. -/

namespace PesitWizard.Io

open Library

structure Flushing (σ τ : Type) where
  session : Session σ τ
  flushed : Bool
  failed : Option SessionError

inductive FlushMove
  | move (m : Move)
  | senderCancels
  | receiverCancels
  | checkpoint (result : Except SessionError Unit)

namespace Flushing

variable {σ τ : Type}

def start (c : Session σ τ) : Flushing σ τ := ⟨c, false, none⟩

/-- A checkpoint() changes neither the sink nor its position, which is what it returns. -/
def checkpoint (x : Flushing σ τ) (result : Except SessionError Unit) : Option (Flushing σ τ) :=
  match x.session.receiver.todo, x.flushed, result with
  | .record _ :: _, false, .ok _ => some { x with flushed := true }
  | .record _ :: _, false, .error e => some { x with failed := some e }
  | _, _, _ => none

variable (u : Session.Setup σ τ)

def receiverPerforms (x : Flushing σ τ) : Option (Flushing σ τ) :=
  match x.session.receiver.todo with
  | .record _ :: _ =>
    if x.flushed then (x.session.receiverPerforms u).map fun c => { x with
      session := c, flushed := false } else none
  | _ => (x.session.receiverPerforms u).map fun c => { x with session := c }

def step (x : Flushing σ τ) : FlushMove → Option (Flushing σ τ)
  | .move .receiverPerforms => if x.failed.isSome then none else x.receiverPerforms u
  | .move .receiverTakes =>
    if x.failed.isSome then none else (x.session.receiverTakes u).map fun c => { x with session := c }
  | .move m => (x.session.step u m).map fun c => { x with session := c }
  | .senderCancels => (x.session.senderCancels u).map fun c => { x with session := c }
  | .receiverCancels =>
    if x.failed.isSome then none else (x.session.receiverCancels u).map fun c => { x with session := c }
  | .checkpoint result => if x.failed.isSome then none else x.checkpoint result

end Flushing

namespace Transfer

open SendData Session

variable {σ τ : Type} {u : Setup σ τ} {c d : Session σ τ} {x y : Flushing σ τ}

/-- All moves but the performing of an effect leave what the receiver has still to do, unless
there is nothing. -/
structure Idles (c d : Session σ τ) : Prop where
  recorded : d.receiver.recorded = c.receiver.recorded
  sink : d.receiver.sink = c.receiver.sink
  todo : c.receiver.todo ≠ [] → d.receiver.todo = c.receiver.todo

lemma idles_step {m : Move} (hm : m ≠ .receiverPerforms) (h : c.step u m = some d) : Idles c d := by
  cases m with
  | receiverPerforms => exact absurd rfl hm
  | senderPerforms =>
    rcases senderPerforms_cases h with ⟨e, todo, -, rfl⟩ | ⟨w, todo, -, -, rfl⟩
    · exact ⟨rfl, rfl, fun _ => rfl⟩
    · exact ⟨rfl, rfl, fun _ => rfl⟩
  | senderPolls =>
    simp only [Session.step, Session.senderPolls] at h
    split at h
    · obtain rfl := Option.some.inj h
      exact ⟨rfl, rfl, fun _ => rfl⟩
    · obtain rfl := Option.some.inj h
      exact ⟨rfl, rfl, fun _ => rfl⟩
    · obtain rfl := Option.some.inj h
      exact ⟨rfl, rfl, fun _ => rfl⟩
    · cases h
  | senderWaits =>
    simp only [Session.step, Session.senderWaits] at h
    split at h
    · split at h
      · obtain ⟨act, -, rfl⟩ := Option.map_eq_some_iff.mp h
        exact ⟨rfl, rfl, fun _ => rfl⟩
      · cases h
    · cases h
  | senderAdvances =>
    obtain ⟨s, -, -, -, rfl⟩ := senderAdvances_cases h
    exact ⟨rfl, rfl, fun _ => rfl⟩
  | receiverTakes =>
    obtain ⟨r, link, act, htodo, -, -, rfl⟩ := receiverTakes_cases h
    exact ⟨rfl, rfl, fun hne => absurd htodo hne⟩

/-- What a move does: it leaves what the receiver has to do, performs what is no record, makes the record
that checkpoint() has returned for, or is a checkpoint() that returns or fails. -/
inductive Flushed (u : Setup σ τ) (x y : Flushing σ τ) : FlushMove → Prop
  | idles {m : FlushMove} (hstep : Happens u x.session y.session) (hsame : Idles x.session y.session)
      (hflushed : y.flushed = x.flushed) : Flushed u x y m
  | performs {w : Effect} {ws : List Effect} (htodo : x.session.receiver.todo = w :: ws)
    (hw : ∀ cp, w ≠ .record cp)
      (hstep : x.session.receiverPerforms u = some y.session) (hflushed : y.flushed = x.flushed) :
      Flushed u x y (.move .receiverPerforms)
  | record {cp : Checkpoint} {ws : List Effect} (htodo : x.session.receiver.todo = .record cp :: ws)
      (hready : x.flushed = true) (hstep : x.session.receiverPerforms u = some y.session)
      (hflushed : y.flushed = false) :
      Flushed u x y (.move .receiverPerforms)
  | returns {cp : Checkpoint} {ws : List Effect} (htodo : x.session.receiver.todo = .record cp :: ws)
      (heq : y = { x with flushed := true }) : Flushed u x y (.checkpoint (.ok ()))
  | fails {e : SessionError} (heq : y = { x with failed := some e }) : Flushed u x y
    (.checkpoint (.error e))

lemma flushed_of_move {m : Move} (hm : m ≠ .receiverPerforms)
    (h : ((x.session.step u m).map fun c => { x with session := c }) = some y) :
    Flushed u x y (.move m) := by
  obtain ⟨c, hc, rfl⟩ := Option.map_eq_some_iff.mp h
  exact .idles (.inl ⟨m, hc⟩) (idles_step hm hc) rfl

lemma flushed_of_performs (h : x.receiverPerforms u = some y) :
    Flushed u x y (.move .receiverPerforms) := by
  rw [Flushing.receiverPerforms] at h
  split at h
  · rename_i cp ws htodo
    split at h
    · rename_i hready
      obtain ⟨c, hc, rfl⟩ := Option.map_eq_some_iff.mp h
      exact .record htodo hready hc rfl
    · cases h
  · rename_i hne
    obtain ⟨c, hc, rfl⟩ := Option.map_eq_some_iff.mp h
    obtain ⟨w, ws, htodo, -⟩ := receiverPerforms_cases [] hc
    refine .performs htodo ?_ hc rfl
    rintro cp rfl
    exact hne cp ws htodo

lemma flushed_of_step {m : FlushMove} (h : x.step u m = some y) : Flushed u x y m := by
  cases m with
  | move m =>
    cases m with
    | receiverPerforms =>
      rw [Flushing.step] at h
      split at h
      · cases h
      · exact flushed_of_performs h
    | receiverTakes =>
      rw [Flushing.step] at h
      split at h
      · cases h
      · exact flushed_of_move (m := .receiverTakes) (by decide) h
    | senderPerforms => exact flushed_of_move (m := .senderPerforms) (by decide) h
    | senderPolls => exact flushed_of_move (m := .senderPolls) (by decide) h
    | senderWaits => exact flushed_of_move (m := .senderWaits) (by decide) h
    | senderAdvances => exact flushed_of_move (m := .senderAdvances) (by decide) h
  | senderCancels =>
    obtain ⟨c, hc, rfl⟩ := Option.map_eq_some_iff.mp h
    obtain ⟨s, -, -, rfl⟩ := senderCancels_cases hc
    exact .idles (.inr (.inl hc)) ⟨rfl, rfl, fun _ => rfl⟩ rfl
  | receiverCancels =>
    rw [Flushing.step] at h
    split at h
    · cases h
    · obtain ⟨c, hc, rfl⟩ := Option.map_eq_some_iff.mp h
      obtain ⟨s, htodo, -, rfl⟩ := receiverCancels_cases hc
      exact .idles (.inr (.inr hc)) ⟨rfl, rfl, fun hne => absurd htodo hne⟩ rfl
  | checkpoint result =>
    rw [Flushing.step] at h
    split at h
    · cases h
    · unfold Flushing.checkpoint at h
      split at h
      · rename_i htodo _
        exact .returns htodo (Option.some.inj h).symm
      · exact .fails (Option.some.inj h).symm
      · cases h

lemma Flushed.session {m : FlushMove} (h : Flushed u x y m) :
    y.session = x.session ∨ Happens u x.session y.session := by
  cases h with
  | idles hstep => exact .inr hstep
  | performs htodo hw hstep => exact .inr (.inl ⟨.receiverPerforms, hstep⟩)
  | record htodo hready hstep => exact .inr (.inl ⟨.receiverPerforms, hstep⟩)
  | returns htodo heq =>
    subst heq
    exact .inl rfl
  | fails heq =>
    subst heq
    exact .inl rfl

/-- A run of a data phase that may be interrupted, with its flushes. -/
abbrev Flushes (t : Transfer σ τ) : Flushing σ τ → Flushing σ τ → Prop :=
  Moves (Flushing.step t.setup) fun _ _ => True

variable {t : Transfer σ τ}

lemma Flushes.run (h : t.Flushes x y) :
    Relation.ReflTransGen (Session.Happens t.setup) x.session y.session := by
  induction h with
  | refl => exact .refl
  | tail _ hstep ih =>
    obtain ⟨m, -, hm⟩ := hstep
    rcases (flushed_of_step hm).session with hsame | hnext
    · rw [hsame]
      exact ih
    · exact ih.tail hnext

/-- In the run checkpoint() has returned for the record at hand, with the sink as it still is. -/
def FlushedAt (t : Transfer σ τ) (x₀ x : Flushing σ τ) : Prop :=
  ∃ y z cp ws, t.Flushes x₀ y ∧ y.step t.setup (.checkpoint (.ok ())) = some z ∧ t.Flushes z x ∧
    x.session.receiver.todo = .record cp :: ws ∧ y.session.receiver.sink = x.session.receiver.sink

lemma Flushes.flushedAt {x₀ : Flushing σ τ} (h : t.Flushes x₀ x) (hstart : x₀.flushed = false)
    (hflushed : x.flushed = true) : t.FlushedAt x₀ x := by
  induction h with
  | refl =>
    rw [hstart] at hflushed
    cases hflushed
  | @tail y z hrun hstep ih =>
    obtain ⟨m, -, hm⟩ := hstep
    cases flushed_of_step hm with
    | idles _ hsame heq =>
      obtain ⟨v, w, cp, ws, hv, hw, hrest, htodo, hsink⟩ := ih (heq.symm.trans hflushed)
      refine ⟨v, w, cp, ws, hv, hw, hrest.tail ⟨m, trivial, hm⟩, ?_, hsink.trans hsame.sink.symm⟩
      rw [hsame.todo (by rw [htodo]; exact List.cons_ne_nil _ _)]
      exact htodo
    | performs htodo hw _ heq =>
      -- what checkpoint() has returned for is a record
      obtain ⟨_, _, cp, ws, -, -, -, htodo', -⟩ := ih (heq.symm.trans hflushed)
      exact absurd (List.cons.inj (htodo.symm.trans htodo')).1 (hw cp)
    | record _ _ _ heq =>
      rw [heq] at hflushed
      cases hflushed
    | returns htodo heq =>
      subst heq
      exact ⟨y, _, _, _, hrun, hm, .refl, htodo, rfl⟩
    | fails heq =>
      subst heq
      obtain ⟨v, w, cp, ws, hv, hw, hrest, htodo, hsink⟩ := ih hflushed
      exact ⟨v, w, cp, ws, hv, hw, hrest.tail ⟨_, trivial, hm⟩, htodo, hsink⟩

lemma Flushed.recorded {m : FlushMove} (h : Flushed u x y m) :
    y.session.receiver.recorded = x.session.receiver.recorded ∨
      ∃ cp ws, x.session.receiver.todo = .record cp :: ws ∧ x.flushed = true ∧
      m = .move .receiverPerforms ∧
        y.session.receiver.recorded = x.session.receiver.recorded ++ [cp] := by
  cases h with
  | idles _ hsame => exact .inl hsame.recorded
  | @performs w _ htodo hw hstep =>
    obtain ⟨-, -, hrec, -⟩ := receiverPerforms_fields hstep htodo
    refine .inl ?_
    rw [hrec]
    cases w with
    | record cp => exact absurd rfl (hw cp)
    | _ => exact List.append_nil _
  | record htodo hready hstep =>
    obtain ⟨-, -, hrec, -⟩ := receiverPerforms_fields hstep htodo
    exact .inr ⟨_, _, htodo, hready, rfl, hrec⟩
  | returns _ heq =>
    subst heq
    exact .inl rfl
  | fails heq =>
    subst heq
    exact .inl rfl

lemma failed_map {o : Option (Session σ τ)} (hfailed : x.failed.isSome = true)
    (ho : ∀ c, o = some c → c.receiver.recorded = x.session.receiver.recorded)
    (h : (o.map fun c => { x with session := c }) = some y) :
    y.failed.isSome = true ∧ y.session.receiver.recorded = x.session.receiver.recorded := by
  obtain ⟨c, hc, rfl⟩ := Option.map_eq_some_iff.mp h
  exact ⟨hfailed, ho c hc⟩

lemma failed_step {m : FlushMove} (hfailed : x.failed.isSome = true) (h : x.step u m = some y) :
    y.failed.isSome = true ∧ y.session.receiver.recorded = x.session.receiver.recorded := by
  have hmoves : ∀ m, m ≠ .receiverPerforms → ∀ c, x.session.step u m = some c →
      c.receiver.recorded = x.session.receiver.recorded := fun m hm c hc => (idles_step hm hc).recorded
  cases m with
  | move m =>
    cases m with
    | receiverPerforms =>
      rw [Flushing.step, if_pos hfailed] at h
      cases h
    | receiverTakes =>
      rw [Flushing.step, if_pos hfailed] at h
      cases h
    | senderPerforms => exact failed_map hfailed (hmoves .senderPerforms (by decide)) h
    | senderPolls => exact failed_map hfailed (hmoves .senderPolls (by decide)) h
    | senderWaits => exact failed_map hfailed (hmoves .senderWaits (by decide)) h
    | senderAdvances => exact failed_map hfailed (hmoves .senderAdvances (by decide)) h
  | senderCancels =>
    refine failed_map hfailed ?_ h
    intro c hc
    obtain ⟨s, -, -, rfl⟩ := senderCancels_cases hc
    rfl
  | receiverCancels =>
    rw [Flushing.step, if_pos hfailed] at h
    cases h
  | checkpoint result =>
    rw [Flushing.step, if_pos hfailed] at h
    cases h

/-- A receiver of which a checkpoint() has failed records nothing more. -/
lemma Flushes.failed_recorded (h : t.Flushes x y) (hfailed : x.failed.isSome = true) :
    y.session.receiver.recorded = x.session.receiver.recorded := by
  have hkept : y.failed.isSome = true ∧ y.session.receiver.recorded = x.session.receiver.recorded := by
    induction h with
    | refl => exact ⟨hfailed, rfl⟩
    | tail _ hstep ih =>
      obtain ⟨m, -, hm⟩ := hstep
      obtain ⟨hnext, hsame⟩ := failed_step ih.1 hm
      exact ⟨hnext, hsame.trans ih.2⟩
  exact hkept.2

end Transfer

end PesitWizard.Io
