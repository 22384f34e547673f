import PesitWizard.Core.Lockstep
import PesitWizard.Io.Turn

/-! What a sender puts on the link for a sequence of articles, as far as it does not depend on the
receiver, and when a receiver can take all of it. -/

namespace PesitWizard.Io

open PesitWizard.Core Library

namespace SendData

def schedule (p : DataParams) : Option Compressor → ℕ → List Bytes → List (Bool × Bytes)
  | _, _, [] => []
  | c, bytesSinceSync, a :: as =>
    let (sync, wire, c) := onWire p c bytesSinceSync a
    (sync, wire) :: schedule p c ((if sync then 0 else bytesSinceSync) + wire.length) as

def points (l : List (Bool × Bytes)) : ℕ := l.countP (fun y => y.1)

lemma onWire_plain {p : DataParams} {c : Option Compressor} {n : ℕ} {a : Bytes}
    (h : needsSync p n (compressArticle c a).1.length = false) :
    onWire p c n a = (false, compressArticle c a) := by
  simp only [onWire, h, Bool.false_eq_true, if_false]

lemma onWire_fst (p : DataParams) (c : Option Compressor) (n : ℕ) (a : Bytes) :
    (onWire p c n a).1 = needsSync p n (compressArticle c a).1.length := by
  cases h : needsSync p n (compressArticle c a).1.length with
  | false => rw [onWire_plain h]
  | true =>
    simp only [onWire, h, if_true]
    split <;> rfl

lemma onWire_none (p : DataParams) (n : ℕ) (a : Bytes) :
    onWire p none n a = (needsSync p n a.length, a, none) := by
  cases h : needsSync p n a.length with
  | false => exact onWire_plain h
  | true => simp only [onWire, compressArticle, h, if_true]

lemma onWire_sync {p : DataParams} {c : Compressor} {n : ℕ} {a : Bytes}
    (h : needsSync p n (c.compress a).1.length = true) :
    onWire p (some c) n a = (true, compressArticle (some (c.compress a).2.syncPoint) a) := by
  simp only [onWire, compressArticle, h, if_true]

lemma schedule_none_wires (p : DataParams) (n : ℕ) (as : List Bytes) :
    (schedule p none n as).map Prod.snd = as := by
  induction as generalizing n with
  | nil => rfl
  | cons a as ih =>
    simp only [schedule, onWire_none, List.map_cons, ih]

/-- All articles come through: a receiver that decompresses has room for them, no piece of one is
refused, and the numbers of the synchronisation points can be decoded. -/
def Admissible (rp p : DataParams) (c : Option Compressor) (bytesSinceSync syncNo : ℕ)
    (as : List Bytes) : Prop :=
  (c.isSome = true → ∀ a ∈ as, a.length ≤ max rp.maxArticle 1) ∧
    (∀ y ∈ schedule p c bytesSinceSync as, ArticlePacker.Passes (maxSingle p) rp.maxArticle y.2) ∧
    syncNo + points (schedule p c bytesSinceSync as) < 2 ^ 24

lemma onWire_isSome (p : DataParams) (c : Option Compressor) (n : ℕ) (a : Bytes) :
    (onWire p c n a).2.2.isSome = c.isSome := by
  cases c with
  | none => rw [onWire_none]
  | some c =>
    cases h : needsSync p n (c.compress a).1.length with
    | false =>
      rw [onWire_plain h]
      rfl
    | true =>
      rw [onWire_sync h]
      rfl

variable {σ : Type} {src : ArticleSource σ} {p rp : DataParams} {s s' : SendState σ} {a : Bytes}
    {as : List Bytes} {rest : σ}

variable (rp) (as) in
lemma admissible_cons (h : Turned src p s a rest s') (hn : s.syncNo < 2 ^ 24) :
    Admissible rp p s.compressor s.bytesSinceSync s.syncNo (a :: as) ↔
      ((s.compressor.isSome = true → a.length ≤ max rp.maxArticle 1) ∧ Carried rp p s a ∧
        Admissible rp p s'.compressor s'.bytesSinceSync s'.syncNo as) := by
  have hnext : nextSync s = s.syncNo + 1 := Nat.mod_eq_of_lt (by omega)
  simp only [Admissible, schedule, List.forall_mem_cons, h.compressor, h.bytesSinceSync,
    h.syncNo, onWire_isSome, Carried, points, List.countP_cons, hnext]
  cases (onWire p s.compressor s.bytesSinceSync a).1 <;> grind

/-- The references of the two ends are the same, and long enough for the articles. -/
def Mirrors (rp : DataParams) : Option Compressor → Option Decompressor → Prop
  | none, none => True
  | some c, some d => d.reference = c.reference ∧ d.reference.length = max rp.maxArticle 1 ∧
      d.maxArticle = max rp.maxArticle 1
  | _, _ => False

open Compress

lemma onWire_decompress {c : Compressor} {d : Decompressor} (h : Mirrors rp (some c) (some d)) (n : ℕ)
    (ha : a.length ≤ max rp.maxArticle 1) :
    ∃ d', d.decompress (onWire p (some c) n a).2.1 = .ok (a, d') ∧
    Mirrors rp (onWire p (some c) n a).2.2 (some d') := by
  have hstep : c.InStep (max rp.maxArticle 1) d := h
  cases hsync : needsSync p n (c.compress a).1.length with
  | false =>
    rw [onWire_plain hsync]
    exact hstep.compress ha
  | true =>
    rw [onWire_sync hsync]
    exact hstep.recompress ha

lemma onWire_tooLong {c : Compressor} {d : Decompressor} (h : Mirrors rp (some c) (some d)) (n : ℕ)
    (ha : ¬ a.length ≤ max rp.maxArticle 1) :
    ∃ e, d.decompress (onWire p (some c) n a).2.1 = .error e := by
  obtain ⟨href, hlen, hmax⟩ := h
  have hlt : d.maxArticle < a.length := by omega
  have hrefuse : ∀ (mode : Mode) (c' : Compressor), ∃ e,
      d.decompress (Compress.compress mode a (c'.grown a)) = .error e := by
    intro mode c'
    obtain ⟨e, he⟩ := decompress_tooLong mode d.reference (c'.le_grown a) hlt
    exact ⟨e, by simp only [Decompressor.decompress, he]⟩
  cases hsync : needsSync p n (c.compress a).1.length with
  | false =>
    rw [onWire_plain hsync]
    exact hrefuse _ _
  | true =>
    rw [onWire_sync hsync]
    exact hrefuse _ _

end SendData

end PesitWizard.Io
