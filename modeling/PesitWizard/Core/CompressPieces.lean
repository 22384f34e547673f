import Mathlib.Algebra.Order.BigOperators.Group.List
import Mathlib.Algebra.Order.Group.Nat
import PesitWizard.Core.Compress

/-! The strings of a compressed article, and what they stand for. -/

namespace PesitWizard.Core.Compress

open Library.Scan

section Pieces

def Piece.size : Piece → ℕ
  | .copy n => n
  | .run n _ => n
  | .literal bytes => bytes.length

/-- The count of a string fits the six bits of its header. -/
def Piece.Fits (p : Piece) : Prop := 0 < p.size ∧ p.size ≤ chunkLen

def Piece.bytes : Piece → Bytes
  | .copy n => [0xC0 ||| UInt8.ofNat n]
  | .run n b => [0x80 ||| UInt8.ofNat n, b]
  | .literal bytes => UInt8.ofNat bytes.length :: bytes

def sizes (ps : List Piece) : ℕ := (ps.map Piece.size).sum

def render (reference : Bytes) : ℕ → List Piece → Bytes
  | _, [] => []
  | k, .copy n :: ps => (reference.drop k).take n ++ render reference (k + n) ps
  | k, .run n b :: ps => List.replicate n b ++ render reference (k + n) ps
  | k, .literal bytes :: ps => bytes ++ render reference (k + bytes.length) ps

lemma header_bits : ∀ n : Fin 64,
    (0xC0 ||| UInt8.ofNat n.val) &&& 0xC0 = 0xC0 ∧
    ((0xC0 ||| UInt8.ofNat n.val) &&& 0x3F).toNat = n.val ∧
    (0x80 ||| UInt8.ofNat n.val) &&& 0xC0 = 0x80 ∧
    ((0x80 ||| UInt8.ofNat n.val) &&& 0x7F).toNat = n.val ∧
    UInt8.ofNat n.val &&& 0xC0 = 0 ∧ (UInt8.ofNat n.val &&& 0x3F).toNat = n.val := by
  decide

lemma readPiece_bytes {p : Piece} (h : p.Fits) (rest : Bytes) :
    readPiece (p.bytes ++ rest) = .ok (p, rest) := by
  obtain ⟨hpos, hle⟩ := h
  have hbits := header_bits ⟨p.size, by simp only [chunkLen] at hle; omega⟩
  cases p with
  | copy n =>
    obtain ⟨h1, h2, -⟩ := hbits
    simp only [Piece.size] at h1 h2
    simp only [Piece.bytes, List.cons_append, List.nil_append, readPiece, h1, h2, if_true]
  | run n b =>
    obtain ⟨-, -, h1, h2, -⟩ := hbits
    simp only [Piece.size] at h1 h2
    simp only [Piece.bytes, List.cons_append, List.nil_append, readPiece, h1, h2]
    rfl
  | literal bytes =>
    obtain ⟨-, -, -, -, h1, h2⟩ := hbits
    simp only [Piece.size] at h1 h2
    simp only [Piece.bytes, List.cons_append, readPiece, h1, h2]
    simp

lemma readPiece_consumes : Consumes readPiece := by
  intro xs p rest h
  cases xs with
  | nil => cases h
  | cons b xs =>
    simp only [readPiece] at h
    split at h
    · obtain ⟨-, rfl⟩ := Prod.mk.inj (Except.ok.inj h)
      simp
    · split at h
      · split at h
        · cases h
        · obtain ⟨-, rfl⟩ := Prod.mk.inj (Except.ok.inj h)
          simp only [List.length_cons]
          omega
      · split at h
        · split at h
          · cases h
          · obtain ⟨-, rfl⟩ := Prod.mk.inj (Except.ok.inj h)
            simp only [List.length_drop, List.length_cons]
            omega
        · cases h

lemma decompress_pieces {ps : List Piece} (h : ∀ p ∈ ps, p.Fits) (reference : Bytes) (maxLen : ℕ) :
    decompress (ps.flatMap Piece.bytes) reference maxLen =
    ps.foldlM (applyPiece reference maxLen) [] := by
  have hc : Chunks readPiece (ps.flatMap Piece.bytes) ps := by
    refine chunks_flatMap Piece.bytes ?_ (fun p hp rest => readPiece_bytes (h p hp) rest)
    intro p _
    cases p <;> simp [Piece.bytes]
  exact scanAll_of_chunks readPiece_consumes hc []

lemma applyPieces_ok {reference : Bytes} {maxLen : ℕ} (ps : List Piece) (out : Bytes)
    (hmax : out.length + sizes ps ≤ maxLen) (href : out.length + sizes ps ≤ reference.length) :
    ps.foldlM (applyPiece reference maxLen) out = .ok (out ++ render reference out.length ps) := by
  induction ps generalizing out with
  | nil => simp [render, pure, Except.pure]
  | cons p ps ih =>
    simp only [sizes, List.map_cons, List.sum_cons] at hmax href ih
    rw [foldlM_cons_ok]
    cases p with
    | copy n =>
      simp only [Piece.size] at hmax href
      have hlen : ((reference.drop out.length).take n).length = n := by
        rw [List.length_take, List.length_drop]
        omega
      refine ⟨out ++ (reference.drop out.length).take n, ?_, ?_⟩
      · rw [applyPiece, if_neg (by omega), if_neg (by omega)]
      · rw [ih _ (by rw [List.length_append, hlen]; omega) (by rw [List.length_append, hlen]; omega)]
        simp [render, hlen]
    | run n b =>
      simp only [Piece.size] at hmax href
      refine ⟨out ++ List.replicate n b, ?_, ?_⟩
      · rw [applyPiece, if_neg (by omega)]
      · rw [ih _ (by simp only [List.length_append, List.length_replicate]; omega)
          (by simp only [List.length_append, List.length_replicate]; omega)]
        simp [render]
    | literal bytes =>
      simp only [Piece.size] at hmax href
      refine ⟨out ++ bytes, ?_, ?_⟩
      · rw [applyPiece, if_neg (by omega)]
      · rw [ih _ (by rw [List.length_append]; omega) (by rw [List.length_append]; omega)]
        simp [render]

lemma applyPieces_length {reference : Bytes} {maxLen : ℕ} (ps : List Piece) (out : Bytes) {r : Bytes}
    (hout : out.length ≤ maxLen) (h : ps.foldlM (applyPiece reference maxLen) out = .ok r) :
    r.length = out.length + sizes ps ∧ r.length ≤ maxLen := by
  induction ps generalizing out with
  | nil =>
    obtain rfl : out = r := Except.ok.inj h
    exact ⟨by simp [sizes], hout⟩
  | cons p ps ih =>
    obtain ⟨out', hp, hrest⟩ := (foldlM_cons_ok _ _ _ _).mp h
    have hstep : out'.length = out.length + p.size ∧ out'.length ≤ maxLen := by
      cases p with
      | copy n =>
        simp only [applyPiece] at hp
        split at hp
        · cases hp
        · split at hp
          · cases hp
          · obtain rfl := Except.ok.inj hp
            simp only [Piece.size, List.length_append, List.length_take, List.length_drop]
            omega
      | run n b =>
        simp only [applyPiece] at hp
        split at hp
        · cases hp
        · obtain rfl := Except.ok.inj hp
          have hlen : (out ++ List.replicate n b).length = out.length + n := by simp
          rw [hlen, Piece.size]
          omega
      | literal bytes =>
        simp only [applyPiece] at hp
        split at hp
        · cases hp
        · obtain rfl := Except.ok.inj hp
          rw [List.length_append, Piece.size]
          omega
    obtain ⟨hlen, hle⟩ := ih out' hstep.2 hrest
    refine ⟨?_, hle⟩
    rw [hlen, hstep.1]
    simp only [sizes, List.map_cons, List.sum_cons]
    omega

end Pieces

section Runs

def Piece.text : Piece → Option Bytes
  | .copy _ => none
  | .run n b => some (List.replicate n b)
  | .literal bytes => some bytes

inductive Spells : List Piece → Bytes → Prop
  | nil : Spells [] []
  | cons {p t ps c} : p.text = some t → Spells ps c → Spells (p :: ps) (t ++ c)

lemma Spells.snoc {ps : List Piece} {c t : Bytes} {p : Piece} (h : Spells ps c) (hp : p.text = some t) :
    Spells (ps ++ [p]) (c ++ t) := by
  induction h with
  | nil => simpa using Spells.cons hp .nil
  | cons hq _ ih =>
    rw [List.append_assoc]
    exact .cons hq ih

lemma text_length {p : Piece} {t : Bytes} (h : p.text = some t) : t.length = p.size := by
  cases p with
  | copy n => cases h
  | run n b =>
    obtain rfl := Option.some.inj h
    simp [Piece.size]
  | literal bytes =>
    obtain rfl := Option.some.inj h
    rfl

lemma Spells.sizes {ps : List Piece} {c : Bytes} (h : Spells ps c) : Compress.sizes ps = c.length := by
  induction h with
  | nil => rfl
  | cons hp _ ih =>
    rw [List.length_append, text_length hp, ← ih]
    simp [Compress.sizes]

lemma Spells.render {ps : List Piece} {c : Bytes} (h : Spells ps c) (reference : Bytes) (k : ℕ) :
    Compress.render reference k ps = c := by
  induction h generalizing k with
  | nil => rfl
  | @cons p t ps c hp _ ih =>
    cases p with
    | copy n => cases hp
    | run n b =>
      obtain rfl := Option.some.inj hp
      rw [Compress.render, ih]
    | literal bytes =>
      obtain rfl := Option.some.inj hp
      rw [Compress.render, ih]

def encode (ps : List Piece) : Bytes := ps.flatMap Piece.bytes

lemma encode_snoc (ps : List Piece) (p : Piece) : encode (ps ++ [p]) = encode ps ++ p.bytes := by
  simp [encode]

/-- The state of the loop after some bytes: the pieces before the last one, and a last one that is
literal or a run. -/
inductive RunState.Read : RunState → Bytes → Prop
  | literal {ps c init cur} : Spells ps c → (∀ p ∈ ps, 0 < p.size) →
      Read ⟨encode ps ++ UInt8.ofNat (init.length + 1) :: (init ++ [cur]), (encode ps).length, true, cur⟩
        (c ++ (init ++ [cur]))
  | run {ps c n cur} : Spells ps c → (∀ p ∈ ps, 0 < p.size) → 2 ≤ n →
      Read ⟨encode ps ++ [0x80 ||| UInt8.ofNat n, cur], (encode ps).length, false, cur⟩
        (c ++ List.replicate n cur)

lemma ofNat_succ (n : ℕ) : UInt8.ofNat n + 1 = UInt8.ofNat (n + 1) := by
  rw [← UInt8.toNat_inj]
  simp [UInt8.toNat_add]

lemma ofNat_succ_sub (n : ℕ) : UInt8.ofNat (n + 1) - 1 = UInt8.ofNat n := by
  rw [← ofNat_succ, UInt8.add_sub_cancel]

lemma run_header_succ :
    ∀ n : Fin 63, (0x80 ||| UInt8.ofNat n.val) + 1 = 0x80 ||| UInt8.ofNat (n.val + 1) := by
  decide

lemma set_header (pre rest : Bytes) (h h' : UInt8) :
    (pre ++ h :: rest).set pre.length h' = pre ++ h' :: rest := by
  simp

lemma getD_header (pre rest : Bytes) (h : UInt8) : (pre ++ h :: rest).getD pre.length 0 = h := by
  simp

lemma all_pos_snoc {ps : List Piece} {p : Piece} (h : ∀ q ∈ ps, 0 < q.size) (hp : 0 < p.size) :
    ∀ q ∈ ps ++ [p], 0 < q.size := by
  intro q hq
  rcases List.mem_append.mp hq with hq | hq
  · exact h q hq
  · exact List.mem_singleton.mp hq ▸ hp

lemma RunState.Read.step {s : RunState} {read : Bytes} (h : s.Read read) (b : UInt8)
    (hlen : read.length < chunkLen) : (s.step b).Read (read ++ [b]) := by
  cases h with
  | @literal ps c init cur hspells hpos =>
    simp only [RunState.step, getD_header, set_header, if_true]
    by_cases hb : b = cur
    · subst hb
      simp only [if_true]
      cases init with
      | nil =>
        rw [if_pos (by rfl)]
        have hread : c ++ ([] ++ [b]) ++ [b] = c ++ List.replicate 2 b := by simp
        rw [hread]
        exact .run hspells hpos le_rfl
      | cons x init =>
        -- the literal keeps all its bytes but the last, which starts the run
        have hne : UInt8.ofNat ((x :: init).length + 1) ≠ 1 := by
          intro h
          have := congrArg UInt8.toNat h
          simp only [UInt8.toNat_ofNat', List.length_cons, List.length_append, UInt8.toNat_one,
            chunkLen] at this hlen
          omega
        rw [if_neg hne, ofNat_succ_sub]
        have hout : encode ps ++ UInt8.ofNat (x :: init).length :: (x :: init ++ [b]) =
            encode (ps ++ [.literal (x :: init)]) ++ [b] := by
          simp [encode_snoc, Piece.bytes]
        have hlast : (encode (ps ++ [.literal (x :: init)]) ++ [b]).length - 1 =
            (encode (ps ++ [.literal (x :: init)])).length := by simp
        rw [hout, hlast, set_header, List.append_assoc]
        have hread : c ++ (x :: init ++ [b]) ++ [b] = c ++ (x :: init) ++ List.replicate 2 b := by simp
        rw [hread]
        exact .run (hspells.snoc rfl) (all_pos_snoc hpos (by simp [Piece.size])) le_rfl
    · rw [if_neg hb, ofNat_succ]
      have hread : c ++ (init ++ [cur]) ++ [b] = c ++ ((init ++ [cur]) ++ [b]) := by simp
      have hout : encode ps ++ UInt8.ofNat (init.length + 1 + 1) :: (init ++ [cur]) ++ [b] =
          encode ps ++ UInt8.ofNat ((init ++ [cur]).length + 1) :: ((init ++ [cur]) ++ [b]) := by simp
      rw [hread, hout]
      exact .literal hspells hpos
  | @run ps c n cur hspells hpos hn =>
    simp only [RunState.step, getD_header, set_header, Bool.false_eq_true, if_false]
    by_cases hb : b = cur
    · subst hb
      have hlt : n < 63 := by
        simp only [List.length_append, List.length_replicate, chunkLen] at hlen
        omega
      rw [if_pos rfl, run_header_succ ⟨n, hlt⟩]
      have hread : c ++ List.replicate n b ++ [b] = c ++ List.replicate (n + 1) b := by
        rw [List.append_assoc, List.replicate_succ']
      rw [hread]
      exact .run hspells hpos (Nat.le_succ_of_le hn)
    · rw [if_neg hb]
      have hout : encode ps ++ [0x80 ||| UInt8.ofNat n, cur] = encode (ps ++ [.run n cur]) := by
        rw [encode_snoc]
        rfl
      rw [hout]
      exact @literal _ _ [] _ (hspells.snoc rfl) (all_pos_snoc hpos (by simp only [Piece.size]; omega))

lemma RunState.Read.foldl {s : RunState} {read : Bytes} (h : s.Read read) (rest : Bytes)
    (hlen : (read ++ rest).length ≤ chunkLen) : (rest.foldl RunState.step s).Read (read ++ rest) := by
  induction rest generalizing s read with
  | nil => simpa using h
  | cons b rest ih =>
    rw [List.foldl_cons, List.append_cons]
    refine ih (h.step b ?_) (by simpa using hlen)
    simp only [List.length_append, List.length_cons] at hlen
    omega

lemma RunState.Read.out {s : RunState} {read : Bytes} (h : s.Read read) :
    ∃ ps, s.out = encode ps ∧ Spells ps read ∧ ∀ p ∈ ps, 0 < p.size := by
  cases h with
  | @literal ps c init cur hspells hpos =>
    refine ⟨ps ++ [.literal (init ++ [cur])], ?_, hspells.snoc rfl,
      all_pos_snoc hpos (by simp [Piece.size])⟩
    simp [encode_snoc, Piece.bytes]
  | @run ps c n cur hspells hpos hn =>
    refine ⟨ps ++ [.run n cur], ?_, hspells.snoc rfl,
      all_pos_snoc hpos (by simp only [Piece.size]; omega)⟩
    simp [encode_snoc, Piece.bytes]

lemma Spells.fits {ps : List Piece} {c : Bytes} (h : Spells ps c) (hpos : ∀ p ∈ ps, 0 < p.size)
    (hlen : c.length ≤ chunkLen) : ∀ p ∈ ps, p.Fits := by
  intro p hp
  refine ⟨hpos p hp, ?_⟩
  have hle : p.size ≤ Compress.sizes ps := List.single_le_sum (by simp) _ (List.mem_map_of_mem hp)
  exact (h.sizes ▸ hle).trans hlen

lemma horizontal_pieces {chunk : Bytes} (hlen : chunk.length ≤ chunkLen) :
    ∃ ps, horizontal chunk = encode ps ∧ Spells ps chunk ∧ ∀ p ∈ ps, p.Fits := by
  cases chunk with
  | nil => exact ⟨[], rfl, .nil, by simp⟩
  | cons first rest =>
    have hinit : RunState.Read ⟨[1, first], 0, true, first⟩ [first] :=
      @RunState.Read.literal _ _ [] _ .nil (by simp)
    obtain ⟨ps, hout, hspells, hpos⟩ := (hinit.foldl rest hlen).out
    exact ⟨ps, hout, hspells, hspells.fits hpos hlen⟩

end Runs

end PesitWizard.Core.Compress
