import PesitWizard.Core.CompressPieces

/-! What decompression makes of a compressed article, for any two references. -/

namespace PesitWizard.Core.Compress

section References

/-- An article as the receiver sees it: at the places where the article equals the reference of the
sender, the receiver reads its own reference. -/
def seen : Bytes → Bytes → Bytes → Bytes
  | a :: as, s :: ss, x :: xs => (if a = s then x else a) :: seen as ss xs
  | as, _, _ => as

lemma agreeing_cons (p : UInt8 → UInt8 → Bool) (a s : UInt8) (as ss : Bytes) :
    agreeing p (a :: as) (s :: ss) = if p a s then agreeing p as ss + 1 else 0 := by
  simp only [agreeing, List.zip_cons_cons, List.takeWhile_cons]
  split <;> simp

lemma agreeing_le (p : UInt8 → UInt8 → Bool) (as ss : Bytes) : agreeing p as ss ≤ as.length := by
  have h := (List.takeWhile_prefix (fun x : UInt8 × UInt8 => p x.1 x.2) (l := as.zip ss)).length_le
  rw [List.length_zip] at h
  exact h.trans (min_le_left _ _)

lemma seen_equal (as ss xs : Bytes) (hs : as.length ≤ ss.length) (hx : as.length ≤ xs.length) :
    seen as ss xs = xs.take (agreeing (· == ·) as ss) ++
      seen (as.drop (agreeing (· == ·) as ss)) (ss.drop (agreeing (· == ·) as ss))
        (xs.drop (agreeing (· == ·) as ss)) := by
  induction as generalizing ss xs with
  | nil => simp [agreeing]
  | cons a as ih =>
    cases ss with
    | nil => simp at hs
    | cons s ss =>
      cases xs with
      | nil => simp at hx
      | cons x xs =>
        rw [agreeing_cons]
        by_cases h : a = s
        · simp only [beq_iff_eq, h, if_true, seen, List.take_succ_cons, List.drop_succ_cons,
            List.cons_append]
          rw [ih ss xs (by simpa using hs) (by simpa using hx)]
        · simp [h]

lemma seen_diff (as ss xs : Bytes) (hs : as.length ≤ ss.length) (hx : as.length ≤ xs.length) :
    seen as ss xs = as.take (agreeing (· != ·) as ss) ++
      seen (as.drop (agreeing (· != ·) as ss)) (ss.drop (agreeing (· != ·) as ss))
        (xs.drop (agreeing (· != ·) as ss)) := by
  induction as generalizing ss xs with
  | nil => simp [agreeing]
  | cons a as ih =>
    cases ss with
    | nil => simp at hs
    | cons s ss =>
      cases xs with
      | nil => simp at hx
      | cons x xs =>
        rw [agreeing_cons]
        by_cases h : a = s
        · simp [h]
        · simp only [bne_iff_ne, ne_eq, h, not_false_eq_true, if_true, if_false, seen,
            List.take_succ_cons, List.drop_succ_cons, List.cons_append]
          rw [ih ss xs (by simpa using hs) (by simpa using hx)]

def Codes (seenAs : Bytes → Bytes) (part : Bytes) (ps : List Piece) : Prop :=
  (∀ p ∈ ps, p.Fits) ∧ sizes ps = part.length ∧
    ∀ reference k, k + part.length ≤ reference.length → render reference k ps = seenAs (reference.drop k)

lemma Spells.codes {ps : List Piece} {c : Bytes} (h : Spells ps c) (hfits : ∀ p ∈ ps, p.Fits) :
    Codes (fun _ => c) c ps :=
  ⟨hfits, h.sizes, fun reference k _ => h.render reference k⟩

lemma sizes_append (ps qs : List Piece) : sizes (ps ++ qs) = sizes ps + sizes qs := by
  simp [sizes]

lemma render_append (reference : Bytes) (k : ℕ) (ps qs : List Piece) :
    render reference k (ps ++ qs) = render reference k ps ++ render reference (k + sizes ps) qs := by
  induction ps generalizing k with
  | nil => simp [render, sizes]
  | cons p ps ih =>
    cases p <;> simp [render, ih, sizes, Piece.size, Nat.add_assoc]

lemma Codes.append {f g : Bytes → Bytes} {a b : Bytes} {ps qs : List Piece} (hp : Codes f a ps)
    (hq : Codes g b qs) :
    Codes (fun xs => f xs ++ g (xs.drop a.length)) (a ++ b) (ps ++ qs) := by
  obtain ⟨hpf, hps, hpr⟩ := hp
  obtain ⟨hqf, hqs, hqr⟩ := hq
  refine ⟨?_, ?_, ?_⟩
  · intro p h
    rcases List.mem_append.mp h with h | h
    · exact hpf p h
    · exact hqf p h
  · rw [sizes_append, hps, hqs, List.length_append]
  · intro reference k hk
    rw [List.length_append] at hk
    rw [render_append, hpr reference k (by omega), hps, hqr reference _ (by omega)]
    simp only [List.drop_drop]

lemma literal_codes {c : Bytes} (h0 : c ≠ []) (hlen : c.length ≤ chunkLen) :
    Codes (fun _ => c) c [.literal c] := by
  refine Spells.codes (by simpa using Spells.cons (p := .literal c) rfl .nil) ?_
  simp only [List.mem_singleton, forall_eq]
  exact ⟨List.length_pos_iff.mpr h0, hlen⟩

lemma diff_pieces (mix : Bool) (part : Bytes) (h0 : part ≠ []) (hlen : part.length ≤ chunkLen) :
    ∃ ps, (if mix then horizontal part else UInt8.ofNat part.length :: part) = encode ps ∧
      Codes (fun _ => part) part ps := by
  cases mix with
  | true =>
    obtain ⟨ps, hps, hspells, hfits⟩ := horizontal_pieces hlen
    exact ⟨ps, hps, hspells.codes hfits⟩
  | false =>
    refine ⟨_, ?_, literal_codes h0 hlen⟩
    simp [encode, Piece.bytes]

lemma agreeing_pos {c : UInt8} {cs reference : Bytes} (href : reference ≠ [])
    (h : ¬ 0 < agreeing (· == ·) (c :: cs) reference) : 0 < agreeing (· != ·) (c :: cs) reference := by
  cases reference with
  | nil => exact absurd rfl href
  | cons s ss =>
    rw [agreeing_cons] at h ⊢
    by_cases hc : c = s <;> simp [hc] at h ⊢

lemma vertical_pieces (mix : Bool) (fuel : ℕ) (chunk reference : Bytes) (hfuel : chunk.length ≤ fuel)
    (href : chunk.length ≤ reference.length) (hlen : chunk.length ≤ chunkLen) :
    ∃ ps, verticalFrom mix fuel chunk reference = encode ps ∧ Codes (seen chunk reference) chunk ps := by
  induction fuel generalizing chunk reference with
  | zero =>
    obtain rfl : chunk = [] := List.length_eq_zero_iff.mp (by omega)
    exact ⟨[], rfl, by simp, rfl, fun _ _ _ => rfl⟩
  | succ fuel ih =>
    cases chunk with
    | nil => exact ⟨[], rfl, by simp, rfl, fun _ _ _ => rfl⟩
    | cons c cs =>
      simp only [verticalFrom]
      generalize hchunk : c :: cs = chunk at *
      by_cases heq : 0 < agreeing (· == ·) chunk reference
      · rw [if_pos heq]
        have hle := agreeing_le (· == ·) chunk reference
        obtain ⟨ps, hps, hcodes⟩ := ih (chunk.drop (agreeing (· == ·) chunk reference))
          (reference.drop (agreeing (· == ·) chunk reference)) (by rw [List.length_drop]; omega)
          (by simp only [List.length_drop]; omega) (by rw [List.length_drop]; omega)
        refine ⟨.copy (agreeing (· == ·) chunk reference) :: ps, by rw [hps]; rfl, ?_, ?_, ?_⟩
        · rw [List.forall_mem_cons]
          exact ⟨⟨heq, hle.trans hlen⟩, hcodes.1⟩
        · have := hcodes.2.1
          simp only [sizes, List.map_cons, List.sum_cons, Piece.size, List.length_drop] at this ⊢
          omega
        · intro r k hk
          rw [render, hcodes.2.2 r _ (by rw [List.length_drop]; omega),
            seen_equal chunk reference (r.drop k) href (by rw [List.length_drop]; omega), List.drop_drop]
      · rw [if_neg heq]
        have hle := agreeing_le (· != ·) chunk reference
        have hpos : 0 < agreeing (· != ·) chunk reference := by
          subst hchunk
          exact agreeing_pos (by rintro rfl; simp at href) heq
        have hseen := fun xs => seen_diff chunk reference xs href
        generalize agreeing (· != ·) chunk reference = diff at hle hpos hseen ⊢
        have htake : (chunk.take diff).length = diff := by
          rw [List.length_take]
          omega
        obtain ⟨ps, hps, hcodes⟩ :=
          ih (chunk.drop diff) (reference.drop diff) (by rw [List.length_drop]; omega)
          (by simp only [List.length_drop]; omega) (by rw [List.length_drop]; omega)
        obtain ⟨qs, hqs, hq⟩ := diff_pieces mix (chunk.take diff)
          (List.ne_nil_of_length_pos (by omega)) (by omega)
        rw [htake] at hqs
        refine ⟨qs ++ ps, by rw [hqs, hps]; simp [encode], ?_⟩
        have happ := hq.append hcodes
        rw [List.take_append_drop, htake] at happ
        refine ⟨happ.1, happ.2.1, ?_⟩
        intro r k hk
        rw [happ.2.2 r k hk, hseen (r.drop k) (by rw [List.length_drop]; omega)]

lemma seen_append (a b ss xs : Bytes) (hs : a.length ≤ ss.length) (hx : a.length ≤ xs.length) :
    seen (a ++ b) ss xs = seen a ss xs ++ seen b (ss.drop a.length) (xs.drop a.length) := by
  induction a generalizing ss xs with
  | nil => simp [seen]
  | cons c a ih =>
    cases ss with
    | nil => simp at hs
    | cons s ss =>
      cases xs with
      | nil => simp at hx
      | cons x xs =>
        simp only [List.cons_append, seen, List.length_cons, List.drop_succ_cons]
        rw [ih ss xs (by simpa using hs) (by simpa using hx)]

lemma seen_take (a ss xs : Bytes) : seen a (ss.take a.length) xs = seen a ss xs := by
  induction a generalizing ss xs with
  | nil => simp [seen]
  | cons c a ih =>
    cases ss with
    | nil => simp
    | cons s ss =>
      cases xs with
      | nil => simp [seen]
      | cons x xs => simp [seen, ih]

lemma seen_eq_iff (a ss xs : Bytes) (hs : a.length ≤ ss.length) (hx : a.length ≤ xs.length) :
    seen a ss xs = a ↔ ∀ i : ℕ, i < a.length → a[i]? = ss[i]? → a[i]? = xs[i]? := by
  induction a generalizing ss xs with
  | nil => simp [seen]
  | cons c a ih =>
    cases ss with
    | nil => simp at hs
    | cons s ss =>
      cases xs with
      | nil => simp at hx
      | cons x xs =>
        have hih := ih ss xs (by simpa using hs) (by simpa using hx)
        simp only [seen, List.cons.injEq, hih]
        constructor
        · rintro ⟨hc, hrest⟩ i hi heq
          cases i with
          | zero =>
            simp only [List.getElem?_cons_zero, Option.some.injEq] at heq ⊢
            rw [if_pos heq] at hc
            exact hc.symm
          | succ i => exact hrest i (by simpa using hi) (by simpa using heq)
        · intro h
          constructor
          · split
            · rename_i hcs
              simpa [hcs, eq_comm] using h 0 (by simp) (by simp [hcs])
            · rfl
          · intro i hi heq
            simpa using h (i + 1) (by simpa using hi) (by simpa using heq)

end References

section Articles

def Mode.refers : Mode → Bool
  | .literal | .horizontal => false
  | .vertical | .mixed => true

/-- What a receiver with the reference `xs` makes of an article compressed under the reference `ss`. -/
def received (mode : Mode) (article ss xs : Bytes) : Bytes :=
  if mode.refers then seen article ss xs else article

lemma compressChunk_pieces (mode : Mode) (chunk reference : Bytes) (h0 : chunk ≠ [])
    (hlen : chunk.length ≤ chunkLen) (href : chunk.length ≤ reference.length) :
    ∃ ps, compressChunk mode chunk (reference.take chunk.length) = encode ps ∧
      Codes (received mode chunk reference) chunk ps := by
  have htake : chunk.length ≤ (reference.take chunk.length).length := by
    rw [List.length_take]
    omega
  cases mode with
  | literal =>
    refine ⟨[.literal chunk], ?_, literal_codes h0 hlen⟩
    simp [compressChunk, encode, Piece.bytes]
  | horizontal =>
    obtain ⟨ps, hps, hspells, hfits⟩ := horizontal_pieces hlen
    exact ⟨ps, hps, hspells.codes hfits⟩
  | vertical =>
    obtain ⟨ps, hps, hcodes⟩ := vertical_pieces false _ _ _ le_rfl htake hlen
    refine ⟨ps, hps, hcodes.1, hcodes.2.1, ?_⟩
    intro r k hk
    rw [hcodes.2.2 r k hk, seen_take]
    rfl
  | mixed =>
    obtain ⟨ps, hps, hcodes⟩ := vertical_pieces true _ _ _ le_rfl htake hlen
    refine ⟨ps, hps, hcodes.1, hcodes.2.1, ?_⟩
    intro r k hk
    rw [hcodes.2.2 r k hk, seen_take]
    rfl

lemma received_append (mode : Mode) (a b ss xs : Bytes) (hs : a.length ≤ ss.length)
    (hx : a.length ≤ xs.length) :
    received mode (a ++ b) ss xs = received mode a ss xs ++ received mode b (ss.drop a.length)
    (xs.drop a.length) := by
  simp only [received]
  split
  · exact seen_append a b ss xs hs hx
  · rfl

lemma compress_pieces (mode : Mode) (fuel : ℕ) (article reference : Bytes)
    (hfuel : article.length ≤ fuel) (href : article.length ≤ reference.length) :
    ∃ ps, compressFrom mode fuel article reference = encode ps ∧
    Codes (received mode article reference) article ps := by
  induction fuel generalizing article reference with
  | zero =>
    obtain rfl : article = [] := List.length_eq_zero_iff.mp (by omega)
    refine ⟨[], rfl, by simp, rfl, ?_⟩
    intro r k _
    cases mode <;> rfl
  | succ fuel ih =>
    cases article with
    | nil =>
      refine ⟨[], rfl, by simp, rfl, ?_⟩
      intro r k _
      cases mode <;> rfl
    | cons b bs =>
      simp only [compressFrom]
      generalize hart : b :: bs = article at *
      have hne : article ≠ [] := by simp [← hart]
      have hlen : (article.take chunkLen).length = min chunkLen article.length := List.length_take
      have hpos := List.length_pos_iff.mpr hne
      have hchunk : 0 < chunkLen := by decide
      obtain ⟨qs, hqs, hq⟩ := compressChunk_pieces mode (article.take chunkLen) reference
        (List.ne_nil_of_length_pos (by rw [hlen]; omega)) (by omega) (by omega)
      obtain ⟨ps, hps, hp⟩ := ih (article.drop chunkLen) (reference.drop chunkLen)
        (by rw [List.length_drop]; omega) (by simp only [List.length_drop]; omega)
      refine ⟨qs ++ ps, by rw [hqs, hps]; simp [encode], ?_⟩
      have happ := hq.append hp
      rw [List.take_append_drop] at happ
      refine ⟨happ.1, happ.2.1, ?_⟩
      intro r k hk
      have hr := received_append mode (article.take chunkLen)
        (article.drop chunkLen) reference (r.drop k) (by omega) (by rw [List.length_drop]; omega)
      rw [List.take_append_drop] at hr
      rw [happ.2.2 r k hk, hr]
      -- a chunk that is shorter than the others is the last one
      by_cases hfull : chunkLen ≤ article.length
      · rw [hlen, min_eq_left hfull]
      · have hnil : article.drop chunkLen = [] := List.drop_eq_nil_of_le (by omega)
        rw [hnil]
        cases mode <;> simp [received, seen, Mode.refers]

lemma decompress_compress (mode : Mode) {article ss xs : Bytes} {maxLen : ℕ}
    (hs : article.length ≤ ss.length) (hx : article.length ≤ xs.length)
    (hmax : article.length ≤ maxLen) :
    decompress (compress mode article ss) xs maxLen = .ok (received mode article ss xs) := by
  obtain ⟨ps, hps, hfits, hsize, hrender⟩ := compress_pieces mode article.length article ss le_rfl hs
  rw [compress, hps, encode, decompress_pieces hfits, applyPieces_ok ps [] (by simpa [hsize] using hmax)
    (by simpa [hsize] using hx)]
  have := hrender xs 0 (by simpa using hx)
  simpa using this

lemma decompress_tooLong (mode : Mode) {article ss : Bytes} (xs : Bytes) {maxLen : ℕ}
    (hs : article.length ≤ ss.length) (hmax : maxLen < article.length) :
    ∃ e, decompress (compress mode article ss) xs maxLen = .error e := by
  obtain ⟨ps, hps, hfits, hsize, -⟩ := compress_pieces mode article.length article ss le_rfl hs
  rw [compress, hps, encode, decompress_pieces hfits]
  cases h : ps.foldlM (applyPiece xs maxLen) [] with
  | error e => exact ⟨e, rfl⟩
  | ok r =>
    obtain ⟨hlen, hle⟩ := applyPieces_length ps [] (by simp) h
    simp only [List.length_nil, hsize] at hlen
    omega

end Articles

end PesitWizard.Core.Compress
