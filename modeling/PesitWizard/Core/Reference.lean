import PesitWizard.Core.CompressSound

/-! What a reference holds: at each place the byte of the last article that was long enough. -/

namespace PesitWizard.Core.Compress

/-- The byte at a place of the last of the articles that are long enough to have one there. -/
def latest (articles : List Bytes) (i : ℕ) : UInt8 := articles.foldl (fun b a => a.getD i b) 0

/-- Where an article agrees with what was sent at that place last, this was also received there last. -/
def Agrees (sent reached : List Bytes) (a : Bytes) : Prop :=
  ∀ i : ℕ, a[i]? = some (latest sent i) → latest reached i = latest sent i

def Remembers (articles : List Bytes) (reference : Bytes) : Prop :=
  ∀ i : ℕ, reference.getD i 0 = latest articles i

variable {articles sent reached : List Bytes} {reference a : Bytes}

lemma latest_snoc (articles : List Bytes) (a : Bytes) (i : ℕ) :
    latest (articles ++ [a]) i = a.getD i (latest articles i) := by
  rw [latest, List.foldl_append]
  rfl

lemma Remembers.update (h : Remembers articles reference) (a : Bytes) :
    Remembers (articles ++ [a]) (update reference a) := by
  intro i
  rw [latest_snoc, ← h i, Compress.update, List.getD_eq_getElem?_getD, List.getD_eq_getElem?_getD]
  rcases lt_or_ge i a.length with hi | hi
  · rw [List.getElem?_append_left hi, List.getElem?_eq_getElem hi]
    rfl
  · rw [List.getElem?_append_right hi, List.getElem?_drop, List.getElem?_eq_none hi,
      Nat.add_sub_cancel' hi]
    rfl

lemma Remembers.twice (h : Remembers (articles ++ [a] ++ [a]) reference) :
    Remembers (articles ++ [a]) reference := by
  intro i
  rw [h i, latest_snoc, latest_snoc, List.getD_eq_getElem?_getD, List.getD_eq_getElem?_getD]
  cases a[i]? <;> rfl

lemma Remembers.getElem? (h : Remembers articles reference) {i : ℕ} (hi : i < reference.length) :
    reference[i]? = some (latest articles i) := by
  rw [← h i, List.getElem?_eq_getElem hi, List.getD_eq_getElem?_getD, List.getElem?_eq_getElem hi]
  rfl

lemma Remembers.zeros (n : ℕ) : Remembers [] (List.replicate n 0) := by
  intro i
  rw [List.getD_eq_getElem?_getD, List.getElem?_replicate]
  split <;> rfl

lemma Remembers.grown {c : Compressor} (h : Remembers articles c.reference) (a : Bytes) :
    Remembers articles (c.grown a) := by
  intro i
  rw [← h i, Compressor.grown, List.getD_eq_getElem?_getD, List.getD_eq_getElem?_getD]
  rcases lt_or_ge i c.reference.length with hi | hi
  · rw [List.getElem?_append_left hi]
  · rw [List.getElem?_append_right hi, List.getElem?_eq_none hi, List.getElem?_replicate]
    split <;> rfl

lemma received_eq_iff {ss xs : Bytes} {mode : Mode} (hs : mode.refers = true → Remembers sent ss)
    (hx : Remembers reached xs) (hls : a.length ≤ ss.length) (hlx : a.length ≤ xs.length) :
    received mode a ss xs = a ↔ (mode.refers = true → Agrees sent reached a) := by
  rw [received]
  split
  · rename_i href
    replace hs := hs href
    rw [seen_eq_iff a ss xs hls hlx]
    refine Iff.trans ?_ (forall_prop_of_true href).symm
    constructor
    · intro h i ha
      have hi : i < a.length := (List.getElem?_eq_some_iff.mp ha).1
      have hreceived := h i hi (ha.trans (hs.getElem? (hi.trans_le hls)).symm)
      rw [hx.getElem? (hi.trans_le hlx), ha] at hreceived
      exact (Option.some.inj hreceived).symm
    · intro h i hi ha
      rw [hs.getElem? (hi.trans_le hls)] at ha
      rw [hx.getElem? (hi.trans_le hlx), h i ha]
      exact ha
  · rename_i href
    exact iff_of_true rfl fun h => absurd h href

end PesitWizard.Core.Compress
