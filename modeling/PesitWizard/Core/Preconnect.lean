import Mathlib.Data.List.DropRight
import Mathlib.Data.List.Infix
import PesitWizard.Core.Ebcdic

/-! The pre-connection message, and which identifiers and passwords it brings over. -/

namespace PesitWizard.Core.Ebcdic

def utf8 (l : List Char) : Bytes := l.flatMap String.utf8EncodeChar

def bytes (text : String) : Bytes := utf8 text.toList

/-- What is written over the front of a part of the message. -/
def overwrite (dst src : Bytes) : Bytes := src.take dst.length ++ dst.drop src.length

def preconnectMessage (identifier password : String) : Bytes :=
  let msg : Bytes := List.replicate preconnectLen 0x40
  preconnectMagic ++ overwrite ((msg.drop 8).take 8) (((bytes identifier).take 8).map toEbcdic) ++
    overwrite ((msg.drop 16).take 8) (((bytes password).take 8).map toEbcdic)

structure Fits (text : String) : Prop where
  length : text.toList.length ≤ 8
  latin1 : ∀ c ∈ text.toList, c.toNat < 256
  trimmed : ∀ c ∈ text.toList.getLast?, Fpdu.whitespace c = false

def fits (text : String) : Bool :=
  text.toList.length ≤ 8 && text.toList.all (fun c => c.toNat < 256) &&
    text.toList.getLast?.all (fun c => !Fpdu.whitespace c)

lemma fits_iff {text : String} : fits text = true ↔ Fits text := by
  simp only [fits, Bool.and_eq_true, decide_eq_true_eq, List.all_eq_true, Option.all_eq_true,
    Bool.not_eq_true']
  exact ⟨fun ⟨⟨hlen, hlatin1⟩, htrim⟩ => ⟨hlen, hlatin1, htrim⟩, fun h =>
    ⟨⟨h.length, h.latin1⟩, h.trimmed⟩⟩

instance (text : String) : Decidable (Fits text) := decidable_of_iff _ fits_iff

/-- The characters above 127 that begin their own encoding, one after the other. -/
def selfCoded : List Char := [0xC3, 0x83, 0xC2, 0x83, 0xC3, 0x82, 0xC2, 0x83].map Char.ofNat

def Ascii (l : List Char) : Prop := ∀ c ∈ l, c.toNat < 128

/-- Plain characters, or eight characters of which the last ones are such that begin
their own encoding. -/
def Carried (text : String) : Prop :=
  ∃ front k, text.toList = front ++ selfCoded.take k ∧ Ascii front ∧ (k = 0 ∨ text.toList.length = 8)

def latin1 (bytes : Bytes) : List Char := bytes.map fun b => Char.ofNat b.toNat

section Field

lemma field_eq (bs : Bytes) :
    field (bs.map toEbcdic) = String.ofList ((latin1 bs).rdropWhile Fpdu.whitespace) := by
  have hmap : (bs.map toEbcdic).map (fun b => Char.ofNat (toLatin1 b).toNat) = latin1 bs := by
    rw [List.map_map]
    apply List.map_congr_left
    intro b _
    rw [Function.comp_apply, toLatin1_toEbcdic]
  rw [field, hmap, List.rdropWhile]

lemma rdropWhile_append_blanks (l : List Char) (n : ℕ) :
    (l ++ List.replicate n ' ').rdropWhile Fpdu.whitespace = l.rdropWhile Fpdu.whitespace := by
  induction n with
  | zero => rw [List.replicate_zero, List.append_nil]
  | succ n ih =>
    rw [List.replicate_succ', ← List.append_assoc, List.rdropWhile_concat_pos _ _ _ (by decide), ih]

lemma toEbcdic_blank : toEbcdic 0x20 = 0x40 := by decide +kernel

lemma field_overwrite (bs : Bytes) :
    field (overwrite (List.replicate 8 0x40) ((bs.take 8).map toEbcdic)) =
      String.ofList ((latin1 (bs.take 8)).rdropWhile Fpdu.whitespace) := by
  have hlen : (bs.take 8).length ≤ 8 := List.length_take_le _ _
  have hall : overwrite (List.replicate 8 0x40) ((bs.take 8).map toEbcdic) =
      (bs.take 8 ++ List.replicate (8 - (bs.take 8).length) 0x20).map toEbcdic := by
    rw [overwrite, List.length_replicate, List.length_map,
      List.take_of_length_le (by rwa [List.length_map]), List.drop_replicate, List.map_append,
      List.map_replicate, toEbcdic_blank]
  have hblanks (n : ℕ) : latin1 (List.replicate n 0x20) = List.replicate n ' ' := List.map_replicate
  rw [hall, field_eq, latin1, List.map_append]
  exact congrArg String.ofList
    ((congrArg _ (congrArg _ (hblanks _))).trans (rdropWhile_append_blanks _ _))

lemma overwrite_length (dst src : Bytes) : (overwrite dst src).length = dst.length := by
  rw [overwrite, List.length_append, List.length_take, List.length_drop]
  omega

end Field

section Message

variable (identifier password : String)

def sent (text : String) : List Char := latin1 ((bytes text).take 8)

lemma preconnectMessage_length : (preconnectMessage identifier password).length = preconnectLen := by
  simp [preconnectMessage, overwrite_length, preconnectMagic, preconnectLen]

lemma isPreconnect_preconnectMessage : isPreconnect (preconnectMessage identifier password) = true := by
  rw [isPreconnect, Bool.and_eq_true, decide_eq_true_eq, preconnectMessage_length]
  exact ⟨by decide, rfl⟩

def part (text : String) : Bytes :=
  overwrite (List.replicate 8 0x40) (((bytes text).take 8).map toEbcdic)

lemma part_length (text : String) : (part text).length = 8 := by
  rw [part, overwrite_length, List.length_replicate]

lemma preconnectMessage_eq :
    preconnectMessage identifier password = preconnectMagic ++ (part identifier ++ part password) :=
  List.append_assoc _ _ _

lemma parsePreconnect_preconnectMessage : parsePreconnect (preconnectMessage identifier password) =
    some (String.ofList ((sent identifier).rdropWhile Fpdu.whitespace),
      String.ofList ((sent password).rdropWhile Fpdu.whitespace)) := by
  have hlen : ¬ (preconnectMessage identifier password).length < preconnectLen := by
    rw [preconnectMessage_length]; decide
  have hafter : (preconnectMessage identifier password).drop 8 = part identifier ++ part password := by
    exact preconnectMessage_eq identifier password ▸ List.drop_left'
      (show preconnectMagic.length = 8 from rfl)
  have hid : ((preconnectMessage identifier password).drop 8).take 8 = part identifier := by
    rw [hafter, List.take_left' (part_length identifier)]
  have hpw : ((preconnectMessage identifier password).drop 16).take 8 = part password := by
    rw [show 16 = 8 + 8 from rfl, ← List.drop_drop, hafter, List.drop_left' (part_length identifier),
      List.take_of_length_le (part_length password).le]
  rw [parsePreconnect, isPreconnect_preconnectMessage, hid, hpw, part, part,
    field_overwrite, field_overwrite, if_neg (by simpa using hlen)]
  rfl

end Message

section Texts

variable {l t : List Char} {c : Char}

lemma Fits.rdropWhile {text : String} (h : Fits text) :
    text.toList.rdropWhile Fpdu.whitespace = text.toList := by
  rw [List.rdropWhile_eq_self_iff]
  intro hne
  rw [h.trimmed _ (List.getLast?_eq_some_getLast hne)]
  exact Bool.false_ne_true

lemma utf8_cons_ascii (hc : c.toNat < 128) : utf8 (c :: l) = UInt8.ofNat c.toNat :: utf8 l := by
  have hle : c.val.toNat ≤ 0x7F := Nat.le_of_lt_succ hc
  rw [utf8, List.flatMap_cons, String.utf8EncodeChar, if_pos hle]
  rfl

lemma latin1_cons (b : UInt8) (bs : Bytes) : latin1 (b :: bs) = Char.ofNat b.toNat :: latin1 bs := rfl

lemma ofNat_byte (hc : c.toNat < 256) : Char.ofNat (UInt8.ofNat c.toNat).toNat = c := by
  rw [UInt8.toNat_ofNat', Nat.mod_eq_of_lt hc, Char.ofNat_toNat]

lemma utf8_append (l t : List Char) : utf8 (l ++ t) = utf8 l ++ utf8 t := List.flatMap_append

lemma latin1_append (bs cs : Bytes) : latin1 (bs ++ cs) = latin1 bs ++ latin1 cs := List.map_append

lemma latin1_utf8_ascii (hfront : Ascii l) (t : List Char) :
    latin1 (utf8 (l ++ t)) = l ++ latin1 (utf8 t) := by
  induction l with
  | nil => rfl
  | cons c l ih =>
    have hc := hfront c List.mem_cons_self
    rw [List.cons_append, utf8_cons_ascii hc, latin1_cons, ofNat_byte (hc.trans (by decide)),
      ih fun d hd => hfront d (List.mem_cons_of_mem c hd), List.cons_append]

lemma latin1_utf8_selfCoded :
    ∀ j < 5, latin1 (utf8 (selfCoded.take j)) = selfCoded.take (2 * j) := by decide

lemma selfCoded_begins : ∀ j < 9, selfCoded.take j <+: latin1 (utf8 (selfCoded.take j)) := by decide

lemma selfCoded_plain (c : Char) (hc : c ∈ selfCoded) : Fpdu.whitespace c = false := by
  have hall : (selfCoded.all fun c => !Fpdu.whitespace c) = true := by decide
  simpa using List.all_eq_true.mp hall c hc

lemma prefix_rdropWhile {p : Char → Bool} (hl : ∀ c ∈ l, p c = false) (t : List Char) :
    l <+: (l ++ t).rdropWhile p := by
  induction t using List.reverseRecOn with
  | nil =>
    have hself : l.rdropWhile p = l := by
      rw [List.rdropWhile_eq_self_iff]
      intro hne
      rw [hl _ (List.getLast_mem hne)]
      exact Bool.false_ne_true
    rw [List.append_nil, hself]
  | append_singleton t c ih =>
    rw [← List.append_assoc]
    cases hc : p c with
    | false =>
      rw [List.rdropWhile_concat_neg _ _ _ (by simp [hc]), List.append_assoc]
      exact List.prefix_append _ _
    | true =>
      rw [List.rdropWhile_concat_pos _ _ _ hc]
      exact ih

lemma rdropWhile_cons {p : Char → Bool} (h : (c :: t).rdropWhile p = c :: l) : t.rdropWhile p = l := by
  rw [List.rdropWhile, List.reverse_cons, List.dropWhile_append] at h
  split at h
  · rename_i hempty
    rw [List.rdropWhile, List.isEmpty_iff.mp hempty]
    cases hc : p c <;> simp [hc] at h
    exact h.symm
  · rw [List.reverse_append] at h
    exact (List.cons.inj h).2

/-- The text is read as itself when only the first `m` bytes of its encoding are there. -/
def Reads (m : ℕ) (l : List Char) : Prop := ((latin1 (utf8 l)).take m).rdropWhile Fpdu.whitespace = l

variable {m : ℕ}

lemma Reads.tail (hc : c.toNat < 128) (h : Reads (m + 1) (c :: l)) : Reads m l := by
  rw [Reads, utf8_cons_ascii hc, latin1_cons, ofNat_byte (hc.trans (by decide)),
    List.take_succ_cons] at h
  exact rdropWhile_cons h

lemma Reads.begins (h : Reads m l) (ht : t <+: latin1 (utf8 l))
    (hplain : ∀ c ∈ t, Fpdu.whitespace c = false) :
    t.take m <+: l := by
  obtain ⟨rest, hrest⟩ := ht.take m
  have hkeep := prefix_rdropWhile (l := t.take m) (fun c hc => hplain c (List.mem_of_mem_take hc)) rest
  rw [hrest] at hkeep
  exact h ▸ hkeep

lemma Reads.doubled {j : ℕ} (hj : j < 5) (h : Reads m l) (hbegins : selfCoded.take j <+: l) :
    selfCoded.take (min m (2 * j)) <+: l := by
  obtain ⟨rest, hrest⟩ := hbegins
  rw [← List.take_take]
  apply h.begins
  · rw [← hrest, utf8_append, latin1_append, latin1_utf8_selfCoded j hj]
    exact List.prefix_append _ _
  · exact fun c hc => selfCoded_plain c (List.mem_of_mem_take hc)

lemma Reads.first (h : Reads m (c :: l)) (hc : 128 ≤ c.toNat) (hc' : c.toNat < 256) :
    selfCoded.take 1 <+: c :: l := by
  obtain ⟨n, rfl⟩ : ∃ n, m = n + 1 := by
    cases m with
    | zero => cases h
    | succ n => exact ⟨n, rfl⟩
  have hbyte (k : ℕ) (hk : c.toNat / 64 = k)
      (hplain : Fpdu.whitespace (Char.ofNat (UInt8.ofNat (k % 32 + 0xC0)).toNat) = false) :
      c = Char.ofNat (UInt8.ofNat (k % 32 + 0xC0)).toNat := by
    have hcode : [Char.ofNat (UInt8.ofNat (k % 32 + 0xC0)).toNat] <+: latin1 (utf8 (c :: l)) := by
      have hgt : ¬ c.val.toNat ≤ 0x7F := Nat.not_le_of_lt hc
      have hle : c.val.toNat ≤ 0x7FF := Nat.le_of_lt (hc'.trans (by decide))
      rw [utf8, List.flatMap_cons, String.utf8EncodeChar, if_neg hgt, if_pos hle, ← hk]
      exact List.prefix_append [_] _
    have hfirst := h.begins hcode (by simpa using hplain)
    rw [List.take_succ_cons] at hfirst
    exact (List.cons_prefix_cons.mp hfirst).1.symm
  have hcases : c.toNat / 64 = 2 ∨ c.toNat / 64 = 3 := by omega
  rcases hcases with hk | hk
  · -- the first byte of its encoding is the one of another character
    have hself := congrArg Char.toNat (hbyte 2 hk (by decide))
    rw [hself] at hk
    exact absurd hk (by decide)
  · rw [hbyte 3 hk (by decide)]
    exact List.prefix_append [_] _

lemma Reads.carried (h : Reads m l) (hm : m ≤ 8) (hlen : l.length ≤ m) (hl : ∀ c ∈ l, c.toNat < 256) :
    ∃ front k, l = front ++ selfCoded.take k ∧ Ascii front ∧ (k = 0 ∨ l.length = m) := by
  induction l generalizing m with
  | nil => exact ⟨[], 0, rfl, by simp [Ascii], .inl rfl⟩
  | cons c l ih =>
    by_cases hc : c.toNat < 128
    · obtain ⟨n, rfl⟩ : ∃ n, m = n + 1 := ⟨m - 1, by simp at hlen; omega⟩
      obtain ⟨front, k, rfl, hfront, hk⟩ := ih (h.tail hc) (by omega) (by simpa using hlen)
        fun d hd => hl d (List.mem_cons_of_mem c hd)
      refine ⟨c :: front, k, rfl, ?_, hk.imp_right fun hk => by rw [List.length_cons, hk]⟩
      intro d hd
      rcases List.mem_cons.mp hd with rfl | hd
      · exact hc
      · exact hfront d hd
    · have hone := h.first (not_lt.mp hc) (hl c List.mem_cons_self)
      have htwo := h.doubled (by decide) hone
      have hfour := h.doubled (j := min m 2) (by omega) htwo
      have hall := h.doubled (j := min m 4) (by omega) (by convert hfour using 2; omega)
      have hm' : min m (2 * min m 4) = m := by omega
      rw [hm'] at hall
      have hlong : (selfCoded.take m).length = m := by
        rw [List.length_take]
        exact min_eq_left hm
      have heq := hall.eq_of_length_le (by rw [hlong]; exact hlen)
      exact ⟨[], m, heq.symm, by simp [Ascii], .inr (by rw [← heq, hlong])⟩

lemma Reads.of_carried {front : List Char} {k : ℕ} (hfront : Ascii front)
    (hlen : (front ++ selfCoded.take k).length ≤ m) (hk : k = 0 ∨ (front ++ selfCoded.take k).length = m)
    (htrim : (front ++ selfCoded.take k).rdropWhile Fpdu.whitespace = front ++ selfCoded.take k) :
    Reads m (front ++ selfCoded.take k) := by
  have hbegins : selfCoded.take k <+: latin1 (utf8 (selfCoded.take k)) := by
    have hmin : selfCoded.take k = selfCoded.take (min k 8) := List.take_eq_take_min
    rw [hmin]
    exact selfCoded_begins _ (by omega)
  have htake : (latin1 (utf8 (front ++ selfCoded.take k))).take m = front ++ selfCoded.take k := by
    rw [latin1_utf8_ascii hfront]
    rcases hk with rfl | hk
    · rw [List.take_zero, List.append_nil] at hlen ⊢
      exact (List.append_nil front).symm ▸ List.take_of_length_le hlen
    · obtain ⟨rest, hrest⟩ := hbegins
      rw [← hrest, ← List.append_assoc, List.take_left' hk]
  rw [Reads, htake, htrim]

lemma reads_iff {text : String} (h : Fits text) : Reads 8 text.toList ↔ Carried text := by
  constructor
  · intro hreads
    exact hreads.carried le_rfl h.length h.latin1
  · rintro ⟨front, k, htext, hfront, hk⟩
    have hlen := h.length
    have htrim := h.rdropWhile
    rw [htext] at hlen htrim hk ⊢
    exact .of_carried hfront hlen hk htrim

end Texts

/-- An identifier and a password are read as they were written exactly if both are carried over. -/
theorem preconnect_round_trip_iff {identifier password : String} (hid : Fits identifier)
    (hpw : Fits password) :
    (parsePreconnect (preconnectMessage identifier password) = some (identifier, password) ∧
      isPreconnect (preconnectMessage identifier password) = true) ↔ Carried identifier ∧
      Carried password := by
  have hread (text : String) :
      String.ofList ((sent text).rdropWhile Fpdu.whitespace) = text ↔ Reads 8 text.toList := by
    rw [Reads, ← String.toList_inj, String.toList_ofList, sent, latin1, List.map_take]
    rfl
  rw [and_iff_left (isPreconnect_preconnectMessage identifier password),
    parsePreconnect_preconnectMessage, Option.some_inj, Prod.mk.injEq, hread, hread,
    reads_iff hid, reads_iff hpw]

theorem preconnect_round_trip_ascii :
    (parsePreconnect (preconnectMessage "CETOM1" "secret") = some ("CETOM1", "secret") ∧
      isPreconnect (preconnectMessage "CETOM1" "secret") = true) ↔ Carried "CETOM1" ∧ Carried "secret" :=
  preconnect_round_trip_iff (by decide) (by decide)

theorem preconnect_misread :
    ¬ ∀ identifier password, Fits identifier → Fits password →
      parsePreconnect (preconnectMessage identifier password) = some (identifier, password) ∧
        isPreconnect (preconnectMessage identifier password) = true := by
  intro h
  have hread := (h "RENÉ" "" (by decide) (by decide)).1
  rw [parsePreconnect_preconnectMessage] at hread
  have hid := congrArg String.toList (congrArg Prod.fst (Option.some.inj hread))
  rw [String.toList_ofList] at hid
  exact absurd hid (by decide)

end PesitWizard.Core.Ebcdic
