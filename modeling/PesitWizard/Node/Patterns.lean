import PesitWizard.Library.Pieces
import PesitWizard.Node.Handler

/-! Which files the patterns of a partner let it write and read. -/

namespace PesitWizard.Node

open App Library

/-- The same byte, or a letter and the same letter of the other case. -/
def AlikeBytes (a b : UInt8) : Prop :=
  a = b ∨ (65 ≤ a ∧ a ≤ 90 ∧ b = a + 32) ∨ (65 ≤ b ∧ b ≤ 90 ∧ a = b + 32)

lemma asciiLower_eq_iff (a b : UInt8) : asciiLower a = asciiLower b ↔ AlikeBytes a b := by
  simp only [asciiLower, AlikeBytes]
  split_ifs <;> simp only [← UInt8.toNat_inj, UInt8.le_iff_toNat_le, UInt8.toNat_add,
    UInt8.toNat_ofNat] at * <;> omega

inductive Takes : UInt8 → List UInt8 → Prop
  | star (piece : List UInt8) : Takes 42 piece
  | mark (b : UInt8) : Takes 63 [b]
  | byte {a b : UInt8} (hstar : a ≠ 42) (hmark : a ≠ 63) (h : AlikeBytes a b) : Takes a [b]

lemma takes_mark_iff (piece : List UInt8) : Takes 63 piece ↔ ∃ b, piece = [b] ∧ True := by
  constructor
  · intro h
    cases h with
    | mark b => exact ⟨b, rfl, trivial⟩
    | byte _ hmark => exact absurd rfl hmark
  · rintro ⟨b, rfl, -⟩
    exact Takes.mark b

lemma takes_byte_iff {a : UInt8} (hstar : a ≠ 42) (hmark : a ≠ 63) (piece : List UInt8) :
    Takes a piece ↔ ∃ b, piece = [b] ∧ AlikeBytes a b := by
  constructor
  · intro h
    cases h with
    | star => exact absurd rfl hstar
    | mark => exact absurd rfl hmark
    | byte _ _ h => exact ⟨_, rfl, h⟩
  · rintro ⟨b, rfl, h⟩
    exact Takes.byte hstar hmark h

lemma globMatch_iff (p t : List UInt8) : globMatch p t = true ↔ InPieces Takes p t := by
  induction p, t using globMatch.induct with
  | case1 => simp [globMatch, InPieces.nil_iff]
  | case2 t ts => simp [globMatch, InPieces.nil_iff]
  | case3 p ps ih =>
    simp only [globMatch, Bool.and_eq_true, beq_iff_eq, ih]
    by_cases hstar : p = 42
    · subst hstar
      rw [InPieces.any_nil_iff Takes.star]
      exact and_iff_right rfl
    · refine iff_of_false (fun h => hstar h.1) ?_
      by_cases hmark : p = 63
      · subst hmark
        exact InPieces.not_one_nil takes_mark_iff
      · exact InPieces.not_one_nil (takes_byte_iff hstar hmark)
  | case4 ps t ts ih₁ ih₂ =>
    rw [globMatch, if_pos rfl, Bool.or_eq_true, ih₁, ih₂, InPieces.any_cons_iff Takes.star]
  | case5 ps t ts hstar ih =>
    rw [globMatch, if_neg hstar, if_pos rfl, ih, InPieces.one_cons_iff takes_mark_iff, true_and]
  | case6 p ps t ts hstar hmark ih =>
    rw [globMatch, if_neg hstar, if_neg hmark, Bool.and_eq_true, beq_iff_eq, asciiLower_eq_iff, ih,
      InPieces.one_cons_iff (takes_byte_iff hstar hmark)]

namespace Partner

/-- The patterns of a list are what stands between its commas, without the space around it. -/
def patterns (list : String) : List String :=
  (list.toList.splitOn ',').map fun item => trim (String.ofList item)

lemma canAccessFile_given {p : Partner} {list : String} (h : p.allowedFiles = some list)
    (file : String) :
    p.canAccessFile file = true ↔
      isBlank list = true ∨ ∃ q ∈ patterns list, InPieces Takes (textBytes q) (textBytes file) := by
  rw [canAccessFile, h, nonBlank, Option.filter_some]
  cases hblank : isBlank list with
  | true => simp
  | false => simp [patterns, globMatch_iff]

theorem file_patterns :
    (∀ p t : List UInt8, globMatch p t = true ↔ InPieces Takes p t) ∧
      ∀ (partner : Partner) (file : String), partner.canAccessFile file = true ↔
        (∀ list, partner.allowedFiles = some list → isBlank list = true) ∨
          ∃ list, partner.allowedFiles = some list ∧
            ∃ p ∈ patterns list, InPieces Takes (textBytes p) (textBytes file) := by
  refine ⟨globMatch_iff, fun partner file => ?_⟩
  cases h : partner.allowedFiles with
  | none => simp [canAccessFile, nonBlank, h]
  | some list =>
    rw [canAccessFile_given h]
    simp

end Partner

end PesitWizard.Node
