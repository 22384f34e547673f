import PesitWizard.Core.RoundTrip
import PesitWizard.Node.Reception

/-! The limit on the size of the files that a virtual file receives, from the request on the wire to the
product that is compared with it. -/

namespace PesitWizard.Node

open PesitWizard.Core Io Library BigEndian

namespace Site

/-- The size that the record of a new transfer shows, computed in 64 bits. -/
def fileSize (file : FileSpec) : Option ℕ :=
  if 0 < file.maxReservation.toNat then some (file.maxReservation.toNat * 1024 % 2 ^ 64) else none

/-- A request to write that comes as far as the comparison with the limit of its virtual file. -/
structure Measured (c : Catalogue) (session : SessionInfo) (file : FileSpec)
    (vf : VirtualFile) : Prop where
  partner : ∃ partner, checkPartner c session file true = .ok partner
  configured : c.virtualFile file.fileName = some vf
  enabled : vf.enabled = true
  receives : vf.canReceive = true
  limited : 0 < vf.maxFileSize

structure QuotaKept (c : Catalogue) (session : SessionInfo) (file : FileSpec)
    (vf : VirtualFile) : Prop where
  product : file.maxReservation.toNat * 1024 < 2 ^ 64
  quota : ∀ (s : Site) (l : Listener) (o : Circumstances) (r : Receiving), s.catalogue = c →
    (s.create l session file o).2 = .ok r → file.maxReservation.toNat * 1024 ≤ vf.maxFileSize
  recorded : ∀ size, fileSize file = some size → size = file.maxReservation.toNat * 1024

/-- The blocks of 1024 bytes that a request reserves: the last eight bytes of the parameter. -/
def reservation (f : Fpdu) : ℕ := ofBeBytes ((f.get .maxReservation).getD []) % 2 ^ 64

lemma fromFpdu_maxReservation (f : Fpdu) :
    (FileSpec.fromFpdu f).maxReservation.toNat = reservation f := by
  have hvalue : (f.getNum .maxReservation).getD 0 = reservation f := by
    rw [Fpdu.getNum, reservation]
    cases f.get .maxReservation with
    | none => rfl
    | some value => exact decodeNum_eq value
  have hfield : (FileSpec.fromFpdu f).maxReservation = UInt64.ofNat (reservation f) := by
    rw [← hvalue]
    rfl
  rw [hfield, UInt64.toNat_ofNat']
  exact Nat.mod_mod _ _

variable {c : Catalogue} {session : SessionInfo} {file : FileSpec} {vf : VirtualFile}

lemma create_admitted {s : Site} {l : Listener} {o : Circumstances} {r : Receiving}
    (h : (s.create l session file o).2 = .ok r) : ∃ p, admitCreate s.catalogue session file = .ok p := by
  rw [create, plan] at h
  cases hgranted : admitCreate s.catalogue session file with
  | error e =>
    rw [hgranted] at h
    cases h
  | ok p => exact ⟨p, rfl⟩

lemma admitCreate_measured (h : Measured c session file vf) :
    (∃ p, admitCreate c session file = .ok p) ↔
    file.maxReservation.toNat * 1024 % 2 ^ 64 ≤ vf.maxFileSize := by
  obtain ⟨partner, hpartner⟩ := h.partner
  have hgranted : admitCreate c session file =
      if 0 < vf.maxFileSize ∧ vf.maxFileSize < file.maxReservation.toNat * 1024 % 2 ^ 64 then
        refuse .diskQuota s!"file larger than the {vf.maxFileSize} bytes allowed for '{vf.id}'"
      else .ok (partner, vf) := by
    simp [admitCreate, hpartner, h.configured, h.enabled, h.receives, bind, Except.bind]
  rw [hgranted]
  by_cases hover : vf.maxFileSize < file.maxReservation.toNat * 1024 % 2 ^ 64
  · rw [if_pos ⟨h.limited, hover⟩]
    refine iff_of_false ?_ (by omega)
    rintro ⟨p, hp⟩
    cases hp
  · rw [if_neg fun hlimit => hover hlimit.2]
    exact iff_of_true ⟨_, rfl⟩ (by omega)

lemma quotaKept_iff (h : Measured c session file vf) :
    QuotaKept c session file vf ↔ file.maxReservation.toNat < 2 ^ 54 := by
  constructor
  · intro hkept
    have hproduct := hkept.product
    omega
  · intro hsmall
    have hexact : file.maxReservation.toNat * 1024 % 2 ^ 64 = file.maxReservation.toNat * 1024 :=
      Nat.mod_eq_of_lt (by omega)
    refine ⟨by omega, ?_, ?_⟩
    · rintro s l o r rfl hcreate
      have hadmitted := (admitCreate_measured h).mp (create_admitted hcreate)
      rwa [hexact] at hadmitted
    · intro size hsize
      rw [fileSize, hexact] at hsize
      split at hsize
      · exact (Option.some.inj hsize).symm
      · cases hsize

/-- What holds of the requests that these bytes are read as. -/
def QuotaSafe (c : Catalogue) (session : SessionInfo) (bytes : Bytes) : Prop :=
  ∀ f vf, Fpdu.decode bytes = .ok f → f.kind = .create → Measured c session (FileSpec.fromFpdu f) vf →
    QuotaKept c session (FileSpec.fromFpdu f) vf

theorem quota_safe_iff (c : Catalogue) (session : SessionInfo) (bytes : Bytes) :
    QuotaSafe c session bytes ↔
      ∀ f vf, Fpdu.decode bytes = .ok f → f.kind = .create →
      Measured c session (FileSpec.fromFpdu f) vf →
        reservation f < 2 ^ 54 := by
  have hiff {f : Fpdu} {vf : VirtualFile} (h : Measured c session (FileSpec.fromFpdu f) vf) :
      QuotaKept c session (FileSpec.fromFpdu f) vf ↔ reservation f < 2 ^ 54 := by
    rw [quotaKept_iff h, fromFpdu_maxReservation]
  constructor
  · intro hsafe f vf hdecode hkind h
    exact (hiff h).mp (hsafe f vf hdecode hkind h)
  · intro hsmall f vf hdecode hkind h
    exact (hiff h).mpr (hsmall f vf hdecode hkind h)

/-- A request to write the file F that reserves 2 ^ 54 blocks, of which the product with 1024
is zero in 64 bits. -/
def hugeCreate : Fpdu :=
  ⟨.create, 1, 0,
    [.pgi .fileId [(.fileType, [0]), (.fileName, [0x46])], .pi .transferId [7], .pi .priority [0],
    .pi .maxEntitySize [0x80, 0],
      .pgi .logicalAttributes [(.articleFormat, [0x80]), (.articleLength, [0x10, 0])],
      .pgi .physicalAttributes [(.maxReservation, [0x40, 0, 0, 0, 0, 0, 0])],
      .pgi .historicalAttributes [(.creationDate, [0x32, 0x36])]], []⟩

def limitedCatalogue : Catalogue :=
  { sampleCatalogue with virtualFile := fun id => if id = "F" then some { sampleVirtualFile with
    maxFileSize := 1000 } else none }

def limitedSite : Site := initial limitedCatalogue (.blank [])

theorem quota_bypassed :
    ¬ ∀ (c : Catalogue) (session : SessionInfo) (bytes : Bytes), QuotaSafe c session bytes := by
  intro h
  have hdecode : Fpdu.decode (hugeCreate.header ++ hugeCreate.body) = .ok hugeCreate :=
    Fpdu.decode_encoded (by decide) (by decide)
  have hpartner : checkPartner limitedCatalogue sampleSession (FileSpec.fromFpdu hugeCreate) true =
      .ok ⟨"P", .both, none⟩ := toOption_some (by decide +kernel)
  have hkept :=
    h limitedCatalogue sampleSession _ hugeCreate { sampleVirtualFile with
      maxFileSize := 1000 } hdecode rfl
    ⟨⟨_, hpartner⟩, by decide, rfl, rfl, by decide⟩
  have hcreated : ((limitedSite.create sampleListener sampleSession (FileSpec.fromFpdu hugeCreate)
      (sampleCircumstances "00" "1")).2.toOption).isSome = true := by decide +kernel
  obtain ⟨r, hr⟩ := Option.isSome_iff_exists.mp hcreated
  exact absurd (hkept.quota limitedSite sampleListener (sampleCircumstances "00" "1") r rfl
    (toOption_some hr)) (by decide)

end Site

end PesitWizard.Node
