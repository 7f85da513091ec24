/-
  Which keys a profile accepts (`check_key_size` in `src/ca/issue.rs`), and what happens to them
  when the profile is tightened.
-/
import Kipuka.Ca.Names

namespace Kipuka.Ca

open Generic

/-! ## Accepted keys -/

def EnrollmentProfile.levels (profile : EnrollmentProfile) (level : String) : List String :=
  if level.startsWith "ml-dsa" then profile.allowedMlDsaLevels else profile.allowedMlKemLevels

def isCompositeOid (oid : String) : Bool := oid.startsWith "2.16.840.1.114027.80.5.2."

variable {oid : String} {profile : EnrollmentProfile}

theorem checkUnknownKey_eq_ok : checkUnknownKey oid profile = .ok () ↔
      match pqcAlgorithms.find? fun alg => alg.1 = oid with
      | some (_, _, level) => profile.levels level = [] ∨ level ∈ profile.levels level
      | none => isCompositeOid oid = true → profile.allowCompositeMlDsa = true := by
  unfold checkUnknownKey
  cases hfind : pqcAlgorithms.find? fun alg => alg.1 = oid with
  | none =>
    simp only [refuseIf_eq_ok, ← isCompositeOid.eq_1]
    cases isCompositeOid oid <;> simp
  | some alg =>
    obtain ⟨oid', displayName, level⟩ := alg
    simp only [refuseIf_eq_ok, ← EnrollmentProfile.levels.eq_1]
    cases profile.levels level with
    | nil => simp
    | cons l ls => simp [or_iff_not_imp_left]

theorem checkKeySize_eq_ok {L : IssueLib} {csrDer : List UInt8} :
    checkKeySize L csrDer profile = .ok () ↔ (∃ csr, L.fromDer csrDer = .ok csr) ∧
      match (L.publicKey csrDer).info with
      | .rsa bitCount => profile.minRsaBits ≤ bits32 bitCount
      | .ec bitCount _ => minEcdsaBits profile.minEcdsaCurve ≤ bitCount
      | .unknown => checkUnknownKey (oidString (L.publicKey csrDer).algorithm) profile = .ok () := by
  unfold checkKeySize
  rw [except_bind_eq_ok]
  simp only [parseCsr, mapError_eq_ok, exists_and_right]
  refine and_congr_right fun _ => ?_
  cases (L.publicKey csrDer).info with
  | rsa | ec => simp [refuseIf_eq_ok]
  | unknown => rfl

/-! ## Tightening -/

/-- `tight` asks for no less than `loose`: fewer levels, larger keys, no additional algorithm. -/
structure Tightens (loose tight : EnrollmentProfile) : Prop where
  mlDsa : tight.allowedMlDsaLevels ⊆ loose.allowedMlDsaLevels
  mlKem : tight.allowedMlKemLevels ⊆ loose.allowedMlKemLevels
  rsa : loose.minRsaBits ≤ tight.minRsaBits
  ecdsa : minEcdsaBits loose.minEcdsaCurve ≤ minEcdsaBits tight.minEcdsaCurve
  composite : tight.allowCompositeMlDsa = true → loose.allowCompositeMlDsa = true

variable {loose tight : EnrollmentProfile}

theorem Tightens.levels (h : Tightens loose tight)
    (level : String) : tight.levels level ⊆ loose.levels level := by
  unfold EnrollmentProfile.levels
  split
  · exact h.mlDsa
  · exact h.mlKem

/-- The request has a post-quantum key of this level. -/
def HasLevel (L : IssueLib) (csrDer : List UInt8) (level : String) : Prop :=
  (∃ csr, L.fromDer csrDer = .ok csr) ∧ (L.publicKey csrDer).info = .unknown ∧
    ∃ oid name, pqcAlgorithms.find? (fun alg => alg.1 = oidString (L.publicKey csrDer).algorithm) =
      some (oid, name, level)

theorem HasLevel.accepted_iff {L : IssueLib} {csrDer : List UInt8} {level : String}
    (h : HasLevel L csrDer level) : checkKeySize L csrDer profile = .ok () ↔
      profile.levels level = [] ∨ level ∈ profile.levels level := by
  obtain ⟨hparsed, hinfo, oid, name, hfind⟩ := h
  rw [checkKeySize_eq_ok, and_iff_right hparsed, hinfo]
  refine checkUnknownKey_eq_ok.trans ?_
  rw [hfind]

/-- A key accepted under a tightened profile is accepted under the profile itself, unless it is a
    post-quantum key whose list of levels the tightening empties and whose level that list did not
    have. With such a key it is not. -/
theorem tightened_accepts_fewer {L : IssueLib} {csrDer : List UInt8}
    {loose tight : EnrollmentProfile} (h : Tightens loose tight) :
    (checkKeySize L csrDer tight = .ok () → checkKeySize L csrDer loose = .ok ()) ↔
      ∀ level, HasLevel L csrDer level → tight.levels level = [] →
        loose.levels level = [] ∨ level ∈ loose.levels level := by
  constructor
  · intro hfewer level hlevel hempty
    exact hlevel.accepted_iff.mp (hfewer (hlevel.accepted_iff.mpr (.inl hempty)))
  intro hkept haccepted
  obtain ⟨hparsed, hkey⟩ := checkKeySize_eq_ok.mp haccepted
  cases hinfo : (L.publicKey csrDer).info with
  | rsa bitCount =>
    rw [checkKeySize_eq_ok, and_iff_right hparsed]
    simp only [hinfo] at hkey ⊢
    exact h.rsa.trans hkey
  | ec bitCount curve =>
    rw [checkKeySize_eq_ok, and_iff_right hparsed]
    simp only [hinfo] at hkey ⊢
    exact h.ecdsa.trans hkey
  | unknown =>
    cases hfind : pqcAlgorithms.find?
        (fun alg => alg.1 = oidString (L.publicKey csrDer).algorithm) with
    | none =>
      rw [checkKeySize_eq_ok, and_iff_right hparsed]
      simp only [hinfo, checkUnknownKey_eq_ok, hfind] at hkey ⊢
      exact fun hcomposite => h.composite (hkey hcomposite)
    | some alg =>
      have hlevel : HasLevel L csrDer alg.2.2 := ⟨hparsed, hinfo, alg.1, alg.2.1, hfind⟩
      rw [hlevel.accepted_iff] at haccepted ⊢
      rcases haccepted with hempty | hmem
      · exact hkept _ hlevel hempty
      · exact .inr (h.levels _ hmem)

/-! ### ML-DSA keys -/

def mlDsaLib : IssueLib :=
  { hostLib with publicKey := fun _ => ⟨[2, 16, 840, 1, 101, 3, 4, 3, 17], .unknown⟩ }

def mlDsaProfile (levels : List String) : EnrollmentProfile :=
  { plainProfile with allowedMlDsaLevels := levels }

theorem tightens_mlDsaProfile {loose tight : List String} (h : tight ⊆ loose) :
    Tightens (mlDsaProfile loose) (mlDsaProfile tight) :=
  ⟨h, fun _ hl => hl, le_rfl, le_rfl, id⟩

theorem tightened_accepts_mlDsa44 :
    checkKeySize mlDsaLib hostRequest.der (mlDsaProfile ["ml-dsa-44", "ml-dsa-65"]) = .ok () := by
  have htight : Tightens (mlDsaProfile ["ml-dsa-44", "ml-dsa-65"]) (mlDsaProfile ["ml-dsa-44"]) :=
    tightens_mlDsaProfile (by decide)
  refine (tightened_accepts_fewer htight).mpr ?_ (by decide +kernel)
  rintro level ⟨-, -, oid, name, hfind⟩ -
  have hfound : pqcAlgorithms.find?
      (fun alg => alg.1 = oidString (mlDsaLib.publicKey hostRequest.der).algorithm) =
        some ("2.16.840.1.101.3.4.3.17", "ML-DSA-44", "ml-dsa-44") := by decide +kernel
  rw [hfound] at hfind
  cases hfind
  exact .inr (by decide +kernel)

/-- A profile allows ML-DSA-65 only. Without that level the list is empty, and ML-DSA-44 keys are
    accepted. -/
theorem last_level_removed :
    Tightens (mlDsaProfile ["ml-dsa-65"]) (mlDsaProfile []) ∧
      checkKeySize mlDsaLib hostRequest.der (mlDsaProfile []) = .ok () ∧
      checkKeySize mlDsaLib hostRequest.der (mlDsaProfile ["ml-dsa-65"]) =
        .error (.algorithmNotAllowed "ML-DSA-44" "default") :=
  ⟨tightens_mlDsaProfile (by decide), by decide +kernel, by decide +kernel⟩

end Kipuka.Ca
