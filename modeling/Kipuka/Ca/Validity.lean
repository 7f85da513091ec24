/-
  The validity period of an issued certificate as it is encoded (`chrono_to_synta_time` in
  `src/ca/issue.rs`): whole seconds, with a year of two digits before 2050.
-/
import Kipuka.Ca.Names
import Kipuka.Generic.Calendar

namespace Kipuka.Ca

open Generic

/-! ## Encoded times -/

inductive Time where
  | utcTime (year month day hour minute second : Int)
  | generalTime (year month day hour minute second : Int)
  deriving DecidableEq, Repr

def secondOf (year month day hour minute second : Int) : Int :=
  (Civil.mk year month day).toDay * 86400 + hour * 3600 + minute * 60 + second

/-- The second a time stands for. The two digits of a `UTCTime` are those of 1950 to 2049. -/
def Time.second : Time → Int
  | .utcTime year month day hour minute second =>
    secondOf (if year < 50 then 2000 + year else 1900 + year) month day hour minute second
  | .generalTime year month day hour minute second => secondOf year month day hour minute second

def yearU16 (year : Int) : Int := if 0 ≤ year ∧ year ≤ 65535 then year else 2024

def chronoToSyntaTime (t : Int) : Time :=
  let date := civil (timestamp t / 86400)
  let year := yearU16 date.year
  let inDay := timestamp t % 86400
  let hour := inDay / 3600
  let minute := inDay % 3600 / 60
  let second := inDay % 60
  if year < 2050 then .utcTime (year % 100) date.month date.day hour minute second
  else .generalTime year date.month date.day hour minute second

theorem second_chronoToSyntaTime {t : Int} (hlow : 0 ≤ t) (hhigh : t ≤ seconds 253402300799) :
    (chronoToSyntaTime t).second = timestamp t := by
  have hsecs : 0 ≤ timestamp t ∧ timestamp t ≤ 253402300799 := by
    unfold timestamp
    unfold seconds at hhigh
    omega
  have hdays : 0 ≤ timestamp t / 86400 ∧ timestamp t / 86400 ≤ 2932896 := by omega
  obtain ⟨hyear, hyear'⟩ := civil_year hdays.1 hdays.2
  have hday := toDay_civil (timestamp t / 86400)
  unfold chronoToSyntaTime
  generalize civil (timestamp t / 86400) = date at hyear hyear' hday
  have hu16 : yearU16 date.year = date.year := if_pos (by omega)
  simp only [hu16]
  by_cases hutc : date.year < 2050
  · have hdigits : (if date.year % 100 < 50 then 2000 + date.year % 100
        else 1900 + date.year % 100) = date.year := by
      split_ifs <;> omega
    rw [if_pos hutc, Time.second, hdigits, secondOf, hday]
    omega
  · rw [if_neg hutc, Time.second, secondOf, hday]
    omega

/-! ## The encoded validity -/

def Certificate.firstSecond (cert : Certificate) : Int := (chronoToSyntaTime cert.notBefore).second

def Certificate.lastSecond (cert : Certificate) : Int := (chronoToSyntaTime cert.notAfter).second

/-- The days of the encoded validity, counted with its first and its last second. A part of a day
    counts as a day. -/
def Certificate.validityDays (cert : Certificate) : Int :=
  (cert.lastSecond - cert.firstSecond + 1 + 86399) / 86400

/-- The ends that the profile and the CA set for a certificate issued at `now`. -/
def validityLimits (profile : EnrollmentProfile) (ca : CaCert) (now : Int) : List Int :=
  profileLimits profile.toValidityProfile now ++ [ca.validity.notAfter]

section Issued

variable {L : IssueLib} {csrDer : List UInt8} {profile : EnrollmentProfile} {call : Call}
  {ca : CaCert} {cert : Certificate} {r : IssuanceResult} {t : Int}

theorem days_mem_validityLimits (now : Int) :
    now + days profile.maxValidityDays ∈ validityLimits profile ca now := by
  simp [validityLimits, profileLimits]

theorem notAfter_eq_ok (h : notAfter profile ca call = .ok t) :
    ca.validity.notBefore ≤ call.caNow ∧ call.now < t ∧ t ∈ validityLimits profile ca call.now ∧
      ∀ limit ∈ validityLimits profile ca call.now, t ≤ limit := by
  obtain ⟨u, hu, h⟩ := except_bind_eq_ok.mp h
  obtain ⟨⟨⟩, hvalid, h⟩ := except_bind_eq_ok.mp h
  obtain ⟨hmem, hleast⟩ := profileNotAfter_least hu
  simp only [validNow, check_eq_ok, and_true] at hvalid
  simp only [check_eq_ok, Except.ok.injEq] at h
  obtain ⟨hpos, rfl⟩ := h
  simp only [validityLimits, List.mem_append, List.mem_singleton]
  refine ⟨by omega, by omega, ?_, ?_⟩
  · rcases min_choice u ca.validity.notAfter with hmin | hmin <;> rw [hmin]
    · exact .inl hmem
    · exact .inr rfl
  · rintro limit (hlimit | rfl)
    · exact (min_le_left _ _).trans (hleast limit hlimit)
    · exact min_le_right _ _

theorem certificateFor_validity (h : certificateFor L csrDer profile call = .ok cert) :
    ∃ ca, call.caCert = .ok ca ∧ notAfter profile ca call = .ok cert.notAfter ∧
      cert.firstSecond = timestamp call.now ∧ cert.lastSecond = timestamp cert.notAfter := by
  obtain ⟨p, t, hp, ht, hbuild⟩ := certificateFor_eq_ok h
  obtain ⟨-, hnotBefore, rfl, -⟩ := buildCertificate_eq_ok hbuild
  obtain ⟨-, hpos, -, hle⟩ := notAfter_eq_ok ht
  have hca : cert.notAfter ≤ seconds 253402300799 :=
    (hle p.ca.validity.notAfter (by simp [validityLimits])).trans p.ca.validity.fourDigits
  refine ⟨p.ca, (parts_eq_ok hp).2, ht, ?_, second_chronoToSyntaTime (by omega) hca⟩
  rw [Certificate.firstSecond, hnotBefore]
  exact second_chronoToSyntaTime (by omega) (by omega)

/-- With the clock read once, the validity that is encoded begins no earlier than the CA's, is not
    empty, and ends no later than the CA's and every limit of the profile. -/
theorem issued_validity_ordered (hclock : call.caNow = call.now)
    (h : issueVerifiedRequest L csrDer profile call = .ok r) :
    ∃ cert ca, certificateFor L csrDer profile call = .ok cert ∧
      L.sign cert = .ok r.certificateDer ∧ call.caCert = .ok ca ∧
      timestamp ca.validity.notBefore ≤ cert.firstSecond ∧ cert.firstSecond ≤ cert.lastSecond ∧
      ∀ limit ∈ validityLimits profile ca call.now, cert.lastSecond ≤ timestamp limit := by
  obtain ⟨cert, hcert, hsign⟩ := issueVerifiedRequest_eq_ok h
  obtain ⟨ca, hca, hnotAfter, hfirst, hlast⟩ := certificateFor_validity hcert
  obtain ⟨hbegun, hpos, -, hle⟩ := notAfter_eq_ok hnotAfter
  refine ⟨cert, ca, hcert, hsign, hca, ?_, ?_, ?_⟩
  · rw [hfirst, ← hclock]
    exact timestamp_mono hbegun
  · rw [hfirst, hlast]
    exact timestamp_mono hpos.le
  · intro limit hlimit
    rw [hlast]
    exact timestamp_mono (hle limit hlimit)

theorem issued_validity_ordered_plain :
    ∃ cert, certificateFor hostLib hostRequest.der plainProfile plainCall = .ok cert ∧
      cert.lastSecond ≤ 47 * 86400 := by
  have hissue : issueVerifiedRequest hostLib hostRequest.der plainProfile plainCall =
      .ok ⟨asBytes "certificate", "01", "", 1, 1 + days 47⟩ := by decide +kernel
  obtain ⟨cert, ca, hcert, -, -, -, -, hle⟩ := issued_validity_ordered rfl hissue
  exact ⟨cert, hcert, (hle _ (days_mem_validityLimits _)).trans (by decide)⟩

/-- Counted with both ends, the encoded validity takes no more days than the CA/B Forum allows on
    the day of issuance if and only if some limit lies before that many days are over. -/
theorem issued_within_cab_iff (h : issueVerifiedRequest L csrDer profile call = .ok r) :
    ∃ cert ca, certificateFor L csrDer profile call = .ok cert ∧
      L.sign cert = .ok r.certificateDer ∧ call.caCert = .ok ca ∧
      (cert.validityDays ≤ cabForumMaxValidityDays call.now ↔
        ∃ limit ∈ validityLimits profile ca call.now,
          timestamp limit < timestamp call.now + 86400 * cabForumMaxValidityDays call.now) := by
  obtain ⟨cert, hcert, hsign⟩ := issueVerifiedRequest_eq_ok h
  obtain ⟨ca, hca, hnotAfter, hfirst, hlast⟩ := certificateFor_validity hcert
  obtain ⟨-, -, hmem, hle⟩ := notAfter_eq_ok hnotAfter
  refine ⟨cert, ca, hcert, hsign, hca, ?_⟩
  rw [Certificate.validityDays, hfirst, hlast]
  constructor
  · intro hdays
    exact ⟨cert.notAfter, hmem, by omega⟩
  · rintro ⟨limit, hlimit, hlt⟩
    have hmono := timestamp_mono (hle limit hlimit)
    omega

theorem issued_within_cab_plain :
    ∃ cert, certificateFor hostLib hostRequest.der plainProfile plainCall = .ok cert ∧
      cert.validityDays ≤ 398 := by
  have hissue : issueVerifiedRequest hostLib hostRequest.der plainProfile plainCall =
      .ok ⟨asBytes "certificate", "01", "", 1, 1 + days 47⟩ := by decide +kernel
  obtain ⟨cert, ca, hcert, -, -, hiff⟩ := issued_within_cab_iff hissue
  have hmax : cabForumMaxValidityDays plainCall.now = 398 := by decide
  rw [hmax] at hiff
  exact ⟨cert, hcert, hiff.mpr ⟨_, days_mem_validityLimits _, by decide⟩⟩

def callIn2030 : Call :=
  { plainCall with
    limitNow := 1893456000000000000, now := 1893456000000000000, caNow := 1893456000000000000 }

/-- A profile of 47 days gets a validity of 47 days and one second. -/
theorem full_days_exceed_cab :
    (issueVerifiedRequest hostLib hostRequest.der plainProfile callIn2030).isOk = true ∧
      (certificateFor hostLib hostRequest.der plainProfile callIn2030).toOption.map
        (fun cert => (cert.lastSecond - cert.firstSecond + 1, cert.validityDays)) =
          some (47 * 86400 + 1, 48) ∧
      cabForumMaxValidityDays callIn2030.now = 47 := by
  decide +kernel

end Issued

end Kipuka.Ca
