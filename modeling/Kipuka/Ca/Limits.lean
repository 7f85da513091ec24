/-
  The limits on the validity of an issued certificate, and the errors of an issuance
  (`src/ca/issue.rs`).

  `issueTimed` is the issuance with the time limits as the source has them and everything else, the
  checks on the request and the signature, taken from an environment. The order service of STAR runs
  on it. `Kipuka.Ca.Issue` has the whole issuance, and `issueCertificate_limits` there says that it
  is `issueTimed` in the environment that the whole issuance makes.

  * `profileNotAfter_least`: the end that a profile allows is the least of its limits.
  * `issued_within`: a certificate begins now, is not empty, and ends with its CA at the latest.
-/
import Kipuka.Error
import Kipuka.Generic.Calendar
import Kipuka.Generic.Outcome

namespace Kipuka.Ca

open Generic

/-! ## Errors -/

inductive IssuanceError where
  | invalidCsr (msg : String)
  | keyTooSmall (algorithm : String) (bits minBits : Nat)
  | validityTooLong (requestedDays maxDays : Nat)
  | missingExtension (msg : String)
  | unknownProfile (msg : String)
  | signingError (msg : String)
  | storageError (msg : String)
  | algorithmNotAllowed (algorithm profile : String)
  | prohibitedDnAttribute (oid name : String)
  deriving DecidableEq, Repr

namespace IssuanceError

def message : IssuanceError → String
  | invalidCsr msg => s!"invalid CSR: {msg}"
  | keyTooSmall algorithm bits minBits =>
    s!"key too small: {algorithm} {bits}-bit (minimum {minBits}-bit required)"
  | validityTooLong requestedDays maxDays =>
    s!"validity period {requestedDays} days exceeds maximum {maxDays} days"
  | missingExtension msg => s!"missing required extension: {msg}"
  | unknownProfile msg => s!"unknown enrollment profile: {msg}"
  | signingError msg => s!"signing failed: {msg}"
  | storageError msg => s!"storage error: {msg}"
  | algorithmNotAllowed algorithm profile =>
    s!"algorithm not allowed: {algorithm} not in profile '{profile}'"
  | prohibitedDnAttribute oid name => s!"prohibited DN attribute: {name} ({oid})"

def isClientError : IssuanceError → Bool
  | invalidCsr _ | keyTooSmall .. | algorithmNotAllowed .. | prohibitedDnAttribute .. => true
  | signingError _ | storageError _ | missingExtension _ | validityTooLong .. | unknownProfile _ =>
    false

def toKipuka (e : IssuanceError) : KipukaError :=
  if e.isClientError then .badRequest e.message else .ca e.message

end IssuanceError

/-! ## Limits -/

structure ValidityProfile where
  name : String
  maxValidityDays : Nat
  maxValiditySeconds : Option Nat
  maxNotAfter : Option Int
  deriving DecidableEq, Repr

/-- The CA: the default validity of its certificates and its own validity period. Times in a
    certificate have years of four digits. -/
structure CaValidity where
  validityDays : Nat
  notBefore : Int
  notAfter : Int
  fourDigits : notAfter ≤ seconds 253402300799

def cabForumMaxValidityDays (now : Int) : Nat :=
  if now < seconds 1773532800 then 398
  else if now < seconds 1805068800 then 200
  else if now < seconds 1868227200 then 100
  else 47

def maxUtcSecs : Int := 8210266876799

structure IssueEnv where
  /-- The clock for the CA/B Forum limit, for the validity period and for the CA certificate. -/
  limitNow : Nat
  now : Nat
  caNow : Nat
  /-- Proof of possession, CSR, subject and key size. -/
  csrFault : Option IssuanceError
  /-- Extensions, the parts of CSR and CA certificate, the signing key. -/
  partsFault : Option IssuanceError
  /-- Conversion of the times, extensions, signature. -/
  signFault : Option IssuanceError
  serialNumber : String
  certificateDer : List UInt8
  subjectDn : String
  deriving DecidableEq, Repr

structure IssuanceResult where
  certificateDer : List UInt8
  serialNumber : String
  subjectDn : String
  notBefore : Int
  notAfter : Int
  deriving DecidableEq, Repr

def failOn (fault : Option IssuanceError) : Except IssuanceError Unit :=
  match fault with
  | some e => .error e
  | none => .ok ()

def checkValidityPeriod (profile : ValidityProfile) (now : Int) : Except IssuanceError Unit :=
  if profile.maxValidityDays > cabForumMaxValidityDays now then
    .error (.validityTooLong profile.maxValidityDays (cabForumMaxValidityDays now))
  else .ok ()

def secondsNotAfter (now byDays : Int) : Option Nat → Except IssuanceError Int
  | none => .ok byDays
  | some secs =>
    if secs > 9223372036854775807 then .error (.signingError "validity overflow")
    else if timestamp (now + seconds secs) > maxUtcSecs then
      .error (.signingError "validity overflow")
    else .ok (min byDays (now + seconds secs))

def profileNotAfter (profile : ValidityProfile) (now : Int) : Except IssuanceError Int := do
  let bySeconds ←
    secondsNotAfter now (now + days profile.maxValidityDays) profile.maxValiditySeconds
  .ok (profile.maxNotAfter.elim bySeconds (min bySeconds))

def validNow (ca : CaValidity) (now : Int) : Except IssuanceError Unit :=
  if now < ca.notBefore ∨ now > ca.notAfter then
    .error (.signingError "certificate outside validity period")
  else .ok ()

def notAfterFor (profile : ValidityProfile) (ca : CaValidity) (e : IssueEnv) :
    Except IssuanceError Int := do
  let byProfile ← profileNotAfter profile e.now
  validNow ca e.caNow
  if min byProfile ca.notAfter ≤ e.now then
    .error (.signingError "empty certificate validity period")
  else .ok (min byProfile ca.notAfter)

def issueTimed (profile : ValidityProfile) (ca : CaValidity) (e : IssueEnv) :
    Except IssuanceError IssuanceResult := do
  failOn e.csrFault
  checkValidityPeriod profile e.limitNow
  failOn e.partsFault
  let notAfter ← notAfterFor profile ca e
  failOn e.signFault
  .ok ⟨e.certificateDer, e.serialNumber, e.subjectDn, e.now, notAfter⟩

variable {profile : ValidityProfile} {e : IssueEnv} {r : IssuanceResult} {ca : CaValidity}

theorem issueTimed_eq_ok (h : issueTimed profile ca e = .ok r) :
    notAfterFor profile ca e = .ok r.notAfter ∧ r.notBefore = e.now := by
  simp only [issueTimed, except_bind_eq_ok, Except.ok.injEq] at h
  obtain ⟨-, -, -, -, -, -, notAfter, hna, -, -, rfl⟩ := h
  exact ⟨hna, rfl⟩

theorem notAfterFor_eq_ok {t : Int} (h : notAfterFor profile ca e = .ok t) :
    ∃ u, profileNotAfter profile e.now = .ok u ∧ t = min u ca.notAfter ∧ (e.now : Int) < t := by
  simp only [notAfterFor, except_bind_eq_ok, check_eq_ok, Except.ok.injEq] at h
  obtain ⟨u, hu, -, -, hpos, rfl⟩ := h
  exact ⟨u, hu, rfl, by omega⟩

def profileLimits (profile : ValidityProfile) (now : Int) : List Int :=
  [now + days profile.maxValidityDays] ++
    (profile.maxValiditySeconds.map fun secs => now + seconds secs).toList ++
    profile.maxNotAfter.toList

theorem secondsNotAfter_eq_ok {now byDays t : Int} {secs : Option Nat}
    (h : secondsNotAfter now byDays secs = .ok t) :
    t = secs.elim byDays fun n => min byDays (now + seconds n) := by
  cases secs with
  | none => exact (Except.ok.inj h).symm
  | some n =>
    simp only [secondsNotAfter, check_eq_ok, Except.ok.injEq] at h
    exact h.2.2.symm

theorem profileNotAfter_least {now t : Int} (h : profileNotAfter profile now = .ok t) :
    t ∈ profileLimits profile now ∧ ∀ limit ∈ profileLimits profile now, t ≤ limit := by
  obtain ⟨u, hu, ht⟩ := except_bind_eq_ok.mp h
  obtain rfl := secondsNotAfter_eq_ok hu
  obtain rfl := Except.ok.inj ht
  unfold profileLimits
  cases profile.maxValiditySeconds <;> cases profile.maxNotAfter <;> simp <;> omega

theorem issued_within (h : issueTimed profile ca e = .ok r) :
    r.notBefore = e.now ∧ r.notBefore < r.notAfter ∧ r.notAfter ≤ ca.notAfter := by
  obtain ⟨hna, hnb⟩ := issueTimed_eq_ok h
  obtain ⟨u, -, ht, hlt⟩ := notAfterFor_eq_ok hna
  refine ⟨hnb, by omega, by omega⟩

/-- A CA that is valid until 2100. -/
def longCa : CaValidity := ⟨90, 0, seconds 4102444800, by decide⟩

end Kipuka.Ca
