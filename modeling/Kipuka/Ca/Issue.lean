/-
  Issuance of a certificate (`src/ca/issue.rs`): the checks on a request, the certificate that is
  built from it, and the signature.
-/
import Kipuka.Auth.EnrollAuthz
import Kipuka.Ca.Limits
import Mathlib.Algebra.Group.Nat.Defs

namespace Kipuka.Ca

open Generic Auth

/-! ## Requests, profiles and certificates -/

structure Extension where
  extnId : List Nat
  critical : Bool
  extnValue : List UInt8
  deriving DecidableEq, Repr

inductive PublicKeyInfo where
  | rsa (bitCount : Nat)
  | ec (bitCount : Nat) (curveNistName : Option String)
  | unknown
  deriving DecidableEq, Repr

structure PublicKey where
  algorithm : List Nat
  info : PublicKeyInfo
  deriving DecidableEq, Repr

inductive ExtendedKeyUsage where
  | serverAuth | clientAuth | codeSigning | emailProtection | timeStamping | ocspSigning
  deriving DecidableEq, Repr

structure EnrollmentProfile extends ValidityProfile where
  keyUsage : List String
  extendedKeyUsage : List String
  includeSki : Bool
  includeAki : Bool
  minRsaBits : Nat
  minEcdsaCurve : String
  certificatePolicies : List String
  allowedMlDsaLevels : List String
  allowedMlKemLevels : List String
  allowCompositeMlDsa : Bool
  mustStaple : Bool
  deriving DecidableEq, Repr

structure Certificate where
  issuer : List UInt8
  subject : Name
  publicKeyDer : List UInt8
  serialNumber : List UInt8
  notBefore : Int
  notAfter : Int
  extensions : List Extension
  deriving DecidableEq, Repr

structure IssueLib extends CsrLib where
  /-- The public key in a CSR. -/
  publicKey : List UInt8 → PublicKey
  /-- The name of a key algorithm that is a variant of ML-KEM. -/
  mlKemName : List Nat → Option String
  /-- The parts of a parsed CSR, encoded again. -/
  criToDer : List UInt8 → Except String (List UInt8)
  signatureAlgorithmToDer : List UInt8 → Except String (List UInt8)
  subjectToDer : List UInt8 → Except String (List UInt8)
  spkiToDer : List UInt8 → Except String (List UInt8)
  /-- The signature of a CSR under its own key. -/
  verifySignature : List UInt8 → Except String Unit
  /-- The strict decoder of a list of extensions. -/
  decodeExtensions : List UInt8 → Except String (List Extension)
  encodeBasicConstraints : Option (List UInt8)
  encodeKeyUsage : Nat → Option (List UInt8)
  encodeExtendedKeyUsage : List ExtendedKeyUsage → Option (List UInt8)
  /-- The numbers of an OID in dotted form. -/
  parseOid : String → Except String (List Nat)
  encodePolicies : List (List Nat) → Except String (List UInt8)
  encodeSubjectKeyIdentifier : List UInt8 → Option (List UInt8)
  encodeAuthorityKeyIdentifier : List UInt8 → Option (List UInt8)
  encodeAia : String → Except String (List UInt8)
  encodeCdp : String → Except String (List UInt8)
  /-- The conversion of a time for a certificate. -/
  timeToDer : Int → Except String Unit
  sign : Certificate → Except String (List UInt8)
  formatDn : Name → String

structure CaCert where
  validity : CaValidity
  subject : List UInt8
  spki : Except String (List UInt8)

/-- One call: the CA's certificate and key, and what the call reads from its surroundings. -/
structure Call where
  caCert : Except String CaCert
  /-- The PEM key, or `none` for a key in the HSM. -/
  pemKey : Option (Except String Unit)
  ocspUrl : Option String
  crlUrl : Option String
  limitNow : Nat
  now : Nat
  caNow : Nat
  serialBytes : List UInt8

/-! ## The checks -/

section Library

variable (L : IssueLib)

def parseCsr (msg : String) (csrDer : List UInt8) : Except IssuanceError Csr :=
  (L.fromDer csrDer).mapError fun e => .invalidCsr (msg ++ e)

def orInvalid (msg : String) {α : Type} (r : Except String α) : Except IssuanceError α :=
  r.mapError fun e => .invalidCsr (msg ++ e)

def orSigning (msg : String) {α : Type} (r : Except String α) : Except IssuanceError α :=
  r.mapError fun e => .signingError (msg ++ e)

def verifyCsrPop (csrDer : List UInt8) : Except IssuanceError Unit := do
  let _ ← parseCsr L "CSR parse failed: " csrDer
  match L.mlKemName (L.publicKey csrDer).algorithm with
  | some name =>
    .error (.invalidCsr (s!"{name} is a key-encapsulation key and cannot self-sign; " ++
      "ML-KEM proof-of-possession (a separate ML-DSA signature) is not yet supported"))
  | none => .ok ()
  let _ ← orInvalid "CSR CRI encode failed: " (L.criToDer csrDer)
  let _ ← orInvalid "CSR sig alg encode failed: " (L.signatureAlgorithmToDer csrDer)
  let _ ← orInvalid "CSR SPKI encode failed: " (L.spkiToDer csrDer)
  orInvalid "CSR self-signature (proof-of-possession) verification failed: "
    (L.verifySignature csrDer)

def validateCsr (csrDer : List UInt8) : Except IssuanceError Unit := do
  refuseIf csrDer.isEmpty (.invalidCsr "empty CSR")
  refuseIf (csrDer.head? ≠ some 0x30) (.invalidCsr "does not start with ASN.1 SEQUENCE")
  let _ ← parseCsr L "PKCS#10 parse failed: " csrDer
  let _ ← orInvalid "CSR encoding: " (L.criToDer csrDer)
  let _ ← orInvalid "CSR encoding: " (L.signatureAlgorithmToDer csrDer)
  let _ ← orInvalid "CSR encoding: " (L.spkiToDer csrDer)
  orInvalid "CSR proof of possession failed: " (L.verifySignature csrDer)

def organizationalUnitName : String := "2.5.4.11"

def checkSubjectDnCompliance (csrDer : List UInt8) : Except IssuanceError Unit := do
  let csr ← parseCsr L "CSR parse failed: " csrDer
  let _ ← orInvalid "subject DN encode failed: " (L.subjectToDer csrDer)
  refuseIf ((parseNameAttrs L.toCsrLib csr.subject).any fun attr => attr.1 = organizationalUnitName)
    (.prohibitedDnAttribute organizationalUnitName "organizationalUnitName")

def pqcAlgorithms : List (String × String × String) :=
  [("2.16.840.1.101.3.4.3.17", "ML-DSA-44", "ml-dsa-44"),
   ("2.16.840.1.101.3.4.3.18", "ML-DSA-65", "ml-dsa-65"),
   ("2.16.840.1.101.3.4.3.19", "ML-DSA-87", "ml-dsa-87"),
   ("2.16.840.1.101.3.4.4.1", "ML-KEM-512", "ml-kem-512"),
   ("2.16.840.1.101.3.4.4.2", "ML-KEM-768", "ml-kem-768"),
   ("2.16.840.1.101.3.4.4.3", "ML-KEM-1024", "ml-kem-1024")]

def oidString (oid : List Nat) : String := ".".intercalate (oid.map toString)

/-- A key that is neither RSA nor on a known curve is judged by its OID. -/
def checkUnknownKey (oid : String) (profile : EnrollmentProfile) : Except IssuanceError Unit :=
  match pqcAlgorithms.find? fun alg => alg.1 = oid with
  | some (_, displayName, level) =>
    let allowed :=
      if level.startsWith "ml-dsa" then profile.allowedMlDsaLevels else profile.allowedMlKemLevels
    refuseIf (!allowed.isEmpty && !allowed.contains level)
      (.algorithmNotAllowed displayName profile.name)
  | none =>
    refuseIf (oid.startsWith "2.16.840.1.114027.80.5.2." && !profile.allowCompositeMlDsa)
      (.algorithmNotAllowed s!"composite ML-DSA ({oid})" profile.name)

def minEcdsaBits (curve : String) : Nat :=
  if curve = "P-384" then 384 else if curve = "P-521" then 521 else 256

def bits32 (n : Nat) : Nat := n % 2 ^ 32

def checkKeySize (csrDer : List UInt8) (profile : EnrollmentProfile) :
    Except IssuanceError Unit := do
  let _ ← parseCsr L "CSR parse failed in key size check: " csrDer
  match (L.publicKey csrDer).info with
  | .rsa bitCount =>
    refuseIf (bits32 bitCount < profile.minRsaBits)
      (.keyTooSmall "RSA" (bits32 bitCount) profile.minRsaBits)
  | .ec bitCount curveNistName =>
    refuseIf (bitCount < minEcdsaBits profile.minEcdsaCurve)
      (.keyTooSmall ("EC " ++ curveNistName.getD "unknown") (bits32 bitCount)
        (minEcdsaBits profile.minEcdsaCurve))
  | .unknown => checkUnknownKey (oidString (L.publicKey csrDer).algorithm) profile

def checkRequiredExtensions (profile : EnrollmentProfile) : Except IssuanceError Unit := do
  refuseIf (!profile.includeAki)
    (.missingExtension "Authority Key Identifier (required by CA/B Forum)")
  refuseIf (!profile.includeSki)
    (.missingExtension "Subject Key Identifier (required by CA/B Forum)")
  refuseIf profile.keyUsage.isEmpty (.missingExtension "Key Usage (required by CA/B Forum)")

/-! ## Extensions -/

def pushExtension (result : List Extension) (ext : Extension) :
    Except IssuanceError (List Extension) := do
  refuseIf (result.any fun e => e.extnId = ext.extnId)
    (.invalidCsr "duplicate requested extension")
  .ok (result ++ [ext])

def pushValue (result : List Extension) (value : List UInt8) :
    Except IssuanceError (List Extension) := do
  let extensions ← orInvalid "requested extensions: " (L.decodeExtensions value)
  extensions.foldlM pushExtension result

/-- The extensions in one attribute; attributes of other types are skipped. -/
def pushAttribute (result : List Extension) (attr : CsrAttribute) :
    Except IssuanceError (List Extension) :=
  if attr.attrType ≠ pkcs9ExtensionRequest then .ok result
  else attr.attrValues.foldlM (pushValue L) result

def requestedExtensions (csrDer : List UInt8) : Except IssuanceError (List Extension) := do
  let csr ← parseCsr L "" csrDer
  (csr.attributes.getD []).foldlM (pushAttribute L) []

/-- The bits of the key usages with their names; other names are skipped. -/
def profileKeyUsageBits (profile : EnrollmentProfile) : Nat :=
  profile.keyUsage.foldl (fun bits usage =>
    if usage = "digitalSignature" then bits ||| 1
    else if usage = "nonRepudiation" ∨ usage = "contentCommitment" then bits ||| 2
    else if usage = "keyEncipherment" then bits ||| 4
    else if usage = "dataEncipherment" then bits ||| 8
    else if usage = "keyAgreement" then bits ||| 16
    else bits) 0

def extendedKeyUsageOf (eku : String) : Option ExtendedKeyUsage :=
  if eku = "serverAuth" then some .serverAuth
  else if eku = "clientAuth" then some .clientAuth
  else if eku = "codeSigning" then some .codeSigning
  else if eku = "emailProtection" then some .emailProtection
  else if eku = "timeStamping" then some .timeStamping
  else if eku = "OCSPSigning" ∨ eku = "ocspSigning" then some .ocspSigning
  else none

def profileExtendedKeyUsage (profile : EnrollmentProfile) : Option (List UInt8) :=
  if profile.extendedKeyUsage.isEmpty then none
  else L.encodeExtendedKeyUsage (profile.extendedKeyUsage.filterMap extendedKeyUsageOf)

def encodeCertificatePolicies (policyOids : List String) : Except IssuanceError (List UInt8) := do
  let components ← policyOids.mapM fun oid =>
    orInvalid s!"invalid policy OID '{oid}': " (L.parseOid oid)
  orSigning "Certificate Policies encoding failed: " (L.encodePolicies components)

def profilePolicies (profile : EnrollmentProfile) : Except IssuanceError (Option (List UInt8)) :=
  if profile.certificatePolicies.isEmpty then .ok none
  else some <$> encodeCertificatePolicies L profile.certificatePolicies

def extensionOf (extnId : List Nat) (critical : Bool) (value : Option (List UInt8)) :
    List Extension :=
  value.toList.map fun v => ⟨extnId, critical, v⟩

def urlExtension (encode : String → Except String (List UInt8)) (msg : String)
    (url : Option String) : Except IssuanceError (Option (List UInt8)) :=
  match url with
  | none => .ok none
  | some url => some <$> orSigning msg (encode url)

def tlsFeatureMustStapleDer : List UInt8 := [0x30, 0x03, 0x02, 0x01, 0x05]

/-- The extensions of the certificate: the requested SAN, and what the profile gives. -/
def certificateExtensions (csrDer : List UInt8) (profile : EnrollmentProfile)
    (spki caSpki : List UInt8) (call : Call) : Except IssuanceError (List Extension) := do
  let requested ← requestedExtensions L csrDer
  let policies ← profilePolicies L profile
  let aia ← urlExtension L.encodeAia "AIA encoding failed: " call.ocspUrl
  let cdp ← urlExtension L.encodeCdp "CDP encoding failed: " call.crlUrl
  .ok ((requested.filter fun ext => ext.extnId = subjectAltName) ++
    extensionOf [2, 5, 29, 19] true L.encodeBasicConstraints ++
    extensionOf [2, 5, 29, 15] true (L.encodeKeyUsage (profileKeyUsageBits profile)) ++
    extensionOf [2, 5, 29, 37] false (profileExtendedKeyUsage L profile) ++
    extensionOf [2, 5, 29, 32] false policies ++
    extensionOf [2, 5, 29, 14] false
      (if profile.includeSki then L.encodeSubjectKeyIdentifier spki else none) ++
    extensionOf [2, 5, 29, 35] false
      (if profile.includeAki then L.encodeAuthorityKeyIdentifier caSpki else none) ++
    extensionOf [1, 3, 6, 1, 5, 5, 7, 1, 1] false aia ++
    extensionOf [2, 5, 29, 31] false cdp ++
    extensionOf [1, 3, 6, 1, 5, 5, 7, 1, 24] false
      (if profile.mustStaple then some tlsFeatureMustStapleDer else none))

/-! ## Issuance -/

/-- What is read of the request and of the CA before the certificate is built. -/
structure Parts where
  csr : Csr
  spki : List UInt8
  ca : CaCert
  caSpki : List UInt8

def parts (csrDer : List UInt8) (call : Call) : Except IssuanceError Parts := do
  let csr ← parseCsr L "CSR parse failed: " csrDer
  let _ ← orInvalid "CSR subject encode failed: " (L.subjectToDer csrDer)
  let spki ← orInvalid "CSR SPKI encode failed: " (L.spkiToDer csrDer)
  let ca ← orSigning "CA cert parse failed: " call.caCert
  let caSpki ← orSigning "CA SPKI encode failed: " ca.spki
  orSigning "CA key parse failed: " (call.pemKey.getD (.ok ()))
  .ok ⟨csr, spki, ca, caSpki⟩

def notAfter (profile : EnrollmentProfile) (ca : CaCert) (call : Call) :
    Except IssuanceError Int := do
  let byProfile ← profileNotAfter profile.toValidityProfile call.now
  validNow ca.validity call.caNow
  if min byProfile ca.validity.notAfter ≤ call.now then
    .error (.signingError "empty certificate validity period")
  else .ok (min byProfile ca.validity.notAfter)

def buildCertificate (csrDer : List UInt8) (profile : EnrollmentProfile) (p : Parts)
    (notAfter : Int) (call : Call) : Except IssuanceError Certificate := do
  orSigning "not_before time conversion: " (L.timeToDer call.now)
  orSigning "not_after time conversion: " (L.timeToDer notAfter)
  let extensions ← certificateExtensions L csrDer profile p.spki p.caSpki call
  .ok ⟨p.ca.subject, p.csr.subject, p.spki, call.serialBytes, call.now, notAfter, extensions⟩

def certificateFor (csrDer : List UInt8) (profile : EnrollmentProfile) (call : Call) :
    Except IssuanceError Certificate := do
  checkSubjectDnCompliance L csrDer
  checkKeySize L csrDer profile
  checkValidityPeriod profile.toValidityProfile call.limitNow
  checkRequiredExtensions profile
  let p ← parts L csrDer call
  let notAfter ← notAfter profile p.ca call
  buildCertificate L csrDer profile p notAfter call

def signCertificate (cert : Certificate) (call : Call) : Except IssuanceError (List UInt8) :=
  orSigning (if call.pemKey.isSome then "certificate signing failed: "
    else "HSM certificate signing failed: ") (L.sign cert)

def issueVerifiedRequest (csrDer : List UInt8) (profile : EnrollmentProfile) (call : Call) :
    Except IssuanceError IssuanceResult := do
  let cert ← certificateFor L csrDer profile call
  let certificateDer ← signCertificate L cert call
  .ok ⟨certificateDer, hexEncode cert.serialNumber, L.formatDn cert.subject, cert.notBefore,
    cert.notAfter⟩

def issueCertificate (csrDer : List UInt8) (profile : EnrollmentProfile) (call : Call) :
    Except IssuanceError IssuanceResult := do
  verifyCsrPop L csrDer
  validateCsr L csrDer
  issueVerifiedRequest L csrDer profile call

end Library

/-! ## The certificate behind a result -/

variable {r : IssuanceResult} {p : Parts}

section Results

variable {L : IssueLib} {csrDer : List UInt8} {profile : EnrollmentProfile} {call : Call}

theorem parts_eq_ok (h : parts L csrDer call = .ok p) :
    L.fromDer csrDer = .ok p.csr ∧ call.caCert = .ok p.ca := by
  unfold parts at h
  obtain ⟨csr, hcsr, h⟩ := except_bind_eq_ok.mp h
  obtain ⟨-, -, h⟩ := except_bind_eq_ok.mp h
  obtain ⟨spki, -, h⟩ := except_bind_eq_ok.mp h
  obtain ⟨ca, hca, h⟩ := except_bind_eq_ok.mp h
  obtain ⟨caSpki, -, h⟩ := except_bind_eq_ok.mp h
  obtain ⟨-, -, h⟩ := except_bind_eq_ok.mp h
  cases h
  exact ⟨mapError_eq_ok.mp hcsr, mapError_eq_ok.mp hca⟩

variable {cert : Certificate}

theorem buildCertificate_eq_ok {notAfter : Int}
    (h : buildCertificate L csrDer profile p notAfter call = .ok cert) :
    cert.subject = p.csr.subject ∧ cert.notBefore = call.now ∧ cert.notAfter = notAfter ∧
      certificateExtensions L csrDer profile p.spki p.caSpki call = .ok cert.extensions := by
  unfold buildCertificate at h
  iterate 2 obtain ⟨-, -, h⟩ := except_bind_eq_ok.mp h
  obtain ⟨extensions, hextensions, h⟩ := except_bind_eq_ok.mp h
  cases h
  exact ⟨rfl, rfl, rfl, hextensions⟩

theorem certificateFor_eq_ok (h : certificateFor L csrDer profile call = .ok cert) :
    ∃ p t, parts L csrDer call = .ok p ∧ notAfter profile p.ca call = .ok t ∧
      buildCertificate L csrDer profile p t call = .ok cert := by
  unfold certificateFor at h
  iterate 4 obtain ⟨-, -, h⟩ := except_bind_eq_ok.mp h
  obtain ⟨p, hp, h⟩ := except_bind_eq_ok.mp h
  obtain ⟨t, ht, h⟩ := except_bind_eq_ok.mp h
  exact ⟨p, t, hp, ht, h⟩

theorem issueVerifiedRequest_eq_ok (h : issueVerifiedRequest L csrDer profile call = .ok r) :
    ∃ cert, certificateFor L csrDer profile call = .ok cert ∧
      L.sign cert = .ok r.certificateDer := by
  unfold issueVerifiedRequest at h
  obtain ⟨cert, hcert, h⟩ := except_bind_eq_ok.mp h
  obtain ⟨der, hder, h⟩ := except_bind_eq_ok.mp h
  cases h
  exact ⟨cert, hcert, mapError_eq_ok.mp hder⟩

theorem issueCertificate_eq_ok (h : issueCertificate L csrDer profile call = .ok r) :
    ∃ cert, certificateFor L csrDer profile call = .ok cert ∧
      L.sign cert = .ok r.certificateDer := by
  unfold issueCertificate at h
  iterate 2 obtain ⟨-, -, h⟩ := except_bind_eq_ok.mp h
  exact issueVerifiedRequest_eq_ok h

theorem certificateFor_subject (h : certificateFor L csrDer profile call = .ok cert) :
    ∃ csr, L.fromDer csrDer = .ok csr ∧ cert.subject = csr.subject := by
  obtain ⟨p, notAfter, hp, -, hcert⟩ := certificateFor_eq_ok h
  exact ⟨p.csr, (parts_eq_ok hp).1, (buildCertificate_eq_ok hcert).1⟩

end Results

/-! ## The time limits alone -/

def errorOf {ε α : Type} : Except ε α → Option ε
  | .ok _ => none
  | .error e => some e

def requestChecks (L : IssueLib) (csrDer : List UInt8) (profile : EnrollmentProfile) :
    Except IssuanceError Unit := do
  verifyCsrPop L csrDer
  validateCsr L csrDer
  checkSubjectDnCompliance L csrDer
  checkKeySize L csrDer profile

/-- The parts of request and CA, once the profile has the required extensions. -/
def checkedParts (L : IssueLib) (csrDer : List UInt8) (profile : EnrollmentProfile) (call : Call) :
    Except IssuanceError Parts := do
  checkRequiredExtensions profile
  parts L csrDer call

/-- An issuance with everything but the time limits taken from the environment. -/
def issueEnv (L : IssueLib) (csrDer : List UInt8) (profile : EnrollmentProfile) (call : Call) :
    IssueEnv where
  limitNow := call.limitNow
  now := call.now
  caNow := call.caNow
  csrFault := errorOf (requestChecks L csrDer profile)
  partsFault := errorOf (checkedParts L csrDer profile call)
  signFault := errorOf (issueVerifiedRequest L csrDer profile call)
  serialNumber := hexEncode call.serialBytes
  certificateDer :=
    (issueVerifiedRequest L csrDer profile call).toOption.elim [] IssuanceResult.certificateDer
  subjectDn := (L.fromDer csrDer).toOption.elim "" fun csr => L.formatDn csr.subject

section Limits

variable {L : IssueLib} {csrDer : List UInt8} {profile : EnrollmentProfile} {call : Call}

/-- The builder and the signature, once the parts and the end of the validity are known. -/
def finish (L : IssueLib) (csrDer : List UInt8) (profile : EnrollmentProfile) (call : Call)
    (p : Parts) (notAfter : Int) : Except IssuanceError IssuanceResult := do
  let cert ← buildCertificate L csrDer profile p notAfter call
  let certificateDer ← signCertificate L cert call
  .ok ⟨certificateDer, hexEncode cert.serialNumber, L.formatDn cert.subject, cert.notBefore,
    cert.notAfter⟩

def afterChecks (L : IssueLib) (csrDer : List UInt8) (profile : EnrollmentProfile) (call : Call) :
    Except IssuanceError IssuanceResult := do
  checkValidityPeriod profile.toValidityProfile call.limitNow
  let p ← checkedParts L csrDer profile call
  let t ← notAfter profile p.ca call
  finish L csrDer profile call p t

theorem issueVerifiedRequest_eq : issueVerifiedRequest L csrDer profile call =
    (checkSubjectDnCompliance L csrDer >>= fun _ => checkKeySize L csrDer profile >>= fun _ =>
      afterChecks L csrDer profile call) := by
  simp only [issueVerifiedRequest, certificateFor, afterChecks, checkedParts, finish, bind_assoc]

theorem issueCertificate_eq : issueCertificate L csrDer profile call =
    (requestChecks L csrDer profile >>= fun _ => afterChecks L csrDer profile call) := by
  simp only [issueCertificate, issueVerifiedRequest_eq, requestChecks, bind_assoc]

theorem issueVerifiedRequest_of_checks (h : requestChecks L csrDer profile = .ok ()) :
    issueVerifiedRequest L csrDer profile call = afterChecks L csrDer profile call := by
  unfold requestChecks at h
  iterate 2 obtain ⟨⟨⟩, -, h⟩ := except_bind_eq_ok.mp h
  obtain ⟨⟨⟩, hdn, hkey⟩ := except_bind_eq_ok.mp h
  rw [issueVerifiedRequest_eq, hdn, hkey, except_ok_bind, except_ok_bind]

theorem checkedParts_eq_ok (h : checkedParts L csrDer profile call = .ok p) :
    L.fromDer csrDer = .ok p.csr ∧ call.caCert = .ok p.ca := by
  unfold checkedParts at h
  obtain ⟨-, -, h⟩ := except_bind_eq_ok.mp h
  exact parts_eq_ok h

theorem finish_eq_ok {t : Int} (h : finish L csrDer profile call p t = .ok r) :
    r = ⟨r.certificateDer, hexEncode call.serialBytes, L.formatDn p.csr.subject, call.now, t⟩ := by
  unfold finish buildCertificate at h
  obtain ⟨cert, hcert, h⟩ := except_bind_eq_ok.mp h
  iterate 2 obtain ⟨-, -, hcert⟩ := except_bind_eq_ok.mp hcert
  obtain ⟨extensions, -, hcert⟩ := except_bind_eq_ok.mp hcert
  obtain ⟨der, -, h⟩ := except_bind_eq_ok.mp h
  cases hcert
  cases h
  rfl

theorem failOn_errorOf_bind {α β : Type} (x : Except IssuanceError α)
    (k : Except IssuanceError β) :
    (failOn (errorOf x) >>= fun _ => k) = (x >>= fun _ => k) := by
  cases x <;> rfl

theorem issueCertificate_limits {ca : CaCert} (hca : call.caCert = .ok ca) :
    issueCertificate L csrDer profile call =
      issueTimed profile.toValidityProfile ca.validity
        (issueEnv L csrDer profile call) := by
  rw [issueCertificate_eq, issueTimed]
  simp only [issueEnv]
  rw [failOn_errorOf_bind]
  refine except_bind_congr fun _ hchecks => ?_
  have hrest : issueVerifiedRequest L csrDer profile call = afterChecks L csrDer profile call :=
    issueVerifiedRequest_of_checks hchecks
  unfold afterChecks at hrest ⊢
  refine except_bind_congr fun _ hlimit => ?_
  rw [failOn_errorOf_bind]
  refine except_bind_congr fun p hparts => ?_
  obtain ⟨hcsr, hca'⟩ := checkedParts_eq_ok hparts
  obtain rfl : p.ca = ca := Except.ok.inj (hca'.symm.trans hca)
  refine except_bind_congr fun t ht => ?_
  rw [hlimit, hparts, except_ok_bind, except_ok_bind, ht, except_ok_bind] at hrest
  rw [hrest, failOn_errorOf_bind, hcsr]
  cases hfinish : finish L csrDer profile call p t with
  | error e => rfl
  | ok r => exact congrArg Except.ok (finish_eq_ok hfinish)

end Limits

end Kipuka.Ca
