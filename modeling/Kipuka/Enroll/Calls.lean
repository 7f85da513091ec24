/-
  What the enrollment routes share: the application state (`src/state.rs`), the resolved label
  (`src/routes/mod.rs`), the authenticated client (`src/auth/mod.rs`), and the calls they make.
-/
import Kipuka.Audit.Write
import Kipuka.Auth.Cms
import Kipuka.Ca.Issue
import Kipuka.Inventory.Revoke
import Kipuka.Keygen.Serverkeygen
import Kipuka.Star.Service

namespace Kipuka.Enroll

open Generic Auth
open Audit (AuditEvent AuditEventType Part)
open Keygen (CryptoLib DogtagError KeyType)
open Kipuka.Ca (IssuanceError IssuanceResult cabForumMaxValidityDays)

/-! ## Clients and labels -/

inductive AuthMethod where
  | mtls | otp | gssapi | cms | none
  deriving DecidableEq, Repr

def AuthMethod.debug : AuthMethod → String
  | .mtls => "Mtls"
  | .otp => "Otp"
  | .gssapi => "Gssapi"
  | .cms => "Cms"
  | .none => "None"

structure AuthResult where
  identity : String
  method : AuthMethod
  clientCertDer : Option (List UInt8)
  subjectDn : Option String
  extendedKeyUsage : List String
  deriving DecidableEq, Repr

def cmcRaEkuOid : String := "1.3.6.1.5.5.7.3.28"

def AuthResult.hasCmcRaEku (auth : AuthResult) : Bool :=
  auth.extendedKeyUsage.any fun oid => oid = cmcRaEkuOid

inductive EstAuthMethod where
  | cms | gssapi | mtls | otp | basic | certificate
  deriving DecidableEq, Repr

abbrev CsrTemplate : Type := String

structure EstLabelConfig where
  name : String
  caId : Option String
  caPool : List String
  authMethods : List EstAuthMethod
  csrAttributes : List String
  csrTemplate : Option CsrTemplate
  policy : EnrollAuthzPolicy
  maxValidityDays : Option Nat
  disconnected : Option Bool

def EstLabelConfig.excludes (label : EstLabelConfig) (wanted : List EstAuthMethod) : Bool :=
  !label.authMethods.isEmpty && wanted.all fun method => !label.authMethods.contains method

structure LabelExtractor where
  label : String
  caId : String
  policy : EnrollAuthzPolicy
  csrAttributes : List String
  csrTemplate : Option CsrTemplate
  maxValidityDays : Option Nat
  disconnected : Option Bool

/-! ## The application state -/

structure CaState where
  id : String
  certDer : List UInt8
  certChain : List (List UInt8)
  hashAlgorithm : String
  validityDays : Nat
  crlUrl : Option String
  ocspUrl : Option String
  deriving DecidableEq, Repr

structure EstConfig where
  fullcmc : Bool
  serverkeygen : Bool
  disconnected : Bool
  disconnectedRetryAfterSecs : Nat
  cmcTruststoreFile : Option String
  csrAttributes : List String
  csrTemplate : Option CsrTemplate
  labels : List EstLabelConfig

structure DogtagConfig where
  profileId : String
  sskgProfileId : Option String
  deriving DecidableEq, Repr

structure CmsEstConfig where
  enabled : Bool
  encryptResponses : Bool
  allowedContentEncryption : List String
  deriving DecidableEq, Repr

structure CmpConfig where
  enabled : Bool
  allowIr : Bool
  allowCr : Bool
  allowKur : Bool
  allowRr : Bool
  allowMacProtection : Bool
  macSecrets : List String
  deriving DecidableEq, Repr

/-- `caConfigs` are the ids in `config.cas`, `cmpMacSecrets` the secrets resolved at startup by
    their reference number. A Dogtag pool is there when its section is. -/
structure AppState where
  est : EstConfig
  cas : List CaState
  caConfigs : List String
  defaultCaId : String
  dogtag : Option DogtagConfig
  cmsEst : Option CmsEstConfig
  cmp : Option CmpConfig
  cmpMacSecrets : List (String × String)

def AppState.getCa (app : AppState) (caId : String) : Option CaState :=
  app.cas.find? fun ca => ca.id = caId

/-! ## The libraries -/

inductive CmcControl where
  | status (bodyPartIds : List Nat)
  | failed (bodyPartIds : List Nat)
  | recipientNonce (nonce : List UInt8)
  | senderNonce (nonce : List UInt8)
  deriving DecidableEq, Repr

structure PkiData where
  transactionId : Option Int
  senderNonce : Option (List UInt8)
  reqSequence : List (List UInt8)
  deriving DecidableEq, Repr

structure TaggedCertificationRequest where
  bodyPartId : Except String Int
  certificationRequest : List UInt8

structure EnrollLib extends Ca.IssueLib where
  cms : CmsLib
  crypto : CryptoLib
  /-- Both see one parser of CSRs. -/
  crypto_csr : crypto.csr = toCsrLib
  star : Star.StarLib
  /-- `trim().to_lowercase()` -/
  normalized : String → String
  /-- A time as `%Y-%m-%dT%H:%M:%SZ`. -/
  formatUtc : Int → String
  /-- A private key in PKCS#8. -/
  privateKey : List UInt8 → Except String Unit
  /-- `CsrBuilder` with a subject, a public key and extensions, signed with a private key. -/
  buildCsr (subject publicKey : List UInt8) (extensions : List Ca.Extension)
    (privateKey : List UInt8) : Except String (List UInt8)
  /-- The certificates in a PEM file. -/
  pemCerts : List UInt8 → Except String (List (List UInt8))
  encodeCsrAttrs : List String → Option CsrTemplate → Except KipukaError (List UInt8)
  parsePkiData : List UInt8 → Except String PkiData
  unwrapSignedCmc : List UInt8 → Except String (List UInt8)
  taggedRequest : List UInt8 → Except String TaggedCertificationRequest
  /-- The encoding of one control, which may fail. -/
  encodeControl : CmcControl → Except String Unit
  buildPkiResponse : List CmcControl → Except String (List UInt8)
  /-- A CMC response with a transaction id added. -/
  bindTransaction : List UInt8 → Int → Except String (List UInt8)
  /-- The OIDs in an extended key usage; none where it cannot be read. -/
  extendedKeyUsageOids : List UInt8 → List String

/-! ## Calls -/

structure CertificateRow where
  serial : String
  subjectDn : String
  issuerDn : String
  notBefore : String
  notAfter : String
  derEncoded : List UInt8
  caId : String
  profile : String
  deriving DecidableEq, Repr

structure PendingCsr where
  csrDer : List UInt8
  caId : String
  subjectDn : Option String
  identity : String
  authMethod : String
  deriving DecidableEq, Repr

inductive EnrollStatus where
  | complete | pending | rejected | canceled
  deriving DecidableEq, Repr

structure EnrollResult where
  requestId : String
  status : EnrollStatus
  certificateDer : Option (List UInt8)
  deriving DecidableEq, Repr

structure KeyGenResult where
  publicKeyDer : List UInt8
  privateKeyDer : List UInt8
  deriving DecidableEq, Repr

/-- `CertReqMsg` of CRMF: the id, subject and key of its template as their encoders give them, and
    its bytes. -/
structure CertReqMsg where
  certReqId : List UInt8
  subject : Option (Except String (List UInt8))
  publicKey : Option (Except String (List UInt8))
  der : List UInt8

/-- What is asked of neither the audit trail nor the signer of certificates. -/
inductive Outside where
  | now
  | randomBytes (n : Nat)
  | checkRevocation (certDer : List UInt8)
  | resolveSigningKey (caId : String)
  | selectAllowed (pool : List String)
  | readFile (path : String)
  | insertPendingCsr (row : PendingCsr)
  | insertCertificate (row : CertificateRow)
  /-- `SELECT status FROM certificates WHERE der_encoded = ? AND status = 'revoked'` -/
  | revokedStatus (certDer : List UInt8)
  | getClient
  | enrollCertificate (csrPem profileId : String)
  | submitCmcRequest (request : List UInt8)
  | generateKeyPair (keyType : KeyType)
  | envelopedData (content recipientCert : List UInt8) (algorithm : String)
  | signedCmc (content : List UInt8) (certificates : List (List UInt8)) (ca : CaState)
  | protectCmp (response : List UInt8) (ca : CaState)
  /-- `Handle::try_current` -/
  | currentRuntime
  /-- An audit write that a task of its own makes. -/
  | spawnAudit (event : AuditEvent)
  | keygen (o : Keygen.Op)
  | inventory (o : Inventory.Op)
  | star (o : Star.Op)

abbrev Answer : Outside → Type
  | .now => Nat
  | .randomBytes _ => List UInt8
  | .checkRevocation _ => Except String Unit
  | .resolveSigningKey _ => Except KipukaError Unit
  | .selectAllowed _ => Option String
  | .readFile _ => Except String (List UInt8)
  | .insertPendingCsr _ => Except String Unit
  | .insertCertificate _ => Except String Unit
  | .revokedStatus _ => Except String (Option String)
  | .getClient => Except DogtagError Unit
  | .enrollCertificate .. => Except DogtagError EnrollResult
  | .submitCmcRequest _ => Except DogtagError (List UInt8)
  | .generateKeyPair _ => Except String KeyGenResult
  | .envelopedData .. => Except KipukaError (List UInt8)
  | .signedCmc .. => Except KipukaError (List UInt8)
  | .protectCmp .. => Except KipukaError (List UInt8)
  | .currentRuntime => Bool
  | .spawnAudit _ => Unit
  | .keygen o => Keygen.Reply o
  | .inventory o => Inventory.Reply o
  | .star o => Star.Reply o

/-- A certificate to be signed: `issue_certificate`, `issue_crmf_certificate`, or
    `issue_certificate` for an order. -/
inductive Signing where
  | certificate (csrDer : List UInt8) (profile : Ca.EnrollmentProfile) (ca : CaState)
  | crmf (request : CertReqMsg) (profile : Ca.EnrollmentProfile) (ca : CaState)
  | star (csrDer : List UInt8) (profile : Ca.ValidityProfile) (ca : Ca.CaValidity)

inductive Op where
  | recordChecked (event : AuditEvent)
  | record (event : AuditEvent)
  /-- A transaction with statements and audit events. -/
  | issuance (parts : List Part)
  | sign (what : Signing)
  | outside (what : Outside)

abbrev Reply : Op → Type
  | .recordChecked _ => Except KipukaError Unit
  | .record _ => Unit
  | .issuance _ => Except Audit.Failure Unit
  | .sign _ => Except IssuanceError IssuanceResult
  | .outside o => Answer o

abbrev ask (o : Op) : Prog Op Reply (Reply o) := Prog.op o

abbrev Fallible (α : Type) : Type := ExceptT KipukaError (Prog Op Reply) α

def request (o : Outside) : Prog Op Reply (Answer o) := ask (.outside o)

/-! ## The audit functions of the state -/

def auditTypeFor (eventType : String) : AuditEventType :=
  match eventType with
  | "cacerts" => .enrollRequest
  | "cert_issued" | "simpleenroll_success" | "simpleenroll_deferred" => .certIssue
  | "simplereenroll_success" | "simplereenroll_deferred" => .certReenroll
  | "fullcmc_success" => .certIssue
  | "serverkeygen_success" => .certIssue
  | "simpleenroll_denied" | "simplereenroll_denied" | "serverkeygen_denied"
  | "cms_simpleenroll_denied" | "cms_simplereenroll_denied" | "cms_serverkeygen_denied" =>
    .enrollReject
  | "otp_generated" => .otpCreate
  | "otp_revoked" => .otpRevoke
  | "otp_auth_failure" => .authFailure
  | "auth_lockout" => .securityViolation
  | "cert_revoked" => .certRevoke
  | "star_order_created" | "star_renewal_success" => .certIssue
  | "star_order_cancelled" | "admin_audit_review" => .adminAction
  | "coap_cacerts" | "coap_csrattrs" => .enrollRequest
  | "coap_simpleenroll" => .certIssue
  | "coap_simplereenroll" => .certReenroll
  | "coap_simpleenroll_denied" | "coap_simplereenroll_denied" => .enrollReject
  | _ => .adminAction

def admissionEvent (identity operation : String) : AuditEvent :=
  ((AuditEvent.new .enrollRequest).withOperator identity).withDetail operation

def admitEnrollment (identity operation : String) : Prog Op Reply (Except KipukaError Unit) :=
  ask (.recordChecked (admissionEvent identity operation))

def auditEvent (eventType detail : String) : AuditEvent :=
  (AuditEvent.new (auditTypeFor eventType)).withDetail detail

def recordAuditEvent (eventType detail : String) : Prog Op Reply Unit :=
  ask (.record (auditEvent eventType detail))

def actorEvent (eventType actor detail : String) : AuditEvent :=
  ((AuditEvent.new (auditTypeFor eventType)).withOperator actor).withDetail detail

def recordAuditEventWithActor (eventType actor detail : String) : Prog Op Reply Unit :=
  ask (.record (actorEvent eventType actor detail))

/-! ## Labels -/

def labelCa (app : AppState) (config : EstLabelConfig) : Fallible String :=
  if config.caPool.isEmpty then pure (config.caId.getD app.defaultCaId)
  else do
    let selected ← Prog.lift (request (.selectAllowed config.caPool))
    Prog.ofExcept (okOrElse (.serviceUnavailable "no healthy CA in label pool") selected)

def AppState.defaultLabel (app : AppState) : LabelExtractor where
  label := ""
  caId := app.defaultCaId
  policy := ⟨false, false, [], [], []⟩
  csrAttributes := app.est.csrAttributes
  csrTemplate := app.est.csrTemplate
  maxValidityDays := none
  disconnected := none

def resolve (app : AppState) (labelName : Option String) : Fallible LabelExtractor :=
  match labelName.filter fun name => !name.isEmpty with
  | none => pure app.defaultLabel
  | some name => do
    let config ← Prog.ofExcept
      (okOrElse .notFound (app.est.labels.find? fun label => label.name = name))
    let caId ← labelCa app config
    Prog.ofExcept (refuseIf (app.getCa caId).isNone
      (.config s!"label {debugStr name} references unknown CA {debugStr caId}"))
    pure {
      label := name
      caId := caId
      policy := config.policy
      csrAttributes := config.csrAttributes
      csrTemplate := config.csrTemplate
      maxValidityDays := config.maxValidityDays
      disconnected := config.disconnected }

/-! ## Issuance -/

def defaultProfile (now : Nat) : Ca.EnrollmentProfile where
  name := "default"
  maxValidityDays := cabForumMaxValidityDays now
  maxValiditySeconds := none
  maxNotAfter := none
  keyUsage := ["digitalSignature", "keyEncipherment"]
  extendedKeyUsage := ["serverAuth"]
  includeSki := true
  includeAki := true
  minRsaBits := 2048
  minEcdsaCurve := "P-256"
  certificatePolicies := ["2.23.140.1.2.1"]
  allowedMlDsaLevels := ["ml-dsa-44", "ml-dsa-65", "ml-dsa-87"]
  allowedMlKemLevels := ["ml-kem-512", "ml-kem-768", "ml-kem-1024"]
  allowCompositeMlDsa := true
  mustStaple := false

/-- The profile of every route: the default one, limited by the CA's validity. -/
def caProfile (ca : CaState) : Prog Op Reply Ca.EnrollmentProfile := do
  let now ← request .now
  pure { defaultProfile now with maxValidityDays := min ca.validityDays (cabForumMaxValidityDays now) }

def findCa (app : AppState) (caId : String) : Except KipukaError CaState :=
  okOrElse .notFound (app.getCa caId)

def findCaConfig (app : AppState) (caId : String) : Except KipukaError Unit :=
  refuseIf (!app.caConfigs.contains caId) (.ca s!"CA config not found for id={caId}")

def resolveSigningKey (caId : String) : Fallible Unit :=
  Prog.mapErr id (request (.resolveSigningKey caId))

section Library

variable (L : EnrollLib)

/-- The subject of a certificate as text; of nothing where it cannot be read. -/
def subjectText (certDer : List UInt8) : String :=
  L.cms.formatDn (((L.cms.certificate certDer).toOption.map (·.subject)).getD [])

def issuedRow (issuerDn caId profile : String) (result : IssuanceResult) : CertificateRow where
  serial := result.serialNumber
  subjectDn := result.subjectDn
  issuerDn := issuerDn
  notBefore := L.formatUtc result.notBefore
  notAfter := L.formatUtc result.notAfter
  derEncoded := result.certificateDer
  caId := caId
  profile := profile

def persistCertificate (caId profile : String) (result : IssuanceResult) : Fallible Unit := do
  let cert ← Prog.ofExcept ((L.cms.certificate result.certificateDer).mapError
    fun e => .ca e.display)
  Prog.mapErr (fun e => .db s!"certificate persistence failed: {e}")
    (request (.insertCertificate (issuedRow L (L.cms.formatDn cert.issuer) caId profile result)))
  Prog.mapErr id (ask (.recordChecked ((AuditEvent.new .certIssue).withDetail
    s!"ca_id={caId}, serial={result.serialNumber}")))

/-! ## Responses -/

def encodeEstBase64 (der : List UInt8) : String :=
  String.ofList ((L.crypto.base64Encode der).toList.zipIdx.flatMap fun ci =>
    if 0 < ci.2 ∧ ci.2 % 76 = 0 then ['\r', '\n', ci.1] else [ci.1])

structure Response where
  status : Nat
  headers : List (String × String)
  body : List UInt8
  deriving DecidableEq, Repr

def pkcs7Certs : String := "application/pkcs7-mime; smime-type=certs-only"

def cmcResponse : String := "application/pkcs7-mime; smime-type=CMC-response"

def base64Response (status : Nat) (contentType : String) (der : List UInt8) : Response where
  status := status
  headers := [("content-type", contentType), ("content-transfer-encoding", "base64")]
  body := asBytes (encodeEstBase64 L der)

def acceptedResponse (retryAfter : Nat) : Response where
  status := 202
  headers := [("retry-after", toString retryAfter)]
  body := []

end Library

end Kipuka.Enroll
