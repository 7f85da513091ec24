/-
  CMS-wrapped EST (`src/routes/cms_est.rs`): the body is a SignedData, its signer is the client.
-/
import Kipuka.Enroll.Cmc

namespace Kipuka.Enroll

open Generic Auth
open Keygen (detectKeyTypeFromCsr)

structure CmsRequest where
  label : LabelExtractor
  body : List UInt8

/-- What the common checks leave: the configuration, the message and its signer's identity. -/
structure CmsClient where
  config : CmsEstConfig
  message : CmsVerificationResult
  identity : String

def getCmsEstConfig (app : AppState) : Except KipukaError CmsEstConfig :=
  match app.cmsEst with
  | some config => if config.enabled then .ok config else .error (.est "CMS-EST is not enabled")
  | none => .error (.est "CMS-EST is not enabled")

def buildTruststore (app : AppState) : List (List UInt8) := app.cas.flatMap (·.certChain)

def extractSignerIdentity (message : CmsVerificationResult) : Except KipukaError AuthResult := do
  refuseIf message.signerSubjectDn.isEmpty (.auth "CMS signer certificate has an empty subject DN")
  .ok {
    identity := message.signerSubjectDn
    method := .mtls
    clientCertDer := some message.signerCertDer
    subjectDn := some message.signerSubjectDn
    extendedKeyUsage := [] }

def buildCmsResponse (body : List UInt8) : Response where
  status := 200
  headers := [("content-type", "application/pkcs7-mime")]
  body := body

section Routes

variable (L : EnrollLib)

/-- The checks in front of the signature: configuration, mode, label, and the route's switch. -/
def cmsPreconditions (app : AppState) (req : CmsRequest) (switch : Except KipukaError Unit) :
    Except KipukaError CmsEstConfig := do
  let config ← getCmsEstConfig app
  refuseIf (req.label.disconnected.getD app.est.disconnected) (.serviceUnavailable
    "CMS enrollment is unavailable in disconnected mode; use queued EST simpleenroll")
  refuseIf ((app.est.labels.find? fun label => label.name = req.label.label).any
    fun label => label.excludes [.cms])
    (.forbidden "CMS authentication is not permitted for this label")
  switch
  refuseIf req.body.isEmpty (.badRequest "empty CMS SignedData request body")
  .ok config

def cmsAdmission (app : AppState) (req : CmsRequest) (switch : Except KipukaError Unit) :
    Fallible CmsClient := do
  let config ← Prog.ofExcept (cmsPreconditions app req switch)
  let message ← Prog.ofExcept (verifyCmsSignedData L.cms req.body (buildTruststore app))
  Prog.mapErr KipukaError.auth (request (.checkRevocation message.signerCertDer))
  let auth ← Prog.ofExcept (extractSignerIdentity message)
  Prog.mapErr id (admitEnrollment auth.identity "cms_est")
  pure ⟨config, message, auth.identity⟩

def issueCertificateFromCsr (app : AppState) (caId : String) (csrDer : List UInt8) :
    Fallible (List UInt8) := do
  let ca ← Prog.ofExcept (findCa app caId)
  Prog.ofExcept (findCaConfig app caId)
  resolveSigningKey caId
  let profile ← Prog.lift (caProfile ca)
  let result ← Prog.mapErr Ca.IssuanceError.toKipuka (ask (.sign (.certificate csrDer profile ca)))
  persistCertificate L caId profile.name result
  pure result.certificateDer

def authorizeCms (operation : String) (req : CmsRequest) (client : CmsClient)
    (csrDer : List UInt8) : Fallible Unit :=
  match authorizeCsrDer L.toCsrLib csrDer client.identity req.label.policy with
  | .ok () => pure ()
  | .error reason => do
    Prog.lift (recordDenied operation req.label.caId client.identity reason)
    throw (.forbidden s!"enrollment not authorized: {reason}")

/-- Issuance whose refusal, where it is the client's fault, is recorded. -/
def issueOrDeny (app : AppState) (operation : String) (req : CmsRequest) (client : CmsClient)
    (csrDer : List UInt8) : Fallible (List UInt8) := do
  let issued ← Prog.lift (issueCertificateFromCsr L app req.label.caId csrDer).run
  match issued with
  | .ok certDer => pure certDer
  | .error e => do
    if isBadRequest e then
      Prog.lift (recordDenied operation req.label.caId client.identity e.display)
    throw e

def envelope (client : CmsClient) (content : List UInt8) : Fallible (List UInt8) :=
  Prog.mapErr id (request (.envelopedData content client.message.signerCertDer
    (client.config.allowedContentEncryption.headD "AES-256-GCM")))

def envelopeIfConfigured (client : CmsClient) (content : List UInt8) : Fallible (List UInt8) :=
  if client.config.encryptResponses then envelope client content else pure content

def cmsSuccess (operation : String) (req : CmsRequest) (client : CmsClient) (body : List UInt8) :
    Fallible Response := do
  Prog.lift (recordAuditEvent s!"{operation}_success"
    s!"ca_id={req.label.caId}, identity={client.identity}")
  pure (buildCmsResponse body)

/-- What enrollment and re-enrollment do with a CSR that passed their own checks. -/
def cmsEnroll (app : AppState) (operation : String) (req : CmsRequest) (client : CmsClient) :
    Fallible Response := do
  let csrDer := client.message.payload
  authorizeCms L operation req client csrDer
  let certDer ← issueOrDeny L app operation req client csrDer
  let pkcs7 ← Prog.ofExcept (L.crypto.certsOnlyPkcs7 certDer)
  let body ← envelopeIfConfigured client pkcs7
  cmsSuccess operation req client body

def tooShort (csrDer : List UInt8) : Except KipukaError Unit :=
  refuseIf (decide (csrDer.length < 60)) (.badRequest "extracted CSR is too short to be valid")

/-! ## Enrollment and re-enrollment -/

def postCmsSimpleenroll (app : AppState) (req : CmsRequest) : Fallible Response := do
  let client ← cmsAdmission L app req (.ok ())
  Prog.ofExcept (tooShort client.message.payload)
  cmsEnroll L app "cms_simpleenroll" req client

def cmsPopLinking (message : CmsVerificationResult) : Except KipukaError Unit := do
  let _ ← (L.fromDer message.payload).mapError
    fun e => .badRequest s!"CSR parse failed for POP linking: {e}"
  let subjectDer ← (L.subjectToDer message.payload).mapError
    fun e => .badRequest s!"CSR subject encode failed: {e}"
  let subject := L.cms.formatDn subjectDer
  refuseIf (L.normalized message.signerSubjectDn ≠ L.normalized subject)
    (.forbidden (s!"POP linking failed: CSR subject '{subject}' does not match " ++
      s!"CMS signer subject '{message.signerSubjectDn}'"))

def postCmsSimplereenroll (app : AppState) (req : CmsRequest) : Fallible Response := do
  let client ← cmsAdmission L app req (.ok ())
  Prog.ofExcept (tooShort client.message.payload)
  Prog.ofExcept (cmsPopLinking L client.message)
  cmsEnroll L app "cms_simplereenroll" req client

/-! ## Key generation -/

def postCmsServerkeygen (app : AppState) (req : CmsRequest) : Fallible Response := do
  let client ← cmsAdmission L app req
    (refuseIf (!app.est.serverkeygen) (.est "server-side key generation is not enabled"))
  let template := client.message.payload
  authorizeCms L "cms_serverkeygen" req client template
  let pair ← Prog.mapErr (fun e => .ca s!"CMS key generation failed: {e}")
    (request (.generateKeyPair (detectKeyTypeFromCsr L.crypto template)))
  let newCsr ← Prog.ofExcept (buildKeygenCsr L template pair)
  let certDer ← issueCertificateFromCsr L app req.label.caId newCsr
  let pkcs7 ← Prog.ofExcept (L.crypto.certsOnlyPkcs7 certDer)
  let body ← envelope client (asBytes (buildMultipartResponse L pkcs7 pair.privateKeyDer))
  cmsSuccess "cms_serverkeygen" req client body

/-! ## CMC -/

def extendedKeyUsageOid : List Nat := [2, 5, 29, 37]

def checkCmcRa (message : CmsVerificationResult) : Except KipukaError Unit := do
  let cert ← (L.cms.certificate message.signerCertDer).mapError fun e =>
    .badRequest s!"failed to parse CMS signer certificate for EKU check: {e.display}"
  let usage := cert.extensions.bind fun exts => L.cms.findExtensionValue exts extendedKeyUsageOid
  refuseIf (!(usage.any fun eku => (L.extendedKeyUsageOids eku).any fun oid => oid = cmcRaEkuOid))
    (.forbidden "CMC signer certificate must have id-kp-cmcRA EKU (1.3.6.1.5.5.7.3.28)")

def innerPkiData (message : CmsVerificationResult) : Except KipukaError PkiData := do
  let inner ← (L.unwrapSignedCmc message.payload).mapError
    fun e => .badRequest s!"CMC inner SignedData unwrap failed: {e}"
  refuseIf inner.isEmpty (.badRequest "CMC inner SignedData has empty eContent")
  let pkiData ← (L.parsePkiData inner).mapError fun e => .badRequest s!"CMC PKIData parse failed: {e}"
  refuseIf pkiData.reqSequence.isEmpty (.badRequest "CMC request contains no certification requests")
  .ok pkiData

def cmsCmcEntries (app : AppState) (req : CmsRequest) (client : CmsClient) :
    List CmcRequest → CmcOutcome → Fallible CmcOutcome
  | [], out => pure out
  | entry :: entries, out =>
    if entry.requestType = 0 then do
      Prog.ofExcept ((authorizeCsrDer L.toCsrLib entry.der client.identity
        req.label.policy).mapError .forbidden)
      let issued ← Prog.lift (issueCertificateFromCsr L app req.label.caId entry.der).run
      match issued with
      | .ok cert => cmsCmcEntries app req client entries (out.issued cert entry.bodyPartId)
      | .error _ => cmsCmcEntries app req client entries (out.failed entry.bodyPartId)
    else cmsCmcEntries app req client entries (out.failed entry.bodyPartId)

def postCmsFullcmc (app : AppState) (req : CmsRequest) : Fallible Response := do
  let caId := req.label.caId
  let client ← cmsAdmission L app req
    (refuseIf (!app.est.fullcmc) (.est "Full CMC is not enabled"))
  Prog.ofExcept (checkCmcRa L client.message)
  let pkiData ← Prog.ofExcept (innerPkiData L client.message)
  let requests ← Prog.ofExcept (cmcRequests L pkiData)
  let out ← cmsCmcEntries L app req client requests ⟨[], [], []⟩
  let controls ← Prog.ofExcept (responseControls L out pkiData.senderNonce)
  let built ← Prog.ofExcept (buildResponse L controls)
  let ca ← Prog.ofExcept (findCa app caId)
  Prog.ofExcept (refuseIf (!app.caConfigs.contains caId) .notFound)
  resolveSigningKey caId
  let bound ← Prog.ofExcept (cmcTransaction L built pkiData.transactionId)
  let signed ← Prog.mapErr id (request (.signedCmc bound out.issuedCerts ca))
  let body ← envelopeIfConfigured client signed
  cmsSuccess "cms_fullcmc" req client body

end Routes

end Kipuka.Enroll
