/-
  CMC: `post_fullcmc` (`src/routes/fullcmc.rs`), and the parts of CMC requests and responses that
  the CMS-wrapped route uses too (`cmc_requests`, `cmc_transaction` in `src/ca/protocol.rs`).
-/
import Kipuka.Enroll.Est

namespace Kipuka.Enroll

open Generic Auth
open Keygen (decodeEstBase64)

/-! ## Requests -/

structure CmcRequest where
  bodyPartId : Nat
  requestType : Nat
  der : List UInt8
  deriving DecidableEq, Repr

section Parts

variable (L : EnrollLib)

def cmcRequest (result : List CmcRequest) (raw : List UInt8) :
    Except String (List CmcRequest) := do
  let tag ← (L.cms.peekTag .der raw).mapError DerError.display
  refuseIf (tag ≠ ctx0Tag) "local CMC supports PKCS#10 TaggedRequest only"
  let (inner, _) ← (L.cms.enterConstructed .der tag raw).mapError DerError.display
  let entry ← match L.taggedRequest inner with
    | .ok entry => .ok entry
    | .error _ => L.taggedRequest (0x30 :: raw.tail)
  let id ← entry.bodyPartId
  refuseIf (decide (id < 0 ∨ 4294967295 < id)) "out of range integral type conversion attempted"
  refuseIf (result.any fun r => r.bodyPartId = id.toNat) "duplicate CMC body part ID"
  .ok (result ++ [⟨id.toNat, 0, entry.certificationRequest⟩])

def cmcRequests (data : PkiData) : Except KipukaError (List CmcRequest) :=
  (data.reqSequence.foldlM (cmcRequest L) []).mapError fun e => .badRequest s!"CMC requests: {e}"

/-! ## Responses -/

structure CmcOutcome where
  issuedCerts : List (List UInt8)
  bodyPartIds : List Nat
  failedBodyPartIds : List Nat
  deriving DecidableEq, Repr

def CmcOutcome.issued (out : CmcOutcome) (cert : List UInt8) (id : Nat) : CmcOutcome :=
  { out with issuedCerts := out.issuedCerts ++ [cert], bodyPartIds := out.bodyPartIds ++ [id] }

def CmcOutcome.failed (out : CmcOutcome) (id : Nat) : CmcOutcome :=
  { out with failedBodyPartIds := out.failedBodyPartIds ++ [id] }

def addControl (what : String) (control : CmcControl) (controls : List CmcControl) :
    Except KipukaError (List CmcControl) := do
  (L.encodeControl control).mapError fun e => .ca s!"CMC response builder failed ({what}): {e}"
  .ok (controls ++ [control])

def responseControls (out : CmcOutcome) (senderNonce : Option (List UInt8)) :
    Except KipukaError (List CmcControl) := do
  let controls ←
    if out.bodyPartIds.isEmpty then .ok []
    else addControl L "status" (.status out.bodyPartIds) []
  let controls ←
    if out.failedBodyPartIds.isEmpty then .ok controls
    else addControl L "failed status" (.failed out.failedBodyPartIds) controls
  match senderNonce with
  | none => .ok controls
  | some nonce => addControl L "recipient nonce" (.recipientNonce nonce) controls

def buildResponse (controls : List CmcControl) : Except KipukaError (List UInt8) :=
  (L.buildPkiResponse controls).mapError fun e => .ca s!"CMC PKIResponse build failed: {e}"

def cmcTransaction (response : List UInt8) (transaction : Option Int) :
    Except KipukaError (List UInt8) :=
  match transaction with
  | none => .ok response
  | some id => (L.bindTransaction response id).mapError .ca

def transactionDebug : Option Int → String
  | none => "None"
  | some id => s!"Some({id})"

/-! ## `/fullcmc` -/

def cmcTruststore (app : AppState) (ca : CaState) : Fallible (List (List UInt8)) :=
  match app.est.cmcTruststoreFile with
  | none => pure [ca.certDer]
  | some file => do
    let pem ← Prog.mapErr (fun e => .ca s!"failed to read CMC truststore {file}: {e}")
      (request (.readFile file))
    let certs ← Prog.ofExcept ((L.pemCerts pem).mapError
      fun e => .ca s!"malformed PEM certificate in CMC truststore {file}: {e}")
    Prog.ofExcept (refuseIf certs.isEmpty (.ca s!"CMC truststore {file} contains no certificates"))
    pure certs

def issuerText (certDer : List UInt8) : String :=
  match L.cms.certificate certDer with
  | .ok cert => L.cms.formatDn cert.subject
  | .error _ => "unknown"

def issueCmcEntry (req : EstRequest) (ca : CaState) (profile : Ca.EnrollmentProfile)
    (entry : CmcRequest) (out : CmcOutcome) : Fallible CmcOutcome := do
  let caId := req.label.caId
  let identity := req.auth.identity
  Prog.ofExcept ((authorizeCsrDer L.toCsrLib entry.der identity req.label.policy).mapError .forbidden)
  let issued ← Prog.lift (ask (.sign (.certificate entry.der profile ca)))
  match issued with
  | .error e => do
    Prog.lift (recordAuditEvent "fullcmc_request_failed" (s!"ca_id={caId}, identity={identity}, " ++
      s!"body_part_id={entry.bodyPartId}, error={e.message}"))
    pure (out.failed entry.bodyPartId)
  | .ok result => do
    let stored ← Prog.lift (request (.insertCertificate
      (issuedRow L (issuerText L ca.certDer) caId profile.name result)))
    match stored with
    | .ok () => pure (out.issued result.certificateDer entry.bodyPartId)
    | .error e => do
      Prog.lift (recordAuditEvent "fullcmc_db_error"
        s!"ca_id={caId}, serial={result.serialNumber}, error={e}")
      pure (out.failed entry.bodyPartId)

def issueCmcEntries (req : EstRequest) (ca : CaState) (profile : Ca.EnrollmentProfile) :
    List CmcRequest → CmcOutcome → Fallible CmcOutcome
  | [], out => pure out
  | entry :: entries, out =>
    if entry.requestType = 0 then do
      let out ← issueCmcEntry L req ca profile entry out
      issueCmcEntries req ca profile entries out
    else do
      Prog.lift (recordAuditEvent "fullcmc_request_failed"
        (s!"ca_id={req.label.caId}, identity={req.auth.identity}, " ++
          s!"body_part_id={entry.bodyPartId}, " ++
          s!"reason=unsupported request type {entry.requestType}"))
      issueCmcEntries req ca profile entries (out.failed entry.bodyPartId)

def CmcOutcome.event (out : CmcOutcome) : String :=
  if out.failedBodyPartIds.isEmpty then "fullcmc_success"
  else if out.bodyPartIds.isEmpty then "fullcmc_failed"
  else "fullcmc_partial"

def CmcOutcome.status (out : CmcOutcome) : Nat :=
  if out.bodyPartIds.isEmpty && !out.failedBodyPartIds.isEmpty then 500 else 200

/-- The direct signing behind the verification of the message. -/
def issueCmc (app : AppState) (req : EstRequest) (ca : CaState)
    (cmsResult : CmsVerificationResult) : Fallible Response := do
  let caId := req.label.caId
  let identity := req.auth.identity
  Prog.ofExcept (refuseIf cmsResult.payload.isEmpty
    (.badRequest "CMC SignedData has empty eContent"))
  let pkiData ← Prog.ofExcept ((L.parsePkiData cmsResult.payload).mapError
    fun _ => .badRequest "malformed CMC request")
  Prog.ofExcept (refuseIf pkiData.reqSequence.isEmpty
    (.badRequest "CMC request contains no certification requests"))
  Prog.ofExcept (findCaConfig app caId)
  resolveSigningKey caId
  let profile ← Prog.lift (caProfile ca)
  let requests ← Prog.ofExcept (cmcRequests L pkiData)
  let out ← issueCmcEntries L req ca profile requests ⟨[], [], []⟩
  let controls ← Prog.ofExcept (responseControls L out pkiData.senderNonce)
  let nonce ← Prog.lift (request (.randomBytes 16))
  let controls ← Prog.ofExcept (addControl L "sender nonce" (.senderNonce nonce) controls)
  let built ← Prog.ofExcept (buildResponse L controls)
  let bound ← Prog.ofExcept (cmcTransaction L built pkiData.transactionId)
  let signed ← Prog.mapErr id (request (.signedCmc bound out.issuedCerts ca))
  Prog.lift (recordAuditEvent out.event (s!"ca_id={caId}, identity={identity}, " ++
    s!"transaction_id={transactionDebug pkiData.transactionId}, " ++
    s!"requests={pkiData.reqSequence.length}, issued={out.issuedCerts.length}, " ++
    s!"failed={out.failedBodyPartIds.length}"))
  pure (base64Response L out.status cmcResponse signed)

def fullcmcDirect (app : AppState) (req : EstRequest) (cmcRequestDer : List UInt8) :
    Fallible Response := do
  let ca ← Prog.ofExcept (findCa app req.label.caId)
  let truststore ← cmcTruststore L app ca
  let cmsResult ← Prog.ofExcept (verifyCmsSignedData L.cms cmcRequestDer truststore)
  issueCmc L app req ca cmsResult

def fullcmcDogtag (req : EstRequest) (cmcRequestDer : List UInt8) : Fallible Response := do
  Prog.mapErr (fun e => .serviceUnavailable s!"Dogtag CA unavailable: {e.display}")
    (request .getClient)
  let response ← Prog.mapErr (fun e => .ca s!"Dogtag CMC passthrough failed: {e.display}")
    (request (.submitCmcRequest cmcRequestDer))
  Prog.lift (recordAuditEvent "fullcmc_success"
    s!"ca_id={req.label.caId}, identity={req.auth.identity}, backend=dogtag")
  pure (base64Response L 200 cmcResponse response)

def fullcmc (app : AppState) (req : EstRequest) : Fallible Response := do
  Prog.ofExcept (refuseIf (!app.est.fullcmc) (.est "Full CMC is not enabled"))
  Prog.ofExcept (refuseIf (req.auth.method ≠ .mtls)
    (.auth "Full CMC requires mTLS client certificate authentication"))
  Prog.ofExcept (refuseIf (!req.auth.hasCmcRaEku)
    (.auth s!"CMC signer certificate must have id-kp-cmcRA EKU ({cmcRaEkuOid})"))
  let cmcRequestDer ← Prog.ofExcept ((decodeEstBase64 L.crypto req.body).mapError
    fun _ => .badRequest "malformed CMC request")
  Prog.ofExcept (refuseIf cmcRequestDer.isEmpty (.badRequest "empty CMC request"))
  match app.dogtag with
  | some _ => fullcmcDogtag L req cmcRequestDer
  | none => fullcmcDirect L app req cmcRequestDer

def postFullcmc (app : AppState) (req : EstRequest) : Fallible Response := do
  Prog.mapErr id (admitEnrollment req.auth.identity "fullcmc")
  fullcmc L app req

end Parts

end Kipuka.Enroll
