/-
  The EST routes that take a CSR: `post_simpleenroll`, `post_simplereenroll`
  (`src/routes/simpleenroll.rs`, `src/routes/simplereenroll.rs`) and `post_serverkeygen`
  (`src/routes/serverkeygen.rs`), from the point where client and label are known.
-/
import Kipuka.Enroll.Calls

namespace Kipuka.Enroll

open Generic Auth
open Keygen (KeygenConfig KeygenRequest KeyType decodeEstBase64 detectKeyTypeFromCsr)

structure EstRequest where
  auth : AuthResult
  label : LabelExtractor
  body : List UInt8

def isBadRequest : KipukaError → Bool
  | .badRequest _ => true
  | _ => false

def isForbidden : KipukaError → Bool
  | .forbidden _ => true
  | _ => false

def recordDenied (operation caId identity reason : String) : Prog Op Reply Unit :=
  recordAuditEventWithActor s!"{operation}_denied" identity
    s!"ca_id={caId}, identity={identity}, reason={reason}"

section Routes

variable (L : EnrollLib)

/-! ## Checks on a CSR -/

def checkKeyInfo : Ca.PublicKeyInfo → Except KipukaError Unit
  | .rsa bitCount =>
    refuseIf (decide (bitCount < 2048))
      (.badRequest s!"RSA key too small: {bitCount}-bit (minimum 2048-bit required)")
  | .ec bitCount curveNistName =>
    refuseIf (decide (bitCount < 256)) (.badRequest
      ("EC key too small: " ++ curveNistName.getD "unknown" ++
        s!" {bitCount}-bit (minimum P-256 required)"))
  | .unknown => .ok ()

def validateCsr (csrDer : List UInt8) (auth : AuthResult) (label : LabelExtractor) :
    Except KipukaError Unit := do
  refuseIf csrDer.isEmpty (.badRequest "empty CSR")
  refuseIf (decide (csrDer.length < 60)) (.badRequest "CSR is too short to be valid")
  let csr ← (L.fromDer csrDer).mapError fun e => .badRequest s!"CSR parse failed: {e}"
  let _ ← (L.criToDer csrDer).mapError fun e => .badRequest s!"CSR CRI encode failed: {e}"
  let _ ← (L.signatureAlgorithmToDer csrDer).mapError
    fun e => .badRequest s!"CSR sig alg encode failed: {e}"
  let _ ← (L.spkiToDer csrDer).mapError fun e => .badRequest s!"CSR SPKI encode failed: {e}"
  (L.verifySignature csrDer).mapError
    fun e => .badRequest s!"CSR self-signature verification failed: {e}"
  (authorizeCsr L.toCsrLib csr auth.identity label.policy).mapError
    fun reason => .forbidden s!"enrollment not authorized: {reason}"
  checkKeyInfo (L.publicKey csrDer).info

/-- `validate_pop_linking`: both subjects are the same up to case and blanks around them. -/
def validatePopLinking (auth : AuthResult) (csrSubject : String) : Except String Unit := do
  let certSubject ← okOrElse "mTLS certificate has no subject DN for POP linking" auth.subjectDn
  refuseIf (L.normalized certSubject ≠ L.normalized csrSubject)
    (s!"POP linking failed: TLS cert subject {debugStr certSubject} does not match " ++
      s!"CSR subject {debugStr csrSubject}")

def validatePopLinkingFromCsr (csrDer : List UInt8) (auth : AuthResult) :
    Except KipukaError Unit := do
  let _ ← (L.fromDer csrDer).mapError
    fun e => .badRequest s!"CSR parse failed for POP linking: {e}"
  let subject ← (L.subjectToDer csrDer).mapError
    fun e => .badRequest s!"CSR subject encode failed: {e}"
  (validatePopLinking L auth (L.cms.formatDn subject)).mapError
    fun e => .badRequest s!"POP linking validation failed: {e}"

/-! ## Backends -/

def csrPem (csrDer : List UInt8) : String :=
  "-----BEGIN CERTIFICATE REQUEST-----\n" ++ L.crypto.base64Encode csrDer ++
    "\n-----END CERTIFICATE REQUEST-----"

def dogtagOutcome (app : AppState) (caId profileId operation : String) (result : EnrollResult) :
    Fallible (Response × String) :=
  match result.status with
  | .complete => do
    let certDer ← Prog.ofExcept (okOrElse
      (.ca "Dogtag returned complete status but no certificate") result.certificateDer)
    -- a failed insert is only logged
    let _ ← Prog.lift (request (.insertCertificate ⟨result.requestId, "(dogtag-issued)",
      "(dogtag)", "", "", certDer, caId, profileId⟩))
    let pkcs7 ← Prog.ofExcept (L.crypto.certsOnlyPkcs7 certDer)
    pure (base64Response L 200 pkcs7Certs pkcs7, operation ++ "_success")
  | .pending => pure (acceptedResponse app.est.disconnectedRetryAfterSecs, operation ++ "_deferred")
  | .rejected => throw (.ca s!"Dogtag CA rejected enrollment: request_id={result.requestId}")
  | .canceled => throw (.ca s!"Dogtag enrollment was canceled: request_id={result.requestId}")

def enrollWithDogtag (app : AppState) (csrDer : List UInt8) (caId identity operation : String) :
    Fallible (Option Response) :=
  match app.dogtag with
  | none => pure none
  | some dogtag => do
    Prog.mapErr (fun e => .serviceUnavailable s!"Dogtag CA unavailable: {e.display}")
      (request .getClient)
    let result ← Prog.mapErr (fun e => .ca s!"Dogtag enrollment failed: {e.display}")
      (request (.enrollCertificate (csrPem L csrDer) dogtag.profileId))
    let (response, event) ← dogtagOutcome L app caId dogtag.profileId operation result
    Prog.lift (recordAuditEventWithActor event identity
      (s!"ca_id={caId}, identity={identity}, backend=dogtag, " ++
        s!"request_id={result.requestId}"))
    pure (some response)

/-- The direct signing of both routes. A refusal that is the client's fault is recorded. -/
def signDirect (app : AppState) (req : EstRequest) (csrDer : List UInt8) (operation : String) :
    Fallible Response := do
  let caId := req.label.caId
  let identity := req.auth.identity
  let ca ← Prog.ofExcept (findCa app caId)
  Prog.ofExcept (findCaConfig app caId)
  resolveSigningKey caId
  let profile ← Prog.lift (caProfile ca)
  let issued ← Prog.lift (ask (.sign (.certificate csrDer profile ca)))
  match issued with
  | .error e => do
    let err := e.toKipuka
    if isBadRequest err then Prog.lift (recordDenied operation caId identity err.display)
    throw err
  | .ok result => do
    -- the certificate is signed: a failed insert is only logged
    let _ ← Prog.lift (request (.insertCertificate
      (issuedRow L (subjectText L ca.certDer) caId profile.name result)))
    let pkcs7 ← Prog.ofExcept (L.crypto.certsOnlyPkcs7 result.certificateDer)
    Prog.lift (recordAuditEvent s!"{operation}_success" s!"ca_id={caId}, identity={identity}")
    pure (base64Response L 200 pkcs7Certs pkcs7)

/-- Dogtag where it is configured, the server's own key where it is not. -/
def enrollChecked (app : AppState) (req : EstRequest) (csrDer : List UInt8) (operation : String) :
    Fallible Response := do
  let forwarded ← enrollWithDogtag L app csrDer req.label.caId req.auth.identity operation
  match forwarded with
  | some response => pure response
  | none => signDirect L app req csrDer operation

/-! ## `/simpleenroll` -/

def queueCsr (app : AppState) (req : EstRequest) (csrDer : List UInt8) : Fallible Response := do
  let subjectDn := (L.fromDer csrDer).toOption.map fun _ =>
    L.cms.formatDn ((L.subjectToDer csrDer).toOption.getD [])
  Prog.mapErr (fun e => .ca s!"failed to persist CSR for deferred signing: {e}")
    (request (.insertPendingCsr ⟨csrDer, req.label.caId, subjectDn, req.auth.identity,
      req.auth.method.debug⟩))
  Prog.lift (recordAuditEvent "simpleenroll_deferred"
    s!"ca_id={req.label.caId}, identity={req.auth.identity}")
  pure (acceptedResponse app.est.disconnectedRetryAfterSecs)

def simpleenroll (app : AppState) (req : EstRequest) : Fallible Response := do
  let csrDer ← Prog.ofExcept ((decodeEstBase64 L.crypto req.body).mapError
    fun e => .badRequest s!"CSR decoding failed: {e}")
  match validateCsr L csrDer req.auth req.label with
  | .error e => do
    if isForbidden e || isBadRequest e then
      Prog.lift (recordDenied "simpleenroll" req.label.caId req.auth.identity e.display)
    throw e
  | .ok () =>
    if req.label.disconnected.getD app.est.disconnected then queueCsr L app req csrDer
    else enrollChecked L app req csrDer "simpleenroll"

def postSimpleenroll (app : AppState) (req : EstRequest) : Fallible Response := do
  Prog.mapErr id (admitEnrollment req.auth.identity "simpleenroll")
  simpleenroll L app req

/-! ## `/simplereenroll` -/

/-- The second revocation check of a client certificate, where there is one. -/
def recheckRevocation (auth : AuthResult) : Fallible Unit :=
  match auth.clientCertDer with
  | none => pure ()
  | some certDer =>
    Prog.mapErr (fun e => .forbidden s!"client certificate revocation check failed: {e}")
      (request (.checkRevocation certDer))

def simplereenroll (app : AppState) (req : EstRequest) : Fallible Response := do
  let csrDer ← Prog.ofExcept ((decodeEstBase64 L.crypto req.body).mapError
    fun e => .badRequest s!"CSR decoding failed: {e}")
  Prog.ofExcept (refuseIf (csrDer.isEmpty || decide (csrDer.length < 60))
    (.badRequest "CSR is empty or too short"))
  Prog.ofExcept (validatePopLinkingFromCsr L csrDer req.auth)
  recheckRevocation req.auth
  match validateCsr L csrDer req.auth req.label with
  | .error e => do
    Prog.lift (recordDenied "simplereenroll" req.label.caId req.auth.identity e.display)
    throw e
  | .ok () => enrollChecked L app req csrDer "simplereenroll"

def postSimplereenroll (app : AppState) (req : EstRequest) : Fallible Response := do
  Prog.ofExcept (refuseIf (req.auth.method ≠ .mtls)
    (.auth "re-enrollment requires mTLS client certificate authentication"))
  Prog.mapErr id (admitEnrollment req.auth.identity "simplereenroll")
  simplereenroll L app req

/-! ## `/serverkeygen` -/

def multipartBoundary : String := "estServerKeyGenBoundary"

def buildMultipartResponse (certPkcs7 privateKeyPkcs8 : List UInt8) : String :=
  s!"\r\n--{multipartBoundary}\r\n" ++
    s!"Content-Type: {pkcs7Certs}\r\n" ++
    "Content-Transfer-Encoding: base64\r\n" ++
    "\r\n" ++
    encodeEstBase64 L certPkcs7 ++ "\r\n" ++
    s!"--{multipartBoundary}\r\n" ++
    "Content-Type: application/pkcs8\r\n" ++
    "Content-Transfer-Encoding: base64\r\n" ++
    "\r\n" ++
    encodeEstBase64 L privateKeyPkcs8 ++ "\r\n" ++
    s!"--{multipartBoundary}--\r\n"

def multipartResponse (certPkcs7 privateKeyPkcs8 : List UInt8) : Response where
  status := 200
  headers := [("content-type", s!"multipart/mixed; boundary={multipartBoundary}")]
  body := asBytes (buildMultipartResponse L certPkcs7 privateKeyPkcs8)

/-- A CSR for the generated key, with the names and extensions of the template. -/
def buildKeygenCsr (template : List UInt8) (pair : KeyGenResult) :
    Except KipukaError (List UInt8) := do
  let _ ← (L.fromDer template).mapError fun e => .badRequest s!"CSR template parse failed: {e}"
  let subject ← (L.subjectToDer template).mapError fun e => .ca s!"CSR subject encode failed: {e}"
  (L.privateKey pair.privateKeyDer).mapError fun e => .ca s!"failed to load generated key: {e}"
  let extensions ← (Ca.requestedExtensions L.toIssueLib template).mapError
    fun e => .badRequest e.message
  (L.buildCsr subject pair.publicKeyDer extensions pair.privateKeyDer).mapError
    fun e => .ca s!"CSR construction failed: {e}"

def keyTypeDebug : KeyType → String
  | .rsa bits => s!"Rsa({bits})"
  | .ecdsa .p256 => "Ecdsa(P256)"
  | .ecdsa .p384 => "Ecdsa(P384)"
  | .other debug => debug

def softwareKeygen (app : AppState) (req : EstRequest) (csrDer : List UInt8) :
    Fallible Response := do
  let caId := req.label.caId
  let ca ← Prog.ofExcept (findCa app caId)
  let keyType := detectKeyTypeFromCsr L.crypto csrDer
  let pair ← Prog.mapErr (fun e => .ca s!"software key generation failed: {e}")
    (request (.generateKeyPair keyType))
  let newCsr ← Prog.ofExcept (buildKeygenCsr L csrDer pair)
  Prog.ofExcept (findCaConfig app caId)
  resolveSigningKey caId
  let profile ← Prog.lift (caProfile ca)
  let result ← Prog.mapErr
    (fun e => .ca s!"certificate issuance for keygen failed: {e.message}")
    (ask (.sign (.certificate newCsr profile ca)))
  persistCertificate L caId profile.name result
  let pkcs7 ← Prog.ofExcept (L.crypto.certsOnlyPkcs7 result.certificateDer)
  Prog.lift (recordAuditEvent "serverkeygen_success"
    (s!"ca_id={caId}, identity={req.auth.identity}, backend=software, " ++
      s!"key_type={keyTypeDebug keyType}, serial={result.serialNumber}"))
  pure (multipartResponse L pkcs7 pair.privateKeyDer)

def keygenOp : (o : Keygen.Op) → Prog Op Reply (Keygen.Reply o)
  | .admitEnrollment identity operation => admitEnrollment identity operation
  | .recordAuditEvent eventType detail => recordAuditEvent eventType detail
  | .recordAuditEventWithActor eventType actor detail =>
    recordAuditEventWithActor eventType actor detail
  | o => request (.keygen o)

def EstRequest.keygen (req : EstRequest) : KeygenRequest :=
  ⟨req.label.caId, req.auth.identity, req.label.policy, req.body⟩

def AppState.keygenConfig (app : AppState) : KeygenConfig :=
  ⟨app.est.serverkeygen, app.cas.map (·.id), app.dogtag.bind (·.sskgProfileId)⟩

def serverkeygen (app : AppState) (req : EstRequest) (csrDer : List UInt8) : Fallible Response :=
  match app.dogtag with
  | none => softwareKeygen L app req csrDer
  | some _ => do
    let pair ← Prog.interpE keygenOp (Keygen.sskgEnroll L.crypto app.keygenConfig req.keygen csrDer)
    let pkcs7 ← Prog.ofExcept (L.crypto.certsOnlyPkcs7 pair.certDer)
    pure (multipartResponse L pkcs7 pair.privateKeyDer)

def postServerkeygen (app : AppState) (req : EstRequest) : Fallible Response := do
  let csrDer ← Prog.interpE keygenOp (Keygen.admitTemplate L.crypto app.keygenConfig req.keygen)
  serverkeygen L app req csrDer

end Routes

end Kipuka.Enroll
