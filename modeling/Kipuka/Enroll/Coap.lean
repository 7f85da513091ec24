/-
  EST over CoAP (`src/routes/coap.rs`): `CoapEstHandler::handle`, which the server of
  `Kipuka.Coap.Server` calls with a parsed request and the client's DTLS certificate.
-/
import Kipuka.Coap.Server
import Kipuka.Enroll.Est

namespace Kipuka.Enroll

open Generic Auth
open Coap (ClientCertInfo CoapError EstOperation EstResponse HandlerCall)

abbrev CoapFallible (α : Type) : Type := ExceptT CoapError (Prog Op Reply) α

structure AuditInfo where
  eventType : String
  detail : String
  deriving DecidableEq, Repr

structure AuditedResponse where
  response : EstResponse
  audit : AuditInfo
  deriving DecidableEq, Repr

def applicationPkcs7MimeCertsOnly : UInt16 := 281

def applicationCsrattrs : UInt16 := 287

def labelDebug : Option String → String
  | none => "None"
  | some label => "Some(" ++ debugStr label ++ ")"

def coapRuntime : CoapFallible Unit := do
  let available ← Prog.lift (request .currentRuntime)
  Prog.ofExcept (refuseIf (!available) (.internal "CoAP runtime unavailable"))

/-! ## Admission -/

def enrolls : EstOperation → Bool
  | .simpleEnroll | .simpleReenroll | .serverKeygen => true
  | .caCerts | .csrAttrs => false

def knownLabel (app : AppState) (label : Option String) : Except CoapError Unit :=
  match label.filter fun name => !name.isEmpty with
  | none => .ok ()
  | some name => refuseIf (!app.est.labels.any fun entry => entry.name = name)
      (.resourceNotFound s!"unknown EST label: {name}")

def coapAdmission (app : AppState) (call : HandlerCall) : CoapFallible Unit := do
  let cert ← Prog.ofExcept (okOrElse
    (.forbidden "authenticated DTLS client certificate required") call.clientCert)
  Prog.ofExcept (refuseIf ((app.est.labels.find? fun entry => some entry.name = call.label).any
    fun entry => entry.excludes [.mtls, .certificate]) (.forbidden "mTLS not permitted for label"))
  coapRuntime
  Prog.mapErr CoapError.forbidden (request (.checkRevocation cert.derBytes))
  Prog.mapErr (fun e => CoapError.internal e.display) (admitEnrollment cert.subjectDn "coap")

section Handlers

variable (L : EnrollLib)

/-! ## The operations -/

def labelError (label : Option String) : KipukaError → CoapError
  | .notFound => .resourceNotFound s!"unknown EST label: {labelDebug label}"
  | other => .internal s!"label resolution failed: {other.display}"

def resolveLabel (app : AppState) (label : Option String) : CoapFallible LabelExtractor :=
  Prog.mapErr (labelError label) (resolve app label).run

def handleCacerts (app : AppState) (label : Option String) : CoapFallible AuditedResponse := do
  let labelEx ← resolveLabel app label
  let ca ← Prog.ofExcept (okOrElse (.internal s!"CA not found for id={labelEx.caId}")
    (app.getCa labelEx.caId))
  let pkcs7 ← Prog.ofExcept ((L.crypto.certsOnlyPkcs7 ca.certDer).mapError
    fun e => .internal s!"PKCS#7 build failed: {e.display}")
  pure ⟨⟨pkcs7, applicationPkcs7MimeCertsOnly⟩, ⟨"coap_cacerts", s!"ca_id={ca.id}"⟩⟩

def issuanceError (e : Ca.IssuanceError) : CoapError :=
  let msg := s!"certificate issuance failed: {e.message}"
  if e.isClientError then .invalidMessage msg else .internal msg

def handleSimpleenroll (app : AppState) (call : HandlerCall) : CoapFallible AuditedResponse := do
  Prog.ofExcept (refuseIf call.payload.isEmpty (.invalidMessage "empty CSR payload"))
  let labelEx ← resolveLabel app call.label
  let caId := labelEx.caId
  let identity := (call.clientCert.map (·.subjectDn)).getD ""
  Prog.ofExcept ((authorizeCsrDer L.toCsrLib call.payload identity labelEx.policy).mapError
    fun reason => .forbidden s!"enrollment not authorized: {reason}")
  let ca ← Prog.ofExcept (okOrElse (.internal s!"CA not found for id={caId}") (app.getCa caId))
  Prog.ofExcept (refuseIf (!app.caConfigs.contains caId)
    (.internal s!"CA config not found for id={caId}"))
  Prog.mapErr (fun e => .internal s!"signing key resolution failed: {e.display}")
    (request (.resolveSigningKey caId))
  let profile ← Prog.lift (caProfile ca)
  let result ← Prog.mapErr issuanceError (ask (.sign (.certificate call.payload profile ca)))
  coapRuntime
  Prog.mapErr (fun e => .internal e.display) (persistCertificate L caId profile.name result).run
  let pkcs7 ← Prog.ofExcept ((L.crypto.certsOnlyPkcs7 result.certificateDer).mapError
    fun e => .internal s!"PKCS#7 wrap failed: {e.display}")
  pure ⟨⟨pkcs7, applicationPkcs7MimeCertsOnly⟩,
    ⟨"coap_simpleenroll", s!"serial={result.serialNumber} subject={result.subjectDn}"⟩⟩

def handleSimplereenroll (app : AppState) (call : HandlerCall) : CoapFallible AuditedResponse := do
  Prog.ofExcept (refuseIf call.clientCert.isNone
    (.unauthorized "simplereenroll requires DTLS client certificate authentication"))
  let resp ← handleSimpleenroll L app call
  pure { resp with audit := { resp.audit with eventType := "coap_simplereenroll" } }

def handleCsrattrs (app : AppState) (label : Option String) : CoapFallible AuditedResponse := do
  let labelEx ← resolveLabel app label
  let attributes :=
    if labelEx.csrAttributes.isEmpty then app.est.csrAttributes else labelEx.csrAttributes
  let template := labelEx.csrTemplate <|> app.est.csrTemplate
  let der ← Prog.ofExcept ((L.encodeCsrAttrs attributes template).mapError
    fun e => .internal s!"CSR attributes encoding failed: {e.display}")
  let detail := if der.isEmpty then "empty attributes" else s!"{attributes.length} attributes"
  pure ⟨⟨der, applicationCsrattrs⟩, ⟨"coap_csrattrs", detail⟩⟩

def dispatch (app : AppState) (call : HandlerCall) : CoapFallible AuditedResponse :=
  match call.operation with
  | .caCerts => handleCacerts L app call.label
  | .simpleEnroll => handleSimpleenroll L app call
  | .simpleReenroll => handleSimplereenroll L app call
  | .csrAttrs => handleCsrattrs L app call.label
  | .serverKeygen =>
    throw (.internal "server key generation not yet implemented for CoAP transport")

/-! ## Audit events -/

def coapDenialAudit (operation : EstOperation) (err : CoapError) : Option AuditInfo :=
  let denied (eventType : String) : Option AuditInfo :=
    match err with
    | .forbidden msg | .invalidMessage msg => some ⟨eventType, msg⟩
    | _ => none
  match operation with
  | .simpleEnroll => denied "coap_simpleenroll_denied"
  | .simpleReenroll => denied "coap_simplereenroll_denied"
  | _ => none

def coapAudit (operation : EstOperation) : Except CoapError AuditedResponse → Option AuditInfo
  | .ok resp => some resp.audit
  | .error err => coapDenialAudit operation err

def spawnAudit (actor : String) (info : AuditInfo) : Prog Op Reply Unit := do
  let available ← request .currentRuntime
  if available then
    request (.spawnAudit (if actor.isEmpty then auditEvent info.eventType info.detail
      else actorEvent info.eventType actor info.detail))
  else pure ()

def coapFinish (call : HandlerCall) (result : Except CoapError AuditedResponse) :
    CoapFallible EstResponse := do
  match coapAudit call.operation result with
  | some info => do
    Prog.lift (spawnAudit ((call.clientCert.map (·.subjectDn)).getD "") info)
    Prog.ofExcept (result.map (·.response))
  | none => Prog.ofExcept (result.map (·.response))

def coapHandle (app : AppState) (call : HandlerCall) : CoapFallible EstResponse := do
  Prog.ofExcept (knownLabel app call.label)
  if enrolls call.operation then do
    coapAdmission app call
    let result ← Prog.lift (dispatch L app call).run
    coapFinish call result
  else do
    let result ← Prog.lift (dispatch L app call).run
    coapFinish call result

end Handlers

end Kipuka.Enroll
