/-
  Clients that authenticate by a certificate.
-/
import Kipuka.Enroll.CmsEst
import Kipuka.Enroll.Coap

namespace Kipuka.Enroll

open Generic Auth
open Coap (ClientCertInfo)

/-- Two more tags of general names, which only the names of clients are told apart by. -/
def directoryName : Nat := 4

def uniformResourceIdentifier : Nat := 6

section Certificates

variable (L : EnrollLib)

/-! ## What is read of a certificate -/

def extractSubjectDn (certDer : List UInt8) : Option String :=
  if certDer.isEmpty then none
  else do
    let cert ← (L.cms.certificate certDer).toOption
    let dn := L.cms.formatDn cert.subject
    if dn.isEmpty ∨ dn = "<invalid>" then none else some dn

def generalNameText (tag : Nat) (content : List UInt8) : String :=
  if tag = dnsName then (fromUtf8 content).getD "DNS:<invalid UTF-8>"
  else if tag = rfc822Name then (fromUtf8 content).getD "email:<invalid UTF-8>"
  else if tag = uniformResourceIdentifier then (fromUtf8 content).getD "URI:<invalid UTF-8>"
  else if tag = directoryName then "DirName:" ++ L.cms.formatDn content
  else
    match (sanIp content).filter fun _ => tag = ipAddress with
    | some ip => ip.display
    | none => s!"GeneralName(tag={tag})"

def extensionValue (certDer : List UInt8) (oid : List Nat) : Option (List UInt8) := do
  let cert ← (L.cms.certificate certDer).toOption
  let exts ← cert.extensions
  L.cms.findExtensionValue exts oid

def extractSubjectAltNames (certDer : List UInt8) : List String :=
  match extensionValue L certDer subjectAltName with
  | none => []
  | some san => (L.parseGeneralNames san).map fun name => generalNameText L name.1 name.2

def extractExtendedKeyUsage (certDer : List UInt8) : List String :=
  match extensionValue L certDer extendedKeyUsageOid with
  | none => []
  | some eku => L.extendedKeyUsageOids eku

/-- The certificate has the extended key usage of a CMC registration authority. -/
def CarriesCmcRa (certDer : List UInt8) : Prop := cmcRaEkuOid ∈ extractExtendedKeyUsage L certDer

/-! ## TLS -/

def mtlsClient (certDer : List UInt8) : AuthResult where
  identity := ((extractSubjectAltNames L certDer).head? <|> extractSubjectDn L certDer).getD "unknown"
  method := .mtls
  clientCertDer := some certDer
  subjectDn := extractSubjectDn L certDer
  extendedKeyUsage := extractExtendedKeyUsage L certDer

def tryExtractMtls (certDer : List UInt8) : Prog Op Reply (Option AuthResult) := do
  let checked ← request (.checkRevocation certDer)
  pure (checked.toOption.map fun _ => mtlsClient L certDer)

def estAuth (app : AppState) (label : LabelExtractor) (certDer : List UInt8) :
    Fallible AuthResult :=
  if (app.est.labels.find? fun entry => entry.name = label.label).any
      fun entry => entry.excludes [.mtls, .certificate] then
    throw (.auth "no valid credentials provided")
  else do
    let client ← Prog.lift (tryExtractMtls L certDer)
    Prog.ofExcept (okOrElse (.auth "no valid credentials provided") client)

/-- A request over HTTP by the holder of a certificate, as its handler is called. The label that
    the authentication resolves stays in the extensions of the request, where the handler's own
    extractor finds it. -/
def httpRequest (app : AppState) (labelName : Option String) (certDer body : List UInt8)
    (handler : EstRequest → Fallible Response) : Fallible Response := do
  let label ← resolve app labelName
  let auth ← estAuth L app label certDer
  handler ⟨auth, label, body⟩

/-! ## DTLS -/

def clientCertInfo (certDer : List UInt8) : Option ClientCertInfo :=
  ClientCertInfo.fromDer (fun der => (L.cms.certificate der).toOption.map fun cert =>
    (L.cms.formatDn cert.subject, cert.serialNumber)) certDer

end Certificates

/-! ## The client of a request -/

section Extraction

variable {L : EnrollLib} {app : AppState} {P : Op → Prop} {certDer : List UInt8}

theorem hasCmcRaEku_mtlsClient :
    (mtlsClient L certDer).hasCmcRaEku = true ↔ CarriesCmcRa L certDer := by
  refine List.any_eq_true.trans ⟨?_, fun hmem => ⟨_, hmem, decide_eq_true rfl⟩⟩
  rintro ⟨oid, hmem, hoid⟩
  obtain rfl := of_decide_eq_true hoid
  exact hmem

variable {labelName : Option String} {h : List (Answered Op Reply)}

theorem ended_resolve
    {label : LabelExtractor} (hend : Ended (resolve app labelName).run h (.ok label)) :
    ((labelName.filter fun name => !name.isEmpty) = none ∧ label = app.defaultLabel) ∨
      ∃ name config caId, (labelName.filter fun name => !name.isEmpty) = some name ∧
        (app.est.labels.find? fun entry => entry.name = name) = some config ∧
        label = ⟨name, caId, config.policy, config.csrAttributes, config.csrTemplate,
          config.maxValidityDays, config.disconnected⟩ := by
  unfold resolve at hend
  cases hname : labelName.filter fun name => !name.isEmpty with
  | none =>
    simp only [hname] at hend
    obtain ⟨-, hlabel⟩ := ended_pure.mp hend
    exact .inl ⟨rfl, (Except.ok.inj hlabel).symm⟩
  | some name =>
    simp only [hname] at hend
    obtain ⟨_, _, config, -, hconfig, hrest⟩ := ended_seq_ok.mp hend
    obtain ⟨_, _, caId, -, -, hrest⟩ := ended_seq_ok.mp hrest
    obtain ⟨_, _, _, -, -, hrest⟩ := ended_seq_ok.mp hrest
    obtain ⟨-, hlabel⟩ := ended_pure.mp hrest
    obtain ⟨-, hfound⟩ := ended_ofExcept.mp hconfig
    exact .inr ⟨name, config, caId, rfl, okOrElse_eq_ok.mp hfound, (Except.ok.inj hlabel).symm⟩

theorem ended_estAuth {label : LabelExtractor} {auth : AuthResult}
    (hend : Ended (estAuth L app label certDer).run h (.ok auth)) :
    auth = mtlsClient L certDer := by
  unfold estAuth at hend
  split at hend
  · cases (ended_throw.mp hend).2
  · obtain ⟨_, _, client, -, hclient, hrest⟩ := ended_seq_ok.mp hend
    obtain ⟨-, hauth⟩ := ended_ofExcept.mp hrest
    obtain ⟨_, hextract, ⟨⟩⟩ := ended_lift.mp hclient
    obtain ⟨_, _, checked, -, -, hret⟩ := ended_bind.mp hextract
    obtain ⟨-, rfl⟩ := ended_ret.mp hret
    obtain ⟨_, -, rfl⟩ := Option.map_eq_some_iff.mp (okOrElse_eq_ok.mp hauth)
    rfl

theorem only_resolve (hpool : ∀ pool, P (.outside (.selectAllowed pool))) (labelName : Option String) :
    Only P (resolve app labelName).run := by
  unfold resolve
  split
  · trivial
  · refine only_ofExcept fun config _ => only_seq ?_ fun caId => only_ofExcept fun _ _ => trivial
    unfold labelCa
    split
    · trivial
    · exact only_seq (only_lift (only_op (hpool _))) fun _ => trivial

theorem only_estAuth (hcheck : ∀ der, P (.outside (.checkRevocation der)))
    (label : LabelExtractor) (certDer : List UInt8) :
    Only P (estAuth L app label certDer).run := by
  unfold estAuth
  split
  · trivial
  · refine only_seq (only_lift (only_bind (only_op (hcheck _)) fun _ => trivial)) fun _ => ?_
    trivial

end Extraction

end Kipuka.Enroll
