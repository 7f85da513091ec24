/-
  Authorization over two transports: the same certificate and CSR over HTTP with mutual TLS, and over
  CoAP with DTLS.

  Both derive the name of the client in code of their own. HTTP takes the first subject alternative
  name, then the subject; CoAP takes the subject as it is formatted. And only HTTP links a
  re-enrollment to the subject of the certificate.

  * `passes_http_simpleenroll` … `passes_coap_simplereenroll`: what each route takes to get to the
    signer, exactly.
  * `transport_parity_iff`: the transports agree on a request exactly if its authorization comes out
    the same under both names, and, for a re-enrollment, with the link to the subject on the side of
    HTTP.
  * `permitted_iff`: for that it is enough that the label binds no identity, or that both names are
    the same, as they are without subject alternative names (`identity_of_no_sans`).

  With direct signing, outside disconnected mode, and for certificates that both transports take.
  HTTP also checks the CSR itself before it is authorized, which CoAP leaves to the issuer:
  `CsrSound` is that part of its checks.
-/
import Kipuka.Enroll.Disconnected
import Kipuka.Enroll.Passes

namespace Kipuka.Enroll

open Generic Auth
open Coap (ClientCertInfo CoapError EstOperation HandlerCall)
open Keygen (decodeEstBase64)

variable {α β ε : Type}

/-! ## HTTP -/

/-- The checks of HTTP on a CSR that are no authorization. -/
structure CsrSound (L : EnrollLib) (csrDer : List UInt8) : Prop where
  length : 60 ≤ csrDer.length
  parses : ∃ csr, L.fromDer csrDer = .ok csr
  cri : ∃ der, L.criToDer csrDer = .ok der
  signatureAlgorithm : ∃ der, L.signatureAlgorithmToDer csrDer = .ok der
  spki : ∃ der, L.spkiToDer csrDer = .ok der
  signature : L.verifySignature csrDer = .ok ()
  key : checkKeyInfo (L.publicKey csrDer).info = .ok ()

variable {label : LabelExtractor} {body : List UInt8}

section Http

variable {L : EnrollLib} {app : AppState} {labelName : Option String} {certDer csrDer : List UInt8}

theorem authorizeCsrDer_of_parses {C : CsrLib} {csr : Csr} (h : C.fromDer csrDer = .ok csr)
    (identity : String) (policy : EnrollAuthzPolicy) :
    authorizeCsrDer C csrDer identity policy = authorizeCsr C csr identity policy := by
  unfold authorizeCsrDer
  rw [h]
  split
  · next hnoop =>
    unfold authorizeCsr
    rw [if_pos hnoop]
  · rfl

theorem validateCsr_eq_ok {auth : AuthResult} :
    validateCsr L csrDer auth label = .ok () ↔
      CsrSound L csrDer ∧ Authorized L csrDer auth.identity label := by
  unfold validateCsr Authorized
  rw [refuseIf_bind_eq_ok, refuseIf_bind_eq_ok]
  simp only [except_bind_eq_ok, mapError_eq_ok]
  constructor
  · rintro ⟨-, hlength, csr, hcsr, cri, hcri, alg, halg, spki, hspki, ⟨⟩, hsig, ⟨⟩, hauth, hkey⟩
    refine ⟨⟨?_, ⟨csr, hcsr⟩, ⟨cri, hcri⟩, ⟨alg, halg⟩, ⟨spki, hspki⟩, hsig, hkey⟩, ?_⟩
    · exact Nat.le_of_not_lt (of_decide_eq_false hlength)
    · rw [authorizeCsrDer_of_parses hcsr]
      exact hauth
  · rintro ⟨⟨hlength, ⟨csr, hcsr⟩, ⟨cri, hcri⟩, ⟨alg, halg⟩, ⟨spki, hspki⟩, hsig, hkey⟩, hauth⟩
    rw [authorizeCsrDer_of_parses hcsr] at hauth
    refine ⟨?_, decide_eq_false (Nat.not_lt.mpr hlength), csr, hcsr, cri, hcri, alg, halg, spki, hspki,
      (), hsig, (), hauth, hkey⟩
    cases csrDer with
    | nil => exact absurd hlength (by decide)
    | cons b bs => rfl

variable {req : EstRequest} {operation : String}

theorem passes_signDirect :
    Passes (signDirect L app req csrDer operation).run ↔ CaReady app req.label.caId := by
  unfold signDirect findCa findCaConfig
  exact passes_atCa fun ca profile => makes_call (.error (.signingError "")) rfl

theorem passes_enrollChecked (hdirect : app.dogtag = none) :
    Passes (enrollChecked L app req csrDer operation).run ↔ CaReady app req.label.caId := by
  have hown : enrollChecked L app req csrDer operation = signDirect L app req csrDer operation := by
    unfold enrollChecked enrollWithDogtag
    rw [hdirect]
    rfl
  rw [hown]
  exact passes_signDirect

theorem passes_validated {e : KipukaError → Fallible Response} {ok : Fallible Response}
    (he : ∀ err, SignsNothing (e err).run) (hok : Passes ok.run ↔ CaReady app req.label.caId) :
    Passes (match validateCsr L csrDer req.auth req.label with
      | .error err => e err
      | .ok () => ok).run ↔
    CsrSound L csrDer ∧ Authorized L csrDer req.auth.identity req.label ∧
      CaReady app req.label.caId := by
  rw [← and_assoc, ← validateCsr_eq_ok]
  cases hvalid : validateCsr L csrDer req.auth req.label with
  | error err => exact ⟨fun h => absurd h (not_passes (he err)), fun h => by cases h.1⟩
  | ok u => exact ⟨fun h => ⟨rfl, hok.mp h⟩, fun h => hok.mpr h.2⟩

theorem passes_postSimpleenroll (hdirect : app.dogtag = none)
    (hmode : req.label.disconnected.getD app.est.disconnected = false)
    (hbody : decodeEstBase64 L.crypto req.body = .ok csrDer) :
    Passes (postSimpleenroll L app req).run ↔ CsrSound L csrDer ∧
      Authorized L csrDer req.auth.identity req.label ∧ CaReady app req.label.caId := by
  have hadmit : Ended (admitEnrollment req.auth.identity "simpleenroll") _ (.ok ()) :=
    ended_op.mpr rfl
  unfold postSimpleenroll
  rw [passes_mapErr_op (routine_admitEnrollment _ _).signsNothing hadmit]
  unfold simpleenroll
  rw [hbody]
  refine passes_validated (fun err => ?_) ?_
  · exact (routine_denied (routine_recordDenied _ _ _ _) _ err).signsNothing
  · rw [if_neg (by rw [hmode]; exact Bool.false_ne_true)]
    exact passes_enrollChecked hdirect

/-- The CSR has the subject of the client's certificate. -/
def PopLinked (L : EnrollLib) (csrDer : List UInt8) (auth : AuthResult) : Prop :=
  validatePopLinkingFromCsr L csrDer auth = .ok ()

theorem ended_recheckRevocation (auth : AuthResult) :
    ∃ h, Ended (recheckRevocation auth).run h (.ok ()) := by
  unfold recheckRevocation
  split
  · exact ⟨[], .start _⟩
  · exact ⟨_, ended_mapErr.mpr ⟨.ok (), ended_op.mpr rfl, rfl⟩⟩

theorem passes_postSimplereenroll (hdirect : app.dogtag = none) (hmtls : req.auth.method = .mtls)
    (hbody : decodeEstBase64 L.crypto req.body = .ok csrDer) :
    Passes (postSimplereenroll L app req).run ↔ PopLinked L csrDer req.auth ∧ CsrSound L csrDer ∧
      Authorized L csrDer req.auth.identity req.label ∧ CaReady app req.label.caId := by
  have hadmit : Ended (admitEnrollment req.auth.identity "simplereenroll") _ (.ok ()) :=
    ended_op.mpr rfl
  unfold postSimplereenroll
  rw [hmtls]
  refine (passes_mapErr_op (routine_admitEnrollment _ _).signsNothing hadmit).trans ?_
  unfold simplereenroll
  rw [hbody]
  -- a sound CSR is long enough, so the check of its length says nothing new
  have hlong : CsrSound L csrDer → (csrDer.isEmpty || decide (csrDer.length < 60)) = false := by
    intro hsound
    have hlength := hsound.length
    cases csrDer with
    | nil => exact absurd hlength (by decide)
    | cons b bs => exact decide_eq_false (Nat.not_lt.mpr hlength)
  refine passes_check.trans ((and_congr refuseIf_eq_ok (passes_check.trans (and_congr_right
    fun _ => ?_))).trans (and_iff_right_of_imp fun h => hlong h.2.1))
  have hrecheck := (routine_recheckRevocation req.auth).signsNothing
  refine (passes_after hrecheck (ended_recheckRevocation req.auth)).trans ?_
  refine passes_validated (fun err => ?_) (passes_enrollChecked hdirect)
  exact only_seq (only_lift (routine_recordDenied _ _ _ _).signsNothing) fun _ => trivial

end Http

/-! ## CoAP -/

def coapRequest (L : EnrollLib) (operation : EstOperation) (labelName : Option String)
    (certDer csrDer : List UInt8) (contentFormat : Option UInt16) : HandlerCall :=
  ⟨operation, labelName, csrDer, contentFormat, clientCertInfo L certDer⟩

/-- The name of a client over CoAP. -/
def coapIdentity (L : EnrollLib) (certDer : List UInt8) : String :=
  ((clientCertInfo L certDer).map (·.subjectDn)).getD ""

/-- With some answers, the client of a CoAP request is let in. -/
def Admitted (app : AppState) (call : HandlerCall) : Prop :=
  knownLabel app call.label = .ok () ∧ ∃ h, Ended (coapAdmission app call).run h (.ok ())

section Coap

variable {L : EnrollLib} {app : AppState} {labelName : Option String} {certDer csrDer : List UInt8}

theorem ended_resolveLabel : Ended (resolveLabel app labelName).run h (.ok label) ↔
      Ended (resolve app labelName).run h (.ok label) := by
  unfold resolveLabel
  rw [ended_mapErr]
  constructor
  · rintro ⟨r, hend, hr⟩
    obtain rfl := mapError_eq_ok.mp hr
    exact hend
  · exact fun hend => ⟨_, hend, rfl⟩

variable {call : HandlerCall}

theorem Admitted.cert (h : Admitted app call) : call.clientCert.isNone = false := by
  obtain ⟨-, h, hend⟩ := h
  obtain ⟨_, _, cert, -, hcert, -⟩ := ended_seq_ok.mp hend
  rw [okOrElse_eq_ok.mp (ended_ofExcept.mp hcert).2]
  rfl

theorem passes_handleSimpleenroll (call : HandlerCall) :
    Passes (handleSimpleenroll L app call).run ↔ call.payload ≠ [] ∧
      ∃ label, Resolves app call.label label ∧
        Authorized L call.payload ((call.clientCert.map (·.subjectDn)).getD "") label ∧
        CaReady app label.caId := by
  have hresolve : SignsNothing (resolveLabel app call.label).run :=
    only_mapErr (signsNothing_resolve app call.label)
  unfold handleSimpleenroll
  refine passes_check.trans (and_congr (refuseIf_eq_ok.trans List.isEmpty_eq_false_iff) ?_)
  refine (passes_seq hresolve).trans (exists_congr fun label => and_congr ?_ ?_)
  · exact exists_congr fun h => ended_resolveLabel
  · refine passes_check.trans (and_congr mapError_eq_ok ?_)
    exact passes_atCa fun ca profile => makes_call (.error (.signingError "")) rfl

theorem passes_handleSimplereenroll (call : HandlerCall) :
    Passes (handleSimplereenroll L app call).run ↔
      call.clientCert.isNone = false ∧ Passes (handleSimpleenroll L app call).run := by
  have hrest : Passes (handleSimpleenroll L app call >>= fun resp => pure
      { resp with audit := { resp.audit with eventType := "coap_simplereenroll" } }).run ↔
        Passes (handleSimpleenroll L app call).run := passes_seq_of_quiet fun _ => trivial
  unfold handleSimplereenroll
  exact passes_check.trans (and_congr refuseIf_eq_ok hrest)

theorem passes_coapHandle (hop : enrolls call.operation = true) :
    Passes (coapHandle L app call).run ↔ Admitted app call ∧ Passes (dispatch L app call).run := by
  have hadmission : SignsNothing (coapAdmission app call).run :=
    (routine_coapAdmission app call).signsNothing
  have hrest : Passes (Prog.lift (dispatch L app call).run >>= coapFinish call).run ↔
      Passes (dispatch L app call).run :=
    (passes_seq_of_quiet fun result => (routine_coapFinish call result).signsNothing).trans makes_lift
  unfold coapHandle
  rw [if_pos hop]
  rw [Admitted, and_assoc, ← hrest]
  refine passes_check.trans (and_congr_right fun _ => (passes_seq hadmission).trans ?_)
  exact ⟨fun ⟨_, h⟩ => h, fun h => ⟨(), h⟩⟩

end Coap

/-! ## Both -/

/-- The policy of the label under a name. -/
def AppState.policyAt (app : AppState) (labelName : Option String) : EnrollAuthzPolicy :=
  match labelName.filter fun name => !name.isEmpty with
  | none => app.defaultLabel.policy
  | some name =>
    ((app.est.labels.find? fun label => label.name = name).map (·.policy)).getD
      app.defaultLabel.policy

theorem policy_resolve {app : AppState} {labelName : Option String}
    (h : Resolves app labelName label) : label.policy = app.policyAt labelName := by
  obtain ⟨_, hresolve⟩ := h
  unfold AppState.policyAt
  rcases ended_resolve hresolve with ⟨hname, rfl⟩ | ⟨name, config, caId, hname, hconfig, rfl⟩
  · simp only [hname]
  · simp only [hname, hconfig]
    rfl

/-- The names of a CSR must be those of the client. -/
def bindsIdentity (policy : EnrollAuthzPolicy) : Bool :=
  policy.requireCnMatch || policy.requireSanMatch

variable {C : CsrLib}

theorem authorizeCsrDer_unbound {policy : EnrollAuthzPolicy}
    (h : bindsIdentity policy = false) (csrDer : List UInt8) (identity identity' : String) :
    authorizeCsrDer C csrDer identity policy = authorizeCsrDer C csrDer identity' policy := by
  obtain ⟨hcn, hsan⟩ := (Bool.or_eq_false_iff).mp h
  have hnames : ∀ cn sans, checkNames cn sans identity policy =
      checkNames cn sans identity' policy := by
    intro cn sans
    simp only [checkNames, hcn, hsan, Bool.or_self, Bool.false_and]
    rfl
  unfold authorizeCsrDer authorizeCsr
  simp only [hnames]

section Both

variable {L : EnrollLib} {app : AppState} {labelName : Option String} {certDer csrDer : List UInt8}

theorem identity_of_no_sans {dn : String} (hsans : extractSubjectAltNames L certDer = [])
    (hdn : extractSubjectDn L certDer = some dn) :
    (mtlsClient L certDer).identity = coapIdentity L certDer := by
  have hhttp : (mtlsClient L certDer).identity = dn := by
    simp [mtlsClient, hsans, hdn]
  rw [hhttp]
  unfold extractSubjectDn at hdn
  split at hdn
  · cases hdn
  · obtain ⟨cert, hcert, hdn⟩ := Option.bind_eq_some_iff.mp hdn
    dsimp only at hdn
    split at hdn
    · cases hdn
    · simp only [coapIdentity, clientCertInfo, ClientCertInfo.fromDer, hcert]
      exact (Option.some.inj hdn).symm

/-- The CSR is authorized for a client of that name under the label. -/
def Permitted (L : EnrollLib) (app : AppState) (labelName : Option String) (csrDer : List UInt8)
    (identity : String) : Prop :=
  authorizeCsrDer L.toCsrLib csrDer identity (app.policyAt labelName) = .ok ()

theorem permitted_iff (hidentity : bindsIdentity (app.policyAt labelName) = true →
      (mtlsClient L certDer).identity = coapIdentity L certDer) :
    Permitted L app labelName csrDer (mtlsClient L certDer).identity ↔
      Permitted L app labelName csrDer (coapIdentity L certDer) := by
  unfold Permitted
  cases hbinds : bindsIdentity (app.policyAt labelName) with
  | true => rw [hidentity hbinds]
  | false => rw [authorizeCsrDer_unbound hbinds csrDer _ (coapIdentity L certDer)]

/-- With some choice from its pool, the label has a CA that is loaded and configured. -/
def Servable (app : AppState) (labelName : Option String) : Prop :=
  ∃ label, Resolves app labelName label ∧ CaReady app label.caId

theorem permitted_servable {identity : String} :
    (∃ label, Resolves app labelName label ∧ Authorized L csrDer identity label ∧
      CaReady app label.caId) ↔
    Permitted L app labelName csrDer identity ∧ Servable app labelName := by
  rw [Servable, ← exists_and_left]
  refine exists_congr fun label => ?_
  rw [and_left_comm]
  exact and_congr_left fun hlabel => by rw [Authorized, Permitted, policy_resolve hlabel.1]

section Http

variable (hdirect : app.dogtag = none) (hbody : decodeEstBase64 L.crypto body = .ok csrDer)
  (hhttp : ∀ label, Resolves app labelName label → Authenticated L app label certDer)

include hdirect hbody hhttp

theorem passes_http_simpleenroll (hmode : app.disconnectedAt labelName = false) :
    Passes (httpRequest L app labelName certDer body (postSimpleenroll L app)).run ↔
      CsrSound L csrDer ∧ Permitted L app labelName csrDer (mtlsClient L certDer).identity ∧
        Servable app labelName := by
  rw [← permitted_servable, ← exists_and_left]
  refine passes_httpRequest.trans (exists_congr fun label => ?_)
  rw [and_left_comm (a := CsrSound L csrDer)]
  refine and_congr_right fun hlabel => (and_iff_right (hhttp label hlabel)).trans ?_
  obtain ⟨h, hresolve⟩ := hlabel
  exact passes_postSimpleenroll hdirect ((disconnectedFor_resolve hresolve).trans hmode) hbody

theorem passes_http_simplereenroll :
    Passes (httpRequest L app labelName certDer body (postSimplereenroll L app)).run ↔
      CsrSound L csrDer ∧ PopLinked L csrDer (mtlsClient L certDer) ∧
        Permitted L app labelName csrDer (mtlsClient L certDer).identity ∧
        Servable app labelName := by
  rw [← permitted_servable, ← exists_and_left, ← exists_and_left]
  refine passes_httpRequest.trans (exists_congr fun label => ?_)
  rw [and_left_comm (a := PopLinked L csrDer _), and_left_comm (a := CsrSound L csrDer)]
  refine and_congr_right fun hlabel => (and_iff_right (hhttp label hlabel)).trans ?_
  exact (passes_postSimplereenroll hdirect rfl hbody).trans and_left_comm

end Http

variable {contentFormat : Option UInt16}

section Coap

variable (hcoap : ∀ operation,
  Admitted app (coapRequest L operation labelName certDer csrDer contentFormat))

include hcoap

theorem passes_coap_simpleenroll : Passes (coapHandle L app
        (coapRequest L .simpleEnroll labelName certDer csrDer contentFormat)).run ↔
      csrDer ≠ [] ∧ Permitted L app labelName csrDer (coapIdentity L certDer) ∧
        Servable app labelName := by
  rw [passes_coapHandle rfl, and_iff_right (hcoap _), ← permitted_servable]
  exact passes_handleSimpleenroll _

theorem passes_coap_simplereenroll : Passes (coapHandle L app
        (coapRequest L .simpleReenroll labelName certDer csrDer contentFormat)).run ↔
      csrDer ≠ [] ∧ Permitted L app labelName csrDer (coapIdentity L certDer) ∧
        Servable app labelName := by
  rw [passes_coapHandle rfl, and_iff_right (hcoap _), ← permitted_servable]
  refine Iff.trans (passes_handleSimplereenroll _) ?_
  rw [passes_handleSimpleenroll]
  exact and_iff_right (hcoap .simpleReenroll).cert

end Coap

theorem CsrSound.ne_nil (hsound : CsrSound L csrDer) : csrDer ≠ [] := by
  rintro rfl
  exact absurd hsound.length (by decide)

/-- For the holder of a certificate that both transports take, with direct signing and outside
    disconnected mode:

    * over HTTP a sound CSR gets to the signer exactly if it does over CoAP, if and only if it is
      authorized under both names of the client or under none, where there is a CA to sign it;
    * for a re-enrollment, that it is authorized over HTTP also means that the CSR has the subject
      of the certificate. -/
theorem transport_parity_iff {body : List UInt8} {contentFormat : Option UInt16}
    (hdirect : app.dogtag = none) (hmode : app.disconnectedAt labelName = false)
    (hbody : decodeEstBase64 L.crypto body = .ok csrDer)
    (hhttp : ∀ label, Resolves app labelName label → Authenticated L app label certDer)
    (hcoap : ∀ operation,
      Admitted app (coapRequest L operation labelName certDer csrDer contentFormat)) :
    ((Passes (httpRequest L app labelName certDer body (postSimpleenroll L app)).run ↔
        CsrSound L csrDer ∧ Passes (coapHandle L app
          (coapRequest L .simpleEnroll labelName certDer csrDer contentFormat)).run) ↔
      (CsrSound L csrDer → Servable app labelName →
        (Permitted L app labelName csrDer (mtlsClient L certDer).identity ↔
          Permitted L app labelName csrDer (coapIdentity L certDer)))) ∧
    ((Passes (httpRequest L app labelName certDer body (postSimplereenroll L app)).run ↔
        CsrSound L csrDer ∧ Passes (coapHandle L app
          (coapRequest L .simpleReenroll labelName certDer csrDer contentFormat)).run) ↔
      (CsrSound L csrDer → Servable app labelName →
        (PopLinked L csrDer (mtlsClient L certDer) ∧
            Permitted L app labelName csrDer (mtlsClient L certDer).identity ↔
          Permitted L app labelName csrDer (coapIdentity L certDer)))) := by
  rw [passes_http_simpleenroll hdirect hbody hhttp hmode,
    passes_http_simplereenroll hdirect hbody hhttp, passes_coap_simpleenroll hcoap,
    passes_coap_simplereenroll hcoap]
  have hnonempty : CsrSound L csrDer → csrDer ≠ [] := CsrSound.ne_nil
  tauto

end Both

/-! ### A certificate of `CN=alice` -/

def clientLib (san : Option String) (csrName : String) : EnrollLib :=
  { aliceLib.toEnrollLib with
    fromDer := fun _ => .ok ⟨[[cnAttr csrName]], none⟩
    parseGeneralNames := fun names => [(dnsName, names.drop 4)]
    subjectToDer := fun _ => .ok [0x02]
    crypto := { aliceLib.crypto with
      csr := { aliceLib.toCsrLib with
        fromDer := fun _ => .ok ⟨[[cnAttr csrName]], none⟩
        parseGeneralNames := fun names => [(dnsName, names.drop 4)] } }
    crypto_csr := rfl
    cms := { aliceLib.cms with
      certificate := fun _ => .ok ⟨[], [0x07], [0x01], .ok 0, .ok 0,
        san.map fun name => Replay.tlv 0x30 (Replay.tlv 0x82 (asBytes name)), []⟩
      formatDn := fun name => if name = [0x01] then "CN=alice" else "CN=" ++ csrName
      findExtensionValue := fun exts oid => if oid = subjectAltName then some exts else none } }

def strictApp : AppState :=
  { plainApp with est := { plainApp.est with
    labels := [⟨"strict", none, [], [], [], none, ⟨true, false, [], [], []⟩, none, none⟩] } }

def someCsr : List UInt8 := List.replicate 60 0x41

theorem decode_someCsr (san : Option String) (csrName : String) :
    decodeEstBase64 (clientLib san csrName).crypto someCsr = .ok someCsr := rfl

abbrev overHttp (L : EnrollLib) (labelName : Option String)
    (handler : EnrollLib → AppState → EstRequest → Fallible Response) :
    Prog Op Reply (Except KipukaError Response) :=
  (httpRequest L strictApp labelName [0x30] someCsr (handler L strictApp)).run

abbrev overCoap (L : EnrollLib) (labelName : Option String) (operation : EstOperation) :
    Prog Op Reply (Except CoapError Coap.EstResponse) :=
  (coapHandle L strictApp (coapRequest L operation labelName [0x30] someCsr none)).run

theorem passes_of_any (h : (p.playBy nothingFails).1.any (fun call => call.1.signs) = true) :
    Passes p :=
  ⟨_, _, plays_playBy nothingFails p, List.any_eq_true.mp h⟩

/-- The CSR is sound, and both transports take the client. -/
structure TakenByBoth (L : EnrollLib) (labelName : Option String) : Prop where
  sound : CsrSound L someCsr
  http : ∀ label, Resolves strictApp labelName label → Authenticated L strictApp label [0x30]
  coap : ∀ operation, Admitted strictApp (coapRequest L operation labelName [0x30] someCsr none)

theorem authenticated_strictApp (L : EnrollLib) (label : LabelExtractor) :
    Authenticated L strictApp label [0x30] := by
  have hallowed : ¬ (strictApp.est.labels.find? fun entry => entry.name = label.label).any
      (fun entry => entry.excludes [.mtls, .certificate]) = true := by
    rw [Option.any_eq_true]
    rintro ⟨entry, hentry, hexcludes⟩
    obtain rfl := List.mem_singleton.mp (List.mem_of_find?_eq_some hentry)
    exact absurd hexcludes (by decide)
  refine ⟨[⟨.outside (.checkRevocation [0x30]), .ok ()⟩], mtlsClient L [0x30], ?_⟩
  unfold estAuth
  rw [if_neg hallowed]
  exact .call _ _ _ (.start _)

theorem takenByBoth (san : Option String) (csrName : String) {labelName : Option String}
    (hlabel : labelName ∈ [some "strict", none]) : TakenByBoth (clientLib san csrName) labelName := by
  refine ⟨⟨by decide, ⟨_, rfl⟩, ⟨_, rfl⟩, ⟨_, rfl⟩, ⟨_, rfl⟩, rfl, rfl⟩,
    fun label _ => authenticated_strictApp _ label, fun operation => ?_⟩
  rcases List.mem_pair.mp hlabel with rfl | rfl
  · exact ⟨rfl, _, ended_playBy nothingFails rfl⟩
  · exact ⟨rfl, _, ended_playBy nothingFails rfl⟩

/-- Under `strict`, a certificate with the DNS name `device.example` gets a CSR for that name signed
    over HTTP only, and one whose common name reads `CN=alice` over CoAP only. Over CoAP it also
    re-enrolls for another subject. -/
theorem transport_disparity :
    (TakenByBoth (clientLib (some "device.example") "device.example") (some "strict") ∧
      Passes (overHttp (clientLib (some "device.example") "device.example") (some "strict")
        postSimpleenroll) ∧
      ¬ Passes (overCoap (clientLib (some "device.example") "device.example") (some "strict")
        .simpleEnroll)) ∧
    (TakenByBoth (clientLib (some "device.example") "CN=alice") (some "strict") ∧
      ¬ Passes (overHttp (clientLib (some "device.example") "CN=alice") (some "strict")
        postSimpleenroll) ∧
      Passes (overCoap (clientLib (some "device.example") "CN=alice") (some "strict")
        .simpleEnroll)) ∧
    TakenByBoth (clientLib none "mallory") none ∧
      ¬ Passes (overHttp (clientLib none "mallory") none postSimplereenroll) ∧
      Passes (overCoap (clientLib none "mallory") none .simpleReenroll) := by
  have hdevice := takenByBoth (some "device.example") "device.example" List.mem_cons_self
  have halice := takenByBoth (some "device.example") "CN=alice" List.mem_cons_self
  have hmallory := takenByBoth none "mallory" (List.mem_cons_of_mem _ List.mem_cons_self)
  refine ⟨⟨hdevice, passes_of_any (by decide +kernel), ?_⟩,
    ⟨halice, ?_, passes_of_any (by decide +kernel)⟩, hmallory, ?_, passes_of_any (by decide +kernel)⟩
  · rw [passes_coap_simpleenroll hdevice.coap]
    rintro ⟨-, hpermitted, -⟩
    exact absurd hpermitted (by unfold Permitted; decide +kernel)
  · rw [passes_http_simpleenroll rfl (decode_someCsr _ _) halice.http rfl]
    rintro ⟨-, hpermitted, -⟩
    exact absurd hpermitted (by unfold Permitted; decide +kernel)
  · rw [passes_http_simplereenroll rfl (decode_someCsr _ _) hmallory.http]
    rintro ⟨-, hpop, -⟩
    exact absurd hpop (by unfold PopLinked; decide +kernel)

/-- Without a DNS name both transports name the client `CN=alice`; re-enrollment keeps the
    subject. -/
theorem transport_parity_alice :
    (Passes (overHttp (clientLib none "CN=alice") (some "strict") postSimpleenroll) ∧
      Passes (overCoap (clientLib none "CN=alice") (some "strict") .simpleEnroll)) ∧
    Passes (overHttp (clientLib none "alice") none postSimplereenroll) ∧
      Passes (overCoap (clientLib none "alice") none .simpleReenroll) := by
  have hstrict := takenByBoth none "CN=alice" List.mem_cons_self
  have hplain := takenByBoth none "alice" (List.mem_cons_of_mem _ List.mem_cons_self)
  have hsame : ∀ csrName labelName, Permitted (clientLib none csrName) strictApp labelName someCsr
      (mtlsClient (clientLib none csrName) [0x30]).identity ↔
        Permitted (clientLib none csrName) strictApp labelName someCsr
          (coapIdentity (clientLib none csrName) [0x30]) :=
    fun _ _ => permitted_iff fun _ => identity_of_no_sans rfl rfl
  have hpop : PopLinked (clientLib none "alice") someCsr (mtlsClient (clientLib none "alice") [0x30]) :=
    by unfold PopLinked; decide +kernel
  have henroll := (transport_parity_iff rfl rfl (decode_someCsr none "CN=alice") hstrict.http
    hstrict.coap).1.mpr fun _ _ => hsame _ _
  have hreenroll := (transport_parity_iff rfl rfl (decode_someCsr none "alice") hplain.http
    hplain.coap).2.mpr fun _ _ => (and_iff_right hpop).trans (hsame _ _)
  have hhttp : Passes (overHttp (clientLib none "CN=alice") (some "strict") postSimpleenroll) :=
    passes_of_any (by decide +kernel)
  have hhttp' : Passes (overHttp (clientLib none "alice") none postSimplereenroll) :=
    passes_of_any (by decide +kernel)
  exact ⟨⟨hhttp, (henroll.mp hhttp).2⟩, hhttp', (hreenroll.mp hhttp').2⟩

end Kipuka.Enroll
