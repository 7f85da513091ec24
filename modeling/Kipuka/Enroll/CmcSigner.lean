/-
  Two certificates take part in a `/fullcmc` request: the one of the TLS client, and the one that
  signed the CMC message. The route asks for id-kp-cmcRA in the first and verifies the second
  against the truststore only.

  * `fullcmc_eq`: the route is its part up to the verification of the message, and the issuance
    behind it, so a run that signs has verified one message before.
  * `returns_openCmc`, `passes_issueCmc`: what each of both parts takes, as conditions on the
    request, the certificates and the configuration.
  * `cmc_signed_by_ra_iff`: the signer of every message under which something is signed carries the
    usage, exactly if that is so for the messages that meet these conditions.
  * `cms_cmc_signed_by_ra`: the CMS-wrapped route asks for the usage in the signer itself.

  Direct signing; the libraries for DER, CMS and base64 are parameters.
-/
import Kipuka.Enroll.Passes
import Kipuka.Generic.Strand

namespace Kipuka.Enroll

open Generic Auth
open Keygen (decodeEstBase64)

/-! ## Up to the verification of the message -/

/-- A request whose message is verified. -/
structure OpenedCmc where
  req : EstRequest
  ca : CaState
  message : CmsVerificationResult

section Routes

variable (L : EnrollLib) (app : AppState) (labelName : Option String) (certDer body : List UInt8)

/-- The route up to the verification of the message. -/
def openCmc : Fallible OpenedCmc := do
  let label ← resolve app labelName
  let auth ← estAuth L app label certDer
  Prog.mapErr id (admitEnrollment auth.identity "fullcmc")
  Prog.ofExcept (refuseIf (!app.est.fullcmc) (.est "Full CMC is not enabled"))
  Prog.ofExcept (refuseIf (auth.method ≠ .mtls)
    (.auth "Full CMC requires mTLS client certificate authentication"))
  Prog.ofExcept (refuseIf (!auth.hasCmcRaEku)
    (.auth s!"CMC signer certificate must have id-kp-cmcRA EKU ({cmcRaEkuOid})"))
  let der ← Prog.ofExcept ((decodeEstBase64 L.crypto body).mapError
    fun _ => .badRequest "malformed CMC request")
  Prog.ofExcept (refuseIf der.isEmpty (.badRequest "empty CMC request"))
  let ca ← Prog.ofExcept (findCa app label.caId)
  let truststore ← cmcTruststore L app ca
  let message ← Prog.ofExcept (verifyCmsSignedData L.cms der truststore)
  pure ⟨⟨auth, label, body⟩, ca, message⟩

variable {L app labelName certDer body}

theorem fullcmc_eq (hdirect : app.dogtag = none) :
    httpRequest L app labelName certDer body (postFullcmc L app) =
      (openCmc L app labelName certDer body >>= fun opened =>
        issueCmc L app opened.req opened.ca opened.message) := by
  simp only [httpRequest, postFullcmc, fullcmc, hdirect, fullcmcDirect, openCmc, bind_assoc,
    pure_bind]

theorem signsNothing_openCmc : SignsNothing (openCmc L app labelName certDer body).run := by
  refine only_seq (signsNothing_resolve app labelName) fun label => ?_
  refine only_seq (only_estAuth (fun _ => rfl) label certDer) fun auth => ?_
  refine only_seq (only_mapErr (routine_admitEnrollment _ _).signsNothing) fun _ => ?_
  iterate 3 refine only_ofExcept fun _ _ => ?_
  refine only_ofExcept fun der _ => only_ofExcept fun _ _ => only_ofExcept fun ca _ => ?_
  refine only_seq (routine_cmcTruststore L app ca).signsNothing fun truststore => ?_
  exact only_ofExcept fun _ _ => trivial

/-- With some content of its file, the truststore of a CA is this one. -/
def TruststoreOf (L : EnrollLib) (app : AppState) (ca : CaState) (truststore : List (List UInt8)) :
    Prop :=
  Returns (cmcTruststore L app ca).run (.ok truststore)

/-- The route is on, the client is taken under its label and carries the usage, and a message that
    the body decodes to is verified against the truststore. -/
def Opens (L : EnrollLib) (app : AppState) (labelName : Option String) (certDer body : List UInt8)
    (opened : OpenedCmc) : Prop :=
  ∃ label, Resolves app labelName label ∧ Authenticated L app label certDer ∧
    app.est.fullcmc = true ∧ CarriesCmcRa L certDer ∧
    ∃ der, decodeEstBase64 L.crypto body = .ok der ∧ der ≠ [] ∧
      ∃ ca, app.getCa label.caId = some ca ∧ ∃ truststore, TruststoreOf L app ca truststore ∧
        ∃ message, verifyCmsSignedData L.cms der truststore = .ok message ∧
          opened = ⟨⟨mtlsClient L certDer, label, body⟩, ca, message⟩

theorem returns_openCmc {opened : OpenedCmc} :
    Returns (openCmc L app labelName certDer body).run (.ok opened) ↔
      Opens L app labelName certDer body opened := by
  have hadmitted : ∀ identity, Returns (Prog.mapErr id (admitEnrollment identity "fullcmc") :
      Fallible Unit).run (.ok ()) :=
    fun identity => ⟨_, ended_mapErr.mpr ⟨.ok (), ended_op.mpr rfl, rfl⟩⟩
  unfold openCmc
  refine returns_seq.trans (exists_congr fun label => and_congr_right fun _ => ?_)
  refine (returns_seq.trans exists_returns_estAuth).trans (and_congr_right fun _ => ?_)
  refine (returns_after (hadmitted _)).trans ?_
  refine returns_check.trans (and_congr (refuseIf_eq_ok.trans (Bool.not_eq_false' _).to_iff) ?_)
  -- the client of a certificate has come by mTLS
  refine returns_check.trans ((and_iff_right rfl).trans ?_)
  refine returns_check.trans (and_congr
    ((refuseIf_eq_ok.trans (Bool.not_eq_false' _).to_iff).trans hasCmcRaEku_mtlsClient) ?_)
  refine returns_ofExcept_seq.trans (exists_congr fun der => and_congr mapError_eq_ok ?_)
  refine returns_check.trans (and_congr (refuseIf_eq_ok.trans List.isEmpty_eq_false_iff) ?_)
  refine returns_ofExcept_seq.trans (exists_congr fun ca => and_congr okOrElse_eq_ok ?_)
  refine returns_seq.trans (exists_congr fun truststore => and_congr_right fun _ => ?_)
  refine returns_ofExcept_seq.trans (exists_congr fun message => and_congr_right fun _ => ?_)
  exact returns_pure.trans eq_comm

/-! ## Behind it -/

/-- The message holds a PKIData with requests, its CA is configured, and the first request that the
    route takes up is authorized for the client. -/
def Signable (L : EnrollLib) (app : AppState) (req : EstRequest) (message : CmsVerificationResult) :
    Prop :=
  message.payload ≠ [] ∧ ∃ data, L.parsePkiData message.payload = .ok data ∧
    data.reqSequence ≠ [] ∧ app.caConfigs.contains req.label.caId = true ∧
    ∃ requests, cmcRequests L data = .ok requests ∧
      ∃ entry, requests.find? (fun entry => entry.requestType = 0) = some entry ∧
        Authorized L entry.der req.auth.identity req.label

theorem passes_issueCmcEntries {req : EstRequest} {ca : CaState} {profile : Ca.EnrollmentProfile}
    {entries : List CmcRequest} {out : CmcOutcome} :
    Passes (issueCmcEntries L req ca profile entries out).run ↔
      ∃ entry, entries.find? (fun entry => entry.requestType = 0) = some entry ∧
        Authorized L entry.der req.auth.identity req.label := by
  induction entries generalizing out with
  | nil => exact ⟨fun h => absurd h (not_passes trivial), fun ⟨_, h, _⟩ => by cases h⟩
  | cons entry entries ih =>
    unfold issueCmcEntries
    split
    · next htype =>
      rw [List.find?_cons_of_pos (by simpa using htype)]
      simp only [issueCmcEntry, bind_assoc, Option.some.injEq, exists_eq_left']
      refine passes_check.trans ((and_congr_left' mapError_eq_ok).trans (and_iff_left ?_))
      exact makes_call (.error (.signingError "")) rfl
    · next htype =>
      rw [List.find?_cons_of_neg (by simpa using htype), ← ih]
      exact passes_after (only_lift (routine_recordAuditEvent _ _).signsNothing)
        ⟨_, ended_lift.mpr ⟨(), ended_op.mpr rfl, rfl⟩⟩

theorem passes_issueCmc {req : EstRequest} {ca : CaState} {message : CmsVerificationResult} :
    Passes (issueCmc L app req ca message).run ↔ Signable L app req message := by
  unfold issueCmc
  refine passes_check.trans (and_congr (refuseIf_eq_ok.trans List.isEmpty_eq_false_iff) ?_)
  refine passes_ofExcept.trans (exists_congr fun data => and_congr mapError_eq_ok ?_)
  refine passes_check.trans (and_congr (refuseIf_eq_ok.trans List.isEmpty_eq_false_iff) ?_)
  refine passes_check.trans (and_congr (refuseIf_eq_ok.trans (Bool.not_eq_false' _).to_iff) ?_)
  refine passes_resolved fun profile => ?_
  refine passes_ofExcept.trans (exists_congr fun requests => and_congr_right fun _ => ?_)
  refine (passes_seq_of_quiet fun out => ?_).trans passes_issueCmcEntries
  -- the response is built and signed, but no certificate is
  refine only_ofExcept fun controls _ => only_seq (only_lift (routine_request rfl).signsNothing) ?_
  intro nonce
  refine only_ofExcept fun _ _ => only_ofExcept fun _ _ => only_ofExcept fun _ _ => ?_
  refine only_seq (only_mapErr (only_op rfl)) fun _ => ?_
  exact only_seq (only_lift (routine_recordAuditEvent _ _).signsNothing) fun _ => trivial

/-! ## The signer -/

/-- In this history the request verified the message, and then asked for a signature. -/
def SignsUnder (L : EnrollLib) (app : AppState) (labelName : Option String)
    (certDer body : List UInt8) (h : List (Answered Op Reply)) (message : CmsVerificationResult) :
    Prop :=
  ∃ h₁ h₂ opened q, h = h₁ ++ h₂ ∧ Ended (openCmc L app labelName certDer body).run h₁ (.ok opened) ∧
    opened.message = message ∧
    Plays (issueCmc L app opened.req opened.ca message).run h₂ q ∧ ∃ c ∈ h₂, c.1.signs = true

theorem signsUnder_of_opens (hdirect : app.dogtag = none) {opened : OpenedCmc}
    (hopens : Opens L app labelName certDer body opened)
    (hsignable : Signable L app opened.req opened.message) :
    ∃ h q, Plays (httpRequest L app labelName certDer body (postFullcmc L app)).run h q ∧
      (∃ c ∈ h, c.1.signs = true) ∧ SignsUnder L app labelName certDer body h opened.message := by
  obtain ⟨h₁, hend⟩ := returns_openCmc.mpr hopens
  obtain ⟨h₂, q, hplay, c, hc, hsigns⟩ := passes_issueCmc.mpr hsignable
  rw [fullcmc_eq hdirect]
  exact ⟨h₁ ++ h₂, q, plays_seq_ok hend hplay, ⟨c, List.mem_append_right _ hc, hsigns⟩,
    h₁, h₂, opened, q, rfl, hend, rfl, hplay, c, hc, hsigns⟩

/-- For every client certificate, message and truststore: whatever the outside answers, `/fullcmc`
    signs under messages of CMC RAs only, exactly if each message that it opens and could sign under
    is one of a CMC RA. It asks for the usage in the certificate of the client instead. -/
theorem cmc_signed_by_ra_iff (hdirect : app.dogtag = none) :
    (∀ h q, Plays (httpRequest L app labelName certDer body (postFullcmc L app)).run h q →
      (∃ c ∈ h, c.1.signs = true) →
        (∃ message, SignsUnder L app labelName certDer body h message) ∧
        ∀ message, SignsUnder L app labelName certDer body h message →
          CarriesCmcRa L message.signerCertDer) ↔
    ∀ opened, Opens L app labelName certDer body opened →
      Signable L app opened.req opened.message → CarriesCmcRa L opened.message.signerCertDer := by
  constructor
  · intro hra opened hopens hsignable
    obtain ⟨h, q, hplay, hsigns, hunder⟩ := signsUnder_of_opens hdirect hopens hsignable
    exact (hra h q hplay hsigns).2 opened.message hunder
  · rintro hall h q hplay ⟨c, hc, hsigns⟩
    constructor
    · rw [fullcmc_eq hdirect] at hplay
      obtain ⟨h₁, h₂, opened, rfl, hend, hrest, hc⟩ :=
        plays_seq_of_flag hplay signsNothing_openCmc hc hsigns
      exact ⟨opened.message, h₁, h₂, opened, q, rfl, hend, rfl, hrest, c, hc, hsigns⟩
    · rintro message ⟨h₁, h₂, opened, q, -, hend, rfl, hrest, hsigned⟩
      exact hall opened (returns_openCmc.mp ⟨h₁, hend⟩) (passes_issueCmc.mp ⟨h₂, q, hrest, hsigned⟩)

end Routes

/-! ### A client and a signer -/

open Replay (original raCert raName raCertSignature tlv)

def raClient : List UInt8 := asBytes "client"

/-- The library knows that certificate and the one that signed `original`, which has the usage or
    not. Every message is `original`, with one request in it. -/
def cmcLib (signerIsRa : Bool) : EnrollLib :=
  { plainLib.toEnrollLib with
    cms := { Replay.library with
      certificate := fun der =>
        if der = raClient then .ok ⟨raName, [0x08], [], .ok 0, .ok 4948465515, some [1], []⟩
        else if der = raCert then
          .ok ⟨raName, [0x07], raName, .ok 1794865515, .ok 4948465515,
            if signerIsRa then some [1] else none, raCertSignature⟩
        else Replay.malformed
      findExtensionValue := fun _ oid => if oid = extendedKeyUsageOid then some [1] else none }
    crypto := { plainLib.crypto with base64Decode := fun _ => .ok original }
    crypto_csr := rfl
    pemCerts := fun _ => .ok [raCert]
    parsePkiData := fun _ => .ok ⟨none, none, [tlv 0xA0 [0x05, 0x00]]⟩
    taggedRequest := fun _ => .ok ⟨.ok 1, [0x30]⟩
    extendedKeyUsageOids := fun _ => [cmcRaEkuOid] }

def cmcApp : AppState :=
  { plainApp with est := { plainApp.est with fullcmc := true, cmcTruststoreFile := some "cmc.pem" } }

def signedByRa : CmsVerificationResult := ⟨raCert, "CN=ra", Replay.content, "1.2.840.10045.4.3.2"⟩

def cmcOpened (signerIsRa : Bool) (certDer : List UInt8) : OpenedCmc :=
  ⟨⟨mtlsClient (cmcLib signerIsRa) certDer, cmcApp.defaultLabel, asBytes "message"⟩,
    ⟨"ca1", [], [], "SHA256", 90, none, none⟩, signedByRa⟩

theorem truststoreOf_cmcApp {signerIsRa : Bool} {ca : CaState} {truststore : List (List UInt8)} :
    TruststoreOf (cmcLib signerIsRa) cmcApp ca truststore ↔ truststore = [raCert] := by
  constructor
  · intro hreturns
    obtain ⟨pem, -, hreturns⟩ := returns_seq.mp hreturns
    obtain ⟨certs, hcerts, hreturns⟩ := returns_ofExcept_seq.mp hreturns
    obtain rfl := Except.ok.inj (mapError_eq_ok.mp hcerts)
    exact (returns_pure.mp (returns_check.mp hreturns).2).symm
  · rintro rfl
    exact ⟨[⟨.outside (.readFile "cmc.pem"), .ok []⟩], .call _ _ _ (.start _)⟩

theorem verify_original (signerIsRa : Bool) :
    verifyCmsSignedData (cmcLib signerIsRa).cms original [raCert] = .ok signedByRa := by
  cases signerIsRa with
  | true | false => decide +kernel

theorem opens_cmcApp {signerIsRa : Bool} {certDer : List UInt8}
    (hra : CarriesCmcRa (cmcLib signerIsRa) certDer) :
    Opens (cmcLib signerIsRa) cmcApp none certDer (asBytes "message")
      (cmcOpened signerIsRa certDer) :=
  ⟨cmcApp.defaultLabel, ⟨[], .start _⟩, ⟨_, _, ended_playBy nothingFails rfl⟩, rfl, hra,
    original, rfl, by decide, _, rfl, _, truststoreOf_cmcApp.mpr rfl, _, verify_original signerIsRa,
    rfl⟩

theorem signable_cmcApp (signerIsRa : Bool) (certDer : List UInt8) :
    Signable (cmcLib signerIsRa) cmcApp (cmcOpened signerIsRa certDer).req signedByRa :=
  ⟨by decide, _, rfl, by decide, rfl, _, rfl, _, rfl, rfl⟩

theorem cmc_signed_by_ra_same :
    ∃ h q, Plays (httpRequest (cmcLib true) cmcApp none raCert (asBytes "message")
        (postFullcmc (cmcLib true) cmcApp)).run h q ∧ (∃ c ∈ h, c.1.signs = true) ∧
      ∀ message, SignsUnder (cmcLib true) cmcApp none raCert (asBytes "message") h message →
        CarriesCmcRa (cmcLib true) message.signerCertDer := by
  have hra : CarriesCmcRa (cmcLib true) raCert := by
    unfold CarriesCmcRa
    decide +kernel
  obtain ⟨h, q, hplay, hsigns, -⟩ := signsUnder_of_opens rfl (opens_cmcApp hra)
    (signable_cmcApp true raCert)
  refine ⟨h, q, hplay, hsigns, ((cmc_signed_by_ra_iff rfl).mpr ?_ h q hplay hsigns).2⟩
  rintro _ ⟨label, -, -, -, -, der, hder, -, ca, -, truststore, htrust, message, hverify, rfl⟩ -
  obtain rfl := Except.ok.inj hder
  obtain rfl := truststoreOf_cmcApp.mp htrust
  obtain rfl := Except.ok.inj ((verify_original true).symm.trans hverify)
  exact hra

/-- The client has the usage, the signer of its message has not, and the request is signed. -/
theorem cmc_signed_by_other :
    ∃ h q, Plays (httpRequest (cmcLib false) cmcApp none raClient (asBytes "message")
        (postFullcmc (cmcLib false) cmcApp)).run h q ∧ (∃ c ∈ h, c.1.signs = true) ∧
      SignsUnder (cmcLib false) cmcApp none raClient (asBytes "message") h signedByRa ∧
      ¬ CarriesCmcRa (cmcLib false) signedByRa.signerCertDer := by
  have hclient : CarriesCmcRa (cmcLib false) raClient := by
    unfold CarriesCmcRa
    decide +kernel
  have hsigner : ¬ CarriesCmcRa (cmcLib false) signedByRa.signerCertDer := by
    unfold CarriesCmcRa
    decide +kernel
  obtain ⟨h, q, hplay, hsigns, hunder⟩ := signsUnder_of_opens rfl (opens_cmcApp hclient)
    (signable_cmcApp false raClient)
  exact ⟨h, q, hplay, hsigns, hunder, hsigner⟩

/-! ## The CMS-wrapped route -/

section Routes

variable {L : EnrollLib} {app : AppState} {h : List (Answered Op Reply)} {c : Answered Op Reply}
  {q : Prog Op Reply (Except KipukaError Response)}

theorem ended_cmsAdmission {req : CmsRequest} {switch : Except KipukaError Unit}
    {client : CmsClient} (hend : Ended (cmsAdmission L app req switch).run h (.ok client)) :
    verifyCmsSignedData L.cms req.body (buildTruststore app) = .ok client.message := by
  obtain ⟨_, _, config, -, -, hrest⟩ := ended_seq_ok.mp hend
  obtain ⟨_, _, message, -, hmessage, hrest⟩ := ended_seq_ok.mp hrest
  obtain ⟨_, _, _, -, -, hrest⟩ := ended_seq_ok.mp hrest
  obtain ⟨_, _, auth, -, -, hrest⟩ := ended_seq_ok.mp hrest
  obtain ⟨_, _, _, -, -, hret⟩ := ended_seq_ok.mp hrest
  obtain ⟨-, hclient⟩ := ended_pure.mp hret
  cases hclient
  exact (ended_ofExcept.mp hmessage).2

theorem carriesCmcRa_of_check {message : CmsVerificationResult}
    (h : checkCmcRa L message = .ok ()) : CarriesCmcRa L message.signerCertDer := by
  obtain ⟨cert, hcert, h⟩ := except_bind_eq_ok.mp h
  rw [mapError_eq_ok] at hcert
  have husage := refuseIf_eq_ok.mp h
  rw [Bool.not_eq_eq_eq_not, Bool.not_false, Option.any_eq_true] at husage
  obtain ⟨eku, heku, hany⟩ := husage
  obtain ⟨oid, hmem, hoid⟩ := List.any_eq_true.mp hany
  obtain rfl := of_decide_eq_true hoid
  have hvalue : extensionValue L message.signerCertDer extendedKeyUsageOid = some eku := by
    rw [extensionValue, hcert]
    exact heku
  unfold CarriesCmcRa extractExtendedKeyUsage
  rw [hvalue]
  exact hmem

/-- Nothing is signed unless the signer of the message is a CMC RA. -/
theorem cms_cmc_signed_by_ra {req : CmsRequest} (hplay : Plays (postCmsFullcmc L app req).run h q)
    (hc : c ∈ h) (hsigns : c.1.signs = true) :
    ∃ message, verifyCmsSignedData L.cms req.body (buildTruststore app) = .ok message ∧
      CarriesCmcRa L message.signerCertDer := by
  obtain ⟨h₁, h₂, client, rfl, hclient, hplay, hc⟩ := plays_seq_of_flag hplay
    (routine_cmsAdmission L app req _).signsNothing hc hsigns
  obtain ⟨_, hcheck, -⟩ := plays_ofExcept_of_mem hplay hc
  exact ⟨client.message, ended_cmsAdmission hclient, carriesCmcRa_of_check hcheck⟩

end Routes

def cmsLib : EnrollLib := { cmcLib true with unwrapSignedCmc := fun _ => .ok [0x30] }

def cmsApp : AppState :=
  { cmcApp with
    cmsEst := some ⟨true, false, []⟩
    cas := cmcApp.cas.map ({ · with certChain := [raCert] }) }

def cmsCmc : Fallible Response := postCmsFullcmc cmsLib cmsApp ⟨cmsApp.defaultLabel, original⟩

theorem cms_cmc_signed_by_ra_same : ∃ h q, Plays cmsCmc.run h q ∧ ∃ message,
    verifyCmsSignedData cmsLib.cms original (buildTruststore cmsApp) = .ok message ∧
      CarriesCmcRa cmsLib message.signerCertDer := by
  have hany : (cmsCmc.run.playBy nothingFails).1.any (fun c => c.1.signs) = true := by
    decide +kernel
  obtain ⟨c, hc, hsigns⟩ := List.any_eq_true.mp hany
  have hplay := plays_playBy nothingFails cmsCmc.run
  have hra := cms_cmc_signed_by_ra hplay hc hsigns
  exact ⟨_, _, hplay, hra⟩

end Kipuka.Enroll
