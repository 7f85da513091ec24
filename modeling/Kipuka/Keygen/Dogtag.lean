/-
  The Dogtag clients as server-side key generation uses them: `server_keygen`
  (`crates/kipuka-dogtag/src/enroll.rs`), `search_keys` and `recover_key_inner`
  (`crates/kipuka-dogtag/src/kra.rs`).
-/
import Kipuka.Auth.EnrollAuthz
import Kipuka.Error
import Kipuka.Generic.History
import Mathlib.Data.List.Infix

namespace Kipuka.Keygen

open Generic Auth

inductive DogtagError where
  | httpError (msg : String)
  | apiError (status : Nat) (body : String)
  | parseError (msg : String)
  | configError (msg : String)
  | tlsError (msg : String)
  | ioError (msg : String)
  | noHealthyBackend
  | enrollmentRejected (reason : String)
  | enrollmentPending (requestId : String)
  | kraError (msg : String)
  deriving DecidableEq, Repr

def DogtagError.display : DogtagError → String
  | .httpError msg => s!"HTTP request failed: {msg}"
  | .apiError status body => s!"Dogtag returned HTTP {status}: {body}"
  | .parseError msg => s!"Failed to parse response: {msg}"
  | .configError msg => s!"Invalid configuration: {msg}"
  | .tlsError msg => s!"TLS error: {msg}"
  | .ioError msg => s!"I/O error: {msg}"
  | .noHealthyBackend => "No healthy CA backend available"
  | .enrollmentRejected reason => s!"Enrollment rejected: {reason}"
  | .enrollmentPending requestId => s!"Enrollment pending: request_id={requestId}"
  | .kraError msg => s!"KRA error: {msg}"

def truncateChars : (maxBytes : Nat) → List Char → List Char
  | _, [] => []
  | maxBytes, c :: cs =>
    if c.utf8Size ≤ maxBytes then c :: truncateChars (maxBytes - c.utf8Size) cs else []

def truncateStr (s : String) (maxBytes : Nat) : String :=
  String.ofList (truncateChars maxBytes s.toList)

def containsStr (s t : String) : Bool := t.toList <:+: s.toList

def lastSegment (s : String) : String :=
  String.ofList (s.toList.rtakeWhile fun c => c ≠ '/')

/-! ## Messages -/

inductive JsonField where
  | str (s : String)
  | other
  deriving DecidableEq, Repr

def asStr : Option JsonField → Option String
  | some (.str s) => some s
  | _ => none

structure ProfileAttribute where
  name : String
  value : String
  deriving DecidableEq, Repr

structure ProfileInput where
  classId : String
  attributes : List ProfileAttribute
  deriving DecidableEq, Repr

structure EnrollmentRequest where
  profileId : String
  renewal : Bool
  input : List ProfileInput
  deriving DecidableEq, Repr

def EnrollmentRequest.attribute (request : EnrollmentRequest) (name : String) : Option String :=
  ((request.input.flatMap ProfileInput.attributes).find? fun attr => attr.name = name).map
    ProfileAttribute.value

structure EnrollEntry where
  requestStatus : Option JsonField
  requestID : Option JsonField
  requestId : Option JsonField
  errorMessage : Option JsonField
  certId : Option JsonField
  certURL : Option JsonField
  deriving DecidableEq, Repr

/-- The answer to an approval. `preview` is its first 300 bytes as text. -/
structure Approval where
  status : Nat
  body : List UInt8
  preview : String
  deriving DecidableEq, Repr

structure KeyInfo where
  keyURL : Option JsonField
  clientKeyID : Option JsonField
  algorithm : Option JsonField
  size : Option Nat
  status : Option JsonField
  deriving DecidableEq, Repr

structure KeySearchEntry where
  keyId : String
  clientKeyId : String
  algorithm : String
  size : UInt32
  status : String
  deriving DecidableEq, Repr

structure RetrieveBody where
  wrappedPrivateData : Option JsonField
  nonceData : Option JsonField
  text : String

inductive RetrieveResponse where
  | unauthorized
  | json (body : Except DogtagError RetrieveBody)

inductive Op where
  | admitEnrollment (identity operation : String)
  | recordAuditEvent (eventType detail : String)
  | recordAuditEventWithActor (eventType actor detail : String)
  | randBytes (n : Nat)
  | getClient
  | caLogin
  | submit (request : EnrollmentRequest)
  | review (requestId : String)
  | approve (requestId reviewXml : String)
  | fetchCertDer (certId : String)
  | kraClient
  | kraLogin
  | keySearch (clientKeyId : Option String) (maxResults : Nat)
  | transportCert
  | retrieve (keyId transWrappedSessionKey : String)
  deriving DecidableEq

abbrev Reply : Op → Type
  | .admitEnrollment _ _ => Except KipukaError Unit
  | .recordAuditEvent _ _ => Unit
  | .recordAuditEventWithActor _ _ _ => Unit
  | .randBytes _ => Except String (List UInt8)
  | .getClient => Except DogtagError Unit
  | .caLogin => Unit
  | .submit _ => Except DogtagError (Option (List EnrollEntry))
  | .review _ => Except DogtagError String
  | .approve _ _ => Except DogtagError Approval
  | .fetchCertDer _ => Except DogtagError (List UInt8)
  | .kraClient => Except DogtagError Unit
  | .kraLogin => Unit
  | .keySearch _ _ => Except DogtagError (Option (List KeyInfo))
  | .transportCert => Except DogtagError (List UInt8)
  | .retrieve _ _ => Except DogtagError RetrieveResponse

abbrev ask (o : Op) : Prog Op Reply (Reply o) := Prog.op o

abbrev DogtagResult (α : Type) : Type := ExceptT DogtagError (Prog Op Reply) α

/-- An opened PKCS#12: its key and certificate, each as its encoding comes out. -/
structure Pkcs12 where
  pkey : Option (Except String (List UInt8))
  cert : Option (Except String (List UInt8))

inductive PublicKeyInfo where
  | rsa (bitCount : Nat)
  | ec (curveNistName : Option String)
  | unknown

structure CryptoLib where
  csr : CsrLib
  /-- The subject of a CSR, as OpenSSL reads it. -/
  x509Req : List UInt8 → Except String Name
  publicKeyInfo : List UInt8 → Option PublicKeyInfo
  base64Encode : List UInt8 → String
  base64Decode : List UInt8 → Except String (List UInt8)
  /-- Parsing a PKCS#12, then opening it with a password. -/
  pkcs12 : List UInt8 → Except String (String → Except String Pkcs12)
  wrapSessionKey : List UInt8 → List UInt8 → Except DogtagError String
  aesCbcDecrypt : (key iv data : List UInt8) → Except String (List UInt8)
  aesKwpUnwrap : (key data : List UInt8) → Except DogtagError (List UInt8)
  certsOnlyPkcs7 : List UInt8 → Except KipukaError (List UInt8)

/-! ## The CA -/

structure ServerKeygenResult where
  requestId : String
  certificateDer : Option (List UInt8)
  pkcs12B64 : Option String
  deriving DecidableEq, Repr

def keygenRequest (profileId subjectUid subjectCn p12Password keyType : String) (keySize : Nat) :
    EnrollmentRequest where
  profileId := profileId
  renewal := false
  input := [
    ⟨"serverKeygenInputImpl", [⟨"serverSideKeygenP12Passwd", p12Password⟩, ⟨"keyType", keyType⟩,
      ⟨"keySize", toString keySize⟩]⟩,
    ⟨"subjectNameInputImpl", [⟨"sn_uid", subjectUid⟩, ⟨"sn_cn", subjectCn⟩]⟩,
    ⟨"submitterInfoInputImpl", [⟨"requestor_name", "kipuka EST Server"⟩, ⟨"requestor_email", ""⟩,
      ⟨"requestor_phone", ""⟩]⟩]

namespace EnrollEntry

def status (entry : EnrollEntry) : String := (asStr entry.requestStatus).getD "unknown"

def request (entry : EnrollEntry) : String := (asStr (entry.requestID <|> entry.requestId)).getD ""

def isPending (entry : EnrollEntry) : Bool := entry.status = "pending" && entry.request ≠ ""

def cert (entry : EnrollEntry) : String :=
  ((asStr entry.certId) <|> (asStr entry.certURL).map lastSegment).getD ""

end EnrollEntry

section Client

variable (L : CryptoLib)

/-- Approve a pending request through the agent servlet, which answers with the PKCS#12. -/
def approvePending (requestId : String) : DogtagResult ServerKeygenResult := do
  let reviewXml ← Prog.mapErr id (ask (.review requestId))
  Prog.ofExcept (refuseIf
    (containsStr reviewXml "errorReason" && !containsStr reviewXml "<defId>")
    (.enrollmentRejected s!"SSKG review failed: {truncateStr reviewXml 200}"))
  let approval ← Prog.mapErr id (ask (.approve requestId reviewXml))
  Prog.ofExcept (refuseIf
    (¬ (200 ≤ approval.status ∧ approval.status < 300) ∨ approval.body.length < 100)
    (.enrollmentRejected s!"SSKG approval failed (HTTP {approval.status}): {approval.preview}"))
  pure ⟨requestId, none, some (L.base64Encode approval.body)⟩

/-- An approved request: the certificate is fetched, there is no PKCS#12. -/
def fetchComplete (entry : EnrollEntry) : DogtagResult ServerKeygenResult := do
  if entry.cert = "" then pure ⟨entry.request, none, none⟩
  else
    let der ← Prog.mapErr id (ask (.fetchCertDer entry.cert))
    pure ⟨entry.request, some der, none⟩

def serverKeygen (profileId subjectUid subjectCn p12Password keyType : String) (keySize : Nat) :
    DogtagResult ServerKeygenResult := do
  Prog.lift (ask .caLogin)
  let body ← Prog.mapErr id (ask
    (.submit (keygenRequest profileId subjectUid subjectCn p12Password keyType keySize)))
  let entries ← Prog.ofExcept
    (okOrElse (.parseError "No entries in server-keygen response") body)
  let entry ← Prog.ofExcept
    (okOrElse (.parseError "Empty entries in server-keygen response") entries.head?)
  if entry.isPending then approvePending L entry.request
  else if entry.status ≠ "complete" then
    let errorMsg := (asStr entry.errorMessage).getD "unknown error"
    throw (.enrollmentRejected s!"status={entry.status}: {errorMsg}")
  else fetchComplete entry

/-! ## The KRA -/

def keySearchEntry (info : KeyInfo) : Option KeySearchEntry :=
  let keyId := lastSegment ((asStr info.keyURL).getD "")
  if keyId = "" then none
  else some {
    keyId := keyId
    clientKeyId := (asStr info.clientKeyID).getD ""
    algorithm := (asStr info.algorithm).getD ""
    size := (info.size.getD 0).toUInt32
    status := (asStr info.status).getD "" }

def searchKeys (clientKeyId : Option String) (maxResults : Nat) :
    DogtagResult (List KeySearchEntry) := do
  Prog.lift (ask .kraLogin)
  let entries ← Prog.mapErr id (ask (.keySearch clientKeyId maxResults))
  pure ((entries.getD []).filterMap keySearchEntry)

/-- The recovered key, unwrapped with the session key: AES-CBC where there is a nonce, AES key wrap
    where there is none. -/
def unwrapKey (sessionKey : List UInt8) (body : RetrieveBody) : Except DogtagError (List UInt8) := do
  let wrappedB64 ← okOrElse (.kraError
      s!"No wrappedPrivateData in retrieve response: {truncateStr body.text 300}")
    (asStr body.wrappedPrivateData)
  let wrapped ← (L.base64Decode (asBytes wrappedB64)).mapError
    fun e => .kraError s!"Invalid base64 in wrappedPrivateData: {e}"
  match asStr body.nonceData with
  | some nonceB64 => do
    let iv ← (L.base64Decode (asBytes nonceB64)).mapError
      fun e => .kraError s!"Invalid nonceData: {e}"
    refuseIf (sessionKey.length ≠ 16 && sessionKey.length ≠ 32)
      (.kraError s!"Unsupported session key length {sessionKey.length} for AES-CBC")
    (L.aesCbcDecrypt sessionKey iv wrapped).mapError
      fun e => .kraError s!"AES-CBC unwrap failed: {e}"
  | none => L.aesKwpUnwrap sessionKey wrapped

def recoverKeyInner (keyId : String) : DogtagResult (List UInt8) := do
  Prog.lift (ask .kraLogin)
  let sessionKey ← Prog.mapErr (fun e => .kraError s!"Failed to generate session key: {e}")
    (ask (.randBytes 16))
  let transportDer ← Prog.mapErr id (ask .transportCert)
  let transWrapped ← Prog.ofExcept (L.wrapSessionKey transportDer sessionKey)
  let resp ← Prog.mapErr id (ask (.retrieve keyId transWrapped))
  match resp with
  | .unauthorized =>
    throw (.kraError "Recovery retrieve returned 401 — session may have expired")
  | .json body => Prog.ofExcept (do unwrapKey L sessionKey (← body))

def recoverKeyNoCert (keyId : String) : DogtagResult (List UInt8) := recoverKeyInner L keyId

end Client

/-! ## What the clients return -/

section Results

variable {L : CryptoLib} {answer : (op : Op) → Reply op}

theorem approvePending_ok {requestId : String} {result : ServerKeygenResult}
    (h : (approvePending L requestId).run.eval answer = .ok result) :
    result.certificateDer = none ∧ ∃ reviewXml approval,
      answer (.approve requestId reviewXml) = .ok approval ∧
      result.pkcs12B64 = some (L.base64Encode approval.body) := by
  unfold approvePending at h
  obtain ⟨reviewXml, -, h⟩ := (Prog.eval_seq answer).mp h
  obtain ⟨⟨⟩, -, h⟩ := (Prog.eval_seq answer).mp h
  obtain ⟨approval, happroval, h⟩ := (Prog.eval_seq answer).mp h
  obtain ⟨⟨⟩, -, h⟩ := (Prog.eval_seq answer).mp h
  cases h
  rw [Prog.eval_mapErr] at happroval
  exact ⟨rfl, reviewXml, approval, mapError_eq_ok.mp happroval, rfl⟩

theorem fetchComplete_ok {entry : EnrollEntry} {result : ServerKeygenResult}
    (h : (fetchComplete entry).run.eval answer = .ok result) :
    result.pkcs12B64 = none ∧ ∀ der, result.certificateDer = some der →
      entry.cert ≠ "" ∧ answer (.fetchCertDer entry.cert) = .ok der := by
  unfold fetchComplete at h
  split at h
  · cases h
    exact ⟨rfl, nofun⟩
  · next hcert =>
    obtain ⟨der, hder, h⟩ := (Prog.eval_seq answer).mp h
    cases h
    rw [Prog.eval_mapErr] at hder
    refine ⟨rfl, ?_⟩
    intro der' hder'
    cases hder'
    exact ⟨hcert, mapError_eq_ok.mp hder⟩

theorem serverKeygen_ok {profileId subjectUid subjectCn p12Password keyType : String}
    {keySize : Nat} {result : ServerKeygenResult}
    (h : (serverKeygen L profileId subjectUid subjectCn p12Password keyType keySize).run.eval answer =
      .ok result) :
    ∃ entries entry, answer (.submit
        (keygenRequest profileId subjectUid subjectCn p12Password keyType keySize)) =
        .ok (some entries) ∧ entries.head? = some entry ∧
      if entry.isPending then
        result.certificateDer = none ∧ ∃ reviewXml approval,
          answer (.approve entry.request reviewXml) = .ok approval ∧
          result.pkcs12B64 = some (L.base64Encode approval.body)
      else
        result.pkcs12B64 = none ∧ ∀ der, result.certificateDer = some der →
          entry.cert ≠ "" ∧ answer (.fetchCertDer entry.cert) = .ok der := by
  unfold serverKeygen at h
  obtain ⟨⟨⟩, -, h⟩ := (Prog.eval_seq answer).mp h
  obtain ⟨body, hbody, h⟩ := (Prog.eval_seq answer).mp h
  obtain ⟨entries, hentries, h⟩ := (Prog.eval_seq answer).mp h
  obtain ⟨entry, hentry, h⟩ := (Prog.eval_seq answer).mp h
  rw [Prog.eval_mapErr] at hbody
  rw [Prog.eval_ofExcept] at hentries hentry
  rw [okOrElse_eq_ok.mp hentries] at hbody
  refine ⟨entries, entry, mapError_eq_ok.mp hbody, okOrElse_eq_ok.mp hentry, ?_⟩
  split at h
  · next hpending =>
    rw [if_pos hpending]
    exact approvePending_ok h
  · next hpending =>
    rw [if_neg hpending]
    split at h
    · cases h
    · exact fetchComplete_ok h

theorem searchKeys_ok {clientKeyId : Option String} {maxResults : Nat}
    {keys : List KeySearchEntry}
    (h : (searchKeys clientKeyId maxResults).run.eval answer = .ok keys) :
    ∃ infos, answer (.keySearch clientKeyId maxResults) = .ok infos ∧
      keys = (infos.getD []).filterMap keySearchEntry := by
  unfold searchKeys at h
  obtain ⟨⟨⟩, -, h⟩ := (Prog.eval_seq answer).mp h
  obtain ⟨infos, hinfos, h⟩ := (Prog.eval_seq answer).mp h
  cases h
  rw [Prog.eval_mapErr] at hinfos
  exact ⟨infos, mapError_eq_ok.mp hinfos, rfl⟩

end Results

/-! ## What the clients submit -/

def NoSubmit (op : Op) : Prop := ∀ request, op ≠ .submit request

/-- Where a call submits a request, the request asks for this common name. -/
def Asks (cn : String) (op : Op) : Prop :=
  ∀ request, op = .submit request → request.attribute "sn_cn" = some cn

theorem NoSubmit.asks {op : Op} (h : NoSubmit op) (cn : String) : Asks cn op :=
  fun request hop => absurd hop (h request)

section Calls

variable {L : CryptoLib} {cn : String}

theorem noSubmit_approvePending {requestId : String} :
    Only NoSubmit (approvePending L requestId).run := by
  unfold approvePending
  refine only_try (only_op nofun) fun reviewXml => ?_
  refine only_ofExcept fun _ _ => ?_
  refine only_try (only_op nofun) fun approval => ?_
  exact only_ofExcept fun _ _ => trivial

theorem noSubmit_fetchComplete {entry : EnrollEntry} : Only NoSubmit (fetchComplete entry).run := by
  unfold fetchComplete
  split
  · exact trivial
  · exact only_try (only_op nofun) fun _ => trivial

theorem asks_serverKeygen {profileId subjectUid p12Password keyType : String} {keySize : Nat} :
    Only (Asks cn) (serverKeygen L profileId subjectUid cn p12Password keyType keySize).run := by
  have hsubmit : Asks cn
      (.submit (keygenRequest profileId subjectUid cn p12Password keyType keySize)) := by
    intro request hrequest
    cases hrequest
    rfl
  unfold serverKeygen
  refine only_ask (only_op nofun) fun _ => ?_
  refine only_try (only_op hsubmit) fun body => ?_
  refine only_ofExcept fun entries _ => ?_
  refine only_ofExcept fun entry _ => ?_
  split
  · exact noSubmit_approvePending.mono fun op hop => hop.asks cn
  · split
    · exact trivial
    · exact noSubmit_fetchComplete.mono fun op hop => hop.asks cn

theorem noSubmit_searchKeys {clientKeyId : Option String} {maxResults : Nat} :
    Only NoSubmit (searchKeys clientKeyId maxResults).run := by
  unfold searchKeys
  refine only_ask (only_op nofun) fun _ => ?_
  exact only_try (only_op nofun) fun _ => trivial

theorem noSubmit_recoverKeyNoCert {keyId : String} :
    Only NoSubmit (recoverKeyNoCert L keyId).run := by
  unfold recoverKeyNoCert recoverKeyInner
  refine only_ask (only_op nofun) fun _ => ?_
  refine only_try (only_op nofun) fun sessionKey => ?_
  refine only_try (only_op nofun) fun transportDer => ?_
  refine only_ofExcept fun transWrapped _ => ?_
  refine only_try (only_op nofun) fun resp => ?_
  cases resp with
  | unauthorized | json => exact trivial

end Calls

end Kipuka.Keygen
