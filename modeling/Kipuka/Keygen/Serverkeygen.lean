/-
  `post_serverkeygen` (`src/routes/serverkeygen.rs`) on a server with a Dogtag backend: the checks
  of every request, the enrollment at the CA, and the key, out of the PKCS#12 that the CA returns
  or out of the KRA's archive.
-/
import Kipuka.Generic.Base64
import Kipuka.Keygen.Dogtag

namespace Kipuka.Keygen

open Generic Auth

/-! ## The route -/

structure KeygenConfig where
  /-- `est.serverkeygen` -/
  serverkeygen : Bool
  cas : List String
  sskgProfileId : Option String

structure KeygenRequest where
  caId : String
  identity : String
  policy : EnrollAuthzPolicy
  body : List UInt8

structure KeygenResponse where
  certDer : List UInt8
  privateKeyDer : List UInt8
  deriving DecidableEq, Repr

inductive EcCurve where
  | p256 | p384
  deriving DecidableEq, Repr

inductive KeyType where
  | rsa (bits : Nat)
  | ecdsa (curve : EcCurve)
  /-- A post-quantum type, by its debug form. -/
  | other (debug : String)
  deriving DecidableEq, Repr

abbrev Fallible (α : Type) : Type := ExceptT KipukaError (Prog Op Reply) α

def isAsciiWhitespace (b : UInt8) : Bool :=
  b = 0x20 || b = 0x09 || b = 0x0a || b = 0x0c || b = 0x0d

/-- `entries_by_nid(COMMONNAME).next()` as text; the identity where there is none. -/
def firstCn (subject : Name) (identity : String) : String :=
  ((commonNames subject).head?.bind fun attr => fromUtf8 attr.value).getD identity

def dogtagKeyType : KeyType → Except KipukaError (String × Nat)
  | .rsa bits => .ok ("RSA", bits)
  | .ecdsa .p256 => .ok ("EC", 256)
  | .ecdsa .p384 => .ok ("EC", 384)
  | .other debug => .error (.badRequest ("Dogtag server-side keygen supports RSA/EC only; " ++
      s!"requested key type {debug} requires a local CA label"))

def caError (context : String) (e : DogtagError) : KipukaError := .ca s!"{context}: {e.display}"

/-- The certificate of a PKCS#12; the one of the CA's answer where it has none. -/
def pkcs12Cert (content : Pkcs12) (certificateDer : Option (List UInt8)) :
    Except KipukaError (List UInt8) :=
  match content.cert with
  | some cert => cert.mapError fun e => .ca s!"cert DER: {e}"
  | none => okOrElse (.ca "No certificate in SSKG response") certificateDer

section Route

variable (L : CryptoLib)

def decodeEstBase64 (body : List UInt8) : Except String (List UInt8) :=
  (L.base64Decode (body.filter fun b => !isAsciiWhitespace b)).mapError
    fun e => s!"invalid base64 encoding: {e}"

def detectKeyTypeFromCsr (csrDer : List UInt8) : KeyType :=
  match L.publicKeyInfo csrDer with
  | none => .rsa 2048
  | some (.rsa bitCount) =>
    if bitCount ≤ 2048 then .rsa 2048 else if bitCount ≤ 3072 then .rsa 3072 else .rsa 4096
  | some (.ec curveNistName) => if curveNistName = some "P-384" then .ecdsa .p384 else .ecdsa .p256
  | some .unknown => .rsa 2048

/-- The checks in front of every key generation; they end with the template. -/
def admitTemplate (cfg : KeygenConfig) (req : KeygenRequest) : Fallible (List UInt8) := do
  Prog.mapErr id (ask (.admitEnrollment req.identity "serverkeygen"))
  Prog.ofExcept (refuseIf (!cfg.serverkeygen) (.est "server-side key generation is not enabled"))
  let csrDer ← Prog.ofExcept ((decodeEstBase64 L req.body).mapError
    fun e => .badRequest s!"CSR template decoding failed: {e}")
  Prog.ofExcept (refuseIf csrDer.isEmpty (.badRequest "empty CSR template"))
  match authorizeCsrDer L.csr csrDer req.identity req.policy with
  | .error reason => do
    Prog.lift (ask (.recordAuditEventWithActor "serverkeygen_denied" req.identity
      s!"ca_id={req.caId}, identity={req.identity}, reason={reason}"))
    throw (.forbidden s!"enrollment not authorized: {reason}")
  | .ok () => do
    Prog.ofExcept (refuseIf (req.caId ∉ cfg.cas) .notFound)
    pure csrDer

def fromPkcs12 (p12B64 password : String) (certificateDer : Option (List UInt8)) :
    Except KipukaError KeygenResponse := do
  let p12Der ← (L.base64Decode (asBytes p12B64)).mapError
    fun e => .ca s!"PKCS#12 base64 decode: {e}"
  let p12 ← (L.pkcs12 p12Der).mapError fun e => .ca s!"PKCS#12 parse: {e}"
  let content ← (p12 password).mapError fun e => .ca s!"PKCS#12 decrypt: {e}"
  let pkey ← okOrElse (.ca "No private key in PKCS#12") content.pkey
  let keyDer ← pkey.mapError fun e => .ca s!"PKCS#8 DER: {e}"
  let certDer ← pkcs12Cert content certificateDer
  pure ⟨certDer, keyDer⟩

/-- The archived keys of a common name; all of them where there are none. -/
def findKeys (subjectCn : String) : Fallible (List KeySearchEntry) := do
  let keys ← Prog.mapErr (caError "KRA key search") (searchKeys (some subjectCn) 3).run
  if keys.isEmpty then
    Prog.mapErr (caError "KRA key search (unfiltered)") (searchKeys none 1).run
  else pure keys

/-- Path B: the certificate of the answer, and a key that is found in the archive. -/
def fromArchive (req : KeygenRequest) (subjectCn : String) (certificateDer : Option (List UInt8)) :
    Fallible KeygenResponse := do
  let cert ← Prog.ofExcept (okOrElse
    (.ca "No certificate in SSKG response (needed for KRA recovery)") certificateDer)
  Prog.mapErr (caError "KRA client init") (ask .kraClient)
  let keys ← findKeys subjectCn
  let keyEntry ← Prog.ofExcept
    (okOrElse (.ca "No keys found on KRA after SSKG enrollment") keys.head?)
  Prog.lift (ask (.recordAuditEvent "sskg_kra_recovery" (s!"ca_id={req.caId}, " ++
    s!"identity={req.identity}, key_id={keyEntry.keyId}, algorithm={keyEntry.algorithm}")))
  let keyDer ← Prog.mapErr (caError "KRA key recovery") (recoverKeyNoCert L keyEntry.keyId).run
  pure ⟨cert, keyDer⟩

def sskgPair (req : KeygenRequest) (subjectCn password : String) (result : ServerKeygenResult) :
    Fallible KeygenResponse :=
  match result.pkcs12B64 with
  | some p12B64 => Prog.ofExcept (fromPkcs12 L p12B64 password result.certificateDer)
  | none => fromArchive L req subjectCn result.certificateDer

def sskgEnroll (cfg : KeygenConfig) (req : KeygenRequest) (csrDer : List UInt8) :
    Fallible KeygenResponse := do
  let profile := cfg.sskgProfileId.getD "caServerKeygenEST"
  let subject ← Prog.ofExcept ((L.x509Req csrDer).mapError
    fun e => .badRequest s!"CSR template parse: {e}")
  let subjectCn := firstCn subject req.identity
  let keyType ← Prog.ofExcept (dogtagKeyType (detectKeyTypeFromCsr L csrDer))
  let rand ← Prog.mapErr (fun e => .ca s!"rand: {e}") (ask (.randBytes 24))
  let password := hexEncode rand
  Prog.mapErr (fun e => .serviceUnavailable s!"Dogtag CA unavailable: {e.display}") (ask .getClient)
  let result ← Prog.mapErr (caError "SSKG enrollment failed")
    (serverKeygen L profile subjectCn subjectCn password keyType.1 keyType.2).run
  let response ← sskgPair L req subjectCn password result
  let _ ← Prog.ofExcept (L.certsOnlyPkcs7 response.certDer)
  Prog.lift (ask (.recordAuditEvent "serverkeygen_success"
    (s!"ca_id={req.caId}, identity={req.identity}, backend=sskg-profile, " ++
      s!"profile={profile}, request_id={result.requestId}")))
  pure response

def postServerkeygen (cfg : KeygenConfig) (req : KeygenRequest) : Fallible KeygenResponse := do
  let csrDer ← admitTemplate L cfg req
  sskgEnroll L cfg req csrDer

end Route

/-! ## Whose name goes to the CA -/

section Names

variable {L : CryptoLib} {cfg : KeygenConfig} {req : KeygenRequest} {answer : (op : Op) → Reply op}

/-- The common name of the template that the authorization step compares with the identity. -/
def comparedCn (L : CryptoLib) (req : KeygenRequest) : Option String :=
  (decodeEstBase64 L req.body).toOption.bind fun csrDer =>
    (L.csr.fromDer csrDer).toOption.bind (csrSubjectCn L.csr)

/-- Assumed: the two parsers of a CSR read the same subject. -/
def CryptoLib.SameSubject (L : CryptoLib) : Prop :=
  ∀ csrDer csr subject, L.csr.fromDer csrDer = .ok csr → L.x509Req csrDer = .ok subject →
    csr.subject = subject

/-- The first common name of the template, the identity where it is not UTF-8, and the last one
    are the same text. -/
def FirstCnIsLast (L : CryptoLib) (req : KeygenRequest) : Prop :=
  ∀ csrDer subject first last, decodeEstBase64 L req.body = .ok csrDer →
    L.x509Req csrDer = .ok subject → (commonNames subject).head? = some first →
    (commonNames subject).getLast? = some last →
    (fromUtf8 first.value).getD req.identity = L.csr.attrText last

theorem admitTemplate_ok {csrDer : List UInt8}
    (h : (admitTemplate L cfg req).run.eval answer = .ok csrDer) :
    decodeEstBase64 L req.body = .ok csrDer ∧
      authorizeCsrDer L.csr csrDer req.identity req.policy = .ok () := by
  unfold admitTemplate at h
  iterate 2 obtain ⟨⟨⟩, -, h⟩ := (Prog.eval_seq answer).mp h
  obtain ⟨der, hder, h⟩ := (Prog.eval_seq answer).mp h
  obtain ⟨⟨⟩, -, h⟩ := (Prog.eval_seq answer).mp h
  split at h
  · obtain ⟨⟨⟩, -, h⟩ := (Prog.eval_seq answer).mp h
    cases h
  · next hauth =>
    obtain ⟨⟨⟩, -, h⟩ := (Prog.eval_seq answer).mp h
    cases h
    rw [Prog.eval_ofExcept] at hder
    exact ⟨mapError_eq_ok.mp hder, hauth⟩

theorem noSubmit_admitTemplate : Only NoSubmit (admitTemplate L cfg req).run := by
  unfold admitTemplate
  refine only_try (only_op nofun) fun _ => ?_
  refine only_ofExcept fun _ _ => ?_
  refine only_ofExcept fun csrDer _ => ?_
  refine only_ofExcept fun _ _ => ?_
  split
  · exact only_ask (only_op nofun) fun _ => trivial
  · exact only_ofExcept fun _ _ => trivial

theorem noSubmit_findKeys {subjectCn : String} : Only NoSubmit (findKeys subjectCn).run := by
  unfold findKeys
  refine only_try noSubmit_searchKeys fun keys => ?_
  split
  · exact only_mapErr noSubmit_searchKeys
  · exact trivial

theorem noSubmit_sskgPair {subjectCn password : String} {result : ServerKeygenResult} :
    Only NoSubmit (sskgPair L req subjectCn password result).run := by
  unfold sskgPair
  split
  · exact trivial
  · unfold fromArchive
    refine only_ofExcept fun cert _ => ?_
    refine only_try (only_op nofun) fun _ => ?_
    refine only_seq noSubmit_findKeys fun keys => ?_
    refine only_ofExcept fun keyEntry _ => ?_
    refine only_ask (only_op nofun) fun _ => ?_
    exact only_try noSubmit_recoverKeyNoCert fun _ => trivial

theorem asks_sskgEnroll {csrDer : List UInt8} :
    Only (fun op => ∃ subject, L.x509Req csrDer = .ok subject ∧
      Asks (firstCn subject req.identity) op) (sskgEnroll L cfg req csrDer).run := by
  unfold sskgEnroll
  refine only_ofExcept fun subject hsubject => ?_
  refine Only.mono ?_ fun op hop => ⟨subject, mapError_eq_ok.mp hsubject, hop⟩
  refine only_ofExcept fun keyType _ => ?_
  refine only_try (only_op nofun) fun rand => ?_
  refine only_try (only_op nofun) fun _ => ?_
  refine only_try asks_serverKeygen fun result => ?_
  refine only_seq (noSubmit_sskgPair.mono fun op hop => hop.asks _) fun response => ?_
  refine only_ofExcept fun _ _ => ?_
  exact only_ask (only_op nofun) fun _ => trivial

theorem submit_mem_trace {request : EnrollmentRequest}
    (h : .submit request ∈ (postServerkeygen L cfg req).run.trace answer) :
    ∃ csrDer subject, decodeEstBase64 L req.body = .ok csrDer ∧
      authorizeCsrDer L.csr csrDer req.identity req.policy = .ok () ∧
      L.x509Req csrDer = .ok subject ∧
      request.attribute "sn_cn" = some (firstCn subject req.identity) := by
  rcases (Prog.mem_trace_seq answer).mp h with hadmit | ⟨csrDer, hok, henroll⟩
  · exact absurd rfl (noSubmit_admitTemplate.trace hadmit request)
  · obtain ⟨hdecode, hauth⟩ := admitTemplate_ok hok
    obtain ⟨subject, hsubject, hasks⟩ := asks_sskgEnroll.trace henroll
    exact ⟨csrDer, subject, hdecode, hauth, hsubject, hasks request rfl⟩

theorem firstCn_of_head {subject : Name} {first : NameAttr} {identity : String}
    (h : (commonNames subject).head? = some first) :
    firstCn subject identity = (fromUtf8 first.value).getD identity := by
  unfold firstCn
  rw [h]
  rfl

theorem comparedCn_eq {csrDer : List UInt8} {csr : Csr}
    (hdecode : decodeEstBase64 L req.body = .ok csrDer) (hparse : L.csr.fromDer csrDer = .ok csr) :
    comparedCn L req = csrSubjectCn L.csr csr := by
  unfold comparedCn
  rw [hdecode]
  show (L.csr.fromDer csrDer).toOption.bind _ = _
  rw [hparse]
  rfl

/-- Under a label that requires the CN to match, the common name a request asks the CA for is the
    one that was compared with the identity if and only if the first common name of the template is
    its last. -/
theorem submitted_cn_compared_iff (hlib : L.SameSubject) (hcn : req.policy.requireCnMatch = true)
    {request : EnrollmentRequest}
    (h : .submit request ∈ (postServerkeygen L cfg req).run.trace answer) :
    (∃ cn, comparedCn L req = some cn ∧ eqIgnoreAsciiCase cn req.identity = true ∧
      request.attribute "sn_cn" = some cn) ↔ FirstCnIsLast L req := by
  obtain ⟨csrDer, subject, hdecode, hauth, hsubject, hasked⟩ := submit_mem_trace h
  obtain ⟨csr, name, hparse, hname, heq⟩ := authorizeCsrDer_cn hcn hauth
  have hcompared : comparedCn L req = some name := (comparedCn_eq hdecode hparse).trans hname
  rw [csrSubjectCn_eq, hlib csrDer csr subject hparse hsubject] at hname
  obtain ⟨last, hlast, htext⟩ := Option.map_eq_some_iff.mp hname
  constructor
  · rintro ⟨cn, hcn', -, hsn⟩ csrDer' subject' first last' hdecode' hsubject' hfirst hlast'
    cases hdecode.symm.trans hdecode'
    cases hsubject.symm.trans hsubject'
    cases hlast.symm.trans hlast'
    cases hcompared.symm.trans hcn'
    rw [← firstCn_of_head hfirst, htext]
    exact Option.some.inj (hasked.symm.trans hsn)
  · intro hsame
    have hne : commonNames subject ≠ [] := List.ne_nil_of_mem (List.mem_of_getLast? hlast)
    obtain ⟨first, hfirst⟩ := Option.isSome_iff_exists.mp (List.isSome_head?.mpr hne)
    refine ⟨name, hcompared, heq, ?_⟩
    rw [hasked, firstCn_of_head hfirst, ← htext,
      hsame csrDer subject first last hdecode hsubject hfirst hlast]

end Names

/-! ### Templates with two common names and with one -/

open Replay (tlv)

def sessionKey : List UInt8 := List.replicate 16 7

/-- Two keys and what AES key wrap with padding makes of them under the session key. -/
def wrappedKeys : List (List UInt8 × List UInt8) :=
  [([0x8A, 0xC4, 0xC1, 0x65, 0x75, 0xC1, 0x25, 0x3E, 0x6D, 0x2C, 0x96, 0xF4, 0x1E, 0x91, 0x04, 0xF5],
    asBytes "bob-key"),
   ([0xA9, 0xDE, 0x4A, 0xAB, 0xBD, 0x27, 0x7C, 0x65, 0x84, 0x2E, 0xF2, 0x9C, 0x20, 0x5F, 0x16, 0x36,
     0x6B, 0x3C, 0xF2, 0xBD, 0x4E, 0x7D, 0xDD, 0x68], asBytes "alice-key")]

/-- The library on a template without extensions and on those keys. The RSA ciphertext of the session
    key has a random padding; it is left as a name. -/
def plainLib (template : Pkcs10.Request) : CryptoLib where
  csr := {
    fromDer := fun der =>
      if der = template.der then .ok ⟨template.subject, some []⟩ else .error "invalid CSR"
    attrText := fun attr => (fromUtf8 attr.value).getD ""
    findExtensionValue := fun _ _ => none
    parseGeneralNames := fun _ => [] }
  x509Req := fun der => if der = template.der then .ok template.subject else .error "invalid CSR"
  publicKeyInfo := fun der => if der = template.der then some (.ec (some "P-256")) else none
  base64Encode := base64Encode
  base64Decode := fun text => base64Decode (text.map fun b => Char.ofNat b.toNat)
  pkcs12 := fun _ => .error "no PKCS#12"
  wrapSessionKey := fun _ _ => .ok "session-key"
  aesCbcDecrypt := fun _ _ _ => .error "no nonce is used"
  aesKwpUnwrap := fun key data =>
    okOrElse (.kraError "unwrap failed") (if key = sessionKey then wrappedKeys.lookup data else none)
  certsOnlyPkcs7 := fun cert =>
    .ok (tlv 0x30 ([0x06, 0x09, 0x2A, 0x86, 0x48, 0x86, 0xF7, 0x0D, 0x01, 0x07, 0x02] ++
      tlv 0xA0 (tlv 0x30 ([0x02, 0x01, 0x01, 0x31, 0x00, 0x30, 0x0B, 0x06, 0x09, 0x2A, 0x86, 0x48,
        0x86, 0xF7, 0x0D, 0x01, 0x07, 0x01] ++ tlv 0xA0 cert ++ [0x31, 0x00]))))

theorem subject_of_x509Req {template : Pkcs10.Request} {csrDer : List UInt8} {subject : Name}
    (h : (plainLib template).x509Req csrDer = .ok subject) : template.subject = subject := by
  dsimp only [plainLib] at h
  split at h
  · exact Except.ok.inj h
  · cases h

theorem plainLib_sameSubject (template : Pkcs10.Request) : (plainLib template).SameSubject := by
  intro csrDer csr subject hcsr hsubject
  dsimp only [plainLib] at hcsr
  split at hcsr
  · rw [← Except.ok.inj hcsr]
    exact subject_of_x509Req hsubject
  · cases hcsr

def approving : (op : Op) → Reply op
  | .admitEnrollment _ _ => .ok ()
  | .recordAuditEvent _ _ => ()
  | .recordAuditEventWithActor _ _ _ => ()
  | .randBytes n => .ok (List.replicate n 7)
  | .getClient => .ok ()
  | .caLogin => ()
  | .submit _ => .ok (some [⟨some (.str "complete"), some (.str "41"), none, none,
      some (.str "0x2a"), none⟩])
  | .review _ => .error (.apiError 404 "")
  | .approve _ _ => .error (.apiError 404 "")
  | .fetchCertDer certId => .ok (asBytes certId)
  | .kraClient => .ok ()
  | .kraLogin => ()
  | .keySearch _ _ => .ok (some [⟨some (.str "https://kra/keys/9"), none, none, none, none⟩])
  | .transportCert => .ok []
  | .retrieve _ _ => .ok (.json (.ok ⟨some (.str "isTBZXXBJT5tLJb0HpEE9Q=="), none, ""⟩))

def keygenConfig : KeygenConfig := ⟨true, ["ca1"], none⟩

/-- The request of a client with a template, in base64. -/
def requestOf (identity : String) (template : Pkcs10.Request) : KeygenRequest :=
  ⟨"ca1", identity, ⟨true, false, [], [], []⟩,
    (base64Chars template.der).map fun c => UInt8.ofNat c.toNat⟩

def aliceAndMallory : Pkcs10.Request :=
  ⟨["alice", "mallory"], [], 0x68A0DF00494ABA12032B9890A92FECD5645566D529C29AD0F9D84A212BA8236B,
    0x3A4A9AC94F1F458E985147A88B03171497F28BF90015A7D6121DA2C3D1A2F49A⟩

def onlyMallory : Pkcs10.Request :=
  ⟨["mallory"], [], 0x42C22A1593D7B92B3E8F0229F35033BA31004A55DA2655A998D5F88F9ACE0C41,
    0x12F2AB402F640A01FE93816C99545AD0614389D569D69A3EE52E1C775D8032F2⟩

def requestFor (cn : String) : EnrollmentRequest :=
  keygenRequest "caServerKeygenEST" cn cn (hexEncode (List.replicate 24 7)) "EC" 256

/-- A template for `alice` and `mallory`: `mallory` is compared, `alice` is submitted, and the
    request succeeds. -/
theorem submitted_cn_differs :
    .submit (requestFor "alice") ∈ (postServerkeygen (plainLib aliceAndMallory)
      keygenConfig (requestOf "mallory" aliceAndMallory)).run.trace approving ∧
    (requestFor "alice").attribute "sn_cn" = some "alice" ∧
    comparedCn (plainLib aliceAndMallory) (requestOf "mallory" aliceAndMallory) = some "mallory" ∧
    ((postServerkeygen (plainLib aliceAndMallory)
      keygenConfig (requestOf "mallory" aliceAndMallory)).run.eval approving).toOption.isSome = true := by
  decide +kernel

/-- With one common name it is the one submitted. -/
theorem submitted_cn_compared_iff_single :
    ∃ cn, comparedCn (plainLib onlyMallory) (requestOf "mallory" onlyMallory) = some cn ∧
      eqIgnoreAsciiCase cn "mallory" = true ∧
      (requestFor "mallory").attribute "sn_cn" = some cn := by
  have hsubmit : .submit (requestFor "mallory") ∈ (postServerkeygen (plainLib onlyMallory)
      keygenConfig (requestOf "mallory" onlyMallory)).run.trace approving := by decide +kernel
  refine (submitted_cn_compared_iff (plainLib_sameSubject _) rfl hsubmit).mpr ?_
  intro csrDer subject first last _ hsubject hfirst hlast
  obtain rfl := subject_of_x509Req hsubject
  cases hfirst
  cases hlast
  show (fromUtf8 (asBytes "mallory")).getD "mallory" = (fromUtf8 (asBytes "mallory")).getD ""
  rw [fromUtf8_asBytes]
  rfl

end Kipuka.Keygen
