/-
  CMP (`src/routes/cmp.rs`): `post_cmp` with the parsing of a PKIMessage, both kinds of protection,
  the dispatch on the type of the message and the response.
-/
import Kipuka.Enroll.CmsEst

namespace Kipuka.Enroll

open Generic Auth
open Keygen (containsStr)

/-! ## Messages -/

inductive CmpMessageType where
  | ir | ip | cr | cp | kur | kup | rr | rp | genM | genP | error | certConf | pkiConf
  deriving DecidableEq, Repr

namespace CmpMessageType

def display : CmpMessageType → String
  | ir => "ir"
  | ip => "ip"
  | cr => "cr"
  | cp => "cp"
  | kur => "kur"
  | kup => "kup"
  | rr => "rr"
  | rp => "rp"
  | genM => "genm"
  | genP => "genp"
  | error => "error"
  | certConf => "certConf"
  | pkiConf => "pkiConf"

def isRequest : CmpMessageType → Bool
  | ir | cr | kur | rr | genM | certConf => true
  | _ => false

def expectedResponse : CmpMessageType → Option CmpMessageType
  | ir => some ip
  | cr => some cp
  | kur => some kup
  | rr => some rp
  | genM => some genP
  | certConf => some pkiConf
  | _ => none

end CmpMessageType

inductive PkiBody where
  | ir (raw : List UInt8) | ip (raw : List UInt8) | cr (raw : List UInt8) | cp (raw : List UInt8)
  | p10cr (raw : List UInt8) | kur (raw : List UInt8) | kup (raw : List UInt8)
  | rr (raw : List UInt8) | rp (raw : List UInt8) | genm (raw : List UInt8)
  | genp (raw : List UInt8) | error (raw : List UInt8) | certConf (raw : List UInt8)
  | pkiconf
  | other
  deriving DecidableEq, Repr

def PkiBody.content : PkiBody → Option (CmpMessageType × List UInt8)
  | .ir raw => some (.ir, raw)
  | .ip raw => some (.ip, raw)
  | .cr raw => some (.cr, raw)
  | .cp raw => some (.cp, raw)
  | .p10cr raw => some (.cr, raw)
  | .kur raw => some (.kur, raw)
  | .kup raw => some (.kup, raw)
  | .rr raw => some (.rr, raw)
  | .rp raw => some (.rp, raw)
  | .genm raw => some (.genM, raw)
  | .genp raw => some (.genP, raw)
  | .error raw => some (.error, raw)
  | .certConf raw => some (.certConf, raw)
  | .pkiconf => some (.pkiConf, [])
  | .other => none

/-- The sender: a name, with its encoding if there is one, or one of the forms that are text. -/
inductive GeneralName where
  | directoryName (der : Option (List UInt8))
  | text (s : String)
  | other
  deriving DecidableEq, Repr

/-- `PBMParameter`: the algorithms by their OIDs, the count as `as_i64` converts it. -/
structure PbmParameter where
  salt : List UInt8
  owf : String
  iterationCount : Option Int
  mac : String
  deriving DecidableEq, Repr

/-- `protectionAlg`: the OID, the encoding, and the parameters with their encoding and what the
    parser of a `PBMParameter` makes of it. -/
structure ProtectionAlg where
  algorithm : String
  der : Option (List UInt8)
  parameters : Option (Except String (Except String PbmParameter))

structure PkiMessage where
  transactionId : Option (List UInt8)
  senderNonce : Option (List UInt8)
  sender : GeneralName
  body : PkiBody
  protection : Option (List UInt8)
  protectionAlg : Option ProtectionAlg
  extraCerts : Option (List (List UInt8))
  /-- The encoding of header and body. -/
  protectedPart : Except String (List UInt8)

inductive CmpProtection where
  | signature (algorithm : String) (certDer : List UInt8)
  | mac (algorithm : String)
  deriving DecidableEq, Repr

structure CmpRequest where
  messageType : CmpMessageType
  transactionId : List UInt8
  senderNonce : List UInt8
  sender : String
  protection : CmpProtection
  bodyDer : List UInt8
  deriving DecidableEq, Repr

inductive GeneralNameSpec where
  | directoryName (der : List UInt8)
  | rfc822 (s : String)
  deriving DecidableEq, Repr

structure CmpResponse where
  messageType : CmpMessageType
  body : List UInt8
  sender : List UInt8
  recipient : List UInt8
  transactionId : List UInt8
  senderNonce : List UInt8
  recipNonce : List UInt8
  deriving DecidableEq, Repr

inductive HashKind where
  | sha256 | sha384 | sha512
  deriving DecidableEq, Repr

def HashKind.display : HashKind → String
  | .sha256 => "SHA256"
  | .sha384 => "SHA384"
  | .sha512 => "SHA512"

structure CmpLib extends EnrollLib where
  pkiMessage : List UInt8 → Except String PkiMessage
  bitString : List UInt8 → Except String (List UInt8)
  /-- What is wrong with a text that is not hexadecimal. -/
  hexError : String → String
  digest : HashKind → List UInt8 → List UInt8
  hmac : HashKind → (key data : List UInt8) → Except String (List UInt8)
  certReqMessages : List UInt8 → Except String (List CertReqMsg)
  certRepMessage (certReqId certDer : List UInt8) : Except String (List UInt8)
  revReqContent : List UInt8 → Except String (List Inventory.RevDetails)
  revRepContent : List Inventory.PKIStatusInfo → Except String (List UInt8)
  genMsgContent : List UInt8 → Except String Unit
  encodeGenRep : Except String Unit
  finishGenRep : Except String (List UInt8)
  nullDer : Except String (List UInt8)
  generalName : GeneralNameSpec → Except String (List UInt8)
  responseDer : CmpResponse → Except String (List UInt8)
  /-- A response with its recipient replaced by the sender of the request. -/
  withRecipient (response : List UInt8) (recipient : GeneralName) : Except String (List UInt8)

section Cmp

variable (L : CmpLib)

/-! ## Parsing -/

def formatGeneralName : GeneralName → String
  | .directoryName (some der) => L.cms.formatDn der
  | .directoryName none => "<invalid DN>"
  | .text s => s
  | .other => "<other GeneralName>"

def macOids : List String :=
  ["1.2.840.113533.7.66.13", "1.2.840.113533.7.66.30", "1.3.6.1.5.5.7.15.10"]

def cmpProtection (msg : PkiMessage) : Except KipukaError CmpProtection :=
  match msg.protection, msg.protectionAlg with
  | none, _ => .error (.auth "CMP message has no protection")
  | some _, none =>
    .error (.badRequest "CMP message has protection bits but no protectionAlg in header")
  | some _, some alg =>
    if macOids.any fun oid => containsStr alg.algorithm oid then .ok (.mac alg.algorithm)
    else .ok (.signature alg.algorithm ((msg.extraCerts.bind List.head?).getD []))

def parseCmpMessage (der : List UInt8) : Except KipukaError CmpRequest := do
  refuseIf der.isEmpty (.badRequest "empty CMP message")
  refuseIf (decide (der.length < 50))
    (.badRequest "CMP message is too short to be a valid PKIMessage")
  refuseIf (der.head? ≠ some 0x30)
    (.badRequest "CMP message does not start with a SEQUENCE tag")
  let msg ← (L.pkiMessage der).mapError fun e => .badRequest s!"failed to parse CMP PKIMessage: {e}"
  let (messageType, bodyDer) ← okOrElse (.badRequest "unsupported CMP PKIBody variant")
    msg.body.content
  let protection ← cmpProtection msg
  .ok {
    messageType := messageType
    transactionId := msg.transactionId.getD []
    senderNonce := msg.senderNonce.getD []
    sender := formatGeneralName L msg.sender
    protection := protection
    bodyDer := bodyDer }

/-! ## Protection by a signature -/

def keyUsageOid : List Nat := [2, 5, 29, 15]

def issuedBy (der issuer : List UInt8) : Bool :=
  match L.cms.certificate der, L.cms.certificate issuer, L.cms.certByteRanges der,
      L.cms.certByteRanges issuer with
  | .ok cert, .ok ca, some r, some ir =>
    cert.issuer = ca.subject && L.cms.verifyCertificateSignature r.tbs r.signatureAlgorithm
      cert.signatureValue ir.subjectPublicKeyInfo
  | _, _, _, _ => false

def checkKeyUsage (cert : Certificate) : Except KipukaError Unit :=
  match cert.extensions.bind fun exts => L.cms.findExtensionValue exts keyUsageOid with
  | none => .ok ()
  | some usage => do
    let bits ← (L.bitString usage).mapError fun e => .auth s!"invalid CMP signer key usage: {e}"
    refuseIf (bits.head?.all fun byte => byte &&& 0x80 = 0)
      (.auth "CMP signer key usage forbids digital signatures")

def signerTrustedBy (certDer : List UInt8) (ca : CaState) : Bool :=
  (validNow L.cms ca.certDer).toOption.isSome &&
    (ca.certDer = certDer || issuedBy L certDer ca.certDer)

def validateCmpSigner (app : AppState) (certDer : List UInt8) : Fallible Unit := do
  Prog.ofExcept ((validNow L.cms certDer).mapError .auth)
  let cert ← Prog.ofExcept ((L.cms.certificate certDer).mapError fun e => .auth e.display)
  Prog.ofExcept (checkKeyUsage L cert)
  Prog.ofExcept (refuseIf (!app.cas.any (signerTrustedBy L certDer))
    (.auth "CMP signer does not chain to a valid configured CA"))
  let revoked ← Prog.mapErr (fun e => .db s!"CMP signer revocation lookup failed: {e}")
    (request (.revokedStatus certDer))
  Prog.ofExcept (refuseIf revoked.isSome (.auth "CMP signer certificate is revoked"))
  Prog.mapErr KipukaError.auth (request (.checkRevocation certDer))

structure Protected where
  bytes : List UInt8
  protection : List UInt8
  algorithmDer : List UInt8

def verifySignatureProtection (app : AppState) (part : Protected) (certDer : List UInt8) :
    Fallible Unit := do
  Prog.ofExcept (refuseIf certDer.isEmpty
    (.auth "CMP signature protection: no signer certificate in extraCerts"))
  let ranges ← Prog.ofExcept (okOrElse
    (.auth "failed to parse signer certificate structure from extraCerts")
    (L.cms.certByteRanges certDer))
  Prog.ofExcept ((L.cms.verifySignature ranges.subjectPublicKeyInfo part.bytes part.algorithmDer
    part.protection).mapError fun e => .auth s!"CMP signature verification failed: {e}")
  validateCmpSigner L app certDer

/-! ## Protection by a MAC -/

def hashKind (oids : List (String × HashKind)) (oid : String) : Option HashKind :=
  (oids.find? fun entry => containsStr oid entry.1).map Prod.snd

def owfOids : List (String × HashKind) :=
  [("2.16.840.1.101.3.4.2.1", .sha256), ("2.16.840.1.101.3.4.2.2", .sha384),
   ("2.16.840.1.101.3.4.2.3", .sha512)]

def hmacOids : List (String × HashKind) :=
  [("1.2.840.113549.2.9", .sha256), ("2.16.840.1.101.3.4.2.1", .sha256),
   ("1.2.840.113549.2.10", .sha384), ("2.16.840.1.101.3.4.2.2", .sha384),
   ("1.2.840.113549.2.11", .sha512), ("2.16.840.1.101.3.4.2.3", .sha512)]

/-- `derive_pbm_key`: the hash function applied as often as the count says. -/
def derivePbmKey (secret salt : List UInt8) (owf : String) (iterationCount : Nat) :
    Except KipukaError (List UInt8) := do
  let kind ← okOrElse (.auth s!"CMP PBM: unsupported OWF algorithm OID: {owf}")
    (hashKind owfOids owf)
  refuseIf (decide (iterationCount = 0)) (.auth "CMP PBM: iteration count must be positive")
  refuseIf (decide (100000 < iterationCount))
    (.auth "CMP PBM: iteration count exceeds maximum (100000)")
  .ok (Nat.iterate (L.digest kind) (iterationCount - 1) (L.digest kind (secret ++ salt)))

def computePbmHmac (key data : List UInt8) (mac : String) : Except KipukaError (List UInt8) := do
  let kind ← okOrElse (.auth s!"CMP PBM: unsupported MAC algorithm OID: {mac}")
    (hashKind hmacOids mac)
  (L.hmac kind key data).mapError fun e => .internal s!"HMAC-{kind.display} key init failed: {e}"

def pbmParameter (alg : Option ProtectionAlg) : Except KipukaError PbmParameter := do
  let element ← okOrElse (.auth "CMP MAC protection: protectionAlg has no PBMParameter")
    (alg.bind ProtectionAlg.parameters)
  let parsed ← element.mapError
    fun e => .auth s!"CMP MAC protection: failed to encode PBMParameter element: {e}"
  parsed.mapError fun e => .auth s!"CMP MAC protection: failed to parse PBMParameter: {e}"

def sharedSecret (app : AppState) (config : CmpConfig) (sender : String) :
    Except KipukaError (List UInt8) := do
  refuseIf (!config.macSecrets.contains sender)
    (.auth s!"CMP MAC protection: no shared secret found for reference '{sender}'")
  let hex ← okOrElse (.internal s!"CMP MAC secret for '{sender}' was not resolved at startup")
    ((app.cmpMacSecrets.find? fun entry => entry.1 = sender).map Prod.snd)
  let fault := L.hexError hex
  okOrElse (.internal s!"CMP MAC secret for '{sender}' has invalid hex encoding: {fault}")
    (hexDecode hex)

def verifyMacProtection (app : AppState) (config : CmpConfig) (msg : PkiMessage) (sender : String)
    (part : Protected) : Except KipukaError Unit := do
  refuseIf (!config.allowMacProtection) (.auth "MAC-based CMP protection is not allowed by policy")
  let pbm ← pbmParameter msg.protectionAlg
  let secret ← sharedSecret L app config sender
  -- `as u32` of the count
  let key ← derivePbmKey L secret pbm.salt pbm.owf (pbm.iterationCount.getD 1 % 4294967296).toNat
  let mac ← computePbmHmac L key part.bytes pbm.mac
  refuseIf (mac ≠ part.protection) (.auth "CMP MAC protection verification failed: MAC mismatch")

/-! ## Requests -/

def processEnrollmentRequest (app : AppState) (req : CmpRequest) (reqType : String) :
    Fallible (List UInt8) := do
  let msgs ← Prog.ofExcept ((L.certReqMessages req.bodyDer).mapError
    fun e => .badRequest s!"failed to parse CMP {reqType} CertReqMessages: {e}")
  let msg ← Prog.ofExcept (match msgs with
    | [msg] => .ok msg
    | _ => .error (.badRequest "CMP endpoint requires exactly one request per message"))
  let subject ← Prog.ofExcept (okOrElse (.badRequest "CRMF CertTemplate missing subject name")
    msg.subject)
  let _ ← Prog.ofExcept (subject.mapError fun e => .badRequest s!"failed to encode CRMF subject: {e}")
  let spki ← Prog.ofExcept (okOrElse (.badRequest "CRMF CertTemplate missing public key")
    msg.publicKey)
  let _ ← Prog.ofExcept (spki.mapError fun e => .badRequest s!"failed to encode CRMF SPKI: {e}")
  let caId := app.caConfigs.headD "default"
  let ca ← Prog.ofExcept (okOrElse (.ca s!"CA '{caId}' not found") (app.getCa caId))
  Prog.ofExcept (findCaConfig app caId)
  resolveSigningKey caId
  let profile ← Prog.lift (caProfile ca)
  let result ← Prog.mapErr (fun e => .ca s!"CMP certificate issuance failed: {e.message}")
    (ask (.sign (.crmf msg profile ca)))
  persistCertificate L.toEnrollLib caId profile.name result
  Prog.ofExcept ((L.certRepMessage msg.certReqId result.certificateDer).mapError
    fun e => .internal s!"failed to encode CMP CertRepMessage: {e}")

def inventoryOp : (o : Inventory.Op) → Prog Op Reply (Inventory.Reply o)
  | .recordAuditEvent eventType detail => recordAuditEvent eventType detail
  | o => request (.inventory o)

def signerCert (certDer : List UInt8) : Except String Inventory.SignerCert := do
  let cert ← (L.cms.certificate certDer).mapError DerError.debug
  let usage := cert.extensions.bind fun exts => L.cms.findExtensionValue exts extendedKeyUsageOid
  .ok ⟨L.cms.formatDn cert.subject, usage.map fun eku => .ok (L.extendedKeyUsageOids eku)⟩

def CmpRequest.revocation (req : CmpRequest) : Inventory.CmpRequest where
  sender := req.sender
  protection := match req.protection with
    | .signature _ certDer => .signature (signerCert L certDer)
    | .mac _ => .mac
  body := L.revReqContent req.bodyDer

def processRevocationRequest (req : CmpRequest) : Fallible (List UInt8) := do
  let statuses ← Prog.interpE inventoryOp (Inventory.processRevocationRequest (req.revocation L))
  Prog.ofExcept ((L.revRepContent statuses).mapError
    fun e => .internal s!"failed to encode CMP RevRepContent: {e}")

def processGeneralMessage (req : CmpRequest) : Except KipukaError (List UInt8) := do
  let parsed := if req.bodyDer.isEmpty then .ok () else L.genMsgContent req.bodyDer
  parsed.mapError fun e => .badRequest s!"failed to parse CMP GenMsgContent: {e}"
  L.encodeGenRep.mapError fun e => .internal s!"failed to encode CMP GenRepContent: {e}"
  L.finishGenRep.mapError fun e => .internal s!"failed to finalize CMP GenRepContent DER: {e}"

def cmpBody (app : AppState) (config : CmpConfig) (req : CmpRequest) : Fallible (List UInt8) :=
  match req.messageType with
  | .ir => do
    Prog.ofExcept (refuseIf (!config.allowIr)
      (.est "CMP initialization requests (ir) are not allowed"))
    processEnrollmentRequest L app req "ir"
  | .cr => do
    Prog.ofExcept (refuseIf (!config.allowCr)
      (.est "CMP certification requests (cr) are not allowed"))
    processEnrollmentRequest L app req "cr"
  | .kur => do
    Prog.ofExcept (refuseIf (!config.allowKur)
      (.est "CMP key update requests (kur) are not allowed"))
    processEnrollmentRequest L app req "kur"
  | .rr => do
    Prog.ofExcept (refuseIf (!config.allowRr)
      (.est "CMP revocation requests (rr) are not allowed"))
    processRevocationRequest L req
  | .genM => Prog.ofExcept (processGeneralMessage L req)
  | .certConf => Prog.ofExcept (L.nullDer.mapError
      fun e => .internal s!"failed to encode PKIConfirm: {e}")
  | messageType => throw (.badRequest s!"unsupported CMP message type: {messageType.display}")

/-! ## Responses -/

def CmpMessageType.isResponse : CmpMessageType → Bool
  | .ip | .cp | .kup | .rp | .genP | .error | .pkiConf => true
  | _ => false

def buildCmpResponse (req : CmpRequest) (responseType : CmpMessageType) (body : List UInt8)
    (caSubject : Option (List UInt8)) : Fallible (List UInt8) := do
  Prog.ofExcept (refuseIf req.transactionId.isEmpty
    (.badRequest "cannot build CMP response: empty transaction ID"))
  Prog.ofExcept (refuseIf body.isEmpty (.badRequest "cannot build CMP response: empty body"))
  let nonce ← Prog.lift (request (.randomBytes 16))
  Prog.ofExcept (refuseIf (!responseType.isResponse)
    (.internal s!"cannot build CMP response for body type: {responseType.display}"))
  let sender ← Prog.ofExcept ((L.generalName
    (caSubject.elim (.rfc822 "ca@kipuka.dev") .directoryName)).mapError
    fun e => .internal s!"failed to encode CA sender name: {e}")
  let recipient ← Prog.ofExcept ((L.generalName
    (.rfc822 (if req.sender.isEmpty then "unknown@kipuka.dev" else req.sender))).mapError
    fun e => .internal s!"failed to encode recipient name: {e}")
  Prog.ofExcept ((L.responseDer ⟨responseType, body, sender, recipient, req.transactionId, nonce,
    req.senderNonce⟩).mapError fun e => .internal s!"failed to DER-encode CMP response: {e}")

def firstCaSubject (app : AppState) : Option (List UInt8) := do
  let caId ← app.caConfigs.head?
  let ca ← app.getCa caId
  let cert ← (L.cms.certificate ca.certDer).toOption
  pure cert.subject

/-- The response with the request's sender as recipient, protected by the first CA. -/
def protectResponse (app : AppState) (body response : List UInt8) : Fallible (List UInt8) := do
  let requestMessage ← Prog.ofExcept ((L.pkiMessage body).mapError .badRequest)
  let _ ← Prog.ofExcept ((L.pkiMessage response).mapError .internal)
  let response ← Prog.ofExcept ((L.withRecipient response requestMessage.sender).mapError .internal)
  let caId ← Prog.ofExcept (okOrElse .notFound app.caConfigs.head?)
  let ca ← Prog.ofExcept (findCa app caId)
  resolveSigningKey caId
  Prog.mapErr id (request (.protectCmp response ca))

/-! ## `post_cmp` -/

/-- The checks up to the protection: the configuration, the message and what is protected. -/
def cmpMessage (app : AppState) (body : List UInt8) :
    Except KipukaError (CmpConfig × CmpRequest × PkiMessage × Protected) := do
  let config ← match app.cmp with
    | some config => if config.enabled then .ok config else .error (.est "CMP is not enabled")
    | none => .error (.est "CMP is not enabled")
  refuseIf body.isEmpty (.badRequest "empty CMP message")
  let req ← parseCmpMessage L body
  refuseIf (!req.messageType.isRequest)
    (.badRequest (s!"unexpected CMP message type '{req.messageType.display}' — " ++
      "only request types are accepted"))
  let msg ← (L.pkiMessage body).mapError fun e => .badRequest s!"invalid CMP message: {e}"
  let bytes ← msg.protectedPart.mapError fun e => .badRequest s!"CMP ProtectedPart: {e}"
  .ok (config, req, msg, ⟨bytes, msg.protection.getD [],
    (msg.protectionAlg.bind ProtectionAlg.der).getD []⟩)

def verifyProtection (app : AppState) (config : CmpConfig) (req : CmpRequest) (msg : PkiMessage)
    (part : Protected) : Fallible Unit :=
  match req.protection with
  | .signature _ certDer => verifySignatureProtection L app part certDer
  | .mac _ => Prog.ofExcept (verifyMacProtection L app config msg req.sender part)

def cmpAdmission (app : AppState) (body : List UInt8) :
    Fallible (CmpConfig × CmpRequest × CmpMessageType) := do
  let (config, req, msg, part) ← Prog.ofExcept (cmpMessage L app body)
  verifyProtection L app config req msg part
  let responseType ← Prog.ofExcept (okOrElse
    (.badRequest s!"CMP message type '{req.messageType.display}' has no defined response")
    req.messageType.expectedResponse)
  Prog.mapErr id (admitEnrollment req.sender "cmp")
  pure (config, req, responseType)

def postCmp (app : AppState) (body : List UInt8) : Fallible Response := do
  let (config, req, responseType) ← cmpAdmission L app body
  let responseBody ← cmpBody L app config req
  let response ← buildCmpResponse L req responseType responseBody (firstCaSubject L app)
  let response ← protectResponse L app body response
  Prog.lift (recordAuditEvent "cmp_success"
    s!"type={req.messageType.display}, sender={req.sender}")
  pure ⟨200, [("content-type", "application/pkixcmp")], response⟩

end Cmp

end Kipuka.Enroll
