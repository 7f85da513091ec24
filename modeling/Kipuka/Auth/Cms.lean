/-
  CMS message-level authentication (`src/auth/cms_auth.rs`): `verify_cms_signed_data` with the
  certificate lookup, the digest check and the choice of what the signature covers.
-/
import Kipuka.Error
import Kipuka.Generic.Outcome

namespace Kipuka.Auth

open Generic

/-! ## The library -/

inductive Encoding where
  | ber
  | der
  deriving DecidableEq, Repr

inductive TagClass where
  | universal
  | application
  | contextSpecific
  | privateUse
  deriving DecidableEq, Repr

structure Tag where
  tagClass : TagClass
  constructed : Bool
  number : Nat
  deriving DecidableEq, Repr

def seqTag : Tag := ⟨.universal, true, 16⟩

def setTag : Tag := ⟨.universal, true, 17⟩

def ctx0Tag : Tag := ⟨.contextSpecific, true, 0⟩

structure DerError where
  debug : String
  display : String
  deriving DecidableEq, Repr

/-- `cms_2009_types::SignerInfo`, the fields that are read. The signed attributes are the contents
    of the IMPLICIT [0], without tag and length. -/
structure SignerInfo where
  sid : List UInt8
  digestAlgorithm : List UInt8
  signedAttrs : Option (List UInt8)
  signatureAlgorithm : List UInt8
  signature : List UInt8
  deriving DecidableEq, Repr

/-- `Certificate`, the fields that are read; the validity as `certificate::time` converts it. -/
structure Certificate where
  issuer : List UInt8
  serialNumber : List UInt8
  subject : List UInt8
  notBefore : Except String Int
  notAfter : Except String Int
  extensions : Option (List UInt8)
  signatureValue : List UInt8

structure CertByteRanges where
  tbs : List UInt8
  signatureAlgorithm : List UInt8
  subjectPublicKeyInfo : List UInt8
  deriving DecidableEq, Repr

structure CmsLib where
  enterConstructed : Encoding → Tag → List UInt8 → Except DerError (List UInt8 × List UInt8)
  rawDer : Encoding → List UInt8 → Except DerError (List UInt8 × List UInt8)
  objectIdentifier : Encoding → List UInt8 → Except DerError (List Nat × List UInt8)
  octetString : Encoding → List UInt8 → Except DerError (List UInt8 × List UInt8)
  peekTag : Encoding → List UInt8 → Except DerError Tag
  readTag : Encoding → List UInt8 → Except DerError (Tag × List UInt8)
  /-- The length, or the error of `definite()` for an indefinite one. -/
  readLength : Encoding → List UInt8 → Except DerError (Except DerError Nat × List UInt8)
  readBytes : Nat → List UInt8 → Except DerError (List UInt8 × List UInt8)
  /-- An encoder with a SET opened. -/
  startSet : Except DerError Unit
  /-- The bytes of that SET with the given contents. -/
  finishSet : List UInt8 → Except DerError (List UInt8)
  signerInfo : List UInt8 → Except DerError SignerInfo
  issuerAndSerialNumber : List UInt8 → Except DerError (List UInt8 × List UInt8)
  certificate : List UInt8 → Except DerError Certificate
  certByteRanges : List UInt8 → Option CertByteRanges
  formatDn : List UInt8 → String
  findExtensionValue : List UInt8 → List Nat → Option (List UInt8)
  /-- The hash function with an OID. -/
  hash : List Nat → List UInt8 → List UInt8
  verifyCertificateSignature (tbs signatureAlgorithm signature spki : List UInt8) : Bool
  signingAlgorithmDer : List Nat → String → Option (List UInt8)
  verifySignature (spki data algorithm signature : List UInt8) : Except String Unit
  /-- The wall clock. -/
  now : Int

/-! ## Object identifiers -/

def cmsSignedData : List Nat := [1, 2, 840, 113549, 1, 7, 2]

def pkcs9MessageDigest : List Nat := [1, 2, 840, 113549, 1, 9, 4]

def idSha256 : List Nat := [2, 16, 840, 1, 101, 3, 4, 2, 1]

def idSha384 : List Nat := [2, 16, 840, 1, 101, 3, 4, 2, 2]

def idSha512 : List Nat := [2, 16, 840, 1, 101, 3, 4, 2, 3]

def idSha1 : List Nat := [1, 3, 14, 3, 2, 26]

def rsaEncryption : List Nat := [1, 2, 840, 113549, 1, 1, 1]

def subjectKeyIdentifier : List Nat := [2, 5, 29, 14]

def oidText (oid : List Nat) : String := ".".intercalate (oid.map toString)

section Verify

variable (L : CmsLib)

/-! ## Opening a SignedData -/

structure SignedData where
  payload : List UInt8
  certs : List (List UInt8)
  signerInfos : List UInt8
  deriving DecidableEq, Repr

def elementValue (octet : List UInt8) : Except KipukaError (List UInt8) := do
  let (_, rest) ← (L.readTag .ber octet).mapError
    fun e => .badRequest s!"CMS eContent tag error: {e.debug}"
  let (length, rest) ← (L.readLength .ber rest).mapError
    fun e => .badRequest s!"CMS eContent length error: {e.debug}"
  let length ← length.mapError
    fun e => .badRequest s!"CMS eContent indefinite length: {e.debug}"
  let (value, _) ← (L.readBytes length rest).mapError
    fun e => .badRequest s!"CMS eContent value error: {e.debug}"
  return value

def eContent (encap : List UInt8) : Except KipukaError (List UInt8) :=
  if encap.isEmpty then
    .error (.badRequest "CMS SignedData has no encapsulated content (eContent is absent)")
  else do
    let (wrapper, _) ← (L.enterConstructed .ber ctx0Tag encap).mapError
      fun e => .badRequest s!"CMS eContent [0] wrapper parse error: {e.debug}"
    let (octet, _) ← (L.rawDer .ber wrapper).mapError
      fun e => .badRequest s!"CMS eContent OCTET STRING parse error: {e.debug}"
    elementValue L octet

/-- The certificates in a CertificateSet; other alternatives are skipped. -/
def certificateSet (fuel : Nat) (set : List UInt8) : Except KipukaError (List (List UInt8)) :=
  if set.isEmpty then .ok []
  else
    match fuel with
    | 0 => .error (.internal "decoder made no progress")
    | fuel + 1 => do
      let tag ← (L.peekTag .ber set).mapError
        fun e => .badRequest s!"CMS cert entry peek error: {e.debug}"
      let isCert := tag.tagClass = .universal ∧ tag.number = 16
      let (raw, rest) ← (L.rawDer .ber set).mapError fun e =>
        .badRequest (if isCert then s!"CMS cert parse error: {e.debug}"
          else s!"CMS cert alt skip error: {e.debug}")
      let certs ← certificateSet fuel rest
      return if isCert then raw :: certs else certs

/-- The fields behind encapContentInfo: certificates, CRLs and signerInfos, in any order. -/
def signedDataFields (fuel : Nat) (bytes : List UInt8) (certs : List (List UInt8))
    (signerInfos : Option (List UInt8)) :
    Except KipukaError (List (List UInt8) × Option (List UInt8)) :=
  if bytes.isEmpty then .ok (certs, signerInfos)
  else
    match fuel with
    | 0 => .error (.internal "decoder made no progress")
    | fuel + 1 => do
      let tag ← (L.peekTag .ber bytes).mapError
        fun e => .badRequest s!"CMS SignedData field peek error: {e.debug}"
      if tag.tagClass = .contextSpecific ∧ tag.number = 0 then
        let (set, rest) ← (L.enterConstructed .ber ctx0Tag bytes).mapError
          fun e => .badRequest s!"CMS certificates field parse error: {e.debug}"
        let more ← certificateSet L set.length set
        signedDataFields fuel rest (certs ++ more) signerInfos
      else if tag.tagClass = .contextSpecific ∧ tag.number = 1 then
        let (_, rest) ← (L.rawDer .ber bytes).mapError
          fun e => .badRequest s!"CMS crls skip error: {e.debug}"
        signedDataFields fuel rest certs signerInfos
      else if tag.tagClass = .universal ∧ tag.number = 17 then
        let (raw, rest) ← (L.rawDer .ber bytes).mapError
          fun e => .badRequest s!"CMS signerInfos parse error: {e.debug}"
        signedDataFields fuel rest certs (some raw)
      else
        let (_, rest) ← (L.rawDer .ber bytes).mapError
          fun e => .badRequest s!"CMS unknown field skip error: {e.debug}"
        signedDataFields fuel rest certs signerInfos

/-- Steps 1 to 3: ContentInfo, SignedData and eContent; what is left are the fields behind
    encapContentInfo. -/
def openContent (signedDataDer : List UInt8) : Except KipukaError (List UInt8 × List UInt8) := do
  let (ci, _) ← (L.enterConstructed .ber seqTag signedDataDer).mapError
    fun e => .badRequest s!"CMS ContentInfo parse error: {e.debug}"
  let (contentType, ci) ← (L.objectIdentifier .ber ci).mapError
    fun e => .badRequest s!"CMS contentType OID parse error: {e.debug}"
  refuseIf (contentType ≠ cmsSignedData)
    (.badRequest "CMS ContentInfo contentType is not id-signedData")
  let (content, _) ← (L.enterConstructed .ber ctx0Tag ci).mapError
    fun e => .badRequest s!"CMS [0] EXPLICIT wrapper parse error: {e.debug}"
  let (sd, _) ← (L.enterConstructed .ber seqTag content).mapError
    fun e => .badRequest s!"CMS SignedData SEQUENCE parse error: {e.debug}"
  let (_, sd) ← (L.rawDer .ber sd).mapError
    fun e => .badRequest s!"CMS SignedData version parse error: {e.debug}"
  let (_, sd) ← (L.rawDer .ber sd).mapError
    fun e => .badRequest s!"CMS digestAlgorithms parse error: {e.debug}"
  let (encap, sd) ← (L.enterConstructed .ber seqTag sd).mapError
    fun e => .badRequest s!"CMS encapContentInfo parse error: {e.debug}"
  let (_, encap) ← (L.objectIdentifier .ber encap).mapError
    fun e => .badRequest s!"CMS eContentType parse error: {e.debug}"
  let payload ← eContent L encap
  refuseIf payload.isEmpty (.badRequest "CMS SignedData eContent is empty")
  return (payload, sd)

/-- Step 4 as well: certificates and signerInfos. -/
def openSignedData (signedDataDer : List UInt8) : Except KipukaError SignedData := do
  let (payload, sd) ← openContent L signedDataDer
  let (certs, signerInfos) ← signedDataFields L sd.length sd [] none
  let signerInfos ← okOrElse (.badRequest "CMS SignedData has no signerInfos SET") signerInfos
  refuseIf certs.isEmpty
    (.badRequest "CMS SignedData has no certificates — signer cert is required")
  return { payload, certs, signerInfos }

def firstSignerInfo (signerInfos : List UInt8) : Except KipukaError SignerInfo := do
  let (inner, _) ← (L.enterConstructed .ber setTag signerInfos).mapError
    fun e => .badRequest s!"CMS signerInfos SET enter error: {e.debug}"
  refuseIf inner.isEmpty
    (.badRequest "CMS SignedData signerInfos is empty — at least one signer required")
  let (raw, _) ← (L.rawDer .ber inner).mapError
    fun e => .badRequest s!"CMS SignerInfo parse error: {e.debug}"
  (L.signerInfo raw).mapError
    fun e => .badRequest s!"CMS SignerInfo structured parse error: {e.debug}"

/-! ## The signer's certificate -/

/-- The key identifier in a certificate: the OCTET STRING inside the extension. -/
def certKeyId (cert : Certificate) : Option (List UInt8) :=
  match cert.extensions.bind fun exts => L.findExtensionValue exts subjectKeyIdentifier with
  | none => none
  | some ext =>
    match L.readTag .der ext with
    | .error _ => none
    | .ok (tag, rest) =>
      if tag.number = 4 then
        match L.readLength .der rest with
        | .ok (.ok length, rest) => (L.readBytes length rest).toOption.map Prod.fst
        | _ => none
      else none

def sidKeyId (sid : List UInt8) : Except KipukaError (List UInt8) := do
  let (_, rest) ← (L.readTag .ber sid).mapError
    fun e => .badRequest s!"CMS sid SKI tag error: {e.debug}"
  let (length, rest) ← (L.readLength .ber rest).mapError
    fun e => .badRequest s!"CMS sid SKI length error: {e.debug}"
  let length ← length.mapError fun e => .badRequest s!"CMS sid SKI indef error: {e.debug}"
  let (value, _) ← (L.readBytes length rest).mapError
    fun e => .badRequest s!"CMS sid SKI value error: {e.debug}"
  return value

def matchSignerCertBySid (sid : List UInt8) (certs : List (List UInt8)) :
    Except KipukaError (List UInt8) :=
  match sid with
  | [] => .error (.badRequest "CMS SignerInfo sid is empty")
  | 0x30 :: _ => do
    let (issuer, serial) ← (L.issuerAndSerialNumber sid).mapError
      fun e => .badRequest s!"CMS sid IssuerAndSerialNumber parse error: {e.debug}"
    okOrElse (.badRequest "CMS signer certificate not found by IssuerAndSerialNumber")
      (certs.find? fun der =>
        match L.certificate der with
        | .ok cert => cert.issuer = issuer ∧ cert.serialNumber = serial
        | .error _ => false)
  | 0x80 :: _ => do
    let ski ← sidKeyId L sid
    okOrElse (.badRequest "CMS signer certificate not found by SubjectKeyIdentifier")
      (certs.find? fun der =>
        match L.certificate der with
        | .ok cert => certKeyId L cert = some ski
        | .error _ => false)
  | _ =>
    -- an unknown form of sid falls back to the first certificate; `certs` is not empty here
    .ok (certs.headD [])

def validNow (der : List UInt8) : Except String Unit := do
  let cert ← (L.certificate der).mapError DerError.display
  let notBefore ← cert.notBefore
  refuseIf (decide (L.now < notBefore)) "certificate outside validity period"
  let notAfter ← cert.notAfter
  refuseIf (decide (L.now > notAfter)) "certificate outside validity period"

def signerTrusted (der : List UInt8) (ranges : CertByteRanges) (signature : List UInt8)
    (truststore : List (List UInt8)) : Bool :=
  truststore.any fun anchor =>
    match L.certByteRanges anchor with
    | none => false
    | some r =>
      L.verifyCertificateSignature ranges.tbs ranges.signatureAlgorithm signature
        r.subjectPublicKeyInfo || anchor = der

/-! ## What the signature covers -/

def algorithmOid (whatSeq whatOid : DerError → KipukaError) (algorithm : List UInt8) :
    Except KipukaError (List Nat) := do
  let (inner, _) ← (L.enterConstructed .der seqTag algorithm).mapError whatSeq
  let (oid, _) ← (L.objectIdentifier .der inner).mapError whatOid
  return oid

def computeDigest (algOid : List Nat) (data : List UInt8) : Except KipukaError (List UInt8) :=
  if algOid = idSha256 ∨ algOid = idSha384 ∨ algOid = idSha512 then .ok (L.hash algOid data)
  else if algOid = idSha1 then
    .error (.badRequest
      "CMS digest algorithm SHA-1 is not permitted — use SHA-256 or stronger")
  else .error (.badRequest s!"unsupported CMS digest algorithm OID: {algOid}")

/-- The values of an attribute that is not the message digest are read and dropped. -/
def skipValues (fuel : Nat) (attr : List UInt8) : Except KipukaError Unit :=
  if attr.isEmpty then .ok ()
  else
    match fuel with
    | 0 => .error (.internal "decoder made no progress")
    | fuel + 1 => do
      let (_, rest) ← (L.rawDer .der attr).mapError
        fun e => .badRequest s!"CMS attr value error: {e.display}"
      skipValues fuel rest

/-- The attribute loop of `verify_message_digest_attribute`; returns `found`. -/
def messageDigestLoop (expected : List UInt8) (fuel : Nat) (attrs : List UInt8) (found : Bool) :
    Except KipukaError Bool :=
  if attrs.isEmpty then .ok found
  else
    match fuel with
    | 0 => .error (.internal "decoder made no progress")
    | fuel + 1 => do
      let (attr, rest) ← (L.enterConstructed .der seqTag attrs).mapError
        fun e => .badRequest s!"CMS attr SEQUENCE error: {e.display}"
      let (oid, attr) ← (L.objectIdentifier .der attr).mapError
        fun e => .badRequest s!"CMS attr OID error: {e.display}"
      if oid = pkcs9MessageDigest then
        refuseIf found (.badRequest "duplicate CMS message-digest attribute")
        let (values, attr) ← (L.enterConstructed .der setTag attr).mapError
          fun e => .badRequest s!"CMS messageDigest SET error: {e.display}"
        let (digest, values) ← (L.octetString .der values).mapError
          fun e => .badRequest s!"CMS messageDigest OCTET STRING error: {e.display}"
        refuseIf (!values.isEmpty || !attr.isEmpty)
          (.badRequest "CMS message-digest requires exactly one value")
        refuseIf (digest ≠ expected)
          (.auth "CMS message-digest attribute does not match eContent hash")
        messageDigestLoop expected fuel rest true
      else
        skipValues L attr.length attr
        messageDigestLoop expected fuel rest found

def verifyMessageDigestAttribute (signedAttrs expected : List UInt8) : Except KipukaError Unit := do
  let found ← messageDigestLoop L expected signedAttrs.length signedAttrs false
  refuseIf (!found)
    (.badRequest "CMS signedAttrs is missing the required message-digest attribute")

/-- Step 8: the signature covers the signed attributes as a SET if there are any, and the payload
    itself if there are none. -/
def verificationData (info : SignerInfo) (payload : List UInt8) : Except KipukaError (List UInt8) :=
  match info.signedAttrs with
  | some signedAttrs => do
    let digestAlg ← algorithmOid L
      (fun e => .badRequest s!"CMS digestAlg SEQUENCE error: {e.debug}")
      (fun e => .badRequest s!"CMS digestAlg OID error: {e.debug}") info.digestAlgorithm
    let payloadHash ← computeDigest L digestAlg payload
    verifyMessageDigestAttribute L signedAttrs payloadHash
    L.startSet.mapError fun e => .badRequest s!"CMS signedAttrs SET error: {e.display}"
    (L.finishSet signedAttrs).mapError
      fun e => .badRequest s!"CMS signedAttrs encoding error: {e.display}"
  | none => .ok payload

def rsaHash (oid : List Nat) : Except KipukaError String :=
  if oid = idSha256 then .ok "sha256"
  else if oid = idSha384 then .ok "sha384"
  else if oid = idSha512 then .ok "sha512"
  else .error (.auth "unsupported CMS RSA digest")

/-- rsaEncryption takes its digest from digestAlgorithm; other algorithms stand for themselves. -/
def verificationAlgorithm (info : SignerInfo) (sigAlg : String) : Except KipukaError (List UInt8) :=
  if sigAlg = "1.2.840.113549.1.1.1" then do
    let oid ← algorithmOid L
      (fun e => .badRequest s!"CMS digest algorithm: {e.display}")
      (fun e => .badRequest s!"CMS digest OID: {e.display}") info.digestAlgorithm
    let hash ← rsaHash oid
    okOrElse (.auth "unsupported CMS RSA signature algorithm")
      (L.signingAlgorithmDer rsaEncryption hash)
  else .ok info.signatureAlgorithm

/-! ## verify_cms_signed_data -/

structure CmsVerificationResult where
  signerCertDer : List UInt8
  signerSubjectDn : String
  payload : List UInt8
  signatureAlgorithm : String
  deriving DecidableEq, Repr

def verifyCmsSignedData (signedDataDer : List UInt8) (truststore : List (List UInt8)) :
    Except KipukaError CmsVerificationResult := do
  refuseIf signedDataDer.isEmpty (.badRequest "CMS SignedData is empty")
  refuseIf (decide (signedDataDer.length < 100))
    (.badRequest "CMS SignedData is too short to be valid")
  refuseIf truststore.isEmpty
    (.auth "CMS truststore is empty — cannot verify signer certificate")
  let sd ← openSignedData L signedDataDer
  let info ← firstSignerInfo L sd.signerInfos
  let sigAlgOid ← algorithmOid L
    (fun e => .badRequest s!"CMS sigAlg SEQUENCE error: {e.debug}")
    (fun e => .badRequest s!"CMS sigAlg OID error: {e.debug}") info.signatureAlgorithm
  let der ← matchSignerCertBySid L info.sid sd.certs
  let ranges ← okOrElse (.badRequest "failed to parse signer certificate structure")
    (L.certByteRanges der)
  let cert ← (L.certificate der).mapError
    fun e => .badRequest s!"signer cert decode error: {e.debug}"
  (validNow L der).mapError .auth
  let parsed ← (L.certificate der).mapError
    fun e => .badRequest s!"failed to parse signer certificate: {e.debug}"
  refuseIf (!signerTrusted L der ranges parsed.signatureValue truststore)
    (.auth "CMS signer certificate does not chain to a trust anchor")
  let data ← verificationData L info sd.payload
  let algorithm ← verificationAlgorithm L info (oidText sigAlgOid)
  (L.verifySignature ranges.subjectPublicKeyInfo data algorithm info.signature).mapError
    fun e => .auth s!"CMS SignedData signature verification failed: {e}"
  return {
    signerCertDer := der
    signerSubjectDn := L.formatDn cert.subject
    payload := sd.payload
    signatureAlgorithm := oidText sigAlgOid }

end Verify

end Kipuka.Auth
