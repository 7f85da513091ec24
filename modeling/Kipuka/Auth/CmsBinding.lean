/-
  Which payloads `verify_cms_signed_data` can return for a key that has only signed messages with
  signed attributes.
-/
import Kipuka.Auth.Cms

namespace Kipuka.Auth

open Generic

/-! ## The message-digest attribute -/

/-- The attributes in `attrs`, as the library reads them one by one, include a message-digest
    attribute with the value `digest`. -/
inductive HasMessageDigest (L : CmsLib) (digest : List UInt8) : List UInt8 → Prop where
  | here {attrs attr rest values value after more : List UInt8} (hne : attrs ≠ [])
      (hattr : L.enterConstructed .der seqTag attrs = .ok (attr, rest))
      (hoid : L.objectIdentifier .der attr = .ok (pkcs9MessageDigest, values))
      (hset : L.enterConstructed .der setTag values = .ok (value, after))
      (hvalue : L.octetString .der value = .ok (digest, more)) : HasMessageDigest L digest attrs
  | later {attrs attr rest : List UInt8} (hne : attrs ≠ [])
      (hattr : L.enterConstructed .der seqTag attrs = .ok (attr, rest))
      (hrest : HasMessageDigest L digest rest) : HasMessageDigest L digest attrs

section Library

variable {L : CmsLib} {fuel : Nat} {found found' : Bool}

theorem messageDigestLoop_turn {expected attrs attr rest : List UInt8} (hne : attrs ≠ [])
    (hattr : L.enterConstructed .der seqTag attrs = .ok (attr, rest))
    (hok : messageDigestLoop L expected fuel attrs found = .ok found') :
    (∃ fuel' found'', messageDigestLoop L expected fuel' rest found'' = .ok found') ∧
      ∀ values value after digest more,
        L.objectIdentifier .der attr = .ok (pkcs9MessageDigest, values) →
        L.enterConstructed .der setTag values = .ok (value, after) →
        L.octetString .der value = .ok (digest, more) → digest = expected := by
  unfold messageDigestLoop at hok
  rw [if_neg (by simpa using hne)] at hok
  cases fuel with
  | zero => exact nomatch hok
  | succ fuel =>
    dsimp only at hok
    obtain ⟨⟨attr', rest'⟩, hread, hok⟩ := except_bind_eq_ok.mp hok
    rw [mapError_eq_ok, hattr] at hread
    obtain ⟨rfl, rfl⟩ := Prod.mk.inj (Except.ok.inj hread)
    obtain ⟨⟨oid, values'⟩, hoid', hok⟩ := except_bind_eq_ok.mp hok
    rw [mapError_eq_ok] at hoid'
    dsimp only at hok
    split at hok
    · obtain ⟨-, hok⟩ := refuseIf_bind_eq_ok.mp hok
      obtain ⟨⟨value', after'⟩, hset', hok⟩ := except_bind_eq_ok.mp hok
      obtain ⟨⟨digest', more'⟩, hvalue', hok⟩ := except_bind_eq_ok.mp hok
      obtain ⟨-, hok⟩ := refuseIf_bind_eq_ok.mp hok
      obtain ⟨hsame, hok⟩ := refuseIf_bind_eq_ok.mp hok
      rw [mapError_eq_ok] at hset' hvalue'
      refine ⟨⟨fuel, true, hok⟩, fun values value after digest more hoid hset hvalue => ?_⟩
      rw [hoid] at hoid'
      obtain ⟨-, rfl⟩ := Prod.mk.inj (Except.ok.inj hoid')
      rw [hset] at hset'
      obtain ⟨rfl, -⟩ := Prod.mk.inj (Except.ok.inj hset')
      rw [hvalue] at hvalue'
      obtain ⟨rfl, -⟩ := Prod.mk.inj (Except.ok.inj hvalue')
      simpa using hsame
    · next hother =>
      obtain ⟨-, -, hok⟩ := except_bind_eq_ok.mp hok
      refine ⟨⟨fuel, found, hok⟩, fun values value after digest more hoid hset hvalue => ?_⟩
      rw [hoid] at hoid'
      exact absurd (Prod.mk.inj (Except.ok.inj hoid')).1.symm hother

variable {digest attrs expected : List UInt8}

theorem messageDigestLoop_digest (h : HasMessageDigest L digest attrs)
    (hok : messageDigestLoop L expected fuel attrs found = .ok found') : digest = expected := by
  induction h generalizing fuel found with
  | here hne hattr hoid hset hvalue =>
    exact (messageDigestLoop_turn hne hattr hok).2 _ _ _ _ _ hoid hset hvalue
  | later hne hattr _ ih =>
    obtain ⟨fuel', found'', hrest⟩ := (messageDigestLoop_turn hne hattr hok).1
    exact ih hrest

theorem verifyMessageDigestAttribute_digest (h : HasMessageDigest L digest attrs)
    (hok : verifyMessageDigestAttribute L attrs expected = .ok ()) : digest = expected := by
  unfold verifyMessageDigestAttribute at hok
  obtain ⟨found, hloop, -⟩ := except_bind_eq_ok.mp hok
  exact messageDigestLoop_digest h hloop

/-! ## What an accepted message establishes -/

theorem verifyCmsSignedData_ok {der : List UInt8} {truststore : List (List UInt8)}
    {result : CmsVerificationResult} (hok : verifyCmsSignedData L der truststore = .ok result) :
    ∃ sd info ranges data algorithm, openSignedData L der = .ok sd ∧
      firstSignerInfo L sd.signerInfos = .ok info ∧
      matchSignerCertBySid L info.sid sd.certs = .ok result.signerCertDer ∧
      result.payload = sd.payload ∧ L.certByteRanges result.signerCertDer = some ranges ∧
      verificationData L info sd.payload = .ok data ∧
      L.verifySignature ranges.subjectPublicKeyInfo data algorithm info.signature = .ok () := by
  unfold verifyCmsSignedData at hok
  iterate 3 obtain ⟨-, hok⟩ := refuseIf_bind_eq_ok.mp hok
  obtain ⟨sd, hsd, hok⟩ := except_bind_eq_ok.mp hok
  obtain ⟨info, hinfo, hok⟩ := except_bind_eq_ok.mp hok
  obtain ⟨sigAlgOid, -, hok⟩ := except_bind_eq_ok.mp hok
  obtain ⟨cert, hcert, hok⟩ := except_bind_eq_ok.mp hok
  obtain ⟨ranges, hranges, hok⟩ := except_bind_eq_ok.mp hok
  iterate 3 obtain ⟨_, -, hok⟩ := except_bind_eq_ok.mp hok
  obtain ⟨-, hok⟩ := refuseIf_bind_eq_ok.mp hok
  obtain ⟨data, hdata, hok⟩ := except_bind_eq_ok.mp hok
  obtain ⟨algorithm, -, hok⟩ := except_bind_eq_ok.mp hok
  obtain ⟨⟨⟩, hsig, hok⟩ := except_bind_eq_ok.mp hok
  rw [mapError_eq_ok] at hsig
  rw [okOrElse_eq_ok] at hranges
  obtain rfl := Except.ok.inj hok
  exact ⟨sd, info, ranges, data, algorithm, hsd, hinfo, hcert, rfl, hranges, hdata, hsig⟩

theorem verificationData_attrs {info : SignerInfo} {payload data signedAttrs : List UInt8}
    (hattrs : info.signedAttrs = some signedAttrs)
    (hok : verificationData L info payload = .ok data) :
    L.finishSet signedAttrs = .ok data ∧
      ∃ alg, verifyMessageDigestAttribute L signedAttrs (L.hash alg payload) = .ok () := by
  unfold verificationData at hok
  rw [hattrs] at hok
  dsimp only at hok
  obtain ⟨alg, -, hok⟩ := except_bind_eq_ok.mp hok
  obtain ⟨hash, hhash, hok⟩ := except_bind_eq_ok.mp hok
  obtain ⟨⟨⟩, hverify, hok⟩ := except_bind_eq_ok.mp hok
  obtain ⟨_, -, hok⟩ := except_bind_eq_ok.mp hok
  rw [mapError_eq_ok] at hok
  refine ⟨hok, alg, ?_⟩
  unfold computeDigest at hhash
  split at hhash
  · rw [Except.ok.inj hhash]
    exact hverify
  · split at hhash <;> exact nomatch hhash

/-! ## Payload binding -/

/-- A message the holder of the key has signed: its content and the contents of its signed
    attributes. -/
structure SignedMessage where
  content : List UInt8
  signedAttrs : List UInt8
  deriving DecidableEq, Repr

/-- What is assumed of the signer and of the library: the key has signed these messages only, in the
    way of CMS. -/
structure SignerAssumptions (L : CmsLib) (key : List UInt8) (history : List SignedMessage) :
    Prop where
  /-- A signature verifies only over bytes the key signed: the attribute SETs of the history. -/
  unforgeable : ∀ data algorithm signature,
    L.verifySignature key data algorithm signature = .ok () →
      ∃ msg ∈ history, L.finishSet msg.signedAttrs = .ok data
  collisionFree : ∀ alg alg' x y, L.hash alg x = L.hash alg' y → x = y
  encodesFaithfully : ∀ a b data, L.finishSet a = .ok data → L.finishSet b = .ok data → a = b
  /-- The message digest in the attributes is the digest of the content. -/
  digests : ∀ msg ∈ history, ∃ alg, HasMessageDigest L (L.hash alg msg.content) msg.signedAttrs

/-- The first signer info of the message has signed attributes. -/
def CarriesSignedAttrs (L : CmsLib) (der : List UInt8) : Prop :=
  ∃ sd info, openSignedData L der = .ok sd ∧ firstSignerInfo L sd.signerInfos = .ok info ∧
    info.signedAttrs.isSome = true

/-- The eContent of the message is a content the holder signed and at the same time the attribute
    SET of a message the holder signed. -/
def ContentIsSignedAttrs (L : CmsLib) (history : List SignedMessage) (der : List UInt8) : Prop :=
  ∃ sd, openSignedData L der = .ok sd ∧ (∃ msg ∈ history, msg.content = sd.payload) ∧
    ∃ msg ∈ history, L.finishSet msg.signedAttrs = .ok sd.payload

/-- The payload of a message accepted with the signer's certificate is one of the contents the
    holder signed exactly if the message carries signed attributes (or its content happens to be
    both a signed content and a signed attribute SET). -/
theorem payload_bound_iff {key : List UInt8} {history : List SignedMessage}
    (hsigner : SignerAssumptions L key history) {der : List UInt8} {truststore : List (List UInt8)}
    {result : CmsVerificationResult} (hok : verifyCmsSignedData L der truststore = .ok result)
    (hkey : (L.certByteRanges result.signerCertDer).map CertByteRanges.subjectPublicKeyInfo =
      some key) :
    (∃ msg ∈ history, msg.content = result.payload) ↔
      CarriesSignedAttrs L der ∨ ContentIsSignedAttrs L history der := by
  obtain ⟨sd, info, ranges, data, algorithm, hsd, hinfo, -, hpayload, hranges, hdata, hsig⟩ :=
    verifyCmsSignedData_ok hok
  rw [hranges] at hkey
  rw [show ranges.subjectPublicKeyInfo = key from Option.some.inj hkey] at hsig
  obtain ⟨signed, hmem, hsigned⟩ := hsigner.unforgeable data algorithm info.signature hsig
  rw [hpayload]
  constructor
  · intro hcontent
    cases hattrs : info.signedAttrs with
    | some attrs => exact .inl ⟨sd, info, hsd, hinfo, by rw [hattrs]; rfl⟩
    | none =>
      -- the signature covers the payload, so the payload is an attribute SET
      have hcover : data = sd.payload := by
        unfold verificationData at hdata
        rw [hattrs] at hdata
        exact (Except.ok.inj hdata).symm
      rw [hcover] at hsigned
      exact .inr ⟨sd, hsd, hcontent, signed, hmem, hsigned⟩
  · rintro (⟨sd', info', hsd', hinfo', hsome⟩ | ⟨sd', hsd', hcontent, -⟩)
    · obtain rfl := Except.ok.inj (hsd.symm.trans hsd')
      obtain rfl := Except.ok.inj (hinfo.symm.trans hinfo')
      obtain ⟨attrs, hattrs⟩ := Option.isSome_iff_exists.mp hsome
      obtain ⟨hset, alg, hverify⟩ := verificationData_attrs hattrs hdata
      obtain rfl := hsigner.encodesFaithfully _ _ _ hset hsigned
      obtain ⟨alg', hdigest⟩ := hsigner.digests signed hmem
      have hsame := verifyMessageDigestAttribute_digest hdigest hverify
      exact ⟨signed, hmem, hsigner.collisionFree _ _ _ _ hsame⟩
    · obtain rfl := Except.ok.inj (hsd.symm.trans hsd')
      exact hcontent

end Library

/-! ## A replayed attribute SET -/

namespace Replay

def lengthOctets (n : Nat) : List UInt8 :=
  if n < 128 then [n.toUInt8]
  else if n < 256 then [0x81, n.toUInt8]
  else [0x82, (n / 256).toUInt8, n.toUInt8]

def tlv (tag : UInt8) (contents : List UInt8) : List UInt8 :=
  tag :: lengthOctets contents.length ++ contents

def malformed {α : Type} : Except DerError α := .error ⟨"Malformed", "malformed"⟩

def readTag : List UInt8 → Except DerError (Tag × List UInt8)
  | [] => malformed
  | b :: rest =>
    if b.toNat % 32 = 31 then malformed
    else
      let tagClass := match b.toNat / 64 with
        | 0 => TagClass.universal
        | 1 => .application
        | 2 => .contextSpecific
        | _ => .privateUse
      .ok (⟨tagClass, b.toNat / 32 % 2 = 1, b.toNat % 32⟩, rest)

def readLength : List UInt8 → Except DerError (Nat × List UInt8)
  | 0x81 :: n :: rest => .ok (n.toNat, rest)
  | 0x82 :: n :: m :: rest => .ok (256 * n.toNat + m.toNat, rest)
  | n :: rest => if n < 128 then .ok (n.toNat, rest) else malformed
  | [] => malformed

def readBytes (n : Nat) (bytes : List UInt8) : Except DerError (List UInt8 × List UInt8) :=
  if bytes.length < n then malformed else .ok (bytes.splitAt n)

def readTlv (bytes : List UInt8) : Except DerError (Tag × List UInt8 × List UInt8) := do
  let (tag, rest) ← readTag bytes
  let (n, rest) ← readLength rest
  let (contents, rest) ← readBytes n rest
  return (tag, contents, rest)

def expect (tag : Tag) (bytes : List UInt8) : Except DerError (List UInt8 × List UInt8) := do
  let (found, contents, rest) ← readTlv bytes
  if found = tag then .ok (contents, rest) else malformed

def readRaw (bytes : List UInt8) : Except DerError (List UInt8 × List UInt8) := do
  let (_, _, rest) ← readTlv bytes
  return (bytes.take (bytes.length - rest.length), rest)

def arcs : Nat → List UInt8 → List Nat
  | _, [] => []
  | acc, b :: bytes =>
    let acc := 128 * acc + b.toNat % 128
    if b < 128 then acc :: arcs 0 bytes else arcs acc bytes

def readOid (bytes : List UInt8) : Except DerError (List Nat × List UInt8) := do
  let (contents, rest) ← expect ⟨.universal, false, 6⟩ bytes
  match arcs 0 contents with
  | [] => malformed
  | first :: more => return (min (first / 40) 2 :: (first - 40 * min (first / 40) 2) :: more, rest)

def octetTag : Tag := ⟨.universal, false, 4⟩

def readIssuerAndSerial (bytes : List UInt8) : Except DerError (List UInt8 × List UInt8) := do
  let (seq, _) ← expect seqTag bytes
  let (issuer, seq) ← readRaw seq
  let (serial, _) ← expect ⟨.universal, false, 2⟩ seq
  return (issuer, serial)

def readSignedAttrs (bytes : List UInt8) : Except DerError (Option (List UInt8) × List UInt8) := do
  let (tag, _) ← readTag bytes
  if tag = ctx0Tag then
    let (attrs, rest) ← expect ctx0Tag bytes
    return (some attrs, rest)
  else return (none, bytes)

def readSignerInfo (bytes : List UInt8) : Except DerError SignerInfo := do
  let (seq, _) ← expect seqTag bytes
  let (_, seq) ← readRaw seq
  let (sid, seq) ← readRaw seq
  let (digestAlgorithm, seq) ← readRaw seq
  let (signedAttrs, seq) ← readSignedAttrs seq
  let (signatureAlgorithm, seq) ← readRaw seq
  let (signature, _) ← expect octetTag seq
  return { sid, digestAlgorithm, signedAttrs, signatureAlgorithm, signature }

def writeSet (contents : List UInt8) : Except DerError (List UInt8) :=
  if contents.length < 128 then .ok (tlv 0x31 contents) else malformed

def raName : List UInt8 := tlv 0x30 (tlv 0x31 (tlv 0x30 ([0x06, 0x03, 0x55, 0x04, 0x03] ++
  tlv 0x0C [0x72, 0x61])))

def ecdsaSha256 : List UInt8 :=
  [0x30, 0x0A, 0x06, 0x08, 0x2A, 0x86, 0x48, 0xCE, 0x3D, 0x04, 0x03, 0x02]

def sha256Algorithm : List UInt8 :=
  [0x30, 0x0B, 0x06, 0x09, 0x60, 0x86, 0x48, 0x01, 0x65, 0x03, 0x04, 0x02, 0x01]

/-- A number in 32 bytes. -/
def octets (n : Nat) : List UInt8 := (List.range 32).reverse.map fun i => UInt8.ofNat (n >>> (8 * i))

def raKey : List UInt8 :=
  [0x30, 0x59, 0x30, 0x13, 0x06, 0x07, 0x2A, 0x86, 0x48, 0xCE, 0x3D, 0x02, 0x01, 0x06, 0x08, 0x2A,
   0x86, 0x48, 0xCE, 0x3D, 0x03, 0x01, 0x07, 0x03, 0x42, 0x00, 0x04] ++
    octets 0xF7E21D58A5538FB462344F4F1711E153BD980C77B24B140C0647136774269BE9 ++
    octets 0x71570FB41DE9B8E21249A450A198FFDD043AB653116B05C1819C42C00CD7A852

def raValidity : List UInt8 :=
  [0x30, 0x20, 0x17, 0x0D, 0x32, 0x36, 0x31, 0x31, 0x31, 0x36, 0x32, 0x31, 0x34, 0x35, 0x31, 0x35,
   0x5A, 0x18, 0x0F, 0x32, 0x31, 0x32, 0x36, 0x31, 0x30, 0x32, 0x33, 0x32, 0x31, 0x34, 0x35, 0x31,
   0x35, 0x5A]

def raTbs : List UInt8 :=
  tlv 0x30 ([0x02, 0x01, 0x07] ++ ecdsaSha256 ++ raName ++ raValidity ++ raName ++ raKey)

def raCertSignature : List UInt8 :=
  [0x30, 0x46, 0x02, 0x21, 0x00] ++
    octets 0xDD866FC3D5F02BBE3EEB03EB7033859308503B7862A81C8FFE8323FC19A0EE36 ++ [0x02, 0x21, 0x00] ++
    octets 0x966A3C285380563E00E2937A3978A1B93B893BE54D773645C7F638D6AB61E85B

def raCert : List UInt8 :=
  tlv 0x30 (raTbs ++ ecdsaSha256 ++ tlv 0x03 (0x00 :: raCertSignature))

def content : List UInt8 := [0x30, 0x03, 0x02, 0x01, 0x2A]

def contentDigest : List UInt8 :=
  octets 0x48DF3DA1BFF25BAB3F2E8993F1611D948A81EEF712A6D774F8770FAF55C5CE4B

def attributes : List UInt8 :=
  [0x30, 0x18, 0x06, 0x09, 0x2A, 0x86, 0x48, 0x86, 0xF7, 0x0D, 0x01, 0x09, 0x03, 0x31, 0x0B, 0x06,
   0x09, 0x2A, 0x86, 0x48, 0x86, 0xF7, 0x0D, 0x01, 0x07, 0x01] ++
  tlv 0x30 ([0x06, 0x09, 0x2A, 0x86, 0x48, 0x86, 0xF7, 0x0D, 0x01, 0x09, 0x04] ++
    tlv 0x31 (tlv 0x04 contentDigest))

def attributesSignature : List UInt8 :=
  [0x30, 0x46, 0x02, 0x21, 0x00] ++
    octets 0xD2693DDD4BD097D98D45C6E22B3E3083C7E266498BBF5859113AB558B72B26B3 ++ [0x02, 0x21, 0x00] ++
    octets 0xC80346061C5E2556FBC7FA9DFA76599CB3227CAACFFCD479E9F60F7647F79914

/-- The library on these inputs. Of the certificates it knows this one, of the signatures the one
    over the attributes, of the digests the one of `content`. -/
def library : CmsLib where
  enterConstructed := fun _ tag bytes => expect tag bytes
  rawDer := fun _ => readRaw
  objectIdentifier := fun _ => readOid
  octetString := fun _ => expect octetTag
  peekTag := fun _ bytes => (readTag bytes).map Prod.fst
  readTag := fun _ => readTag
  readLength := fun _ bytes => (readLength bytes).map fun (n, rest) => (.ok n, rest)
  readBytes := readBytes
  startSet := .ok ()
  finishSet := writeSet
  signerInfo := readSignerInfo
  issuerAndSerialNumber := readIssuerAndSerial
  certificate := fun der =>
    if der = raCert then
      .ok ⟨raName, [0x07], raName, .ok 1794865515, .ok 4948465515, none, raCertSignature⟩
    else malformed
  certByteRanges := fun der => if der = raCert then some ⟨raTbs, ecdsaSha256, raKey⟩ else none
  formatDn := fun name => if name = raName then "CN=ra" else ""
  findExtensionValue := fun _ _ => none
  hash := fun _ x => if x = content then contentDigest else 0x00 :: x
  verifyCertificateSignature := fun tbs alg sig spki =>
    tbs = raTbs && alg = ecdsaSha256 && sig = raCertSignature && spki = raKey
  signingAlgorithmDer := fun _ _ => none
  verifySignature := fun spki data alg sig =>
    if spki = raKey ∧ data = tlv 0x31 attributes ∧ alg = ecdsaSha256 ∧ sig = attributesSignature
    then .ok () else .error "verification failed"
  now := 1794865600

def sid : List UInt8 := tlv 0x30 (raName ++ [0x02, 0x01, 0x07])

def signerInfo (attrs : List UInt8) : List UInt8 :=
  tlv 0x30 ([0x02, 0x01, 0x01] ++ sid ++ sha256Algorithm ++ attrs ++ ecdsaSha256 ++
    tlv 0x04 attributesSignature)

def signedData (payload attrs : List UInt8) : List UInt8 :=
  tlv 0x30 ([0x06, 0x09, 0x2A, 0x86, 0x48, 0x86, 0xF7, 0x0D, 0x01, 0x07, 0x02] ++
    tlv 0xA0 (tlv 0x30 ([0x02, 0x01, 0x01] ++ tlv 0x31 sha256Algorithm ++
      tlv 0x30 ([0x06, 0x09, 0x2A, 0x86, 0x48, 0x86, 0xF7, 0x0D, 0x01, 0x07, 0x01] ++
        tlv 0xA0 (tlv 0x04 payload)) ++
      tlv 0xA0 raCert ++ tlv 0x31 (signerInfo attrs))))

def original : List UInt8 := signedData content (tlv 0xA0 attributes)

def replayed : List UInt8 := signedData (tlv 0x31 attributes) []

theorem writeSet_inj {a b data : List UInt8} (ha : writeSet a = .ok data)
    (hb : writeSet b = .ok data) : a = b := by
  unfold writeSet at ha hb
  split at ha
  · split at hb
    · next hlt hlt' =>
      have hsame := (Except.ok.inj ha).trans (Except.ok.inj hb).symm
      rw [tlv, tlv, lengthOctets, lengthOctets, if_pos hlt, if_pos hlt'] at hsame
      exact (List.cons.inj (List.cons.inj hsame).2).2
    · exact nomatch hb
  · exact nomatch ha

theorem assumptions : SignerAssumptions library raKey [⟨content, attributes⟩] where
  unforgeable := by
    intro data algorithm signature hok
    refine ⟨⟨content, attributes⟩, List.mem_singleton_self _, ?_⟩
    change (if _ then Except.ok () else _) = _ at hok
    split at hok
    · next h => rw [h.2.1]; decide +kernel
    · exact nomatch hok
  collisionFree := by
    intro alg alg' x y hsame
    change (if x = content then contentDigest else 0x00 :: x) =
      if y = content then contentDigest else 0x00 :: y at hsame
    split at hsame <;> split at hsame
    · next hx hy => rw [hx, hy]
    · exact absurd (List.cons.inj hsame).1 (by decide)
    · exact absurd (List.cons.inj hsame).1 (by decide)
    · exact (List.cons.inj hsame).2
  encodesFaithfully := fun _ _ _ => writeSet_inj
  digests := by
    intro msg hmem
    rw [List.mem_singleton] at hmem
    subst hmem
    refine ⟨idSha256, ?_⟩
    -- the message digest is the second attribute
    have hfirst : library.enterConstructed .der seqTag attributes =
        .ok ((attributes.drop 2).take 24, attributes.drop 26) := by decide +kernel
    have hsecond : library.enterConstructed .der seqTag (attributes.drop 26) =
        .ok (attributes.drop 28, []) := by decide +kernel
    have hset : library.enterConstructed .der setTag (attributes.drop 39) =
        .ok (attributes.drop 41, []) := by decide +kernel
    have hoid : library.objectIdentifier .der (attributes.drop 28) =
        .ok (pkcs9MessageDigest, attributes.drop 39) := by decide +kernel
    have hvalue : library.octetString .der (attributes.drop 41) =
        .ok (library.hash idSha256 content, []) := by decide +kernel
    exact .later (by decide +kernel) hfirst (.here (by decide +kernel) hsecond hoid hset hvalue)

/-- The key has signed one message, with its attributes. The attribute SET of that message as the
    content of another, under the same signature, is accepted, and the attribute SET is returned. -/
theorem replayed_attributes_accepted :
    SignerAssumptions library raKey [⟨content, attributes⟩] ∧
      verifyCmsSignedData library replayed [raCert] =
        .ok ⟨raCert, "CN=ra", tlv 0x31 attributes, "1.2.840.10045.4.3.2"⟩ ∧
      (library.certByteRanges raCert).map CertByteRanges.subjectPublicKeyInfo = some raKey ∧
      tlv 0x31 attributes ≠ content :=
  ⟨assumptions, by decide +kernel, by decide +kernel, by decide +kernel⟩

theorem payload_bound_original :
    ∃ result, verifyCmsSignedData library original [raCert] = .ok result ∧
      ∃ msg ∈ [SignedMessage.mk content attributes], msg.content = result.payload := by
  have hok : verifyCmsSignedData library original [raCert] =
      .ok ⟨raCert, "CN=ra", content, "1.2.840.10045.4.3.2"⟩ := by decide +kernel
  refine ⟨_, hok, (payload_bound_iff assumptions hok (by decide +kernel)).mpr (.inl ?_)⟩
  exact ⟨⟨content, [raCert], tlv 0x31 (signerInfo (tlv 0xA0 attributes))⟩,
    ⟨sid, sha256Algorithm, some attributes, ecdsaSha256, attributesSignature⟩,
    by decide +kernel, by decide +kernel, rfl⟩

end Replay

end Kipuka.Auth
