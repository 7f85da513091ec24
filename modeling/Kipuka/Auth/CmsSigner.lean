/-
  Who signed a message that `verify_cms_signed_data` accepts. The code reads the first SignerInfo,
  and takes the first certificate where it does not know the form of the identifier. The readers of
  DER are a parameter; nothing is assumed of the signatures.
-/
import Kipuka.Auth.CmsBinding

namespace Kipuka.Auth

open Generic

/-! ## Signers -/

inductive Elements (L : CmsLib) : List UInt8 → List (List UInt8) → Prop where
  | nil : Elements L [] []
  | cons {bytes raw rest : List UInt8} {more : List (List UInt8)} (hne : bytes ≠ [])
      (hraw : L.rawDer .ber bytes = .ok (raw, rest)) (hrest : Elements L rest more) :
      Elements L bytes (raw :: more)

def Tag.IsCertificates (tag : Tag) : Prop := tag.tagClass = .contextSpecific ∧ tag.number = 0

def Tag.IsSet (tag : Tag) : Prop := tag.tagClass = .universal ∧ tag.number = 17

/-- The first of the fields behind encapContentInfo, and what follows it: a SET, or something else. -/
inductive SdField (L : CmsLib) (bytes : List UInt8) : Option (List UInt8) → List UInt8 → Prop where
  | set {tag : Tag} {raw rest : List UInt8} (htag : L.peekTag .ber bytes = .ok tag)
      (hset : tag.IsSet) (hraw : L.rawDer .ber bytes = .ok (raw, rest)) :
      SdField L bytes (some raw) rest
  | certificates {tag : Tag} {certs rest : List UInt8} (htag : L.peekTag .ber bytes = .ok tag)
      (hcerts : tag.IsCertificates) (henter : L.enterConstructed .ber ctx0Tag bytes = .ok (certs, rest)) :
      SdField L bytes none rest
  | other {tag : Tag} {raw rest : List UInt8} (htag : L.peekTag .ber bytes = .ok tag)
      (hcerts : ¬ tag.IsCertificates) (hset : ¬ tag.IsSet)
      (hraw : L.rawDer .ber bytes = .ok (raw, rest)) : SdField L bytes none rest

/-- The SETs among the fields. A well-formed SignedData has one, the signerInfos. -/
inductive SetFields (L : CmsLib) : List UInt8 → List (List UInt8) → Prop where
  | nil : SetFields L [] []
  | cons {bytes rest : List UInt8} {set : Option (List UInt8)} {more : List (List UInt8)}
      (hne : bytes ≠ []) (hfield : SdField L bytes set rest) (hrest : SetFields L rest more) :
      SetFields L bytes (set.toList ++ more)

def Members (L : CmsLib) (set : List UInt8) (infos : List (List UInt8)) : Prop :=
  ∃ inner after, L.enterConstructed .ber setTag set = .ok (inner, after) ∧ Elements L inner infos

/-- The SignerInfos of the message: the members of all SETs behind encapContentInfo. -/
def SignerInfosOf (L : CmsLib) (der : List UInt8) (infos : List (List UInt8)) : Prop :=
  ∃ payload fields sets members, openContent L der = .ok (payload, fields) ∧
    SetFields L fields sets ∧ List.Forall₂ (Members L) sets members ∧ infos = members.flatten

/-- The signer identifier `sid` identifies the certificate `der`: by issuer and serial number, or
    by subject key identifier. -/
inductive Identifies (L : CmsLib) (sid der : List UInt8) : Prop where
  | issuerAndSerialNumber {cert : Certificate} (hform : sid.head? = some 0x30)
      (hsid : L.issuerAndSerialNumber sid = .ok (cert.issuer, cert.serialNumber))
      (hcert : L.certificate der = .ok cert)
  | subjectKeyIdentifier {cert : Certificate} {keyId : List UInt8} (hform : sid.head? = some 0x80)
      (hsid : sidKeyId L sid = .ok keyId) (hcert : L.certificate der = .ok cert)
      (hkey : certKeyId L cert = some keyId)

/-- The message has one signer info, and it identifies this certificate. -/
def SoleSigner (L : CmsLib) (der certDer : List UInt8) : Prop :=
  ∃ raw info, SignerInfosOf L der [raw] ∧ L.signerInfo raw = .ok info ∧
    Identifies L info.sid certDer

/-- The message has one SignerInfo, its identifier in one of the two forms. -/
def OneKnownSigner (L : CmsLib) (der : List UInt8) : Prop :=
  ∃ raw info, SignerInfosOf L der [raw] ∧ L.signerInfo raw = .ok info ∧
    (info.sid.head? = some 0x30 ∨ info.sid.head? = some 0x80)

section Library

variable {L : CmsLib} {sid der : List UInt8}

theorem Elements.unique {bytes : List UInt8} {infos infos' : List (List UInt8)}
    (h : Elements L bytes infos) (h' : Elements L bytes infos') : infos = infos' := by
  induction h generalizing infos' with
  | nil =>
    cases h' with
    | nil => rfl
    | cons hne _ _ => exact absurd rfl hne
  | cons hne hraw _ ih =>
    cases h' with
    | nil => exact absurd rfl hne
    | cons _ hraw' hrest' =>
      obtain ⟨rfl, rfl⟩ := Prod.mk.inj (Except.ok.inj (hraw.symm.trans hraw'))
      rw [ih hrest']

theorem Members.unique {set : List UInt8} {infos infos' : List (List UInt8)}
    (h : Members L set infos) (h' : Members L set infos') : infos = infos' := by
  obtain ⟨inner, after, hinner, helems⟩ := h
  obtain ⟨inner', after', hinner', helems'⟩ := h'
  obtain ⟨rfl, -⟩ := Prod.mk.inj (Except.ok.inj (hinner.symm.trans hinner'))
  exact helems.unique helems'

theorem Tag.IsSet.not_certificates {tag : Tag} (h : tag.IsSet) : ¬ tag.IsCertificates :=
  fun h' => nomatch h.1.symm.trans h'.1

theorem SdField.unique {bytes rest rest' : List UInt8} {set set' : Option (List UInt8)}
    (h : SdField L bytes set rest) (h' : SdField L bytes set' rest') : set = set' ∧ rest = rest' := by
  cases h with
  | set htag hset hraw =>
    cases h' with
    | set _ _ hraw' =>
      obtain ⟨rfl, rfl⟩ := Prod.mk.inj (Except.ok.inj (hraw.symm.trans hraw'))
      exact ⟨rfl, rfl⟩
    | certificates htag' hcerts _ =>
      obtain rfl := Except.ok.inj (htag.symm.trans htag')
      exact absurd hcerts hset.not_certificates
    | other htag' _ hno _ =>
      obtain rfl := Except.ok.inj (htag.symm.trans htag')
      exact absurd hset hno
  | certificates htag hcerts henter =>
    cases h' with
    | set htag' hset _ =>
      obtain rfl := Except.ok.inj (htag.symm.trans htag')
      exact absurd hcerts hset.not_certificates
    | certificates _ _ henter' =>
      exact ⟨rfl, (Prod.mk.inj (Except.ok.inj (henter.symm.trans henter'))).2⟩
    | other htag' hno _ _ =>
      obtain rfl := Except.ok.inj (htag.symm.trans htag')
      exact absurd hcerts hno
  | other htag hcerts hset hraw =>
    cases h' with
    | set htag' hset' _ =>
      obtain rfl := Except.ok.inj (htag.symm.trans htag')
      exact absurd hset' hset
    | certificates htag' hcerts' _ =>
      obtain rfl := Except.ok.inj (htag.symm.trans htag')
      exact absurd hcerts' hcerts
    | other _ _ _ hraw' =>
      exact ⟨rfl, (Prod.mk.inj (Except.ok.inj (hraw.symm.trans hraw'))).2⟩

theorem SetFields.unique {bytes : List UInt8} {sets sets' : List (List UInt8)}
    (h : SetFields L bytes sets) (h' : SetFields L bytes sets') : sets = sets' := by
  induction h generalizing sets' with
  | nil =>
    cases h' with
    | nil => rfl
    | cons hne _ _ => exact absurd rfl hne
  | cons hne hfield _ ih =>
    cases h' with
    | nil => exact absurd rfl hne
    | cons _ hfield' hrest' =>
      obtain ⟨rfl, rfl⟩ := hfield.unique hfield'
      rw [ih hrest']

theorem members_unique {sets : List (List UInt8)} {members members' : List (List (List UInt8))}
    (h : List.Forall₂ (Members L) sets members) (h' : List.Forall₂ (Members L) sets members') :
    members = members' := by
  induction h generalizing members' with
  | nil =>
    cases h'
    rfl
  | cons hset _ ih =>
    cases h' with
    | cons hset' hrest' => rw [hset.unique hset', ih hrest']

theorem members_of_mem {sets : List (List UInt8)} {members : List (List (List UInt8))}
    (h : List.Forall₂ (Members L) sets members) {set : List UInt8} (hmem : set ∈ sets) :
    ∃ infos ∈ members, Members L set infos := by
  induction h with
  | nil => exact nomatch hmem
  | @cons set' infos' sets members hset hrest ih =>
    obtain rfl | hmem := List.mem_cons.mp hmem
    · exact ⟨infos', List.mem_cons_self .., hset⟩
    · obtain ⟨infos, hinfos, hmembers⟩ := ih hmem
      exact ⟨infos, List.mem_cons_of_mem _ hinfos, hmembers⟩

theorem SignerInfosOf.unique {infos infos' : List (List UInt8)} (h : SignerInfosOf L der infos)
    (h' : SignerInfosOf L der infos') : infos = infos' := by
  obtain ⟨_, fields, sets, members, hopen, hsets, hmembers, rfl⟩ := h
  obtain ⟨_, fields', sets', members', hopen', hsets', hmembers', rfl⟩ := h'
  obtain ⟨-, rfl⟩ := Prod.mk.inj (Except.ok.inj (hopen.symm.trans hopen'))
  obtain rfl := hsets.unique hsets'
  rw [members_unique hmembers hmembers']

/-! ## The SET that is read -/

section Fields

variable {bytes : List UInt8} {fuel : Nat} {certs : List (List UInt8)}
  {found : Option (List UInt8)} {out : List (List UInt8) × Option (List UInt8)}

theorem signedDataFields_turn (hne : bytes ≠ [])
    (hok : signedDataFields L fuel bytes certs found = .ok out) :
    ∃ fuel' certs' set rest, SdField L bytes set rest ∧
      signedDataFields L fuel' rest certs' (set.or found) = .ok out := by
  unfold signedDataFields at hok
  rw [if_neg (by simpa using hne)] at hok
  cases fuel with
  | zero => exact nomatch hok
  | succ fuel =>
    dsimp only at hok
    obtain ⟨tag, htag, hok⟩ := except_bind_eq_ok.mp hok
    rw [mapError_eq_ok] at htag
    split at hok
    · next hcerts =>
      obtain ⟨⟨set, rest⟩, henter, hok⟩ := except_bind_eq_ok.mp hok
      obtain ⟨more, -, hok⟩ := except_bind_eq_ok.mp hok
      exact ⟨fuel, certs ++ more, none, rest,
        .certificates htag hcerts (mapError_eq_ok.mp henter), hok⟩
    · next hcerts =>
      split at hok
      · next hcrls =>
        obtain ⟨⟨raw, rest⟩, hraw, hok⟩ := except_bind_eq_ok.mp hok
        have hset : ¬ tag.IsSet := fun h => nomatch h.1.symm.trans hcrls.1
        exact ⟨fuel, certs, none, rest, .other htag hcerts hset (mapError_eq_ok.mp hraw), hok⟩
      · split at hok
        · next hset =>
          obtain ⟨⟨raw, rest⟩, hraw, hok⟩ := except_bind_eq_ok.mp hok
          exact ⟨fuel, certs, some raw, rest, .set htag hset (mapError_eq_ok.mp hraw), hok⟩
        · next hset =>
          obtain ⟨⟨raw, rest⟩, hraw, hok⟩ := except_bind_eq_ok.mp hok
          exact ⟨fuel, certs, none, rest, .other htag hcerts hset (mapError_eq_ok.mp hraw), hok⟩

/-- The loop over the fields keeps the last SET that it meets. -/
theorem signedDataFields_last {sets : List (List UInt8)} (h : SetFields L bytes sets)
    (hok : signedDataFields L fuel bytes certs found = .ok out) :
    out.2 = sets.getLast?.or found := by
  induction h generalizing fuel certs found with
  | nil =>
    unfold signedDataFields at hok
    rw [← Except.ok.inj hok]
    rfl
  | @cons bytes rest set more hne hfield hrest ih =>
    obtain ⟨fuel', certs', set', rest', hfield', hok⟩ := signedDataFields_turn hne hok
    obtain ⟨rfl, rfl⟩ := hfield.unique hfield'
    rw [ih hok, List.getLast?_append, Option.or_assoc]
    cases set <;> rfl

end Fields

theorem openSignedData_last {der payload fields : List UInt8} {sets : List (List UInt8)}
    {sd : SignedData} (hsd : openSignedData L der = .ok sd)
    (hopen : openContent L der = .ok (payload, fields)) (hsets : SetFields L fields sets) :
    sets.getLast? = some sd.signerInfos := by
  unfold openSignedData at hsd
  obtain ⟨⟨payload', fields'⟩, hopen', hsd⟩ := except_bind_eq_ok.mp hsd
  obtain ⟨rfl, rfl⟩ := Prod.mk.inj (Except.ok.inj (hopen.symm.trans hopen'))
  obtain ⟨⟨certs, found⟩, hfields, hsd⟩ := except_bind_eq_ok.mp hsd
  obtain ⟨signerInfos, hfound, hsd⟩ := except_bind_eq_ok.mp hsd
  obtain ⟨-, hsd⟩ := refuseIf_bind_eq_ok.mp hsd
  obtain rfl := Except.ok.inj hsd
  have hlast := signedDataFields_last hsets hfields
  rw [Option.or_none] at hlast
  rw [← hlast]
  exact okOrElse_eq_ok.mp hfound

/-! ## The certificate that is found -/

theorem Identifies.form (h : Identifies L sid der) :
    sid.head? = some 0x30 ∨ sid.head? = some 0x80 := by
  cases h with
  | issuerAndSerialNumber hform _ _ => exact .inl hform
  | subjectKeyIdentifier hform _ _ _ => exact .inr hform

variable {certs : List (List UInt8)}

theorem find_certificate {P : Certificate → Prop} [DecidablePred P]
    (h : (certs.find? fun der => match L.certificate der with
      | .ok cert => decide (P cert)
      | .error _ => false) = some der) :
    ∃ cert, L.certificate der = .ok cert ∧ P cert := by
  have htest := List.find?_some h
  cases hcert : L.certificate der with
  | error e =>
    rw [hcert] at htest
    exact absurd htest Bool.false_ne_true
  | ok cert =>
    rw [hcert] at htest
    exact ⟨cert, rfl, of_decide_eq_true htest⟩

theorem matchSignerCertBySid_identifies (h : matchSignerCertBySid L sid certs = .ok der)
    (hform : sid.head? = some 0x30 ∨ sid.head? = some 0x80) : Identifies L sid der := by
  unfold matchSignerCertBySid at h
  split at h
  · exact nomatch h
  · obtain ⟨⟨issuer, serial⟩, hsid, h⟩ := except_bind_eq_ok.mp h
    rw [mapError_eq_ok] at hsid
    obtain ⟨cert, hcert, rfl, rfl⟩ := find_certificate (okOrElse_eq_ok.mp h)
    exact .issuerAndSerialNumber rfl hsid hcert
  · obtain ⟨keyId, hsid, h⟩ := except_bind_eq_ok.mp h
    obtain ⟨cert, hcert, hkey⟩ := find_certificate (okOrElse_eq_ok.mp h)
    exact .subjectKeyIdentifier rfl hsid hcert hkey
  · next hnil hissuer hkey =>
    -- no other first byte is a known form
    exfalso
    cases sid with
    | nil => exact hnil rfl
    | cons b rest =>
      rcases hform with hb | hb
      · exact hissuer rest (by rw [Option.some.inj hb])
      · exact hkey rest (by rw [Option.some.inj hb])

/-! ## Accepted messages -/

variable {info : SignerInfo}

theorem firstSignerInfo_eq_ok {signerInfos : List UInt8}
    (h : firstSignerInfo L signerInfos = .ok info) :
    ∃ inner after raw rest, L.enterConstructed .ber setTag signerInfos = .ok (inner, after) ∧
      inner ≠ [] ∧ L.rawDer .ber inner = .ok (raw, rest) ∧ L.signerInfo raw = .ok info := by
  unfold firstSignerInfo at h
  obtain ⟨⟨inner, after⟩, hinner, h⟩ := except_bind_eq_ok.mp h
  obtain ⟨hne, h⟩ := refuseIf_bind_eq_ok.mp h
  obtain ⟨⟨raw, rest⟩, hraw, h⟩ := except_bind_eq_ok.mp h
  rw [mapError_eq_ok] at hinner hraw h
  exact ⟨inner, after, raw, rest, hinner, List.isEmpty_eq_false_iff.mp hne, hraw, h⟩

/-- The SignerInfo that is read is the only one of the message, if there is only one. -/
theorem firstSignerInfo_sole {der raw : List UInt8} {sd : SignedData} {info info' : SignerInfo}
    (hsd : openSignedData L der = .ok sd) (hfirst : firstSignerInfo L sd.signerInfos = .ok info)
    (hsole : SignerInfosOf L der [raw]) (hinfo : L.signerInfo raw = .ok info') : info = info' := by
  obtain ⟨payload, fields, sets, members, hopen, hsets, hmembers, hraw⟩ := hsole
  obtain ⟨infos, hinfos, inner, after, hinner, helems⟩ :=
    members_of_mem hmembers (List.mem_of_getLast? (openSignedData_last hsd hopen hsets))
  obtain ⟨inner', after', first, rest, hinner', hne, hfirst', hinfo'⟩ := firstSignerInfo_eq_ok hfirst
  obtain ⟨rfl, -⟩ := Prod.mk.inj (Except.ok.inj (hinner.symm.trans hinner'))
  have hmem : first ∈ members.flatten := by
    refine List.mem_flatten.mpr ⟨infos, hinfos, ?_⟩
    cases helems with
    | nil => exact absurd rfl hne
    | cons _ hread _ =>
      obtain ⟨rfl, -⟩ := Prod.mk.inj (Except.ok.inj (hread.symm.trans hfirst'))
      exact List.mem_cons_self ..
  rw [← hraw, List.mem_singleton] at hmem
  rw [hmem] at hinfo'
  exact Except.ok.inj (hinfo'.symm.trans hinfo)

/-- An accepted message has exactly one SignerInfo, and the reported certificate is one that it
    identifies, exactly if it has one SignerInfo and its identifier is of a known form. -/
theorem sole_signer_iff {der : List UInt8} {truststore : List (List UInt8)}
    {result : CmsVerificationResult} (hok : verifyCmsSignedData L der truststore = .ok result) :
    SoleSigner L der result.signerCertDer ↔ OneKnownSigner L der := by
  constructor
  · rintro ⟨raw, info, hsole, hinfo, hid⟩
    exact ⟨raw, info, hsole, hinfo, hid.form⟩
  · rintro ⟨raw, info, hsole, hinfo, hform⟩
    obtain ⟨sd, info', -, -, -, hsd, hfirst, hmatch, -⟩ := verifyCmsSignedData_ok hok
    obtain rfl := firstSignerInfo_sole hsd hfirst hsole hinfo
    exact ⟨raw, info', hsole, hinfo, matchSignerCertBySid_identifies hmatch hform⟩

end Library

/-! ## Two signers, and an unknown identifier -/

namespace Signers

open Replay

def signerInfo (sid : List UInt8) : List UInt8 :=
  tlv 0x30 ([0x02, 0x01, 0x01] ++ sid ++ sha256Algorithm ++ tlv 0xA0 attributes ++ ecdsaSha256 ++
    tlv 0x04 attributesSignature)

/-- The message with `sets` behind its certificates. -/
def message (sets : List UInt8) : List UInt8 :=
  tlv 0x30 ([0x06, 0x09, 0x2A, 0x86, 0x48, 0x86, 0xF7, 0x0D, 0x01, 0x07, 0x02] ++
    tlv 0xA0 (tlv 0x30 ([0x02, 0x01, 0x01] ++ tlv 0x31 sha256Algorithm ++
      tlv 0x30 ([0x06, 0x09, 0x2A, 0x86, 0x48, 0x86, 0xF7, 0x0D, 0x01, 0x07, 0x01] ++
        tlv 0xA0 (tlv 0x04 content)) ++
      tlv 0xA0 raCert ++ sets)))

def otherSid : List UInt8 := tlv 0x30 (raName ++ [0x02, 0x01, 0x08])

def twoSigners : List UInt8 := message (tlv 0x31 (signerInfo sid ++ signerInfo otherSid))

def twoSets : List UInt8 :=
  message (tlv 0x31 (signerInfo otherSid) ++ tlv 0x31 (signerInfo sid))

def octetSid : List UInt8 := tlv 0x04 [0x08]

def strangeSigner : List UInt8 := message (tlv 0x31 (signerInfo octetSid))

def accepted : CmsVerificationResult := ⟨raCert, "CN=ra", content, "1.2.840.10045.4.3.2"⟩

theorem signerInfosOf_message {sets : List UInt8} (members : List (List (List UInt8)))
    {raws : List (List UInt8)} (hopen : openContent library (message sets) =
      .ok (content, tlv 0xA0 raCert ++ sets))
    (hcerts : library.enterConstructed .ber ctx0Tag (tlv 0xA0 raCert ++ sets) = .ok (raCert, sets))
    (htag : library.peekTag .ber (tlv 0xA0 raCert ++ sets) = .ok ⟨.contextSpecific, true, 0⟩)
    (hsets : SetFields library sets raws) (hmembers : List.Forall₂ (Members library) raws members) :
    SignerInfosOf library (message sets) members.flatten := by
  have hne : tlv 0xA0 raCert ++ sets ≠ [] := List.append_ne_nil_of_left_ne_nil (by decide +kernel) _
  exact ⟨content, _, raws, members, hopen,
    .cons hne (.certificates htag ⟨rfl, rfl⟩ hcerts) hsets, hmembers, rfl⟩

theorem setFields_one {bytes : List UInt8} (hread : library.rawDer .ber bytes = .ok (bytes, []))
    (htag : library.peekTag .ber bytes = .ok ⟨.universal, true, 17⟩) (hne : bytes ≠ []) :
    SetFields library bytes [bytes] :=
  .cons hne (.set htag ⟨rfl, rfl⟩ hread) .nil

/-- Three messages are accepted as signed by the holder of `raCert`. In the first, the SignerInfo of
    another certificate follows in the SET; in the second, it stands in a SET of its own before; in
    the third, the identifier identifies no certificate. -/
theorem several_signers_accepted :
    (verifyCmsSignedData library twoSigners [raCert] = .ok accepted ∧
      SignerInfosOf library twoSigners [signerInfo sid, signerInfo otherSid] ∧
      ¬ SoleSigner library twoSigners raCert) ∧
    (verifyCmsSignedData library twoSets [raCert] = .ok accepted ∧
      SignerInfosOf library twoSets [signerInfo otherSid, signerInfo sid] ∧
      ¬ SoleSigner library twoSets raCert) ∧
    (verifyCmsSignedData library strangeSigner [raCert] = .ok accepted ∧
      SignerInfosOf library strangeSigner [signerInfo octetSid] ∧
      ¬ SoleSigner library strangeSigner raCert) := by
  have hmembers : ∀ sid', sid' = sid ∨ sid' = otherSid ∨ sid' = octetSid →
      Members library (tlv 0x31 (signerInfo sid')) [signerInfo sid'] := by
    intro sid' hsid
    refine ⟨signerInfo sid', [], ?_, .cons ?_ ?_ .nil⟩ <;>
      obtain rfl | rfl | rfl := hsid <;> decide +kernel
  have htwo : SignerInfosOf library twoSigners [signerInfo sid, signerInfo otherSid] := by
    have hfirst : library.rawDer .ber (signerInfo sid ++ signerInfo otherSid) =
        .ok (signerInfo sid, signerInfo otherSid) := by decide +kernel
    refine signerInfosOf_message [[signerInfo sid, signerInfo otherSid]]
      (by decide +kernel) (by decide +kernel) (by decide +kernel)
      (setFields_one (by decide +kernel) (by decide +kernel) (by decide +kernel)) (.cons ?_ .nil)
    exact ⟨signerInfo sid ++ signerInfo otherSid, [], by decide +kernel,
      .cons (by decide +kernel) hfirst (.cons (by decide +kernel) (by decide +kernel) .nil)⟩
  have hread : library.rawDer .ber (tlv 0x31 (signerInfo otherSid) ++ tlv 0x31 (signerInfo sid)) =
      .ok (tlv 0x31 (signerInfo otherSid), tlv 0x31 (signerInfo sid)) := by decide +kernel
  have hother : library.peekTag .ber (tlv 0x31 (signerInfo otherSid) ++ tlv 0x31 (signerInfo sid)) =
      .ok ⟨.universal, true, 17⟩ := by decide +kernel
  have hsets : SignerInfosOf library twoSets [signerInfo otherSid, signerInfo sid] :=
    signerInfosOf_message [[signerInfo otherSid], [signerInfo sid]]
      (by decide +kernel) (by decide +kernel) (by decide +kernel)
      (.cons (by decide +kernel) (.set hother ⟨rfl, rfl⟩ hread)
        (setFields_one (by decide +kernel) (by decide +kernel) (by decide +kernel)))
      (.cons (hmembers _ (by simp)) (.cons (hmembers _ (by simp)) .nil))
  have hone : SignerInfosOf library strangeSigner [signerInfo octetSid] :=
    signerInfosOf_message [[signerInfo octetSid]]
      (by decide +kernel) (by decide +kernel) (by decide +kernel)
      (setFields_one (by decide +kernel) (by decide +kernel) (by decide +kernel))
      (.cons (hmembers _ (by simp)) .nil)
  refine ⟨⟨by decide +kernel, htwo, ?_⟩, ⟨by decide +kernel, hsets, ?_⟩, by decide +kernel, hone, ?_⟩
  · rintro ⟨raw, info, hsole, -, -⟩
    cases (List.cons.inj (hsole.unique htwo)).2
  · rintro ⟨raw, info, hsole, -, -⟩
    cases (List.cons.inj (hsole.unique hsets)).2
  · rintro ⟨raw, info, hsole, hinfo, hid⟩
    obtain rfl := (List.cons.inj (hsole.unique hone)).1
    have hread : library.signerInfo (signerInfo octetSid) =
        .ok ⟨octetSid, sha256Algorithm, some attributes, ecdsaSha256, attributesSignature⟩ := by
      decide +kernel
    obtain rfl := Except.ok.inj (hinfo.symm.trans hread)
    rcases hid.form with h | h
    · exact absurd h (by decide)
    · exact absurd h (by decide)

/-- The message as its signer sent it: one SignerInfo, by issuer and serial number. -/
theorem sole_signer_original : SoleSigner library original raCert := by
  have hok : verifyCmsSignedData library original [raCert] = .ok accepted := by decide +kernel
  have hmessage : original = message (tlv 0x31 (signerInfo sid)) := by decide +kernel
  refine (sole_signer_iff hok).mpr ⟨signerInfo sid,
    ⟨sid, sha256Algorithm, some attributes, ecdsaSha256, attributesSignature⟩, ?_,
    by decide +kernel, by decide +kernel⟩
  rw [hmessage]
  exact signerInfosOf_message [[signerInfo sid]]
    (by decide +kernel) (by decide +kernel) (by decide +kernel)
    (setFields_one (by decide +kernel) (by decide +kernel) (by decide +kernel))
    (.cons ⟨signerInfo sid, [], by decide +kernel,
      .cons (by decide +kernel) (by decide +kernel) .nil⟩ .nil)

end Signers

end Kipuka.Auth
