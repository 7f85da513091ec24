/-
  The names that authorization checks (`src/auth/enroll_authz.rs`) and the names that issuance puts
  into the certificate (`src/ca/issue.rs`).
-/
import Kipuka.Ca.Issue
import Mathlib.Data.List.Nodup

namespace Kipuka.Ca

open Generic Auth

/-! ## The requested extensions -/

def extensionRequests (attrs : List CsrAttribute) : List (List UInt8) :=
  (attrs.filter fun attr => attr.attrType = pkcs9ExtensionRequest).flatMap CsrAttribute.attrValues

/-- The extensions of the values one after the other, none with an OID twice. -/
def Collected (L : IssueLib) (values : List (List UInt8)) (exts : List Extension) : Prop :=
  ∃ lists, List.Forall₂ (fun value list => L.decodeExtensions value = .ok list) values lists ∧
    exts = lists.flatten ∧ (exts.map Extension.extnId).Nodup

variable {L : IssueLib} {csrDer : List UInt8} {profile : EnrollmentProfile} {call : Call}
  {result result' : List Extension}

theorem pushExtension_eq_ok {ext : Extension}
    (h : pushExtension result ext = .ok result') (hnodup : (result.map Extension.extnId).Nodup) :
    result' = result ++ [ext] ∧ (result'.map Extension.extnId).Nodup := by
  obtain ⟨hnew, h⟩ := refuseIf_bind_eq_ok.mp h
  cases h
  refine ⟨rfl, ?_⟩
  rw [List.map_append, List.map_singleton, List.nodup_append_comm, List.singleton_append,
    List.nodup_cons]
  refine ⟨?_, hnodup⟩
  intro hmem
  obtain ⟨e, he, hid⟩ := List.mem_map.mp hmem
  have hold := List.any_eq_false.mp hnew e he
  exact hold (decide_eq_true hid)

variable {values : List (List UInt8)}

theorem pushValue_collected {value : List UInt8} (hresult : Collected L values result)
    (h : pushValue L result value = .ok result') : Collected L (values ++ [value]) result' := by
  obtain ⟨lists, hlists, hflat, hnodup⟩ := hresult
  obtain ⟨exts, hdecode, h⟩ := except_bind_eq_ok.mp h
  have hpush : result' = result ++ exts ∧ (result'.map Extension.extnId).Nodup := by
    refine foldlM_ok_induction
      (P := fun done acc => acc = result ++ done ∧ (acc.map Extension.extnId).Nodup) ?_ ?_ h
    · rintro done ext acc acc' ⟨rfl, hacc⟩ hpush
      obtain ⟨rfl, hacc'⟩ := pushExtension_eq_ok hpush hacc
      exact ⟨List.append_assoc .., hacc'⟩
    · exact ⟨(List.append_nil result).symm, hnodup⟩
  refine ⟨lists ++ [exts], ?_, ?_, hpush.2⟩
  · exact List.rel_append hlists (.cons (mapError_eq_ok.mp hdecode) .nil)
  · rw [hpush.1, hflat, List.flatten_append, List.flatten_singleton]

theorem extensionRequests_concat (attrs : List CsrAttribute) (attr : CsrAttribute) :
    extensionRequests (attrs ++ [attr]) = extensionRequests attrs ++
      if attr.attrType = pkcs9ExtensionRequest then attr.attrValues else [] := by
  unfold extensionRequests
  rw [List.filter_append, List.flatMap_append]
  split
  · next hrequest => simp [hrequest]
  · next hother => simp [hother]

theorem pushAttribute_collected {attrs : List CsrAttribute} {attr : CsrAttribute}
    (hresult : Collected L (extensionRequests attrs) result)
    (h : pushAttribute L result attr = .ok result') :
    Collected L (extensionRequests (attrs ++ [attr])) result' := by
  rw [extensionRequests_concat]
  unfold pushAttribute at h
  split at h
  · next hother =>
    cases h
    rwa [if_neg hother, List.append_nil]
  · next hrequest =>
    rw [if_pos (not_not.mp hrequest)]
    refine foldlM_ok_induction
      (P := fun done acc => Collected L (extensionRequests attrs ++ done) acc) ?_ ?_ h
    · intro done value acc acc' hacc hpush
      rw [← List.append_assoc]
      exact pushValue_collected hacc hpush
    · rwa [List.append_nil]

variable {exts : List Extension}

theorem requestedExtensions_eq_ok (h : requestedExtensions L csrDer = .ok exts) :
    ∃ csr, L.fromDer csrDer = .ok csr ∧
      Collected L (extensionRequests (csr.attributes.getD [])) exts := by
  obtain ⟨csr, hcsr, h⟩ := except_bind_eq_ok.mp h
  refine ⟨csr, mapError_eq_ok.mp hcsr, ?_⟩
  refine foldlM_ok_induction (P := fun done acc => Collected L (extensionRequests done) acc) ?_ ?_ h
  · intro done attr acc acc' hacc hpush
    exact pushAttribute_collected hacc hpush
  · exact ⟨[], .nil, rfl, List.nodup_nil⟩

/-! ## The subjectAltName -/

/-- The lookup of an extension finds the first one that the decoder reads. -/
structure IssueLib.Lawful (L : IssueLib) : Prop where
  findExtensionValue_eq : ∀ value exts, L.decodeExtensions value = .ok exts → ∀ oid,
    L.findExtensionValue value oid =
      (exts.find? fun ext => ext.extnId = oid).map Extension.extnValue

def csrSanValue (L : CsrLib) (csr : Csr) : Option (List UInt8) :=
  (extensionRequests (csr.attributes.getD [])).findSome? fun value =>
    L.findExtensionValue value subjectAltName

theorem csrSans_eq (L : CsrLib) (csr : Csr) :
    csrSans L csr = (csrSanValue L csr).elim [] L.parseGeneralNames := by
  unfold csrSans csrSanValue
  cases csr.attributes with
  | none => rfl
  | some attrs =>
    simp only [Option.getD_some, extensionRequests]
    cases List.findSome? _ _ <;> rfl

theorem findSome_of_collected (hL : L.Lawful) (h : Collected L values exts) (oid : List Nat) :
    (values.findSome? fun value => L.findExtensionValue value oid) =
      (exts.find? fun ext => ext.extnId = oid).map Extension.extnValue := by
  obtain ⟨lists, hlists, rfl, -⟩ := h
  induction hlists with
  | nil => rfl
  | @cons value list values lists hdecode _ ih =>
    rw [List.findSome?_cons, hL.findExtensionValue_eq value list hdecode, List.flatten_cons,
      List.find?_append, ih]
    cases list.find? fun ext => ext.extnId = oid <;> rfl

theorem filter_extnId (h : (exts.map Extension.extnId).Nodup) (oid : List Nat) :
    (exts.filter fun ext => ext.extnId = oid) =
      (exts.find? fun ext => ext.extnId = oid).toList := by
  induction exts with
  | nil => rfl
  | cons ext exts ih =>
    rw [List.map_cons, List.nodup_cons] at h
    by_cases hext : ext.extnId = oid
    · have hrest : (exts.filter fun e => e.extnId = oid) = [] := by
        rw [List.filter_eq_nil_iff]
        intro e he heq
        apply h.1
        rw [hext, ← of_decide_eq_true heq]
        exact List.mem_map_of_mem he
      simp [hext, hrest]
    · simp [hext, ih h.2]

theorem filter_extensionOf {extnId oid : List Nat} (h : extnId ≠ oid) (critical : Bool)
    (value : Option (List UInt8)) :
    ((extensionOf extnId critical value).filter fun ext => ext.extnId = oid) = [] := by
  cases value with
  | none => rfl
  | some v => simp [extensionOf, h]

theorem certificateExtensions_san {spki caSpki : List UInt8}
    (h : certificateExtensions L csrDer profile spki caSpki call = .ok exts) :
    ∃ requested, requestedExtensions L csrDer = .ok requested ∧
      (exts.filter fun ext => ext.extnId = subjectAltName) =
        requested.filter fun ext => ext.extnId = subjectAltName := by
  unfold certificateExtensions at h
  obtain ⟨requested, hrequested, h⟩ := except_bind_eq_ok.mp h
  obtain ⟨policies, -, h⟩ := except_bind_eq_ok.mp h
  obtain ⟨aia, -, h⟩ := except_bind_eq_ok.mp h
  obtain ⟨cdp, -, h⟩ := except_bind_eq_ok.mp h
  cases h
  refine ⟨requested, hrequested, ?_⟩
  simp (disch := decide) only [List.filter_append, List.filter_filter, Bool.and_self,
    List.append_nil, filter_extensionOf]

theorem certificateFor_san (hL : L.Lawful) {cert : Certificate}
    (h : certificateFor L csrDer profile call = .ok cert) :
    ∃ csr, L.fromDer csrDer = .ok csr ∧
      (cert.extensions.filter fun ext => ext.extnId = subjectAltName).map Extension.extnValue =
        (csrSanValue L.toCsrLib csr).toList := by
  obtain ⟨p, notAfter, -, -, hbuild⟩ := certificateFor_eq_ok h
  obtain ⟨requested, hrequested, hsan⟩ :=
    certificateExtensions_san (buildCertificate_eq_ok hbuild).2.2.2
  obtain ⟨csr, hcsr, hcollected⟩ := requestedExtensions_eq_ok hrequested
  refine ⟨csr, hcsr, ?_⟩
  rw [hsan, filter_extnId (hcollected.elim fun _ h => h.2.2), csrSanValue,
    findSome_of_collected hL hcollected]
  cases requested.find? fun ext => ext.extnId = subjectAltName <;> rfl

/-! ## A library for one CSR -/

open Replay (tlv ecdsaSha256)

def hostSan : List UInt8 := tlv 0x30 (tlv 0x82 (asBytes "a.example.com"))

def hostExtensions : List UInt8 :=
  tlv 0x30 (tlv 0x30 ([0x06, 0x03, 0x55, 0x1D, 0x11] ++ tlv 0x04 hostSan))

/-- The library on one CSR with these attributes, and on one list of extensions. The key identifiers
    and the signed certificate are left as names. -/
def plainLib (q : Pkcs10.Request) (attributes : List CsrAttribute) : IssueLib where
  fromDer der := if der = q.der then .ok ⟨q.subject, some attributes⟩ else .error "invalid CSR"
  attrText attr := (fromUtf8 attr.value).getD ""
  findExtensionValue value oid :=
    if value = hostExtensions ∧ oid = subjectAltName then some hostSan else none
  parseGeneralNames san := if san = hostSan then [(dnsName, asBytes "a.example.com")] else []
  publicKey _ := ⟨[1, 2, 840, 10045, 2, 1], .ec 256 (some "P-256")⟩
  mlKemName _ := none
  criToDer _ := .ok q.info
  signatureAlgorithmToDer _ := .ok ecdsaSha256
  subjectToDer _ := .ok q.name
  spkiToDer _ := .ok Pkcs10.key
  verifySignature der := if der = q.der then .ok () else .error "invalid signature"
  decodeExtensions value :=
    if value = hostExtensions then .ok [⟨subjectAltName, false, hostSan⟩] else .error "invalid"
  encodeBasicConstraints := some [0x30, 0x00]
  encodeKeyUsage _ := some [0x03, 0x02, 0x05, 0xA0]
  encodeExtendedKeyUsage _ :=
    some [0x30, 0x0A, 0x06, 0x08, 0x2B, 0x06, 0x01, 0x05, 0x05, 0x07, 0x03, 0x01]
  parseOid _ := .ok [2, 23, 140, 1, 2, 1]
  encodePolicies _ := .ok [0x30, 0x0A, 0x30, 0x08, 0x06, 0x06, 0x67, 0x81, 0x0C, 0x01, 0x02, 0x01]
  encodeSubjectKeyIdentifier _ := some (asBytes "key")
  encodeAuthorityKeyIdentifier _ := some (asBytes "CA key")
  encodeAia _ := .error "no URL"
  encodeCdp _ := .error "no URL"
  timeToDer _ := .ok ()
  sign _ := .ok (asBytes "certificate")
  formatDn _ := ""

theorem csr_of_fromDer {q : Pkcs10.Request} {attributes : List CsrAttribute} {csr : Csr}
    (h : (plainLib q attributes).fromDer q.der = .ok csr) : csr = ⟨q.subject, some attributes⟩ := by
  dsimp only [plainLib] at h
  rw [if_pos rfl] at h
  exact (Except.ok.inj h).symm

theorem lawful_plainLib (q : Pkcs10.Request) (attributes : List CsrAttribute) :
    (plainLib q attributes).Lawful where
  findExtensionValue_eq value exts hexts oid := by
    by_cases hvalue : value = hostExtensions
    · simp only [plainLib, if_pos hvalue] at hexts
      cases hexts
      by_cases hoid : oid = subjectAltName
      · simp [plainLib, hvalue, hoid]
      · simp [plainLib, hoid, Ne.symm hoid]
    · simp [plainLib, hvalue] at hexts

def plainProfile : EnrollmentProfile where
  name := "default"
  maxValidityDays := 47
  maxValiditySeconds := none
  maxNotAfter := none
  keyUsage := ["digitalSignature", "keyEncipherment"]
  extendedKeyUsage := ["serverAuth"]
  includeSki := true
  includeAki := true
  minRsaBits := 2048
  minEcdsaCurve := "P-256"
  certificatePolicies := ["2.23.140.1.2.1"]
  allowedMlDsaLevels := ["ml-dsa-44", "ml-dsa-65", "ml-dsa-87"]
  allowedMlKemLevels := ["ml-kem-512", "ml-kem-768", "ml-kem-1024"]
  allowCompositeMlDsa := true
  mustStaple := false

def plainCall : Call where
  caCert := .ok ⟨longCa, [], .ok []⟩
  pemKey := some (.ok ())
  ocspUrl := none
  crlUrl := none
  limitNow := 1
  now := 1
  caNow := 1
  serialBytes := [1]

/-! ## What authorization saw -/

/-- The subjectAltName in the certificate is, byte for byte, the one that authorization extracted
    and checked; there is none where authorization found none. Issuance is the part that requests
    of every kind end in. -/
theorem issued_san_is_authorized_san (hL : L.Lawful) {identity : String}
    {policy : EnrollAuthzPolicy} {r : IssuanceResult}
    (hauth : authorizeCsrDer L.toCsrLib csrDer identity policy = .ok ())
    (hissue : issueVerifiedRequest L csrDer profile call = .ok r) :
    ∃ csr cert, L.fromDer csrDer = .ok csr ∧ certificateFor L csrDer profile call = .ok cert ∧
      L.sign cert = .ok r.certificateDer ∧
      (cert.extensions.filter fun ext => ext.extnId = subjectAltName).map Extension.extnValue =
        (csrSanValue L.toCsrLib csr).toList ∧
      csrSans L.toCsrLib csr = (csrSanValue L.toCsrLib csr).elim [] L.parseGeneralNames ∧
      (policy.isNoop = false → checkNames (csrSubjectCn L.toCsrLib csr)
        ((csrSanValue L.toCsrLib csr).elim [] L.parseGeneralNames) identity policy = .ok ()) := by
  obtain ⟨cert, hcert, hsign⟩ := issueVerifiedRequest_eq_ok hissue
  obtain ⟨csr, hcsr, hsan⟩ := certificateFor_san hL hcert
  refine ⟨csr, cert, hcsr, hcert, hsign, hsan, csrSans_eq L.toCsrLib csr, ?_⟩
  intro hnoop
  obtain ⟨csr', hcsr', hcheck⟩ := authorizeCsrDer_checkNames hnoop hauth
  obtain rfl : csr' = csr := Except.ok.inj (hcsr'.symm.trans hcsr)
  rwa [← csrSans_eq]

def hostRequest : Pkcs10.Request where
  names := ["host"]
  attributes :=
    tlv 0x30 ([0x06, 0x09, 0x2A, 0x86, 0x48, 0x86, 0xF7, 0x0D, 0x01, 0x09, 0x07] ++
      tlv 0x31 (tlv 0x0C (asBytes "secret"))) ++
    tlv 0x30 ([0x06, 0x09, 0x2A, 0x86, 0x48, 0x86, 0xF7, 0x0D, 0x01, 0x09, 0x0E] ++
      tlv 0x31 hostExtensions)
  r := 0x4423B3005695B51BFDD1AB03EC7FCE2243BA0C84E02A51CB39985D4522E5D7C0
  s := 0x466A1B1540B27617F1A71F9A4BAA463BCFBD415D5BD87722C67D9015A845ECD2

/-- A challenge password and the extensions. -/
def hostLib : IssueLib :=
  plainLib hostRequest [⟨[1, 2, 840, 113549, 1, 9, 7], [tlv 0x0C (asBytes "secret")]⟩,
    ⟨pkcs9ExtensionRequest, [hostExtensions]⟩]

theorem dns_request_san_issued :
    ∃ cert, certificateFor hostLib hostRequest.der plainProfile plainCall = .ok cert ∧
      (cert.extensions.filter fun ext => ext.extnId = subjectAltName).map Extension.extnValue =
        [hostSan] := by
  have hauth : authorizeCsrDer hostLib.toCsrLib hostRequest.der "host"
      (dnsPolicy ["*.example.com"]) = .ok () := by decide +kernel
  have hissue : issueVerifiedRequest hostLib hostRequest.der plainProfile plainCall =
      .ok ⟨asBytes "certificate", "01", "", 1, 1 + days 47⟩ := by decide +kernel
  obtain ⟨csr, cert, hcsr, hcert, -, hsan, -⟩ :=
    issued_san_is_authorized_san (lawful_plainLib hostRequest _) hauth hissue
  obtain rfl := csr_of_fromDer hcsr
  exact ⟨cert, hcert, hsan.trans (by decide +kernel)⟩

/-! ## The common names -/

/-- All common names of the subject are equal up to ASCII case. -/
def CommonNamesAgree (L : CsrLib) (subject : Name) : Prop :=
  ∀ a ∈ commonNames subject, ∀ b ∈ commonNames subject,
    eqIgnoreAsciiCase (L.attrText a) (L.attrText b) = true

instance (L : CsrLib) (subject : Name) : Decidable (CommonNamesAgree L subject) :=
  inferInstanceAs (Decidable (∀ a ∈ commonNames subject, ∀ b ∈ commonNames subject, _))

theorem eqIgnoreAsciiCase_iff {s t : String} :
    eqIgnoreAsciiCase s t = true ↔ toAsciiLowercase s = toAsciiLowercase t := by
  simp [eqIgnoreAsciiCase]

theorem all_match_iff_agree {L : CsrLib} {subject : Name} {identity : String} {last : NameAttr}
    (hlast : last ∈ commonNames subject)
    (hmatch : eqIgnoreAsciiCase (L.attrText last) identity = true) :
    (∀ attr ∈ commonNames subject, eqIgnoreAsciiCase (L.attrText attr) identity = true) ↔
      CommonNamesAgree L subject := by
  rw [eqIgnoreAsciiCase_iff] at hmatch
  constructor
  · intro hall a ha b hb
    have ha' := eqIgnoreAsciiCase_iff.mp (hall a ha)
    have hb' := eqIgnoreAsciiCase_iff.mp (hall b hb)
    exact eqIgnoreAsciiCase_iff.mpr (ha'.trans hb'.symm)
  · intro hagree a ha
    have ha' := eqIgnoreAsciiCase_iff.mp (hagree a ha last hlast)
    exact eqIgnoreAsciiCase_iff.mpr (ha'.trans hmatch)

/-- A CSR that passes under `require_cn_match` has only common names that match the identity exactly
    when they agree up to case; every certificate for it has its subject unchanged. -/
theorem common_names_match_iff {identity : String} {policy : EnrollAuthzPolicy}
    (hcn : policy.requireCnMatch = true)
    (hauth : authorizeCsrDer L.toCsrLib csrDer identity policy = .ok ()) :
    ∃ csr, L.fromDer csrDer = .ok csr ∧
      (∀ profile call cert, certificateFor L csrDer profile call = .ok cert →
        cert.subject = csr.subject) ∧
      ((∀ attr ∈ commonNames csr.subject,
          eqIgnoreAsciiCase (L.attrText attr) identity = true) ↔
        CommonNamesAgree L.toCsrLib csr.subject) := by
  obtain ⟨csr, name, hcsr, hname, hmatch⟩ := authorizeCsrDer_cn hcn hauth
  rw [csrSubjectCn_eq, Option.map_eq_some_iff] at hname
  obtain ⟨last, hlast, rfl⟩ := hname
  refine ⟨csr, hcsr, ?_, all_match_iff_agree (List.mem_of_getLast? hlast) hmatch⟩
  intro profile call cert hcert
  obtain ⟨csr', hcsr', hsubject⟩ := certificateFor_subject hcert
  obtain rfl : csr' = csr := Except.ok.inj (hcsr'.symm.trans hcsr)
  exact hsubject

def cnPolicy : EnrollAuthzPolicy := ⟨true, false, [], [], []⟩

def aliceTwice : Pkcs10.Request :=
  ⟨["Alice", "alice"], [], 0x7DDFDF20D4ADEECB1926BD1FED86D8CB217EE7313FB1CD14BD272087971D7684,
    0x05884EEAE354A0112895D016C87EB6FC06C4A2A3983F2E5ECFCDA7EA9CB2A60A⟩

theorem two_equal_common_names_match :
    (commonNames aliceTwice.subject).all (fun attr => eqIgnoreAsciiCase
      ((plainLib aliceTwice []).attrText attr) "ALICE") = true := by
  have hauth : authorizeCsrDer (plainLib aliceTwice []).toCsrLib aliceTwice.der "ALICE" cnPolicy =
      .ok () := by decide +kernel
  obtain ⟨csr, hcsr, -, hiff⟩ := common_names_match_iff (L := plainLib aliceTwice []) rfl hauth
  obtain rfl := csr_of_fromDer hcsr
  exact List.all_eq_true.mpr (hiff.mpr (by decide +kernel))

def malloryAndAlice : Pkcs10.Request :=
  ⟨["mallory", "alice"], [], 0x4E8B4693DED9945C3A38BEF3880387F656BC81A51D4A855954C25C9D360F9D2A,
    0x598341216D3CDB4274873844401E7C198515FC3C47C26FAA81DBB056949C867F⟩

/-- The identity is `alice`, and the certificate is also for `mallory`. -/
theorem other_common_name_issued :
    let L := plainLib malloryAndAlice []
    authorizeCsrDer L.toCsrLib malloryAndAlice.der "alice" cnPolicy = .ok () ∧
    ∃ r cert, issueCertificate L malloryAndAlice.der plainProfile plainCall = .ok r ∧
      certificateFor L malloryAndAlice.der plainProfile plainCall = .ok cert ∧
      cnAttr "mallory" ∈ commonNames cert.subject ∧
      eqIgnoreAsciiCase (L.attrText (cnAttr "mallory")) "alice" = false := by
  intro L
  have hissue : issueCertificate L malloryAndAlice.der plainProfile plainCall =
      .ok ⟨asBytes "certificate", "01", "", 1, 1 + days 47⟩ := by decide +kernel
  obtain ⟨cert, hcert, -⟩ := issueCertificate_eq_ok hissue
  obtain ⟨csr, hcsr, hsubject⟩ := certificateFor_subject hcert
  obtain rfl := csr_of_fromDer hcsr
  refine ⟨by decide +kernel, _, cert, hissue, hcert, ?_, by decide +kernel⟩
  rw [hsubject]
  decide +kernel

end Kipuka.Ca
