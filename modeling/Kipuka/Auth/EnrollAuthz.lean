/-
  Enrollment authorization (`src/auth/enroll_authz.rs`): a CSR is bound to the requester and to
  the label's allowlists.
-/
import Kipuka.Auth.CmsBinding
import Kipuka.Auth.NameMatch
import Kipuka.Generic.Outcome

namespace Kipuka.Auth

open Generic

/-! ## CSRs -/

structure NameAttr where
  oid : String
  value : List UInt8
  deriving DecidableEq, Repr

abbrev Name : Type := List (List NameAttr)

structure CsrAttribute where
  attrType : List Nat
  attrValues : List (List UInt8)
  deriving DecidableEq, Repr

structure Csr where
  subject : Name
  attributes : Option (List CsrAttribute)
  deriving DecidableEq, Repr

structure CsrLib where
  fromDer : List UInt8 → Except String Csr
  /-- The text of a name attribute. -/
  attrText : NameAttr → String
  findExtensionValue : List UInt8 → List Nat → Option (List UInt8)
  parseGeneralNames : List UInt8 → List (Nat × List UInt8)

def commonName : String := "2.5.4.3"

def pkcs9ExtensionRequest : List Nat := [1, 2, 840, 113549, 1, 9, 14]

def subjectAltName : List Nat := [2, 5, 29, 17]

def rfc822Name : Nat := 1

def dnsName : Nat := 2

def ipAddress : Nat := 7

section Library

variable (L : CsrLib)

def parseNameAttrs (name : Name) : List (String × String) :=
  name.flatten.map fun attr => (attr.oid, L.attrText attr)

def csrSubjectCn (csr : Csr) : Option String :=
  ((parseNameAttrs L csr.subject).reverse.find? fun attr => attr.1 = commonName).map Prod.snd

def csrSans (csr : Csr) : List (Nat × List UInt8) :=
  match csr.attributes with
  | none => []
  | some attrs =>
    let requests := attrs.filter fun attr => attr.attrType = pkcs9ExtensionRequest
    let values := requests.flatMap CsrAttribute.attrValues
    match values.findSome? fun value => L.findExtensionValue value subjectAltName with
    | none => []
    | some san => L.parseGeneralNames san

end Library

/-! ## The policy -/

structure EnrollAuthzPolicy where
  requireCnMatch : Bool
  requireSanMatch : Bool
  permittedDnsNames : List String
  permittedIpAddresses : List String
  permittedEmails : List String

def EnrollAuthzPolicy.isNoop (policy : EnrollAuthzPolicy) : Bool :=
  !policy.requireCnMatch && !policy.requireSanMatch && policy.permittedDnsNames.isEmpty &&
    policy.permittedIpAddresses.isEmpty && policy.permittedEmails.isEmpty

def sanIp (content : List UInt8) : Option IpAddr :=
  match content with
  | [a, b, c, d] => some (.v4 #v[a, b, c, d])
  | [a, b, c, d, e, f, g, h, i, j, k, l, m, n, o, p] =>
    some (.v6 #v[IpAddr.fromBeBytes a b, IpAddr.fromBeBytes c d, IpAddr.fromBeBytes e f,
      IpAddr.fromBeBytes g h, IpAddr.fromBeBytes i j, IpAddr.fromBeBytes k l,
      IpAddr.fromBeBytes m n, IpAddr.fromBeBytes o p])
  | _ => none

/-- The identity is an IP address, an e-mail address or a DNS name; the SANs are the patterns. -/
def identityInSans (sans : List (Nat × List UInt8)) (identity : String) : Bool :=
  match IpAddr.parse identity with
  | some ip => sans.any fun san => san.1 = ipAddress && (sanIp san.2).any fun s => matchesIp s ip
  | none =>
    if '@' ∈ identity.toList then
      sans.any fun san =>
        san.1 = rfc822Name && (fromUtf8 san.2).any fun s => matchesEmail s identity
    else
      sans.any fun san => san.1 = dnsName && (fromUtf8 san.2).any fun s => matchesDomain s identity

def checkSan (policy : EnrollAuthzPolicy) (san : Nat × List UInt8) : Except String Unit :=
  if san.1 = dnsName ∧ ¬ policy.permittedDnsNames.isEmpty then do
    let name ← okOrElse "CSR contains a non-UTF-8 dNSName SAN" (fromUtf8 san.2)
    refuseIf (!policy.permittedDnsNames.any fun pat => matchesDomain pat name)
      s!"dNSName {debugStr name} is not permitted for this label"
  else if san.1 = rfc822Name ∧ ¬ policy.permittedEmails.isEmpty then do
    let email ← okOrElse "CSR contains a non-UTF-8 rfc822Name SAN" (fromUtf8 san.2)
    refuseIf (!policy.permittedEmails.any fun pat => matchesEmail pat email)
      s!"rfc822Name {debugStr email} is not permitted for this label"
  else if san.1 = ipAddress ∧ ¬ policy.permittedIpAddresses.isEmpty then do
    let ip ← okOrElse "CSR contains a malformed iPAddress SAN" (sanIp san.2)
    refuseIf
      (!policy.permittedIpAddresses.any fun entry =>
        (IpAddr.parse entry).any fun permitted => matchesIp permitted ip)
      s!"iPAddress {ip.display} is not permitted for this label"
  else .ok ()

def checkCn (cn : Option String) (identity : String) : Except String Unit :=
  match cn with
  | some cn =>
    refuseIf (!eqIgnoreAsciiCase cn identity) (s!"CSR Common Name {debugStr cn} does not match " ++
      s!"authenticated identity {debugStr identity}")
  | none => .error "require_cn_match is set but the CSR carries no Common Name"

def checkNames (cn : Option String) (sans : List (Nat × List UInt8)) (identity : String)
    (policy : EnrollAuthzPolicy) : Except String Unit := do
  refuseIf ((policy.requireCnMatch || policy.requireSanMatch) && identity.isEmpty)
    "enrollment authorization requires an authenticated identity, but none was presented"
  if policy.requireCnMatch then checkCn cn identity
  refuseIf (policy.requireSanMatch && !identityInSans sans identity)
    s!"authenticated identity {debugStr identity} is not present in the CSR subjectAltName"
  sans.forM (checkSan policy)

section Library

variable (L : CsrLib)

def authorizeCsr (csr : Csr) (identity : String) (policy : EnrollAuthzPolicy) :
    Except String Unit :=
  if policy.isNoop then .ok ()
  else checkNames (csrSubjectCn L csr) (csrSans L csr) identity policy

def authorizeCsrDer (csrDer : List UInt8) (identity : String) (policy : EnrollAuthzPolicy) :
    Except String Unit :=
  if policy.isNoop then .ok ()
  else do
    let csr ← (L.fromDer csrDer).mapError fun e => s!"CSR parse failed during authorization: {e}"
    authorizeCsr L csr identity policy

end Library

/-! ## What an accepted CSR has -/

variable {policy : EnrollAuthzPolicy}

theorem not_isNoop (h : policy.requireCnMatch = true) : policy.isNoop = false := by
  unfold EnrollAuthzPolicy.isNoop
  rw [h]
  rfl

variable {identity : String} {cn : Option String}

theorem checkCn_ok (h : checkCn cn identity = .ok ()) :
    ∃ name, cn = some name ∧ eqIgnoreAsciiCase name identity = true := by
  cases cn with
  | none => cases h
  | some name =>
    refine ⟨name, rfl, ?_⟩
    cases hname : eqIgnoreAsciiCase name identity with
    | true => rfl
    | false =>
      change refuseIf (!eqIgnoreAsciiCase name identity) _ = .ok () at h
      rw [hname] at h
      cases h

variable {sans : List (Nat × List UInt8)}

theorem checkNames_cn (hcn : policy.requireCnMatch = true)
    (h : checkNames cn sans identity policy = .ok ()) :
    ∃ name, cn = some name ∧ eqIgnoreAsciiCase name identity = true := by
  unfold checkNames at h
  obtain ⟨-, h⟩ := refuseIf_bind_eq_ok.mp h
  rw [if_pos hcn] at h
  obtain ⟨⟨⟩, hcheck, -⟩ := except_bind_eq_ok.mp h
  exact checkCn_ok hcheck

variable {L : CsrLib}

theorem authorizeCsr_checkNames {csr : Csr} (hnoop : policy.isNoop = false)
    (h : authorizeCsr L csr identity policy = .ok ()) :
    checkNames (csrSubjectCn L csr) (csrSans L csr) identity policy = .ok () := by
  unfold authorizeCsr at h
  rwa [hnoop, if_neg Bool.false_ne_true] at h

variable {csrDer : List UInt8}

theorem authorizeCsrDer_checkNames (hnoop : policy.isNoop = false)
    (h : authorizeCsrDer L csrDer identity policy = .ok ()) :
    ∃ csr, L.fromDer csrDer = .ok csr ∧
      checkNames (csrSubjectCn L csr) (csrSans L csr) identity policy = .ok () := by
  unfold authorizeCsrDer at h
  rw [hnoop, if_neg Bool.false_ne_true] at h
  obtain ⟨csr, hparse, hauth⟩ := except_bind_eq_ok.mp h
  exact ⟨csr, mapError_eq_ok.mp hparse, authorizeCsr_checkNames hnoop hauth⟩

theorem authorizeCsrDer_cn (hcn : policy.requireCnMatch = true)
    (h : authorizeCsrDer L csrDer identity policy = .ok ()) :
    ∃ csr name, L.fromDer csrDer = .ok csr ∧ csrSubjectCn L csr = some name ∧
      eqIgnoreAsciiCase name identity = true := by
  obtain ⟨csr, hparse, hcheck⟩ := authorizeCsrDer_checkNames (not_isNoop hcn) h
  obtain ⟨name, hname, heq⟩ := checkNames_cn hcn hcheck
  exact ⟨csr, name, hparse, hname, heq⟩

/-! ## The allowlist of DNS names -/

theorem checkNames_sans (h : checkNames cn sans identity policy = .ok ()) :
    ∀ san ∈ sans, checkSan policy san = .ok () := by
  unfold checkNames at h
  obtain ⟨-, h⟩ := refuseIf_bind_eq_ok.mp h
  by_cases hcn : policy.requireCnMatch = true
  · rw [if_pos hcn] at h
    obtain ⟨⟨⟩, -, hsans⟩ := except_bind_eq_ok.mp h
    exact forM_eq_ok.mp (refuseIf_bind_eq_ok.mp hsans).2
  · rw [if_neg hcn] at h
    exact forM_eq_ok.mp (refuseIf_bind_eq_ok.mp h).2

theorem checkSan_dns {san : Nat × List UInt8} (hlist : policy.permittedDnsNames ≠ [])
    (hdns : san.1 = dnsName) (h : checkSan policy san = .ok ()) :
    ∃ name, fromUtf8 san.2 = some name ∧
      ∃ pat ∈ policy.permittedDnsNames, matchesDomain pat name = true := by
  unfold checkSan at h
  rw [if_pos ⟨hdns, mt List.isEmpty_iff.mp hlist⟩] at h
  obtain ⟨name, hname, hpermitted⟩ := except_bind_eq_ok.mp h
  refine ⟨name, okOrElse_eq_ok.mp hname, ?_⟩
  simpa using refuseIf_eq_ok.mp hpermitted

/-- Matching is transitive, also through a wildcard, so that no DNS name of an accepted CSR covers a
    host that the label's allowlist does not. -/
theorem accepted_dns_sans_within_allowlist :
    (∀ p n h : String, matchesDomain p n = true → matchesDomain n h = true →
      matchesDomain p h = true) ∧
    ∀ (L : CsrLib) (csr : Csr) (identity : String) (policy : EnrollAuthzPolicy),
      policy.permittedDnsNames ≠ [] → authorizeCsr L csr identity policy = .ok () →
      ∀ san ∈ csrSans L csr, san.1 = dnsName →
        ∃ name, fromUtf8 san.2 = some name ∧ ∀ h, matchesDomain name h = true →
          ∃ pat ∈ policy.permittedDnsNames, matchesDomain pat h = true := by
  refine ⟨fun p n h => matchesDomain_trans, ?_⟩
  intro L csr identity policy hlist hok san hsan hdns
  have hnoop : policy.isNoop = false := by simp [EnrollAuthzPolicy.isNoop, hlist]
  have hcheck := checkNames_sans (authorizeCsr_checkNames hnoop hok) san hsan
  obtain ⟨name, hname, pat, hpat, hmatch⟩ := checkSan_dns hlist hdns hcheck
  exact ⟨name, hname, fun h hh => ⟨pat, hpat, matchesDomain_trans hmatch hh⟩⟩

def dnsLib : CsrLib where
  fromDer _ := .error ""
  attrText _ := ""
  findExtensionValue value oid := if oid = subjectAltName then some value else none
  parseGeneralNames san := [(dnsName, san)]

def dnsCsr (name : String) : Csr := ⟨[], some [⟨pkcs9ExtensionRequest, [asBytes name]⟩]⟩

def dnsPolicy (permitted : List String) : EnrollAuthzPolicy := ⟨false, false, permitted, [], []⟩

theorem wildcard_san_within_allowlist :
    authorizeCsr dnsLib (dnsCsr "*.example.COM.") "" (dnsPolicy ["*.Example.com"]) = .ok () ∧
      ∃ pat ∈ (dnsPolicy ["*.Example.com"]).permittedDnsNames,
        matchesDomain pat "a.example.com" = true := by
  have hok : authorizeCsr dnsLib (dnsCsr "*.example.COM.") "" (dnsPolicy ["*.Example.com"]) =
      .ok () := by decide +kernel
  refine ⟨hok, ?_⟩
  obtain ⟨name, hname, hcovered⟩ := accepted_dns_sans_within_allowlist.2 dnsLib
    (dnsCsr "*.example.COM.") "" (dnsPolicy ["*.Example.com"]) (by decide) hok
    (dnsName, asBytes "*.example.COM.") (by decide +kernel) rfl
  obtain rfl := Option.some.inj ((fromUtf8_asBytes _).symm.trans hname)
  exact hcovered "a.example.com" (by decide +kernel)

/-! ## The common names of a subject -/

def commonNames (name : Name) : List NameAttr :=
  name.flatten.filter fun attr => attr.oid = commonName

theorem csrSubjectCn_eq (L : CsrLib) (csr : Csr) :
    csrSubjectCn L csr = (commonNames csr.subject).getLast?.map L.attrText := by
  unfold csrSubjectCn parseNameAttrs commonNames
  rw [← List.map_reverse, List.find?_map, List.getLast?_eq_head?_reverse, ← List.filter_reverse,
    List.head?_filter, Option.map_map]
  rfl

/-! ### Requests under one key -/

def cnAttr (name : String) : NameAttr := ⟨commonName, asBytes name⟩

namespace Pkcs10

open Replay (tlv octets raKey ecdsaSha256)

/-- A P-256 key. -/
def key : List UInt8 :=
  raKey.take 27 ++ octets 0x3B4608FC1E2893DC0A4A8E00A4EE9129BEEC71887C7C49739AE1A0D1288A6D86 ++
    octets 0x07AB404A739DE133797AC36ECB7DF93C9FD6F44E124EED5C17E91B0D915F2B31

/-- A PKCS#10 request for common names, with the DER of its attributes and the two numbers of its
    signature under the key. -/
structure Request where
  names : List String
  attributes : List UInt8
  r : Nat
  s : Nat

def Request.name (q : Request) : List UInt8 :=
  tlv 0x30 (q.names.flatMap fun name =>
    tlv 0x31 (tlv 0x30 ([0x06, 0x03, 0x55, 0x04, 0x03] ++ tlv 0x0C (asBytes name))))

def Request.info (q : Request) : List UInt8 :=
  tlv 0x30 ([0x02, 0x01, 0x00] ++ q.name ++ key ++ tlv 0xA0 q.attributes)

def Request.der (q : Request) : List UInt8 :=
  tlv 0x30 (q.info ++ ecdsaSha256 ++
    tlv 0x03 (0x00 :: tlv 0x30 (tlv 0x02 (octets q.r) ++ tlv 0x02 (octets q.s))))

def Request.subject (q : Request) : Name := q.names.map fun name => [cnAttr name]

end Pkcs10

end Kipuka.Auth
