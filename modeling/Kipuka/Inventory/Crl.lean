/-
  `regenerate_crl` (`src/main.rs`): the revocation list of a CA, from the inventory. For every table
  that requests can make, it is proved when the list has exactly the revoked certificates. Keys,
  signatures and the encoding are a backend that is assumed to accept what it is given.
-/
import Kipuka.Generic.Outcome
import Kipuka.Inventory.Revoke

namespace Kipuka.Inventory

open Generic

/-! ## The code -/

structure CaState where
  id : String
  certDer : List UInt8
  hashAlgorithm : String

structure CrlEntry where
  serial : List UInt8
  time : String
  reason : Option UInt8
  deriving DecidableEq, Repr

structure TbsCertList where
  issuer : List UInt8
  thisUpdate : String
  nextUpdate : String
  signatureAlgorithm : List UInt8
  revoked : List CrlEntry
  deriving DecidableEq

structure Clock where
  thisUpdate : String
  nextUpdate : String

/-- The certificate library, the configuration and the key file. The server only passes keys and
    encodings on, so their types are parameters. -/
structure CrlBackend (Key Tbs Crl : Type) where
  /-- Parsing a certificate, then encoding its subject. -/
  subject : List UInt8 → Except String (Except String (List UInt8))
  build : TbsCertList → Except String Tbs
  keyFile : String → Option String
  read : String → Except String (List UInt8)
  fromPem : List UInt8 → Except String Key
  sign : Key → String → Tbs → Except String (List UInt8)
  assemble : Tbs → List UInt8 → List UInt8 → Except String Crl
  /-- The entries that a reader of a CRL finds. -/
  entries : Crl → List CrlEntry

def sigAlgDer : String → Option (List UInt8)
  | "sha256" => some [0x30, 0x0d, 0x06, 0x09, 0x2a, 0x86, 0x48, 0x86, 0xf7, 0x0d, 0x01, 0x01, 0x0b,
      0x05, 0x00]
  | "sha384" => some [0x30, 0x0d, 0x06, 0x09, 0x2a, 0x86, 0x48, 0x86, 0xf7, 0x0d, 0x01, 0x01, 0x0c,
      0x05, 0x00]
  | "sha512" => some [0x30, 0x0d, 0x06, 0x09, 0x2a, 0x86, 0x48, 0x86, 0xf7, 0x0d, 0x01, 0x01, 0x0d,
      0x05, 0x00]
  | "none" => some [0x30, 0x0b, 0x06, 0x09, 0x60, 0x86, 0x48, 0x01, 0x65, 0x03, 0x04, 0x03, 0x12]
  | _ => none

def reasonCode : String → UInt8
  | "keyCompromise" => 1
  | "cACompromise" => 2
  | "affiliationChanged" => 3
  | "superseded" => 4
  | "cessationOfOperation" => 5
  | "certificateHold" => 6
  | "removeFromCRL" => 8
  | "privilegeWithdrawn" => 9
  | "aACompromise" => 10
  | _ => 0

def revokedOf (caId : String) (certs : Certificates) : List CertRow :=
  certs.rows.filter fun row => row.caId = caId ∧ row.status = .revoked

def decodeRow (row : CertRow) : Except String (String × String × Option String) :=
  match row.revocationTime with
  | none => .error
      "error occurred while decoding column 1: unexpected null; try decoding as an `Option`"
  | some time => .ok (row.serial, time, row.revocationReason)

/-- `SELECT serial, revocation_time, revocation_reason FROM certificates
    WHERE ca_id = ? AND status = 'revoked'` -/
def selectRevoked (fault : Option String) (caId : String) (certs : Certificates) :
    Except String (List (String × String × Option String)) :=
  match fault with
  | some e => .error e
  | none => (revokedOf caId certs).mapM decodeRow

def crlEntry : String × String × Option String → CrlEntry
  | (serialHex, revTime, revReason) =>
    ⟨(hexDecode serialHex).getD [], revTime, revReason.map reasonCode⟩

/-- What regeneration leaves: the cached CRL and the detail of its audit record. -/
structure Regenerated (Crl : Type) where
  crlDer : Crl
  auditDetail : String

def regenerateCrl {Key Tbs Crl : Type} (B : CrlBackend Key Tbs Crl) (fault : Option String)
    (clock : Clock) (ca : CaState) (certs : Certificates) : Except String (Regenerated Crl) := do
  let rows ← (selectRevoked fault ca.id certs).mapError
    fun e => s!"DB query for revoked certs failed: {e}"
  let caCert ← (B.subject ca.certDer).mapError fun e => s!"CA cert parse failed: {e}"
  let issuer ← caCert.mapError fun e => s!"issuer Name encode failed: {e}"
  let alg ← okOrElse s!"unsupported hash algorithm for CRL: {ca.hashAlgorithm}"
    (sigAlgDer ca.hashAlgorithm)
  let tbs ← (B.build ⟨issuer, clock.thisUpdate, clock.nextUpdate, alg, rows.map crlEntry⟩).mapError
    fun e => s!"CRL TBS build failed: {e}"
  let file ← okOrElse s!"no CaConfig for CA '{ca.id}'" (B.keyFile ca.id)
  let pem ← (B.read file).mapError fun e => s!"failed to read CA key {file}: {e}"
  let key ← (B.fromPem pem).mapError fun e => s!"CA key parse failed: {e}"
  let hash := if ca.hashAlgorithm = "none" then "" else ca.hashAlgorithm
  let sig ← (B.sign key hash tbs).mapError fun e => s!"CRL signing failed: {e}"
  let crl ← (B.assemble tbs alg sig).mapError fun e => s!"CRL assembly failed: {e}"
  pure ⟨crl, s!"CRL generated with {rows.length} revoked entries"⟩

/-! ## What is asked of it -/

/-- What the CRL has to say of a revoked certificate: its serial number and the reason given. -/
def CertRow.wanted (row : CertRow) : List UInt8 × Nat :=
  (row.certSerial, (row.revokedBy.bind Revocation.given).getD 0)

def CrlEntry.shown (entry : CrlEntry) : List UInt8 × Nat :=
  (entry.serial, (entry.reason.map UInt8.toNat).getD 0)

/-- The entries of a CRL are those wanted for the rows, in some order. -/
def Lists (entries : List CrlEntry) (rows : List CertRow) : Prop :=
  (entries.map CrlEntry.shown).Perm (rows.map CertRow.wanted)

instance (entries : List CrlEntry) (rows : List CertRow) : Decidable (Lists entries rows) :=
  inferInstanceAs (Decidable (List.Perm _ _))

def CertRow.storedSerial (row : CertRow) : List UInt8 := (hexDecode row.serial).getD []

/-- Every row was revoked by an administrator without a reason, and the serials stored are the
    certificates' own. -/
def Listable (rows : List CertRow) : Prop :=
  (∀ row ∈ rows, row.revokedBy = some (.admin 0)) ∧
    (rows.map CertRow.storedSerial).Perm (rows.map CertRow.certSerial)

instance (rows : List CertRow) : Decidable (Listable rows) :=
  inferInstanceAs (Decidable (_ ∧ _))

namespace CrlBackend

variable {Key Tbs Crl : Type}

/-- The library accepts the CA's certificate and any entries, and encodes what it is given. -/
structure Accepts (B : CrlBackend Key Tbs Crl) (ca : CaState) : Prop where
  subject : ∃ issuer, B.subject ca.certDer = .ok (.ok issuer)
  build : ∀ tbs, ∃ der, B.build tbs = .ok der
  sign : ∀ key hash der, ∃ sig, B.sign key hash der = .ok sig
  assemble : ∀ {tbs der} alg sig, B.build tbs = .ok der →
    ∃ crl, B.assemble der alg sig = .ok crl ∧ B.entries crl = tbs.revoked

/-- The key file of the CA can be read and parsed. -/
def HasKey (B : CrlBackend Key Tbs Crl) (ca : CaState) : Prop :=
  ∃ file pem key, B.keyFile ca.id = some file ∧ B.read file = .ok pem ∧ B.fromPem pem = .ok key

end CrlBackend

/-! ## Reading the columns -/

theorem reasonCode_of_digits {s : String} (h : ∀ c ∈ s.toList, c.isDigit) : reasonCode s = 0 := by
  have hletter : 'e' ∉ s.toList := fun he => absurd (h 'e' he) (by decide)
  unfold reasonCode
  split
  case h_10 => rfl
  all_goals exact absurd (by decide) hletter

theorem reasonCode_toString (reason : UInt32) : reasonCode (toString reason) = 0 := by
  apply reasonCode_of_digits
  intro c hc
  have hdigits : (toString reason).toList = Nat.toDigits 10 reason.toNat := by
    show (Nat.repr reason.toNat).toList = _
    rw [Nat.repr_eq_ofList_toDigits, String.toList_ofList]
  rw [hdigits] at hc
  exact Nat.isDigit_of_mem_toDigits (by decide) (by decide) hc

variable {certs : Certificates} {caId : String} {out : List (String × String × Option String)}

theorem selectRevoked_eq_ok : selectRevoked none caId certs = .ok out ↔
      List.Forall₂ (fun row r => decodeRow row = .ok r) (revokedOf caId certs) out :=
  mapM_eq_ok

variable {row : CertRow}

theorem mem_revokedOf :
    row ∈ revokedOf caId certs ↔ row ∈ certs.rows ∧ row.caId = caId ∧ row.status = .revoked := by
  unfold revokedOf
  rw [List.mem_filter, decide_eq_true_iff]

theorem shown_of_decodeRow {r : String × String × Option String} (hc : row.Consistent)
    (hs : row.status = .revoked) (h : decodeRow row = .ok r) :
    (∃ reason, row.revokedBy = some (.admin reason)) ∧
      (crlEntry r).shown = (row.storedSerial, 0) := by
  unfold CertRow.Consistent at hc
  unfold decodeRow at h
  split at hc
  · exact absurd hs hc.1
  · next reason hby =>
    obtain ⟨-, hreason, -⟩ := hc
    split at h
    · cases h
    · next time htime =>
      cases h
      refine ⟨⟨reason, hby⟩, ?_⟩
      show (row.storedSerial, (((row.revocationReason).map reasonCode).map UInt8.toNat).getD 0) = _
      rw [hreason, Option.map_some, reasonCode_toString]
      rfl
  · next given hby =>
    obtain ⟨-, -, htime⟩ := hc
    rw [htime] at h
    cases h

variable {reason : UInt32}

theorem decodeRow_of_admin (hc : row.Consistent)
    (hby : row.revokedBy = some (.admin reason)) : ∃ r, decodeRow row = .ok r := by
  unfold CertRow.Consistent at hc
  rw [hby] at hc
  obtain ⟨time, htime⟩ := Option.isSome_iff_exists.mp hc.2.2
  unfold decodeRow
  rw [htime]
  exact ⟨_, rfl⟩

/-! ## The whole list -/

variable {rows : List CertRow}

theorem shown_of_decoded (hrows : ∀ row ∈ rows, row.Consistent ∧ row.status = .revoked)
    (h : List.Forall₂ (fun row r => decodeRow row = .ok r) rows out) :
    (∀ row ∈ rows, ∃ reason, row.revokedBy = some (.admin reason)) ∧
      (out.map crlEntry).map CrlEntry.shown = rows.map fun row => (row.storedSerial, 0) := by
  induction h with
  | nil => exact ⟨List.forall_mem_nil _, rfl⟩
  | @cons row r rows out hr hrest ih =>
    obtain ⟨hc, hs⟩ := hrows row List.mem_cons_self
    obtain ⟨hadmin, hshown⟩ := shown_of_decodeRow hc hs hr
    obtain ⟨hadmins, hrestShown⟩ := ih fun row' hrow' => hrows row' (List.mem_cons_of_mem _ hrow')
    refine ⟨List.forall_mem_cons.mpr ⟨hadmin, hadmins⟩, ?_⟩
    rw [List.map_cons, List.map_cons, List.map_cons, hshown, hrestShown]

theorem exists_decoded (hc : ∀ row ∈ rows, row.Consistent)
    (h : ∀ row ∈ rows, ∃ reason, row.revokedBy = some (.admin reason)) :
    ∃ out, List.Forall₂ (fun row r => decodeRow row = .ok r) rows out := by
  induction rows with
  | nil => exact ⟨[], .nil⟩
  | cons row rows ih =>
    obtain ⟨reason, hby⟩ := h row List.mem_cons_self
    obtain ⟨r, hr⟩ := decodeRow_of_admin (hc row List.mem_cons_self) hby
    obtain ⟨out, hout⟩ := ih (fun row' hrow' => hc row' (List.mem_cons_of_mem _ hrow'))
      fun row' hrow' => h row' (List.mem_cons_of_mem _ hrow')
    exact ⟨r :: out, .cons hr hout⟩

theorem perm_pair_const_iff {α β γ : Type} {xs : List α} {f g : α → β} {k : α → γ} {z : γ} :
    (xs.map fun x => (f x, z)).Perm (xs.map fun x => (g x, k x)) ↔
      (∀ x ∈ xs, k x = z) ∧ (xs.map f).Perm (xs.map g) := by
  constructor
  · intro h
    refine ⟨?_, ?_⟩
    · intro x hx
      have hmem : (g x, k x) ∈ xs.map fun x => (f x, z) := h.mem_iff.mpr (List.mem_map_of_mem hx)
      obtain ⟨y, -, hy⟩ := List.mem_map.mp hmem
      exact (congrArg Prod.snd hy).symm
    · have hfst := h.map Prod.fst
      rw [List.map_map, List.map_map] at hfst
      exact hfst
  · rintro ⟨hk, hperm⟩
    have hconst : (xs.map fun x => (g x, k x)) = (xs.map g).map fun b => (b, z) := by
      rw [List.map_map]
      exact List.map_congr_left fun x hx => congrArg (Prod.mk (g x)) (hk x hx)
    rw [hconst, ← Function.comp_def (fun b => (b, z)) f, ← List.map_map]
    exact hperm.map _

theorem wanted_admin (hby : row.revokedBy = some (.admin reason)) :
    (row.revokedBy.bind Revocation.given).getD 0 = 0 ↔ row.revokedBy = some (.admin 0) := by
  rw [hby]
  show reason.toNat = 0 ↔ _
  rw [Option.some_inj, Revocation.admin.injEq, ← UInt32.toNat_inj]
  rfl

theorem lists_decoded_iff (hrows : ∀ row ∈ rows, row.Consistent ∧ row.status = .revoked) :
    (∃ out, List.Forall₂ (fun row r => decodeRow row = .ok r) rows out ∧
      Lists (out.map crlEntry) rows) ↔ Listable rows := by
  constructor
  · rintro ⟨out, hout, hlists⟩
    obtain ⟨hadmin, hshown⟩ := shown_of_decoded hrows hout
    unfold Lists at hlists
    rw [hshown] at hlists
    obtain ⟨hzero, hperm⟩ := perm_pair_const_iff.mp hlists
    refine ⟨?_, hperm⟩
    intro row hrow
    obtain ⟨reason, hby⟩ := hadmin row hrow
    exact (wanted_admin hby).mp (hzero row hrow)
  · rintro ⟨hby, hperm⟩
    obtain ⟨out, hout⟩ := exists_decoded (fun row hrow => (hrows row hrow).1)
      fun row hrow => ⟨0, hby row hrow⟩
    obtain ⟨-, hshown⟩ := shown_of_decoded hrows hout
    refine ⟨out, hout, ?_⟩
    unfold Lists
    rw [hshown]
    exact perm_pair_const_iff.mpr
      ⟨fun row hrow => (wanted_admin (hby row hrow)).mpr (hby row hrow), hperm⟩

theorem regenerateCrl_iff {Key Tbs Crl : Type} {B : CrlBackend Key Tbs Crl} {ca : CaState}
    (hB : B.Accepts ca) (fault : Option String) (clock : Clock) (certs : Certificates)
    (P : List CrlEntry → Prop) :
    (∃ out, regenerateCrl B fault clock ca certs = .ok out ∧ P (B.entries out.crlDer)) ↔
      (sigAlgDer ca.hashAlgorithm).isSome ∧ B.HasKey ca ∧
        ∃ rows, selectRevoked fault ca.id certs = .ok rows ∧ P (rows.map crlEntry) := by
  unfold regenerateCrl
  simp only [except_bind_eq_ok, mapError_eq_ok, okOrElse_eq_ok]
  constructor
  · rintro ⟨out, ⟨rows, hrows, caCert, -, issuer, -, alg, halg, tbs, htbs, file, hfile, pem, hpem,
      key, hkey, sig, -, crl, hcrl, hout⟩, hP⟩
    refine ⟨by rw [halg]; rfl, ⟨file, pem, key, hfile, hpem, hkey⟩, rows, hrows, ?_⟩
    obtain ⟨crl', hcrl', hentries⟩ := hB.assemble alg sig htbs
    cases hcrl.symm.trans hcrl'
    cases hout
    have hrevoked : B.entries crl = rows.map crlEntry := hentries
    rw [← hrevoked]
    exact hP
  · rintro ⟨hsome, ⟨file, pem, key, hfile, hpem, hkey⟩, rows, hrows, hP⟩
    obtain ⟨alg, halg⟩ := Option.isSome_iff_exists.mp hsome
    obtain ⟨issuer, hissuer⟩ := hB.subject
    obtain ⟨tbs, htbs⟩ := hB.build
      ⟨issuer, clock.thisUpdate, clock.nextUpdate, alg, rows.map crlEntry⟩
    obtain ⟨sig, hsig⟩ := hB.sign key
      (if ca.hashAlgorithm = "none" then "" else ca.hashAlgorithm) tbs
    obtain ⟨crl, hcrl, hentries⟩ := hB.assemble alg sig htbs
    exact ⟨_, ⟨rows, hrows, _, hissuer, issuer, rfl, alg, halg, tbs, htbs, file, hfile, pem, hpem,
      key, hkey, sig, hsig, crl, hcrl, rfl⟩, hentries ▸ hP⟩

/-- In every reachable inventory, regenerating the CRL of a CA succeeds and lists exactly the CA's
    revoked certificates, with their serial numbers and reasons, if and only if the CA's hash is
    one the CRL code knows, its key is in a file, and its revoked rows are `Listable`. -/
theorem regenerateCrl_lists_iff {Key Tbs Crl : Type} {B : CrlBackend Key Tbs Crl} {ca : CaState}
    {run : Run} {certs : Certificates} (hB : B.Accepts ca) (h : Reaches run certs) (clock : Clock) :
    (∃ out, regenerateCrl B none clock ca certs = .ok out ∧
      Lists (B.entries out.crlDer) (revokedOf ca.id certs)) ↔
      (sigAlgDer ca.hashAlgorithm).isSome ∧ B.HasKey ca ∧ Listable (revokedOf ca.id certs) := by
  have hrows : ∀ row ∈ revokedOf ca.id certs, row.Consistent ∧ row.status = .revoked := by
    intro row hrow
    obtain ⟨hmem, -, hs⟩ := mem_revokedOf.mp hrow
    exact ⟨reachable_consistent h row hmem, hs⟩
  rw [regenerateCrl_iff hB none clock certs fun es => Lists es (revokedOf ca.id certs),
    ← lists_decoded_iff hrows]
  simp only [selectRevoked_eq_ok]

/-! ### Runs where it fails, and one where it does not -/

def plainBackend : CrlBackend Unit TbsCertList TbsCertList where
  subject := fun _ => .ok (.ok [0x30, 0x00])
  build := .ok
  keyFile := fun _ => some "/etc/kipuka/ca.key"
  read := fun _ => .ok []
  fromPem := fun _ => .ok ()
  sign := fun _ _ _ => .ok []
  assemble := fun tbs _ _ => .ok tbs
  entries := TbsCertList.revoked

theorem plainBackend_accepts (ca : CaState) : plainBackend.Accepts ca where
  subject := ⟨_, rfl⟩
  build := fun tbs => ⟨tbs, rfl⟩
  sign := fun _ _ _ => ⟨_, rfl⟩
  assemble := by
    intro tbs der alg sig hbuild
    cases hbuild
    exact ⟨tbs, rfl, rfl⟩

def ca1 : CaState := ⟨"ca1", [], "sha256"⟩

def noon : Clock := ⟨"20260301120000Z", "20260301130000Z"⟩

def steps (n : Nat) : Run := List.replicate n (.step 0 ⟨none, "2026-03-01T12:00:00Z"⟩)

def deviceSerial : List UInt8 :=
  [0x3a, 1, 2, 3, 4, 5, 6, 7, 8, 9, 10, 11, 12, 13, 14, 15, 16, 17, 18, 19]

def enrolled : Run := .start 0 (.enroll (.signed deviceSerial "CN=device" "ca1")) :: steps 2

def adminRun (reason : UInt32) : Run :=
  enrolled ++ .start 0 (.adminRevoke .operator (hexEncode deviceSerial) reason) :: steps 4

def cmpRun : Run :=
  enrolled ++ .start 0 (.cmpRevoke ⟨"CN=device", .signature (.ok ⟨"CN=device", none⟩),
    .ok [⟨.ok ⟨some deviceSerial⟩, none⟩]⟩) :: steps 4

def inventoryAfter (run : Run) : Option Certificates :=
  (requests.run (Config.initial Certificates.empty) run).map fun c => c.shared

theorem reaches_of_inventoryAfter {run : Run} (h : inventoryAfter run = some certs) :
    Reaches run certs :=
  Option.map_eq_some_iff.mp h

def crlReport (certs : Certificates) : Option (List (List UInt8 × Nat)) × List (List UInt8 × Nat) :=
  ((regenerateCrl plainBackend none noon ca1 certs).toOption.map fun out =>
      (plainBackend.entries out.crlDer).map CrlEntry.shown,
    (revokedOf "ca1" certs).map CertRow.wanted)

/-- A key compromise is listed without its reason, and after a revocation over CMP there is no CRL
    at all. -/
theorem regenerateCrl_misreports :
    (∃ certs out, Reaches (adminRun 1) certs ∧
      regenerateCrl plainBackend none noon ca1 certs = .ok out ∧
      (plainBackend.entries out.crlDer).map CrlEntry.shown = [(deviceSerial, 0)] ∧
      (revokedOf "ca1" certs).map CertRow.wanted = [(deviceSerial, 1)]) ∧
    ∃ certs, Reaches cmpRun certs ∧
      (revokedOf "ca1" certs).map CertRow.wanted = [(deviceSerial, 0)] ∧
      ∀ out, regenerateCrl plainBackend none noon ca1 certs ≠ .ok out := by
  constructor
  · have hreport : (inventoryAfter (adminRun 1)).map crlReport =
        some (some [(deviceSerial, 0)], [(deviceSerial, 1)]) := by decide +kernel
    obtain ⟨certs, hrun, hc⟩ := Option.map_eq_some_iff.mp hreport
    obtain ⟨hshown, hwanted⟩ := Prod.mk.inj hc
    cases hcrl : regenerateCrl plainBackend none noon ca1 certs with
    | error e =>
      rw [hcrl] at hshown
      cases hshown
    | ok out =>
      rw [hcrl] at hshown
      exact ⟨certs, out, reaches_of_inventoryAfter hrun, hcrl, Option.some.inj hshown, hwanted⟩
  · have hreport : (inventoryAfter cmpRun).map crlReport =
        some (none, [(deviceSerial, 0)]) := by decide +kernel
    obtain ⟨certs, hrun, hc⟩ := Option.map_eq_some_iff.mp hreport
    obtain ⟨hshown, hwanted⟩ := Prod.mk.inj hc
    refine ⟨certs, reaches_of_inventoryAfter hrun, hwanted, ?_⟩
    intro out hcrl
    rw [hcrl] at hshown
    cases hshown

/-- Without a reason the certificate is listed as it should be. -/
theorem regenerateCrl_lists_iff_unspecified :
    ∃ certs, Reaches (adminRun 0) certs ∧ (revokedOf "ca1" certs).length = 1 ∧
      ∃ out, regenerateCrl plainBackend none noon ca1 certs = .ok out ∧
        Lists (plainBackend.entries out.crlDer) (revokedOf "ca1" certs) := by
  have hrows : (inventoryAfter (adminRun 0)).map
      (fun certs => ((revokedOf "ca1" certs).length, decide (Listable (revokedOf "ca1" certs)))) =
      some (1, true) := by decide +kernel
  obtain ⟨certs, hrun, hc⟩ := Option.map_eq_some_iff.mp hrows
  obtain ⟨hlen, hlistable⟩ := Prod.mk.inj hc
  have hreach := reaches_of_inventoryAfter hrun
  have hkey : plainBackend.HasKey ca1 := ⟨_, _, (), rfl, rfl, rfl⟩
  exact ⟨certs, hreach, hlen, (regenerateCrl_lists_iff (plainBackend_accepts ca1) hreach noon).mpr
    ⟨rfl, hkey, of_decide_eq_true hlistable⟩⟩

/-- A revocation over CMP stores no time, and after it that CA never has a CRL again. -/
theorem crl_never_again {c c' : Config Nat Op Task Result Certificates Reply} {run : Run}
    (h : requests.run c run = some c') {serial : String} (hrow : c.shared.find serial = some row)
    (hrevoked : row.status = .revoked) (htime : row.revocationTime = none) {Key Tbs Crl : Type}
    (B : CrlBackend Key Tbs Crl) (fault : Option String) (clock : Clock) {ca : CaState}
    (hca : row.caId = ca.id) (out : Regenerated Crl) :
    regenerateCrl B fault clock ca c'.shared ≠ .ok out := by
  have hfind := requests.run_preserves (I := fun s => s.find serial = some row)
    (fun _ _ _ _ _ _ he hs => (hs ▸ exec_alters he serial).final hrevoked) (fun _ _ hs => hs) hrow h
  have hmem := mem_revokedOf.mpr ⟨List.mem_of_find?_eq_some hfind, hca, hrevoked⟩
  intro hout
  obtain ⟨rows, hselect, -⟩ := except_bind_eq_ok.mp hout
  rw [mapError_eq_ok] at hselect
  cases fault with
  | some e => cases hselect
  | none =>
    obtain ⟨i, hi, hget⟩ := List.getElem_of_mem hmem
    have hrows := selectRevoked_eq_ok.mp hselect
    have hdecoded := hrows.get hi (hrows.length_eq ▸ hi)
    rw [List.get_eq_getElem, hget, decodeRow, htime] at hdecoded
    cases hdecoded

theorem crl_never_again_alice : ∃ c, revokedAgain (.markRevoked none) = some c ∧
    ∀ out, regenerateCrl plainBackend none noon ca1 c.shared ≠ .ok out := by
  have hsome : (revokedAgain (.markRevoked none)).isSome := by decide +kernel
  obtain ⟨c, hrun⟩ := Option.isSome_iff_exists.mp hsome
  have hfind : (oneRevoked (.markRevoked none)).find "0a" = some _ := rfl
  exact ⟨c, hrun, crl_never_again hrun hfind rfl rfl plainBackend none noon rfl⟩

end Kipuka.Inventory
