/-
  Who writes the inventory: the routes that store an issued certificate, `revoke_cert`
  (`src/routes/admin/certs.rs`) and `process_revocation_request` (`src/routes/cmp.rs`).
-/
import Kipuka.Inventory.Store

namespace Kipuka.Inventory

open Generic

abbrev Fallible (α : Type) : Type := ExceptT KipukaError (Prog Op Reply) α

abbrev ask (o : Op) : Prog Op Reply (Reply o) := Prog.op o

def parsed {α : Type} (f : String → KipukaError) (r : Except String α) : Fallible α :=
  ExceptT.mk (pure (r.mapError f))

/-! ## Issuance -/

/-- A certificate as a route got it: signed by the server, or by Dogtag. -/
inductive Issued where
  | signed (serialBytes : List UInt8) (subjectDn caId : String)
  /-- `serialBytes` is in the certificate; the route knows only the request id. -/
  | dogtag (requestId : String) (serialBytes : List UInt8) (caId : String)
  deriving DecidableEq

def Issued.newCert : Issued → NewCert
  | .signed serialBytes subjectDn caId => ⟨hexEncode serialBytes, subjectDn, caId, serialBytes⟩
  | .dogtag requestId serialBytes caId => ⟨requestId, "(dogtag-issued)", caId, serialBytes⟩

def storeIssued (issued : Issued) : Prog Op Reply Unit := do
  let _ ← ask (.insertCert issued.newCert)
  pure ()

def persistCertificate (issued : Issued) : Fallible Unit :=
  Prog.mapErr (fun e => .db s!"certificate persistence failed: {e}")
    (ask (.insertCert issued.newCert))

/-! ## The admin route -/

inductive AdminRole where
  | operator | auditor
  deriving DecidableEq, Repr

/-- An answer of the admin API: the status and, where there is a body, its error and detail. -/
structure Response where
  status : Nat
  error : Option String
  detail : Option String
  deriving DecidableEq, Repr

def requireOperator (role : AdminRole) : Option Response :=
  if role = .operator then none
  else some ⟨403, none, some "operator role required for this operation"⟩

def validReasons : List UInt32 := [0, 1, 2, 3, 4, 5, 6, 9, 10]

def databaseError (detail : String) : Response := ⟨500, some "database_error", some detail⟩

def revokeChecked (serial : String) (reason : UInt32) : ExceptT Response (Prog Op Reply) Response := do
  let now ← Prog.lift (ask .now)
  let rows ← Prog.mapErr (fun _ => databaseError "failed to update certificate status")
    (ask (.revoke serial reason now))
  if rows = 0 then
    let count ← Prog.mapErr (fun _ => databaseError "failed to query certificate database")
      (ask (.countSerial serial))
    if count = 0 then
      throw ⟨404, some "not_found", some s!"certificate with serial {serial} not found"⟩
  Prog.lift (ask (.recordAuditEvent "cert_revoked" s!"serial={serial}, reason={reason}"))
  pure ⟨204, none, none⟩

def revokeCert (role : AdminRole) (serial : String) (reason : UInt32) : Prog Op Reply Response :=
  match requireOperator role with
  | some refusal => pure refusal
  | none =>
    if reason ∉ validReasons then
      pure ⟨400, some "invalid_reason", some s!"reason code {reason} is not a valid CRL reason"⟩
    else do
      match ← (revokeChecked serial reason).run with
      | .ok response => pure response
      | .error response => pure response

/-! ## CMP -/

structure CertTemplate where
  serialNumber : Option (List UInt8)
  deriving DecidableEq, Repr

/-- One `RevDetails`. The reason in its `crlEntryDetails` is not read by the server. -/
structure RevDetails where
  certDetails : Except String CertTemplate
  reason : Option Nat

/-- The part of the signer's certificate that is read. The extended key usages are absent,
    unreadable or a list of OIDs. -/
structure SignerCert where
  subjectDn : String
  extendedKeyUsage : Option (Except String (List String))

inductive CmpProtectionType where
  | signature (cert : Except String SignerCert)
  | mac

structure CmpRequest where
  sender : String
  protection : CmpProtectionType
  body : Except String (List RevDetails)

structure PKIStatusInfo where
  status : Int
  statusString : Option String
  failInfo : Option String
  deriving DecidableEq, Repr

def cmcRaOid : String := "1.3.6.1.5.5.7.3.28"

def SignerCert.isRa (signer : SignerCert) : Bool :=
  match signer.extendedKeyUsage with
  | none => false
  | some (.error _) => false
  | some (.ok oids) => oids.any fun oid => oid = cmcRaOid

/-- Self-revocation: the signer has to be the certificate's subject. A serial that is not in the
    inventory passes. -/
def authorizeDetail (signerDn : String) (detail : RevDetails) : Fallible Unit := do
  let template ← parsed
    (fun e => .badRequest s!"failed to parse RevDetails CertTemplate for authz: {e}")
    detail.certDetails
  match template.serialNumber with
  | none => pure ()
  | some serial =>
    let serialHex := hexEncode serial
    let owner ← Prog.mapErr
      (fun e => .ca s!"database error checking revocation authorization: {e}")
      (ask (.subjectOf serialHex))
    match owner with
    | none => pure ()
    | some revokee =>
      if revokee ≠ signerDn then
        throw (.forbidden (s!"CMP revocation denied: signer '{signerDn}' is not authorized " ++
          s!"to revoke certificate serial {serialHex} (owner: '{revokee}')"))

/-- One entry of the request: accepted, whether or not a row has the serial. -/
def revokeDetail (sender : String) (detail : RevDetails) : Fallible PKIStatusInfo := do
  let template ← parsed (fun e => .badRequest s!"failed to parse RevDetails CertTemplate: {e}")
    detail.certDetails
  match template.serialNumber with
  | none => throw (.badRequest "RevDetails CertTemplate missing serial number")
  | some serial =>
    let serialHex := hexEncode serial
    let _ ← Prog.mapErr (fun e => .ca s!"database error revoking serial {serialHex}: {e}")
      (ask (.markRevoked serialHex detail.reason))
    Prog.lift (ask (.recordAuditEvent "cmp_revocation" s!"serial={serialHex}, sender={sender}"))
    pure ⟨0, none, none⟩

def processRevocationRequest (req : CmpRequest) : Fallible (List PKIStatusInfo) :=
  match req.protection with
  | .mac => throw (.forbidden "CMP revocation requires certificate signature protection")
  | .signature cert => do
    let details ← parsed (fun e => .badRequest s!"failed to parse CMP RevReqContent: {e}") req.body
    if details.isEmpty then
      throw (.badRequest "CMP RevReqContent contains no revocation requests")
    let signer ← parsed
      (fun e => .auth s!"failed to parse signer certificate for revocation authorization: {e}") cert
    if !signer.isRa then
      details.forM (authorizeDetail signer.subjectDn)
    details.mapM (revokeDetail req.sender)

/-! ## Runs -/

inductive Task where
  | enroll (issued : Issued)
  | persist (issued : Issued)
  | adminRevoke (role : AdminRole) (serial : String) (reason : UInt32)
  | cmpRevoke (req : CmpRequest)

inductive Result where
  | enrolled
  | persisted (r : Except KipukaError Unit)
  | admin (r : Response)
  | cmp (r : Except KipukaError (List PKIStatusInfo))

def Task.prog : Task → Prog Op Reply Result
  | .enroll issued => do
    storeIssued issued
    pure .enrolled
  | .persist issued => do
    let r ← (persistCertificate issued).run
    pure (.persisted r)
  | .adminRevoke role serial reason => do
    let r ← revokeCert role serial reason
    pure (.admin r)
  | .cmpRevoke req => do
    let r ← (processRevocationRequest req).run
    pure (.cmp r)

/-- Requests over the inventory. Each statement commits on its own, so a dropped request undoes
    nothing. -/
def requests : System Nat Env Op Task Result Certificates Reply where
  exec := fun _ => exec
  abandon := fun _ certs => certs
  prog := Task.prog

abbrev Run := List (Act Nat Env Task)

/-- A run of requests leads from the empty table to this one. -/
def Reaches (run : Run) (certs : Certificates) : Prop :=
  ∃ c, requests.run (Config.initial Certificates.empty) run = some c ∧ c.shared = certs

/-! ## What a row shows -/

def CertRow.Consistent (row : CertRow) : Prop :=
  match row.revokedBy with
  | none => row.status ≠ .revoked ∧ row.revocationReason = none ∧ row.revocationTime = none
  | some (.admin reason) => row.status = .revoked ∧ row.revocationReason = some (toString reason) ∧
      row.revocationTime.isSome
  | some (.cmp _) => row.status = .revoked ∧ row.revocationReason = none ∧ row.revocationTime = none

namespace CertRow.Consistent

variable {row : CertRow}

theorem of_unrevoked (h : row.Consistent) (hs : row.status ≠ .revoked) :
    row.revocationReason = none ∧ row.revocationTime = none := by
  unfold CertRow.Consistent at h
  split at h
  · exact h.2
  · exact absurd h.1 hs
  · exact absurd h.1 hs

theorem newCert (cert : NewCert) : cert.row.Consistent := by
  show Status.active ≠ .revoked ∧ _
  exact ⟨by decide, rfl, rfl⟩

theorem revoke (h : row.Consistent) (reason : UInt32) (time : String) :
    (row.revoke reason time).Consistent := by
  unfold CertRow.revoke
  split
  · exact h
  · exact ⟨rfl, rfl, rfl⟩

theorem markRevoked (h : row.Consistent) (given : Option Nat) :
    (row.markRevoked given).Consistent := by
  unfold CertRow.markRevoked
  split
  · exact h
  · next hs =>
    obtain ⟨hreason, htime⟩ := h.of_unrevoked hs
    exact ⟨rfl, hreason, htime⟩

end CertRow.Consistent

def Certificates.Consistent (certs : Certificates) : Prop :=
  ∀ row ∈ certs.rows, row.Consistent

variable {certs certs' : Certificates}

theorem consistent_insert {cert : NewCert} (h : certs.Consistent)
    (hi : certs.insert cert.row = some certs') : certs'.Consistent := by
  unfold Certificates.insert at hi
  split at hi
  · cases hi
  · cases hi
    intro row hrow
    rcases List.mem_append.mp hrow with hold | hnew
    · exact h row hold
    · rw [List.mem_singleton.mp hnew]
      exact .newCert cert

theorem consistent_update {serial : String} {f : CertRow → CertRow}
    (hf : ∀ row, (f row).serial = row.serial) (h : certs.Consistent)
    (hkeep : ∀ row : CertRow, row.Consistent → (f row).Consistent) :
    (certs.update serial f hf).Consistent := by
  intro row hrow
  obtain ⟨old, hold, rfl⟩ := List.mem_map.mp hrow
  split
  · exact hkeep old (h old hold)
  · exact h old hold

variable {e : Env}

theorem consistent_stmt {α : Type} {effect : Except String α × Certificates} {r : Except String α}
    (h : stmt e certs effect = some (r, certs')) (hc : certs.Consistent)
    (heffect : effect.2.Consistent) : certs'.Consistent := by
  rcases stmt_cases h with rfl | ⟨-, rfl⟩
  · exact heffect
  · exact hc

theorem consistent_exec {op : Op} {r : Reply op}
    (h : exec e op certs = some (r, certs')) (hc : certs.Consistent) : certs'.Consistent := by
  cases op with
  | insertCert cert =>
    refine consistent_stmt h hc ?_
    cases hi : certs.insert cert.row with
    | none => exact hc
    | some certs' => exact consistent_insert hc hi
  | subjectOf | countSerial => exact consistent_stmt h hc hc
  | revoke serial reason time =>
    exact consistent_stmt h hc (consistent_update (revoke_serial reason time) hc
      fun _ hrow => hrow.revoke reason time)
  | markRevoked serial given =>
    exact consistent_stmt h hc (consistent_update (markRevoked_serial given) hc
      fun _ hrow => hrow.markRevoked given)
  | now | recordAuditEvent =>
    cases h
    exact hc

theorem reachable_consistent {run : Run} (h : Reaches run certs) : certs.Consistent := by
  obtain ⟨c, hrun, rfl⟩ := h
  refine requests.run_preserves (I := Certificates.Consistent) ?_ ?_ ?_ hrun
  · intro w e op s r s' he hs
    exact consistent_exec he hs
  · intro w s hs
    exact hs
  · intro row hrow
    cases hrow

/-! ## Revoked rows over a run -/

theorem Alters.final {serial : String} {op : Op} {row : CertRow} {after : Option CertRow}
    (h : Alters serial op (some row) after) (hrevoked : row.status = .revoked) :
    after = some row := by
  cases h with
  | nothing => rfl
  | revoke | markRevoked => exact congrArg some (if_pos hrevoked)

/-- However requests are interleaved and whichever statements fail, a revoked row stays as it is:
    the reason and the time of its first revocation are final. -/
theorem revocation_final {c c' : Config Nat Op Task Result Certificates Reply} {run : Run}
    (h : requests.run c run = some c') {serial : String} {row : CertRow}
    (hrow : c.shared.find serial = some row) (hrevoked : row.status = .revoked) :
    c'.shared.find serial = some row := by
  refine requests.run_preserves (I := fun s => s.find serial = some row) ?_ ?_ hrow h
  · intro w e op s r s' he hs
    exact (hs ▸ exec_alters he serial).final hrevoked
  · intro w s hs
    exact hs

def oneRevoked (revoke : CertRow → CertRow) : Certificates where
  rows := [revoke (NewCert.row ⟨"0a", "CN=alice", "ca1", [0x0a]⟩)]
  unique := List.nodup_singleton _

def revokedAgain (revoke : CertRow → CertRow) :=
  requests.run (.initial (oneRevoked revoke))
    (.start 0 (.adminRevoke .operator "0a" 4) :: List.replicate 5 (.step 0 ⟨none, "t2"⟩))

theorem revocation_final_again : ∃ c, revokedAgain (.revoke 1 "t1") = some c ∧
    c.done.length = 1 ∧ (c.shared.find "0a").bind CertRow.revocationTime = some "t1" := by
  have hdone : (revokedAgain (.revoke 1 "t1")).map (fun c => c.done.length) = some 1 := by
    decide +kernel
  obtain ⟨c, hrun, hlen⟩ := Option.map_eq_some_iff.mp hdone
  have hfind : c.shared.find "0a" = some _ := revocation_final hrun rfl rfl
  exact ⟨c, hrun, hlen, hfind ▸ rfl⟩

end Kipuka.Inventory
