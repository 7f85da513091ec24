/-
  The certificate inventory: the `certificates` table (`src/db/schema.rs`) and the statements that
  insert and revoke (`src/ca/issue.rs`, `src/routes/admin/certs.rs`, `src/routes/cmp.rs`).
-/
import Kipuka.Error
import Kipuka.Generic.Text
import Kipuka.Generic.Threads
import Mathlib.Data.List.Nodup

namespace Kipuka.Inventory

open Generic

inductive Status where
  | active | revoked | expired
  deriving DecidableEq, Repr

inductive Revocation where
  | admin (reason : UInt32)
  /-- The reason of the `crlEntryDetails`, if there is one. -/
  | cmp (reason : Option Nat)
  deriving DecidableEq, Repr

def Revocation.given : Revocation → Option Nat
  | .admin reason => some reason.toNat
  | .cmp reason => reason

structure CertRow where
  serial : String
  subjectDn : String
  caId : String
  status : Status
  revocationReason : Option String
  revocationTime : Option String
  /-- The serial number in `der_encoded`. -/
  certSerial : List UInt8
  revokedBy : Option Revocation
  deriving DecidableEq, Repr

structure Certificates where
  rows : List CertRow
  unique : (rows.map CertRow.serial).Nodup

namespace Certificates

def empty : Certificates := ⟨[], .nil⟩

def find (certs : Certificates) (serial : String) : Option CertRow :=
  certs.rows.find? fun row => row.serial = serial

def insert (certs : Certificates) (row : CertRow) : Option Certificates :=
  if h : row.serial ∈ certs.rows.map CertRow.serial then none
  else some ⟨certs.rows ++ [row], by
    rw [List.map_append]
    exact List.Nodup.append certs.unique (List.nodup_singleton _)
      (List.disjoint_singleton.mpr h)⟩

def update (certs : Certificates) (serial : String) (f : CertRow → CertRow)
    (hf : ∀ row, (f row).serial = row.serial) : Certificates where
  rows := certs.rows.map fun row => if row.serial = serial then f row else row
  unique := by
    have hserials : (certs.rows.map fun row => if row.serial = serial then f row else row).map
        CertRow.serial = certs.rows.map CertRow.serial := by
      rw [List.map_map]
      apply List.map_congr_left
      intro row _
      by_cases h : row.serial = serial
      · simp [h, hf]
      · simp [h]
    rw [hserials]
    exact certs.unique

end Certificates

structure NewCert where
  serial : String
  subjectDn : String
  caId : String
  certSerial : List UInt8
  deriving DecidableEq, Repr

def NewCert.row (cert : NewCert) : CertRow where
  serial := cert.serial
  subjectDn := cert.subjectDn
  caId := cert.caId
  status := .active
  revocationReason := none
  revocationTime := none
  certSerial := cert.certSerial
  revokedBy := none

def CertRow.revoke (reason : UInt32) (time : String) (row : CertRow) : CertRow :=
  if row.status = .revoked then row
  else { row with
    status := .revoked
    revocationReason := some (toString reason)
    revocationTime := some time
    revokedBy := some (.admin reason) }

def CertRow.markRevoked (given : Option Nat) (row : CertRow) : CertRow :=
  if row.status = .revoked then row
  else { row with status := .revoked, revokedBy := some (.cmp given) }

theorem revoke_serial (reason : UInt32) (time : String) (row : CertRow) :
    (row.revoke reason time).serial = row.serial := by
  unfold CertRow.revoke
  split
  · rfl
  · rfl

theorem markRevoked_serial (given : Option Nat) (row : CertRow) :
    (row.markRevoked given).serial = row.serial := by
  unfold CertRow.markRevoked
  split
  · rfl
  · rfl

/-! ## Statements -/

inductive Op where
  /-- `INSERT INTO certificates (…) VALUES (…, 'active')` -/
  | insertCert (cert : NewCert)
  /-- `SELECT subject_dn FROM certificates WHERE serial = ?` -/
  | subjectOf (serial : String)
  /-- `SELECT COUNT(*) FROM certificates WHERE serial = ?` -/
  | countSerial (serial : String)
  /-- `UPDATE certificates SET status = 'revoked', revocation_reason = ?, revocation_time = ?
      WHERE serial = ? AND status != 'revoked'` -/
  | revoke (serial : String) (reason : UInt32) (time : String)
  /-- `UPDATE certificates SET status = 'revoked' WHERE serial = ?`; `given` is the reason in the
      request, which the statement does not store. -/
  | markRevoked (serial : String) (given : Option Nat)
  | now
  /-- An audit event whose failure is only logged. -/
  | recordAuditEvent (eventType detail : String)
  deriving DecidableEq

abbrev Reply : Op → Type
  | .insertCert _ => Except String Unit
  | .subjectOf _ => Except String (Option String)
  | .countSerial _ => Except String Nat
  | .revoke _ _ _ => Except String Nat
  | .markRevoked _ _ => Except String Nat
  | .now => String
  | .recordAuditEvent _ _ => Unit

structure Env where
  fault : Option String
  now : String

def stmt {α : Type} (e : Env) (certs : Certificates) (effect : Except String α × Certificates) :
    Option (Except String α × Certificates) :=
  match e.fault with
  | some msg => some (.error msg, certs)
  | none => some effect

def exec (e : Env) : (op : Op) → Certificates → Option (Reply op × Certificates)
  | .insertCert cert, certs =>
    stmt e certs (match certs.insert cert.row with
      | some certs' => (.ok (), certs')
      | none => (.error "UNIQUE constraint failed: certificates.serial", certs))
  | .subjectOf serial, certs => stmt e certs (.ok ((certs.find serial).map CertRow.subjectDn), certs)
  | .countSerial serial, certs =>
    stmt e certs (.ok (certs.rows.countP fun row => row.serial = serial), certs)
  | .revoke serial reason time, certs =>
    stmt e certs
      (.ok (certs.rows.countP fun row => row.serial = serial ∧ row.status ≠ .revoked),
        certs.update serial (CertRow.revoke reason time) (revoke_serial reason time))
  | .markRevoked serial given, certs =>
    stmt e certs (.ok (certs.rows.countP fun row => row.serial = serial),
      certs.update serial (CertRow.markRevoked given) (markRevoked_serial given))
  | .now, certs => some (e.now, certs)
  | .recordAuditEvent _ _, certs => some ((), certs)

variable {certs : Certificates}
  {α : Type} {e : Env} {certs' : Certificates} {effect : Except String α × Certificates}
  {r : Except String α}

theorem stmt_cases (h : stmt e certs effect = some (r, certs')) :
    (r, certs') = effect ∨ (∃ msg, r = .error msg) ∧ certs' = certs := by
  unfold stmt at h
  cases hfault : e.fault with
  | none =>
    simp only [hfault] at h
    exact .inl (Option.some.inj h).symm
  | some msg =>
    simp only [hfault] at h
    obtain ⟨rfl, rfl⟩ := Prod.mk.inj (Option.some.inj h)
    exact .inr ⟨⟨msg, rfl⟩, rfl⟩

/-! ## The row under a serial number -/

variable {serial : String}

namespace Certificates

theorem find_insert {row : CertRow} (h : certs.insert row = some certs') (serial : String) :
    certs'.find serial = certs.find serial ∨
      serial = row.serial ∧ certs.find serial = none ∧ certs'.find serial = some row := by
  unfold insert at h
  split at h
  · cases h
  next hnew =>
    obtain rfl := Option.some.inj h
    unfold find
    rw [List.find?_append]
    cases hold : certs.rows.find? fun row => row.serial = serial with
    | some old => exact .inl rfl
    | none =>
      by_cases hserial : row.serial = serial
      · refine .inr ⟨hserial.symm, rfl, ?_⟩
        simp [hserial]
      · refine .inl ?_
        simp [hserial]

theorem find_update {serial' : String} {f : CertRow → CertRow}
    (hf : ∀ row, (f row).serial = row.serial) :
    (certs.update serial f hf).find serial' =
      if serial' = serial then (certs.find serial').map f else certs.find serial' := by
  have hsame : ((fun row : CertRow => decide (row.serial = serial')) ∘
      fun row => if row.serial = serial then f row else row) =
        fun row : CertRow => decide (row.serial = serial') := by
    funext row
    simp only [Function.comp]
    split
    · rw [hf]
    · rfl
  unfold find update
  rw [List.find?_map, hsame]
  cases hfound : certs.rows.find? fun row => row.serial = serial' with
  | none => simp
  | some row =>
    have hrow : row.serial = serial' := by simpa using List.find?_some hfound
    simp [hrow, apply_ite some]

end Certificates

/-- What a statement does to the row under a serial number: nothing, or it puts one there where
    there was none, or it revokes the row, as an administrator or as CMP does. -/
inductive Alters (serial : String) : Op → Option CertRow → Option CertRow → Prop where
  | nothing (op : Op) (row : Option CertRow) : Alters serial op row row
  | insert (cert : NewCert) (h : cert.serial = serial) :
      Alters serial (.insertCert cert) none (some cert.row)
  | revoke (reason : UInt32) (time : String) (row : Option CertRow) :
      Alters serial (.revoke serial reason time) row (row.map (CertRow.revoke reason time))
  | markRevoked (given : Option Nat) (row : Option CertRow) :
      Alters serial (.markRevoked serial given) row (row.map (CertRow.markRevoked given))

variable {op : Op}

theorem alters_stmt (h : stmt e certs effect = some (r, certs'))
    (heffect : Alters serial op (certs.find serial) (effect.2.find serial)) :
    Alters serial op (certs.find serial) (certs'.find serial) := by
  rcases stmt_cases h with rfl | ⟨-, rfl⟩
  · exact heffect
  · exact .nothing op _

theorem exec_alters {r : Reply op} (h : exec e op certs = some (r, certs')) (serial : String) :
    Alters serial op (certs.find serial) (certs'.find serial) := by
  cases op with
  | insertCert cert =>
    refine alters_stmt h ?_
    cases hinsert : certs.insert cert.row with
    | none => exact .nothing _ _
    | some new =>
      rcases Certificates.find_insert hinsert serial with hsame | ⟨rfl, hnone, hsome⟩
      · dsimp only
        rw [hsame]
        exact .nothing _ _
      · dsimp only
        rw [hnone, hsome]
        exact .insert cert rfl
  | subjectOf | countSerial => exact alters_stmt h (.nothing _ _)
  | revoke s reason time =>
    refine alters_stmt h ?_
    dsimp only
    rw [Certificates.find_update]
    split
    · next heq =>
      subst heq
      exact .revoke reason time _
    · exact .nothing _ _
  | markRevoked s given =>
    refine alters_stmt h ?_
    dsimp only
    rw [Certificates.find_update]
    split
    · next heq =>
      subst heq
      exact .markRevoked given _
    · exact .nothing _ _
  | now | recordAuditEvent =>
    cases h
    exact .nothing _ _

variable {row row' : Option CertRow} {old : CertRow}

theorem Alters.kept (h : Alters serial op row row') (hrow : row = some old) :
    ∃ new, row' = some new ∧ new.subjectDn = old.subjectDn ∧
      (old.status = .revoked → new.status = .revoked) := by
  cases h with
  | nothing op row => exact ⟨old, hrow, rfl, id⟩
  | insert cert h => cases hrow
  | revoke reason time row =>
    subst hrow
    refine ⟨_, rfl, ?_⟩
    unfold CertRow.revoke
    split
    · exact ⟨rfl, id⟩
    · exact ⟨rfl, fun _ => rfl⟩
  | markRevoked given row =>
    subst hrow
    refine ⟨_, rfl, ?_⟩
    unfold CertRow.markRevoked
    split
    · exact ⟨rfl, id⟩
    · exact ⟨rfl, fun _ => rfl⟩

theorem Alters.none (h : Alters serial op row row')
    (hop : ∀ cert, op ≠ .insertCert cert) (hrow : row = .none) : row' = .none := by
  cases h with
  | nothing op row => exact hrow
  | insert cert h => exact absurd rfl (hop cert)
  | revoke | markRevoked => rw [hrow, Option.map_none]

variable {serial' : String}

theorem Alters.serial_eq {given : Option Nat}
    (h : Alters serial' (.markRevoked serial given) row row') (hchanged : row' ≠ row) :
    serial' = serial := by
  cases h with
  | nothing op row => exact absurd rfl hchanged
  | markRevoked given row => rfl

end Kipuka.Inventory
