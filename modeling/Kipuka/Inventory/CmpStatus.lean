/-
  What the answer to a CMP revocation message says, and when it is true.

  The handler works entry by entry and without a transaction, so an error may come after an update
  that stays, and an update that finds no row is accepted like any other.

  * `ended_answer_ok`, `ended_answer_error`: what the calls of a message show of its entries when it
    is answered, and when it fails although one of its updates went through.
  * `sameStatus_iff`: which steps of a message change the status of a certificate.
  * `cmp_answer_true_iff`: the answer is true exactly where, if something breaks the work on the
    entries, no update found a certificate to revoke, and, if nothing does, every serial number that
    is updated has a row.

  Over every strand of the handler: any failures of its statements, any statements of other requests
  in between. The encoder of the statuses is a parameter.
-/
import Kipuka.Inventory.CmpOwner
import Mathlib.Logic.Relation

namespace Kipuka.Inventory

open Generic

def revocationAnswer (encode : List PKIStatusInfo → Except String (List UInt8)) (req : CmpRequest) :
    Fallible (List UInt8) := do
  let statuses ← processRevocationRequest req
  parsed (fun e => .internal s!"failed to encode CMP RevRepContent: {e}") (encode statuses)

def PKIStatusInfo.accepted : PKIStatusInfo := ⟨0, none, none⟩

/-! ## Updates in a history -/

def revokedSerial : Answered Op Reply → Option String
  | ⟨.markRevoked serial _, .ok _⟩ => some serial
  | _ => none

def updateFailed : Answered Op Reply → Bool
  | ⟨.markRevoked _ _, .error _⟩ => true
  | _ => false

inductive EntryEnds (sender : String) (detail : RevDetails) :
    List (Answered Op Reply) → Except KipukaError PKIStatusInfo → Prop where
  | accepted {serial : String} (count : Nat) (h : detail.serialHex = some serial) :
      EntryEnds sender detail
        [⟨.markRevoked serial detail.reason, .ok count⟩,
          ⟨.recordAuditEvent "cmp_revocation" s!"serial={serial}, sender={sender}", ()⟩]
        (.ok .accepted)
  | unnamed (e : KipukaError) (h : detail.serialHex = none) : EntryEnds sender detail [] (.error e)
  | failed (serial msg : String) (e : KipukaError) :
      EntryEnds sender detail [⟨.markRevoked serial detail.reason, .error msg⟩] (.error e)

variable {h : List (Answered Op Reply)}

theorem ended_revokeDetail {sender : String} {detail : RevDetails}
    {r : Except KipukaError PKIStatusInfo} (hend : Ended (revokeDetail sender detail).run h r) :
    EntryEnds sender detail h r := by
  unfold revokeDetail at hend
  rw [parsed_eq] at hend
  rcases ended_ofExcept_seq.mp hend with ⟨template, htemplate, hrest⟩ | ⟨e, he, rfl, rfl⟩
  · have hdetail : detail.serialHex = template.serialNumber.map hexEncode := by
      unfold RevDetails.serialHex
      rw [mapError_eq_ok.mp htemplate]
    cases hnumber : template.serialNumber with
    | none =>
      rw [hnumber] at hdetail
      simp only [hnumber] at hrest
      obtain ⟨rfl, rfl⟩ := ended_throw.mp hrest
      exact .unnamed _ hdetail
    | some serial =>
      rw [hnumber] at hdetail
      simp only [hnumber] at hrest
      rcases ended_mapErr_seq.mp hrest with ⟨h₁, h₂, count, rfl, hupdate, hlog⟩ | ⟨msg, rfl, hupdate⟩
      · obtain rfl := ended_op.mp hupdate
        obtain ⟨h₃, h₄, _, rfl, hevent, hret⟩ := ended_lift_seq.mp hlog
        obtain rfl := ended_op.mp hevent
        obtain ⟨rfl, rfl⟩ := ended_pure.mp hret
        exact .accepted count hdetail
      · obtain rfl := ended_op.mp hupdate
        exact .failed _ msg _
  · refine .unnamed e ?_
    unfold RevDetails.serialHex
    cases hcert : detail.certDetails with
    | ok template =>
      rw [hcert] at he
      cases he
    | error msg => rfl

/-! ## The loop -/

section

variable {sender : String} {details : List RevDetails} {h : List (Answered Op Reply)}

theorem ended_revoke_ok {statuses : List PKIStatusInfo}
    (hend : Ended (details.mapM (revokeDetail sender)).run h (.ok statuses)) :
    statuses = details.map (fun _ => .accepted) ∧ (∀ c ∈ h, updateFailed c = false) ∧
      ∀ detail ∈ details, ∃ serial, detail.serialHex = some serial ∧
        ∃ c ∈ h, revokedSerial c = some serial := by
  induction details generalizing h statuses with
  | nil =>
    obtain ⟨rfl, heq⟩ := ended_pure.mp hend
    exact ⟨(Except.ok.inj heq).symm, List.forall_mem_nil _, List.forall_mem_nil _⟩
  | cons detail details ih =>
    rw [List.mapM_cons] at hend
    obtain ⟨h₁, h₂, status, rfl, hfirst, hrest⟩ := ended_seq_ok.mp hend
    obtain ⟨h₃, h₄, others, rfl, hloop, hret⟩ := ended_seq_ok.mp hrest
    obtain ⟨rfl, heq⟩ := ended_pure.mp hret
    obtain rfl := Except.ok.inj heq
    obtain ⟨rfl, hnone, hall⟩ := ih hloop
    rw [List.append_nil]
    cases ended_revokeDetail hfirst with
    | @accepted serial count hserial =>
      refine ⟨rfl, List.forall_mem_cons.mpr ⟨rfl, List.forall_mem_cons.mpr ⟨rfl, hnone⟩⟩,
        List.forall_mem_cons.mpr ⟨⟨serial, hserial, _, List.mem_cons_self, rfl⟩, ?_⟩⟩
      intro detail hmem
      obtain ⟨serial, hserial, c, hc, hrevoked⟩ := hall detail hmem
      exact ⟨serial, hserial, c, List.mem_append_right _ hc, hrevoked⟩

variable {e : KipukaError}

theorem ended_revoke_failed (hnamed : ∀ detail ∈ details, detail.serialHex ≠ none)
    (hend : Ended (details.mapM (revokeDetail sender)).run h (.error e)) :
    ∃ c ∈ h, updateFailed c = true := by
  induction details generalizing h e with
  | nil => cases (ended_pure.mp hend).2
  | cons detail details ih =>
    obtain ⟨hfirst, hothers⟩ := List.forall_mem_cons.mp hnamed
    rw [List.mapM_cons] at hend
    rcases ended_seq.mp hend with ⟨h₁, h₂, status, rfl, -, hrest⟩ | ⟨e', he, hentry⟩
    · rcases ended_seq.mp hrest with ⟨_, _, _, -, -, hret⟩ | ⟨e', -, hloop⟩
      · cases (ended_pure.mp hret).2
      · obtain ⟨c, hc, hfailed⟩ := ih hothers hloop
        exact ⟨c, List.mem_append_right _ hc, hfailed⟩
    · cases ended_revokeDetail hentry with
      | unnamed _ hserial => exact absurd hserial hfirst
      | failed serial msg _ => exact ⟨_, List.mem_cons_self, rfl⟩

end

/-! ## The message -/

def Op.reads : Op → Bool
  | .subjectOf _ => true
  | _ => false

def Op.ofMessage : Op → Bool
  | .subjectOf _ | .markRevoked .. | .recordAuditEvent .. => true
  | _ => false

theorem only_authorizeDetail (dn : String) (detail : RevDetails) :
    Only (fun op => op.reads = true) (authorizeDetail dn detail).run := by
  unfold authorizeDetail
  rw [parsed_eq]
  refine only_ofExcept fun template _ => ?_
  split
  · trivial
  · refine only_try (only_op rfl) fun owner => ?_
    split
    · trivial
    · split <;> trivial

theorem only_authorize (dn : String) (details : List RevDetails) :
    Only (fun op => op.reads = true) (details.forM (authorizeDetail dn)).run := by
  induction details with
  | nil => trivial
  | cons detail details ih => exact only_seq (only_authorizeDetail dn detail) fun _ => ih

theorem only_revoke (sender : String) (details : List RevDetails) :
    Only (fun op => op.ofMessage = true) (details.mapM (revokeDetail sender)).run := by
  induction details with
  | nil => trivial
  | cons detail details ih =>
    rw [List.mapM_cons]
    refine only_seq ?_ fun _ => only_seq ih fun _ => trivial
    unfold revokeDetail
    rw [parsed_eq]
    refine only_ofExcept fun template _ => ?_
    split
    · trivial
    · refine only_try (only_op rfl) fun _ => only_seq ?_ fun _ => trivial
      exact only_lift (only_op rfl)

variable {r : Except KipukaError (List PKIStatusInfo)}

theorem ended_processRevocationRequest {req : CmpRequest}
    (hend : Ended (processRevocationRequest req).run h r) :
    ((∃ e, r = .error e) ∧ ∀ c ∈ h, c.1.reads = true) ∨
      ∃ details h₁ h₂, req.body = .ok details ∧ h = h₁ ++ h₂ ∧
        (∀ c ∈ h₁, c.1.reads = true) ∧
        Ended (details.mapM (revokeDetail req.sender)).run h₂ r := by
  unfold processRevocationRequest at hend
  cases hprotection : req.protection with
  | mac =>
    simp only [hprotection] at hend
    obtain ⟨rfl, rfl⟩ := ended_throw.mp hend
    exact .inl ⟨⟨_, rfl⟩, List.forall_mem_nil _⟩
  | signature cert =>
    have hnothing : ∀ {e : KipukaError} {h : List (Answered Op Reply)}, h = [] → r = .error e →
        (∃ e, r = .error e) ∧ ∀ c ∈ h, c.1.reads = true := by
      rintro e h rfl rfl
      exact ⟨⟨e, rfl⟩, List.forall_mem_nil _⟩
    simp only [hprotection, parsed_eq] at hend
    rcases ended_ofExcept_seq.mp hend with ⟨details, hdetails, hrest⟩ | ⟨e, -, hh, hr⟩
    · split at hrest
      · obtain ⟨hh, hr⟩ := ended_throw.mp hrest
        exact .inl (hnothing hh hr.symm)
      · rcases ended_ofExcept_seq.mp hrest with ⟨signer, -, hloops⟩ | ⟨e, -, hh, hr⟩
        · have hbody := mapError_eq_ok.mp hdetails
          split at hloops
          · have hreads := only_authorize signer.subjectDn details
            rcases ended_seq.mp hloops with ⟨h₁, h₂, _, rfl, hfirst, hsecond⟩ | ⟨e, rfl, hfirst⟩
            · exact .inr ⟨details, h₁, h₂, hbody, rfl, hreads.plays hfirst, hsecond⟩
            · exact .inl ⟨⟨e, rfl⟩, hreads.plays hfirst⟩
          · exact .inr ⟨details, [], h, hbody, rfl, List.forall_mem_nil _, hloops⟩
        · exact .inl (hnothing hh hr)
    · exact .inl (hnothing hh hr)

variable {c : Answered Op Reply}

theorem update_of_reads (h : c.1.reads = true) :
    revokedSerial c = none ∧ updateFailed c = false := by
  obtain ⟨op, r⟩ := c
  cases op with
  | subjectOf serial => exact ⟨rfl, rfl⟩
  | _ => cases h

variable {s s' : Certificates}

theorem exec_unchanged {e : Env}
    (hexec : exec e c.1 s = some (c.2, s')) (hop : c.1.ofMessage = true)
    (hnone : revokedSerial c = none) : s' = s := by
  obtain ⟨op, r⟩ := c
  cases op with
  | subjectOf serial =>
    rcases stmt_cases hexec with heq | ⟨-, rfl⟩
    · exact (Prod.mk.inj heq).2
    · rfl
  | markRevoked serial given =>
    rcases stmt_cases hexec with heq | ⟨-, rfl⟩
    · obtain ⟨hr, -⟩ := Prod.mk.inj heq
      dsimp only at hr
      subst hr
      cases hnone
    · rfl
  | recordAuditEvent eventType detail => exact (Prod.mk.inj (Option.some.inj hexec)).2.symm
  | _ => cases hop

/-- There is a row for the serial. -/
def Present (serial : String) (s : Certificates) : Prop := ∃ row, s.find serial = some row

def Revoked (serial : String) (s : Certificates) : Prop :=
  ∃ row, s.find serial = some row ∧ row.status = .revoked

theorem revoked_exec (serial : String) (e : Env) (op : Op) (s : Certificates) (r : Reply op)
    (s' : Certificates) (h : exec e op s = some (r, s')) (hs : Revoked serial s) :
    Revoked serial s' := by
  obtain ⟨row, hrow, hstatus⟩ := hs
  obtain ⟨new, hnew, -, hrevoked⟩ := (exec_alters h serial).kept hrow
  exact ⟨new, hnew, hrevoked hstatus⟩

theorem find_of_call {e : Env} {serial : String}
    (hexec : exec e c.1 s = some (c.2, s')) (hserial : revokedSerial c = some serial) :
    ∃ given, ∀ serial', s'.find serial' =
      if serial' = serial then (s.find serial').map (CertRow.markRevoked given)
      else s.find serial' := by
  obtain ⟨op, r⟩ := c
  cases op with
  | markRevoked serial' given =>
    change Except String Nat at r
    cases r with
    | error msg => cases hserial
    | ok count =>
      obtain rfl : serial' = serial := Option.some.inj hserial
      rcases stmt_cases hexec with heq | ⟨⟨msg, hmsg⟩, -⟩
      · obtain ⟨-, rfl⟩ := Prod.mk.inj heq
        exact ⟨given, fun _ => Certificates.find_update _⟩
      · cases hmsg
  | _ => cases hserial

theorem markRevoked_status (given : Option Nat) (row : CertRow) :
    (row.markRevoked given).status = .revoked := by
  unfold CertRow.markRevoked
  split
  · next hrevoked => exact hrevoked
  · rfl

theorem revoked_of_call_iff {e : Env} {serial : String}
    (hexec : exec e c.1 s = some (c.2, s')) (hserial : revokedSerial c = some serial) :
    Revoked serial s' ↔ Present serial s := by
  obtain ⟨given, hfind⟩ := find_of_call hexec hserial
  unfold Revoked Present
  rw [hfind, if_pos rfl]
  constructor
  · rintro ⟨row, hrow, -⟩
    obtain ⟨old, hold, -⟩ := Option.map_eq_some_iff.mp hrow
    exact ⟨old, hold⟩
  · rintro ⟨row, hrow⟩
    exact ⟨_, by rw [hrow, Option.map_some], markRevoked_status given row⟩

/-! ## Steps that change a status -/

def SameStatus (s s' : Certificates) : Prop :=
  ∀ serial, (s'.find serial).map CertRow.status = (s.find serial).map CertRow.status

/-- An update that finds a certificate to revoke. -/
def Hits (m : Moment Op Reply Certificates) : Prop :=
  ∃ serial row, revokedSerial m.call = some serial ∧ m.before.find serial = some row ∧
    row.status ≠ .revoked

theorem sameStatus_iff {e : Env} {m : Moment Op Reply Certificates}
    (hexec : exec e m.call.1 m.before = some (m.call.2, m.after))
    (hop : m.call.1.ofMessage = true) : SameStatus m.before m.after ↔ ¬ Hits m := by
  constructor
  · rintro hsame ⟨serial, row, hserial, hrow, hactive⟩
    obtain ⟨given, hfind⟩ := find_of_call hexec hserial
    have hstatus := hsame serial
    rw [hfind, if_pos rfl, hrow, Option.map_some, Option.map_some, Option.map_some,
      markRevoked_status] at hstatus
    exact hactive (Option.some.inj hstatus).symm
  · intro hmiss serial'
    cases hcall : revokedSerial m.call with
    | none => rw [exec_unchanged hexec hop hcall]
    | some serial =>
      obtain ⟨given, hfind⟩ := find_of_call hexec hcall
      rw [hfind]
      split
      · next heq =>
        subst heq
        cases hrow : m.before.find serial' with
        | none => rfl
        | some row =>
          -- the update missed, so what it found was revoked already
          have hrevoked : row.status = .revoked :=
            Decidable.byContradiction fun h => hmiss ⟨_, row, hcall, hrow, h⟩
          rw [Option.map_some, Option.map_some, Option.map_some, markRevoked_status, hrevoked]
      · rfl

/-! ## The answer -/

/-- Any database calls of other requests. -/
def Others : Certificates → Certificates → Prop :=
  Relation.ReflTransGen fun s s' => ∃ e op r, exec e op s = some (r, s')

theorem Others.keeps {P : Certificates → Prop}
    (hexec : ∀ e op s r s', exec e op s = some (r, s') → P s → P s') (s s' : Certificates)
    (h : Others s s') (hs : P s) : P s' := by
  induction h with
  | refl => exact hs
  | tail _ hstep ih =>
    obtain ⟨e, op, r, hstep⟩ := hstep
    exact hexec e op _ r _ hstep ih

/-- What breaks the work on the entries: one of them names no serial number, the statuses cannot be
    encoded, or an update fails. -/
inductive Breaks (encode : List PKIStatusInfo → Except String (List UInt8)) (req : CmpRequest)
    (h : List (Answered Op Reply)) : Prop where
  | unnamed {details : List RevDetails} (hbody : req.body = .ok details)
      (hnone : ∃ detail ∈ details, detail.serialHex = none) : Breaks encode req h
  | unencoded {details : List RevDetails} (hbody : req.body = .ok details)
      (hnone : ∀ der, encode (details.map fun _ => .accepted) ≠ .ok der) : Breaks encode req h
  | failed (hfailed : ∃ c ∈ h, updateFailed c = true) : Breaks encode req h

section Histories

variable {encode : List PKIStatusInfo → Except String (List UInt8)} {req : CmpRequest}
  {h : List (Answered Op Reply)}

theorem ofMessage_of_reads {op : Op} (h : op.reads = true) : op.ofMessage = true := by
  cases op with
  | subjectOf serial => rfl
  | _ => cases h

theorem ofMessage_of_ended
    (hend : Ended (processRevocationRequest req).run h r) : ∀ c ∈ h, c.1.ofMessage = true := by
  rcases ended_processRevocationRequest hend with ⟨-, hreads⟩ | ⟨details, h₁, h₂, -, rfl, hreads, hloop⟩
  · exact fun c hc => ofMessage_of_reads (hreads c hc)
  · intro c hc
    rcases List.mem_append.mp hc with hc | hc
    · exact ofMessage_of_reads (hreads c hc)
    · exact (only_revoke req.sender details).plays hloop c hc

theorem ofMessage_of_answer {r : Except KipukaError (List UInt8)}
    (hend : Ended (revocationAnswer encode req).run h r) : ∀ c ∈ h, c.1.ofMessage = true := by
  unfold revocationAnswer at hend
  simp only [parsed_eq] at hend
  rcases ended_seq.mp hend with ⟨h₁, h₂, statuses, rfl, hprocess, hencode⟩ | ⟨e, -, hprocess⟩
  · rw [(ended_ofExcept.mp hencode).1, List.append_nil]
    exact ofMessage_of_ended hprocess
  · exact ofMessage_of_ended hprocess

theorem ended_answer_error {e : KipukaError} {c : Answered Op Reply} (hc : c ∈ h)
    (hrevoked : revokedSerial c ≠ none)
    (hend : Ended (revocationAnswer encode req).run h (.error e)) : Breaks encode req h := by
  unfold revocationAnswer at hend
  simp only [parsed_eq] at hend
  rcases ended_seq.mp hend with ⟨h₁, h₂, statuses, rfl, hprocess, hencode⟩ | ⟨e', -, hprocess⟩
  · rcases ended_processRevocationRequest hprocess with
      ⟨⟨e, he⟩, -⟩ | ⟨details, h₃, h₄, hbody, rfl, -, hloop⟩
    · cases he
    · obtain ⟨rfl, -⟩ := ended_revoke_ok hloop
      refine .unencoded hbody fun der hder => ?_
      rw [hder] at hencode
      cases (ended_ofExcept.mp hencode).2
  · rcases ended_processRevocationRequest hprocess with
      ⟨-, hreads⟩ | ⟨details, h₁, h₂, hbody, rfl, -, hloop⟩
    · exact absurd (update_of_reads (hreads c hc)).1 hrevoked
    · by_cases hnone : ∃ detail ∈ details, detail.serialHex = none
      · exact .unnamed hbody hnone
      · have hnamed : ∀ detail ∈ details, detail.serialHex ≠ none :=
          fun detail hdetail hserial => hnone ⟨detail, hdetail, hserial⟩
        obtain ⟨c, hc, hfailed⟩ := ended_revoke_failed hnamed hloop
        exact .failed ⟨c, List.mem_append_right _ hc, hfailed⟩

theorem ended_answer_ok {der : List UInt8}
    (hend : Ended (revocationAnswer encode req).run h (.ok der)) :
    ∃ details, req.body = .ok details ∧ encode (details.map fun _ => .accepted) = .ok der ∧
      (∀ c ∈ h, updateFailed c = false) ∧
      ∀ detail ∈ details, ∃ serial, detail.serialHex = some serial ∧
        ∃ c ∈ h, revokedSerial c = some serial := by
  unfold revocationAnswer at hend
  simp only [parsed_eq] at hend
  obtain ⟨h₁, h₂, statuses, rfl, hprocess, hencode⟩ := ended_seq_ok.mp hend
  obtain ⟨rfl, hencoded⟩ := ended_ofExcept.mp hencode
  have hder := mapError_eq_ok.mp hencoded
  rw [List.append_nil]
  rcases ended_processRevocationRequest hprocess with
    ⟨⟨e, he⟩, -⟩ | ⟨details, h₃, h₄, hbody, rfl, hreads, hloop⟩
  · cases he
  · obtain ⟨rfl, hnone, hall⟩ := ended_revoke_ok hloop
    refine ⟨details, hbody, hder, ?_, fun detail hdetail => ?_⟩
    · exact List.forall_mem_append.mpr ⟨fun c hc => (update_of_reads (hreads c hc)).2, hnone⟩
    · obtain ⟨serial, hserial, c, hc, hrevoked⟩ := hall detail hdetail
      exact ⟨serial, hserial, c, List.mem_append_right _ hc, hrevoked⟩

theorem not_breaks_of_ok {der : List UInt8}
    (hend : Ended (revocationAnswer encode req).run h (.ok der)) : ¬ Breaks encode req h := by
  obtain ⟨details, hbody, hder, hnone, hall⟩ := ended_answer_ok hend
  intro hbreaks
  cases hbreaks with
  | unnamed hbody' hunnamed =>
    obtain rfl := Except.ok.inj (hbody.symm.trans hbody')
    obtain ⟨detail, hdetail, hserial⟩ := hunnamed
    obtain ⟨serial, hsome, -⟩ := hall detail hdetail
    cases hserial.symm.trans hsome
  | unencoded hbody' hunencoded =>
    obtain rfl := Except.ok.inj (hbody.symm.trans hbody')
    exact hunencoded der hder
  | failed hfailed =>
    obtain ⟨c, hc, hfailed⟩ := hfailed
    cases (hnone c hc).symm.trans hfailed

end Histories

/-- The answer says what happened: an error means that no step of the message changed a status; an
    answer has one status for each entry, all of them `accepted`, and each is about a certificate
    that an update of the message found and revoked, and that is revoked at the end. -/
structure TrueAnswer (encode : List PKIStatusInfo → Except String (List UInt8)) (req : CmpRequest)
    (trace : List (Moment Op Reply Certificates)) (t : Certificates)
    (r : Except KipukaError (List UInt8)) : Prop where
  unchanged : ∀ e, r = .error e → ∀ m ∈ trace, SameStatus m.before m.after
  accepted : ∀ der, r = .ok der → ∃ details, req.body = .ok details ∧
    encode (details.map fun _ => .accepted) = .ok der ∧
    ∀ detail ∈ details, ∃ serial, detail.serialHex = some serial ∧
      (∃ m ∈ trace, revokedSerial m.call = some serial ∧ Revoked serial m.after) ∧
      Revoked serial t

/-- If something breaks the work on the entries, no update finds a certificate to revoke; if nothing
    does, an entry whose serial number is updated has a row at one of these updates. -/
structure Whole (encode : List PKIStatusInfo → Except String (List UInt8)) (req : CmpRequest)
    (trace : List (Moment Op Reply Certificates)) : Prop where
  broken : Breaks encode req (trace.map Moment.call) → ∀ m ∈ trace, ¬ Hits m
  unbroken : ¬ Breaks encode req (trace.map Moment.call) → ∀ details, req.body = .ok details →
    ∀ detail ∈ details, ∀ serial, detail.serialHex = some serial →
      (∃ m ∈ trace, revokedSerial m.call = some serial) →
      ∃ m ∈ trace, revokedSerial m.call = some serial ∧ Present serial m.before

section Strands

variable {encode : List PKIStatusInfo → Except String (List UInt8)} {req : CmpRequest}
  {s t : Certificates} {trace : List (Moment Op Reply Certificates)}
  {r : Except KipukaError (List UInt8)}

theorem answered_sameStatus_iff (hstrand : Strand exec Others (revocationAnswer encode req).run s
    trace (.ret r) t) {m : Moment Op Reply Certificates} (hm : m ∈ trace) :
    SameStatus m.before m.after ↔ ¬ Hits m := by
  obtain ⟨env, hexec⟩ := hstrand.executes m hm
  exact sameStatus_iff hexec
    (ofMessage_of_answer hstrand.plays m.call (List.mem_map_of_mem hm))

theorem answered_revoked_iff (hstrand : Strand exec Others (revocationAnswer encode req).run s
    trace (.ret r) t) {m : Moment Op Reply Certificates} (hm : m ∈ trace) {serial : String}
    (hserial : revokedSerial m.call = some serial) :
    Revoked serial m.after ↔ Present serial m.before := by
  obtain ⟨env, hexec⟩ := hstrand.executes m hm
  exact revoked_of_call_iff hexec hserial

/-- When the answer to a revocation message is true, worked on amid other requests and with any
    failures. -/
theorem cmp_answer_true_iff
    (hstrand : Strand exec Others (revocationAnswer encode req).run s trace (.ret r) t) :
    TrueAnswer encode req trace t r ↔ Whole encode req trace := by
  constructor
  · intro htrue
    constructor
    · intro hbreaks m hm
      cases r with
      | ok der => exact absurd hbreaks (not_breaks_of_ok hstrand.plays)
      | error e => exact (answered_sameStatus_iff hstrand hm).mp (htrue.unchanged e rfl m hm)
    · rintro hwhole details hbody detail hdetail serial hserial ⟨m, hm, hrevoked⟩
      cases r with
      | error e =>
        have hupdated : revokedSerial m.call ≠ none := by simp [hrevoked]
        exact absurd (ended_answer_error (List.mem_map_of_mem hm) hupdated hstrand.plays) hwhole
      | ok der =>
        obtain ⟨details', hbody', -, hall⟩ := htrue.accepted der rfl
        obtain rfl := Except.ok.inj (hbody.symm.trans hbody')
        obtain ⟨serial', hserial', ⟨m', hm', hcall, hafter⟩, -⟩ := hall detail hdetail
        obtain rfl := Option.some.inj (hserial.symm.trans hserial')
        exact ⟨m', hm', hcall, (answered_revoked_iff hstrand hm' hcall).mp hafter⟩
  · intro hwhole
    constructor
    · rintro e rfl m hm
      refine (answered_sameStatus_iff hstrand hm).mpr fun hhits => ?_
      have hupdated : revokedSerial m.call ≠ none := by
        obtain ⟨serial, row, hserial, -⟩ := hhits
        simp [hserial]
      exact hwhole.broken (ended_answer_error (List.mem_map_of_mem hm) hupdated hstrand.plays)
        m hm hhits
    · rintro der rfl
      obtain ⟨details, hbody, hder, -, hall⟩ := ended_answer_ok hstrand.plays
      refine ⟨details, hbody, hder, fun detail hdetail => ?_⟩
      obtain ⟨serial, hserial, c, hc, hrevoked⟩ := hall detail hdetail
      obtain ⟨m, hm, rfl⟩ := List.mem_map.mp hc
      obtain ⟨m', hm', hcall, hpresent⟩ := hwhole.unbroken (not_breaks_of_ok hstrand.plays) details
        hbody detail hdetail serial hserial ⟨m, hm, hrevoked⟩
      -- what an update has revoked stays revoked, whatever the others do
      have hafter := (answered_revoked_iff hstrand hm' hcall).mpr hpresent
      exact ⟨serial, hserial, ⟨m', hm', hcall, hafter⟩,
        hstrand.after (Others.keeps (revoked_exec serial)) (revoked_exec serial) hm' hafter⟩

end Strands

/-! ### Two entries -/

def countStatuses (statuses : List PKIStatusInfo) : Except String (List UInt8) :=
  .ok (List.replicate statuses.length 0)

def raRevokes (serials : List (Option (List UInt8))) : CmpRequest where
  sender := "ra"
  protection := .signature (.ok ⟨"CN=ra", some (.ok [cmcRaOid])⟩)
  body := .ok (serials.map fun serial => ⟨.ok ⟨serial⟩, none⟩)

def raStrand (serials : List (Option (List UInt8))) (es : List Env) :
    List (Moment Op Reply Certificates) × Prog Op Reply (Except KipukaError (List UInt8)) ×
      Certificates :=
  (revocationAnswer countStatuses (raRevokes serials)).run.strandBy exec es twoCerts

theorem strand_raStrand {serials : List (Option (List UInt8))} {es : List Env}
    {r : Except KipukaError (List UInt8)} (h : (raStrand serials es).2.1.value = some r) :
    Strand exec Others (revocationAnswer countStatuses (raRevokes serials)).run twoCerts
      (raStrand serials es).1 (.ret r) (raStrand serials es).2.2 :=
  strand_of_value (fun _ => Relation.ReflTransGen.refl) h

/-- The request fails as a whole, with a certificate revoked on the way. -/
def RevokesAndFails (serials : List (Option (List UInt8))) : Prop :=
  ∃ trace e t, Strand exec Others (revocationAnswer countStatuses (raRevokes serials)).run twoCerts
    trace (.ret (.error e)) t ∧
      ∃ m ∈ trace, (m.before.find "0a").map CertRow.status = some .active ∧
        (m.after.find "0a").map CertRow.status = some .revoked

/-- The second of two entries has no serial number, or its update fails: the first is revoked all
    the same. And an entry whose serial number is not in the inventory is accepted. -/
theorem cmp_answer_false :
    RevokesAndFails [some [0x0a], none] ∧ RevokesAndFails [some [0x0a], some [0x0b]] ∧
      ∃ trace t, Strand exec Others (revocationAnswer countStatuses (raRevokes [some [0x0c]])).run
        twoCerts trace (.ret (.ok [0])) t ∧ ¬ Present "0c" t := by
  have hunnamed : (raStrand [some [0x0a], none] (List.replicate 2 ⟨none, ""⟩)).2.1.value =
      some (.error (.badRequest "RevDetails CertTemplate missing serial number")) := by decide +kernel
  have hlocked : (raStrand [some [0x0a], some [0x0b]]
      [⟨none, ""⟩, ⟨none, ""⟩, ⟨some "locked", ""⟩]).2.1.value =
        some (.error (.ca "database error revoking serial 0b: locked")) := by decide +kernel
  have hunknown : (raStrand [some [0x0c]] (List.replicate 2 ⟨none, ""⟩)).2.1.value =
      some (.ok [0]) := by decide +kernel
  refine ⟨⟨_, _, _, strand_raStrand hunnamed, _, List.mem_of_getElem? (i := 0) rfl, ?_⟩,
    ⟨_, _, _, strand_raStrand hlocked, _, List.mem_of_getElem? (i := 0) rfl, ?_⟩,
    _, _, strand_raStrand hunknown, ?_⟩
  · decide +kernel
  · decide +kernel
  · rintro ⟨row, hrow⟩
    cases hrow

theorem not_breaks_both {h : List (Answered Op Reply)} (hnone : ∀ c ∈ h, updateFailed c = false) :
    ¬ Breaks countStatuses (raRevokes [some [0x0a], some [0x0b]]) h := by
  intro hbreaks
  cases hbreaks with
  | unnamed hbody hunnamed =>
    obtain rfl := Except.ok.inj hbody
    revert hunnamed
    decide
  | unencoded hbody hunencoded => exact hunencoded _ rfl
  | failed hfailed =>
    obtain ⟨c, hc, hfailed⟩ := hfailed
    cases (hnone c hc).symm.trans hfailed

/-- Both certificates are revoked; an unknown serial number with an entry behind it that has none is
    an error, and changes nothing. -/
theorem cmp_answer_true_both :
    (∃ trace t, Strand exec Others
      (revocationAnswer countStatuses (raRevokes [some [0x0a], some [0x0b]])).run twoCerts trace
        (.ret (.ok [0, 0])) t ∧
      TrueAnswer countStatuses (raRevokes [some [0x0a], some [0x0b]]) trace t (.ok [0, 0])) ∧
    ∃ trace e t, Strand exec Others
      (revocationAnswer countStatuses (raRevokes [some [0x0c], none])).run twoCerts trace
        (.ret (.error e)) t ∧
      TrueAnswer countStatuses (raRevokes [some [0x0c], none]) trace t (.error e) := by
  have hboth : (raStrand [some [0x0a], some [0x0b]] (List.replicate 4 ⟨none, ""⟩)).2.1.value =
      some (.ok [0, 0]) := by decide +kernel
  have hunknown : (raStrand [some [0x0c], none] (List.replicate 2 ⟨none, ""⟩)).2.1.value =
      some (.error (.badRequest "RevDetails CertTemplate missing serial number")) := by decide +kernel
  refine ⟨⟨_, _, strand_raStrand hboth, ?_⟩, _, _, _, strand_raStrand hunknown, ?_⟩
  · refine (cmp_answer_true_iff (strand_raStrand hboth)).mpr ⟨fun hbreaks => ?_, ?_⟩
    · exact absurd hbreaks (not_breaks_both (by decide +kernel))
    · rintro - details hbody detail hdetail serial hserial -
      obtain rfl := Except.ok.inj hbody
      rcases List.mem_pair.mp hdetail with rfl | rfl
      · obtain rfl := Option.some.inj hserial
        exact ⟨_, List.mem_of_getElem? (i := 0) rfl, rfl, _, rfl⟩
      · obtain rfl := Option.some.inj hserial
        exact ⟨_, List.mem_of_getElem? (i := 2) rfl, rfl, _, rfl⟩
  · refine (cmp_answer_true_iff (strand_raStrand hunknown)).mpr ⟨fun _ m hm => ?_, fun hwhole => ?_⟩
    · have hmisses : (raStrand [some [0x0c], none] (List.replicate 2 ⟨none, ""⟩)).1.all (fun m =>
          (revokedSerial m.call).all fun serial => (m.before.find serial).isNone) = true := by
        decide +kernel
      rintro ⟨serial, row, hserial, hrow, -⟩
      have hmiss := List.all_eq_true.mp hmisses m hm
      rw [hserial, Option.all_some, hrow] at hmiss
      cases hmiss
    · exact absurd (.unnamed rfl (by decide)) hwhole

end Kipuka.Inventory
