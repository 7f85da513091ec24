/-
  Whose rows a CMP revocation message changes, with the other requests in between. The check of the
  owner and the update are two calls, so that nobody may insert a row under the serial between them;
  this is the one assumption about the others.
-/
import Kipuka.Generic.Outcome
import Kipuka.Generic.Strand
import Kipuka.Inventory.Revoke

namespace Kipuka.Inventory

open Generic

/-! ## The serial numbers of a message -/

def RevDetails.serialHex (detail : RevDetails) : Option String :=
  match detail.certDetails with
  | .ok template => template.serialNumber.map hexEncode
  | .error _ => none

def CmpRequest.serials (req : CmpRequest) : List String :=
  match req.body with
  | .ok details => details.filterMap RevDetails.serialHex
  | .error _ => []

/-! ## Interference -/

/-- Nobody adds a certificate under one of these serials. -/
def InsertsNone (serials : List String) (s s' : Certificates) : Prop :=
  ∀ serial ∈ serials, s.find serial = none → s'.find serial = none

/-- A row under these serial numbers was there before, with the same subject. -/
def Steady (serials : List String) (s s' : Certificates) : Prop :=
  ∀ serial ∈ serials, ∀ row', s'.find serial = some row' →
    ∃ row, s.find serial = some row ∧ row.subjectDn = row'.subjectDn

theorem Steady.refl (serials : List String) (s : Certificates) : Steady serials s s :=
  fun _ _ row hrow => ⟨row, hrow, rfl⟩

variable {s : Certificates} {serials : List String}

theorem Steady.trans {s' s'' : Certificates} (h : Steady serials s s')
    (h' : Steady serials s' s'') : Steady serials s s'' := by
  intro serial hserial row hrow
  obtain ⟨row', hrow', hsame'⟩ := h' serial hserial row hrow
  obtain ⟨row'', hrow'', hsame⟩ := h serial hserial row' hrow'
  exact ⟨row'', hrow'', hsame.trans hsame'⟩

variable {e : Env} {op : Op} {s' : Certificates} {r : Reply op}

theorem steady_exec
    (h : exec e op s = some (r, s')) (hnone : InsertsNone serials s s') : Steady serials s s' := by
  intro serial hserial row' hrow'
  cases hrow : s.find serial with
  | none => exact absurd ((hnone serial hserial hrow).symm.trans hrow') (by simp)
  | some row =>
    obtain ⟨new, hnew, hsame, -⟩ := (exec_alters h serial).kept hrow
    obtain rfl := Option.some.inj (hnew.symm.trans hrow')
    exact ⟨row, rfl, hsame.symm⟩

/-! ## The two loops -/

def Cleared (dn : String) (serials : List String) (s : Certificates) : Prop :=
  ∀ serial ∈ serials, ∀ row, s.find serial = some row → row.subjectDn = dn

variable {cleared : List String}

theorem Cleared.steady {dn : String}
    (h : Cleared dn cleared s) (hsub : cleared ⊆ serials) (hs : Steady serials s s') :
    Cleared dn cleared s' := by
  intro serial hserial row' hrow'
  obtain ⟨row, hrow, hsame⟩ := hs serial (hsub hserial) row' hrow'
  exact hsame ▸ h serial hserial row hrow

def ChangesOnly (dn : String) (s s' : Certificates) : Prop :=
  ∀ serial, s'.find serial ≠ s.find serial → ∃ row, s.find serial = some row ∧ row.subjectDn = dn

theorem ChangesOnly.refl (dn : String) (s : Certificates) : ChangesOnly dn s s :=
  fun _ h => absurd rfl h

theorem parsed_eq {α : Type} (f : String → KipukaError) (r : Except String α) :
    parsed f r = Prog.ofExcept (r.mapError f) := rfl

/-- A program of a message with these serial numbers that changes only rows of `dn`. -/
abbrev Owning {α : Type} (serials : List String) (dn : String) (Q : α → Certificates → Prop)
    (p : Prog Op Reply α) (s : Certificates) : Prop :=
  Safe exec (Steady serials) (ChangesOnly dn) Q p s

section

variable {serials : List String} {dn : String} {serial : String}

theorem owning_subjectOf (hserial : serial ∈ serials) :
    Owning serials dn (fun r s' => Steady serials s s' ∧ ∀ owner, r = .ok owner →
      ∀ row, s'.find serial = some row → owner = some row.subjectDn) (ask (.subjectOf serial)) s := by
  refine safe_op ?_
  intro e r s' he
  rcases stmt_cases he with heq | ⟨⟨msg, rfl⟩, rfl⟩
  · obtain ⟨rfl, rfl⟩ := Prod.mk.inj heq
    refine ⟨ChangesOnly.refl dn s', fun s'' hs => ⟨hs, ?_⟩⟩
    intro owner howner row hrow
    obtain ⟨old, hold, hsame⟩ := hs serial hserial row hrow
    obtain rfl := Except.ok.inj howner
    rw [hold]
    exact congrArg some hsame
  · refine ⟨ChangesOnly.refl dn s', fun s'' hs => ⟨hs, ?_⟩⟩
    rintro owner ⟨⟩

theorem owning_authorizeDetail (detail : RevDetails)
    (hsub : cleared ++ detail.serialHex.toList ⊆ serials) (h : Cleared dn cleared s) :
    Owning serials dn (Ends (fun _ s => Cleared dn (cleared ++ detail.serialHex.toList) s)
      fun _ _ => True) (authorizeDetail dn detail).run s := by
  unfold authorizeDetail
  rw [parsed_eq]
  refine safe_ofExcept (fun template htemplate => ?_) fun _ _ => trivial
  have hdetail : detail.serialHex = template.serialNumber.map hexEncode := by
    unfold RevDetails.serialHex
    rw [mapError_eq_ok.mp htemplate]
  rw [hdetail] at hsub ⊢
  cases hnumber : template.serialNumber with
  | none =>
    change Cleared dn (cleared ++ []) s
    rwa [List.append_nil]
  | some serial =>
    rw [hnumber] at hsub
    have hserial : hexEncode serial ∈ serials := hsub (List.mem_append_right _ List.mem_cons_self)
    refine safe_try ((owning_subjectOf hserial).mono ?_)
    rintro r s' ⟨hs, hfound⟩
    have hold := h.steady (List.Subset.trans (List.subset_append_left _ _) hsub) hs
    have hnew : ∀ {owner}, (∀ row, s'.find (hexEncode serial) = some row →
        owner = some row.subjectDn) → owner = none ∨ owner = some dn →
          Cleared dn (cleared ++ [hexEncode serial]) s' := by
      intro owner howner hdn serial' hmem row hrow
      rcases List.mem_append.mp hmem with hmem | hmem
      · exact hold serial' hmem row hrow
      · rw [List.mem_singleton.mp hmem] at hrow
        rcases hdn with hdn | hdn
        · exact absurd (hdn.symm.trans (howner row hrow)) (by simp)
        · exact Option.some.inj ((howner row hrow).symm.trans hdn)
    change Except String (Option String) at r
    cases r with
    | error msg => trivial
    | ok owner =>
      have howner := hfound owner rfl
      cases owner with
      | none => exact hnew howner (.inl rfl)
      | some revokee =>
        simp only [Ends]
        split
        · trivial
        · next hdn => exact hnew howner (.inr (congrArg some (not_not.mp hdn)))

theorem owning_authorize (details : List RevDetails)
    (hsub : cleared ++ details.filterMap RevDetails.serialHex ⊆ serials) (h : Cleared dn cleared s) :
    Owning serials dn (Ends (fun _ s =>
      Cleared dn (cleared ++ details.filterMap RevDetails.serialHex) s) fun _ _ => True)
        (details.forM (authorizeDetail dn)).run s := by
  induction details generalizing cleared s with
  | nil =>
    change Cleared dn (cleared ++ []) s
    rwa [List.append_nil]
  | cons detail details ih =>
    have hsplit : cleared ++ (detail :: details).filterMap RevDetails.serialHex =
        (cleared ++ detail.serialHex.toList) ++ details.filterMap RevDetails.serialHex := by
      rw [List.append_assoc]
      cases hserial : detail.serialHex with
      | none | some => simp [hserial]
    rw [hsplit] at hsub ⊢
    refine safe_seq (owning_authorizeDetail detail ?_ h) (fun _ s h => ih hsub h) ?_
    · exact List.Subset.trans (List.subset_append_left _ _) hsub
    · exact fun _ _ _ => trivial

theorem steady_of_no_insert
    (h : exec e op s = some (r, s')) (hop : ∀ cert, op ≠ .insertCert cert) : Steady serials s s' :=
  steady_exec h fun serial _ hnone => (exec_alters h serial).none hop hnone

theorem owning_markRevoked (given : Option Nat) (hserial : serial ∈ serials)
    (h : Cleared dn serials s) :
    Owning serials dn (fun _ s => Cleared dn serials s) (ask (.markRevoked serial given)) s := by
  refine safe_op ?_
  intro e r s' he
  have hsteady : Steady serials s s' := steady_of_no_insert he fun cert => Op.noConfusion
  refine ⟨?_, fun s'' hs => h.steady (List.Subset.refl _) (hsteady.trans hs)⟩
  intro serial' hchanged
  cases hrow : s.find serial' with
  | none =>
    have hnone := (exec_alters he serial').none (fun cert => Op.noConfusion) hrow
    exact absurd (hnone.trans hrow.symm) hchanged
  | some row =>
    have hsame : serial' = serial := (exec_alters he serial').serial_eq hchanged
    exact ⟨row, rfl, h serial' (hsame ▸ hserial) row hrow⟩

theorem owning_revokeDetail (sender : String) (detail : RevDetails)
    (hsub : detail.serialHex.toList ⊆ serials) (h : Cleared dn serials s) :
    Owning serials dn (fun _ s => Cleared dn serials s) (revokeDetail sender detail).run s := by
  unfold revokeDetail
  rw [parsed_eq]
  refine safe_ofExcept (fun template htemplate => ?_) fun _ _ => h
  have hdetail : detail.serialHex = template.serialNumber.map hexEncode := by
    unfold RevDetails.serialHex
    rw [mapError_eq_ok.mp htemplate]
  rw [hdetail] at hsub
  cases hnumber : template.serialNumber with
  | none => exact h
  | some serial =>
    rw [hnumber] at hsub
    have hserial : hexEncode serial ∈ serials := hsub List.mem_cons_self
    refine safe_try ((owning_markRevoked detail.reason hserial h).mono ?_)
    intro r s h
    change Except String Nat at r
    cases r with
    | error msg => exact h
    | ok count =>
      refine safe_bind (safe_lift (safe_op ?_))
      intro e r s' he
      have hsteady : Steady serials s s' := steady_of_no_insert he fun cert => Op.noConfusion
      obtain rfl : s = s' := (Prod.mk.inj (Option.some.inj he)).2
      exact ⟨ChangesOnly.refl dn s, fun s'' hs => h.steady (List.Subset.refl _) hs⟩

theorem owning_revoke (sender : String) (details : List RevDetails)
    (hsub : details.filterMap RevDetails.serialHex ⊆ serials) (h : Cleared dn serials s) :
    Owning serials dn (fun _ s => Cleared dn serials s) (details.mapM (revokeDetail sender)).run s := by
  induction details generalizing s with
  | nil => exact h
  | cons detail details ih =>
    have hsplit : (detail :: details).filterMap RevDetails.serialHex =
        detail.serialHex.toList ++ details.filterMap RevDetails.serialHex := by
      cases hserial : detail.serialHex with
      | none | some => simp [hserial]
    rw [hsplit, List.append_subset] at hsub
    rw [List.mapM_cons]
    refine safe_seq (A := fun _ s => Cleared dn serials s) (B := fun _ s => Cleared dn serials s)
      ((owning_revokeDetail sender detail hsub.1 h).mono fun r s h => ?_) (fun status s h => ?_)
      fun _ _ h => h
    · cases r <;> exact h
    refine safe_seq (A := fun _ s => Cleared dn serials s) (B := fun _ s => Cleared dn serials s)
      ((ih hsub.2 h).mono fun r s h => ?_) (fun statuses s h => h) fun _ _ h => h
    cases r <;> exact h

end

/-! ## The message -/

/-- Every row that changes is for the subject of the signer. -/
def OnlyOwn (cert : Except String SignerCert) (s s' : Certificates) : Prop :=
  ∀ serial, s'.find serial ≠ s.find serial →
    ∃ signer row, cert = .ok signer ∧ s.find serial = some row ∧ row.subjectDn = signer.subjectDn

theorem owning_processRevocationRequest {req : CmpRequest} {cert : Except String SignerCert}
    (hcert : req.protection = .signature cert)
    (hra : ∀ signer, cert = .ok signer → signer.isRa = false) (s : Certificates) :
    Safe exec (Steady req.serials) (OnlyOwn cert) (fun _ _ => True)
      (processRevocationRequest req).run s := by
  have htrivial : ∀ dn, Cleared dn [] s := fun dn serial hmem => absurd hmem List.not_mem_nil
  unfold processRevocationRequest
  rw [hcert]
  simp only [parsed_eq]
  refine safe_ofExcept (fun details hdetails => ?_) fun _ _ => trivial
  have hserials : req.serials = details.filterMap RevDetails.serialHex := by
    unfold CmpRequest.serials
    rw [mapError_eq_ok.mp hdetails]
  split
  · trivial
  refine safe_ofExcept (fun signer hsigner => ?_) fun _ _ => trivial
  have hsigner := mapError_eq_ok.mp hsigner
  rw [hra signer hsigner, hserials]
  -- with a signer that can be read, its rows are the ones that may change
  have hown : ∀ s s', ChangesOnly signer.subjectDn s s' → OnlyOwn cert s s' := by
    intro s s' h serial hchanged
    obtain ⟨row, hrow, hdn⟩ := h serial hchanged
    exact ⟨signer, row, hsigner, hrow, hdn⟩
  refine Safe.guarantee (safe_seq (owning_authorize details (List.Subset.refl _) (htrivial _)) ?_ ?_) hown
  · intro _ s hcleared
    exact (owning_revoke req.sender details (List.Subset.refl _) hcleared).mono fun _ _ _ => trivial
  · exact fun _ _ _ => trivial

section

variable {w : Nat} {req : CmpRequest} {c : Config Nat Op Task Result Certificates Reply} {xs : Run}

theorem along_of_message {G : Certificates → Certificates → Prop} (hstay : ∀ s, G s s)
    (hsafe : ∀ s, Safe exec (Steady req.serials) G (fun _ _ => True)
      (processRevocationRequest req).run s)
    (htask : c.threads w = some ⟨.cmpRevoke req, (Task.cmpRevoke req).prog⟩)
    (hone : ∀ t, .start w t ∉ xs)
    (hothers : requests.Along (fun v s s' => v ≠ w → InsertsNone req.serials s s') c xs) :
    requests.Along (fun v s s' => v = w → G s s') c xs := by
  refine System.along_of_safe (R := Steady req.serials) (Q := fun _ _ => True) (Steady.refl _)
    (fun _ _ _ h h' => h.trans h') ?_ (fun _ s _ => Steady.refl _ s) hstay hstay ?_ hone hothers
  · exact fun _ e op s r s' he hnone => steady_exec he hnone
  · intro th hth s _
    obtain rfl := Option.some.inj (hth.symm.trans htask)
    exact safe_bind (hsafe s)

/-- While a revocation message is worked on, and the others insert no row under a serial number of
    it: with a signature of a signer that is no RA, its steps change rows of the signer only; with a
    MAC they change none. -/
theorem cmp_revokes_own
    (htask : c.threads w = some ⟨.cmpRevoke req, (Task.cmpRevoke req).prog⟩)
    (hone : ∀ t, .start w t ∉ xs)
    (hothers : requests.Along (fun v s s' => v ≠ w → InsertsNone req.serials s s') c xs) :
    (∀ cert, req.protection = .signature cert →
      (∀ signer, cert = .ok signer → signer.isRa = false) →
        requests.Along (fun v s s' => v = w → OnlyOwn cert s s') c xs) ∧
    (req.protection = .mac → requests.Along (fun v s s' => v = w → s' = s) c xs) := by
  constructor
  · intro cert hcert hra
    exact along_of_message (fun _ _ h => absurd rfl h)
      (owning_processRevocationRequest hcert hra) htask hone hothers
  · intro hmac
    refine along_of_message (fun _ => rfl) (fun s => ?_) htask hone hothers
    unfold processRevocationRequest
    rw [hmac]
    trivial

end

/-! ### Certificates of `alice` and `bob` -/

def twoCerts : Certificates where
  rows := [⟨"0a", "CN=alice", "ca1", [0x0a]⟩, ⟨"0b", "CN=bob", "ca1", [0x0b]⟩].map NewCert.row
  unique := by decide

def alice : SignerCert := ⟨"CN=alice", none⟩

def aliceRevokes : CmpRequest where
  sender := "alice"
  protection := .signature (.ok alice)
  body := .ok [⟨.ok ⟨some [0x0a]⟩, none⟩]

def aliceAtWork : Config Nat Op Task Result Certificates Reply :=
  (Config.initial twoCerts).set twoCerts 0
    (some ⟨.cmpRevoke aliceRevokes, (Task.cmpRevoke aliceRevokes).prog⟩)

def aliceAlone : Run := List.replicate 4 (.step 0 ⟨none, ""⟩)

theorem cmp_revokes_own_alice :
    (requests.run aliceAtWork aliceAlone).map
        (fun c => (c.shared.rows.map CertRow.status, c.done.length)) =
      some ([.revoked, .active], 1) ∧
    requests.Along (fun v s s' => v = 0 → OnlyOwn (.ok alice) s s') aliceAtWork aliceAlone := by
  have hothers : ∀ (n : Nat) (c : Config Nat Op Task Result Certificates Reply),
      requests.Along (fun v s s' => v ≠ 0 → InsertsNone aliceRevokes.serials s s') c
        (List.replicate n (.step 0 ⟨none, ""⟩)) := by
    intro n
    induction n with
    | zero => exact fun _ => trivial
    | succ n ih => exact fun c c' _ => ⟨fun h => absurd rfl h, ih c'⟩
  refine ⟨by decide +kernel, ?_⟩
  refine (cmp_revokes_own rfl (fun t => ?_) (hothers 4 _)).1 (.ok alice) rfl ?_
  · intro hmem
    cases List.eq_of_mem_replicate hmem
  · rintro signer ⟨⟩
    rfl

end Kipuka.Inventory
