/-
  What a request or a renewal cycle does while it holds the lock.
-/
import Kipuka.Star.Sound
import Kipuka.Star.Tasks

namespace Kipuka.Star

open Generic
open Ca (CaValidity IssuanceResult IssueEnv ValidityProfile issueTimed issued_within)

/-! ## Sections -/

structure Section where
  core : Core
  failed : Bool
  held : Bool

def rolledBack : (op : Op) → Reply op → Bool
  | .commitAdmission .., .error _ => true
  | .persistRenewal .., .error _ => true
  | .commitCancel .., .error _ => true
  | _, _ => false

def Section.exec (e : Env) (op : Op) (s : Section) : Option (Reply op × Section) :=
  match op with
  | .lock => none
  | .unlock => some ((), { s with held := false })
  | op => (s.core.step e op).map fun r => (r.1, ⟨r.2, s.failed || rolledBack op r.1, s.held⟩)

section

variable (K : StarConfig → Prop) (d : Bool)

def Anchored (c : Core) : Prop := ∃ c₀, Sound K c₀ ∧ c₀.db = c.db ∧ c₀.drawn = c.drawn

/-- What holds at all times, `d` if a request was dropped in a section before. -/
structure Fit (c : Core) : Prop where
  tracked : Tracked c
  anchored : d = false → Anchored K c

/-- A step under the lock keeps the lock, the invariant and the dead orders. -/
structure Section.Keeps (s s' : Section) : Prop where
  held : s'.held = true
  fit : Fit K d s'.core
  buried : Buried s.core s'.core

abbrev Alone {α : Type} (Q : α → Section → Prop) (p : Prog Op Reply α) (s : Section) : Prop :=
  Safe Section.exec Eq (Section.Keeps K d) Q p s

end

/-! ## Rules -/

section

variable {K : StarConfig → Prop} {d : Bool} {c : Core} {b : Bool}

theorem Sound.anchored (h : Sound K c) : Anchored K c := ⟨c, h, rfl, rfl⟩

def Op.ofLock : Op → Bool
  | .lock | .unlock => true
  | _ => false

def Op.quiet : Op → Bool
  | .star | .now | .getCa _ | .signingKey _ | .recordChecked .. | .recordAuditEvent .. | .issue ..
  | .issuerDn _ | .expiredIds _ | .ordersNeedingRenewalAt _ | .getOrder _
  | .getCurrentCertificate _ => true
  | _ => false

variable {op : Op}

theorem Op.not_ofLock (hq : op.quiet = true) : op.ofLock = false := by
  cases op with
  | lock | unlock => exact absurd hq (by simp [quiet])
  | _ => rfl

theorem step_quiet (hq : op.quiet = true) {e : Env} {r : Reply op} {c' : Core}
    (h : c.step e op = some (r, c')) : c' = c := by
  cases step_changes h with
  | nothing => rfl
  | _ => exact absurd hq (by simp [Op.quiet])

theorem exec_of_not_ofLock (hop : op.ofLock = false) (e : Env) (s : Section) :
    s.exec e op = (s.core.step e op).map fun r => (r.1, ⟨r.2, s.failed || rolledBack op r.1, s.held⟩) := by
  cases op with
  | lock | unlock => exact absurd hop (by simp [Op.ofLock])
  | _ => rfl

variable {Q : Reply op → Section → Prop}

theorem alone_call (hop : op.ofLock = false) (hfit : Fit K d c)
    (hnew : ∀ o cert, op = .commitAdmission o cert → o.id ∈ c.drawn ∧ ¬Dead o.id c)
    (h : ∀ e r c', c.step e op = some (r, c') → (d = false → Anchored K c') ∧
      (Fit K d c' → Q r ⟨c', b || rolledBack op r, true⟩)) : Alone K d Q (ask op) ⟨c, b, true⟩ := by
  refine safe_op ?_
  intro e r s' he
  rw [exec_of_not_ofLock hop, Option.map_eq_some_iff] at he
  obtain ⟨⟨r, c'⟩, hstep, he⟩ := he
  cases he
  obtain ⟨hanch, hQ⟩ := h e r c' hstep
  have hfit' : Fit K d c' :=
    ⟨step_tracked hfit.tracked hstep fun o cert ho => (hnew o cert ho).1, hanch⟩
  refine ⟨⟨rfl, hfit', step_buried hstep fun o cert ho => (hnew o cert ho).2⟩, ?_⟩
  rintro _ rfl
  exact hQ hfit'

theorem alone_quiet (hq : op.quiet = true)
    (hfit : Fit K d c) (h : ∀ e r, c.step e op = some (r, c) → Q r ⟨c, b, true⟩) :
    Alone K d Q (ask op) ⟨c, b, true⟩ := by
  have hcommit : ∀ r, rolledBack op r = false := by
    intro r
    cases op with
    | commitAdmission | persistRenewal | commitCancel => exact absurd hq (by simp [Op.quiet])
    | _ => rfl
  refine alone_call (Op.not_ofLock hq) hfit ?_ ?_
  · rintro o cert rfl
    exact absurd hq (by simp [Op.quiet])
  · intro e r c' hstep
    cases step_quiet hq hstep
    refine ⟨hfit.anchored, fun _ => ?_⟩
    rw [hcommit, Bool.or_false]
    exact h e r hstep

theorem alone_getOrder {id : String} {Q : Option StarOrder → Section → Prop} (hfit : Fit K d c)
    (h : ∀ m, c.manager = some m → Q (m.getOrder id) ⟨c, b, true⟩) :
    Alone K d Q (ask (.getOrder id)) ⟨c, b, true⟩ := by
  refine alone_quiet rfl hfit ?_
  intro e found hfound
  obtain ⟨m, hm, hfound⟩ := Option.bind_eq_some_iff.mp hfound
  cases hfound
  exact h m hm

theorem ends_of {σ α ε : Type} {A : α → σ → Prop} {B : ε → σ → Prop} {r : Except ε α} {s : σ}
    (hok : ∀ a, r = .ok a → A a s) (herr : ∀ e, r = .error e → B e s) : Ends A B r s := by
  cases r with
  | ok a => exact hok a rfl
  | error e => exact herr e rfl

end

/-! ## The sections of the service -/

section

variable {K : StarConfig → Prop} {d : Bool} {c : Core} {m : StarManager} (L : StarLib)

structure Leaves (K : StarConfig → Prop) (d : Bool) (c : Core) (s : Section) : Prop where
  sound : d = false → Sound K s.core
  failed : s.failed = true → s.core.manager = c.manager ∧ s.core.db = c.db

theorem deleteLocked_alone (identity id : String) (hfit : Fit K d c) (hs : d = false → Sound K c) :
    Alone K d (fun r s => Leaves K d c s ∧ ∀ resp, r = .ok resp → Dead id s.core)
      (deleteLocked identity id).run ⟨c, false, true⟩ := by
  have hkeep : ∀ b, Leaves K d c ⟨c, b, true⟩ := fun b => ⟨hs, fun _ => ⟨rfl, rfl⟩⟩
  refine safe_bind (safe_lift (alone_getOrder hfit ?_))
  intro m hm
  cases ho : m.getOrder id with
  | none => exact ⟨hkeep false, by simp⟩
  | some o =>
    show Alone K d _ (ExceptT.run (ite _ _ _)) _
    split
    · exact ⟨hkeep false, by simp⟩
    · refine safe_bind (safe_lift (alone_quiet rfl hfit ?_))
      intro e (now : Nat) _
      refine safe_try (alone_call rfl hfit (by simp) ?_)
      intro e r c' hcommit
      -- the cancellation of the order, as far as the manager is concerned
      have hcancel : ∀ now', ∃ m', m.cancelOrder id now' = .ok m' :=
        fun now' => ⟨_, StarManager.cancelOrder_eq_ok.mpr ⟨o, ho, rfl⟩⟩
      rcases transact_eq hcommit with ⟨err, rfl, rfl⟩ | ⟨db, ⟨⟩, rfl, rfl⟩
      · exact ⟨hfit.anchored, fun _ => ⟨hkeep true, by simp⟩⟩
      · refine ⟨fun hd => ?_, fun hfit' => ?_⟩
        · obtain ⟨m', hm'⟩ := hcancel 0
          exact ⟨_, (hs hd).cancel hm ho hm', rfl, rfl⟩
        · refine safe_try (alone_call rfl hfit' (by simp) ?_)
          intro e r c' hstep
          obtain ⟨m₁, hm₁, hstep⟩ := Option.bind_eq_some_iff.mp hstep
          obtain rfl : m = m₁ := Option.some.inj (hm.symm.trans hm₁)
          obtain ⟨m', hm'⟩ := hcancel e.now
          have hstep : some (Core.update _ (m.cancelOrder id e.now)) = some (r, c') := hstep
          rw [hm'] at hstep
          cases hstep
          have hsound : d = false → Sound K { c with manager := some m', db := c.db.cancelRow id now } :=
            fun hd => (hs hd).cancel hm ho hm'
          refine ⟨fun hd => (hsound hd).anchored, fun hfit'' => ?_⟩
          refine safe_bind (safe_lift (alone_quiet rfl hfit'' ?_))
          intro e r _
          exact ⟨⟨hsound, by simp [rolledBack]⟩,
            fun _ _ => dead_of_cancel (hfit.tracked.order m id o hm ho) hm'⟩

theorem issued_of_issue {profile : ValidityProfile} {ca : CaValidity} {e : IssueEnv} {r : IssuanceResult}
    (h : issueTimed profile ca e = .ok r) (number : Nat) (id : String) :
    Issued (r.starCertificate number id) id number := by
  obtain ⟨hnow, hlt, hle⟩ := issued_within h
  refine ⟨rfl, rfl, ?_, hlt, hle.trans ca.fourDigits⟩
  show 0 ≤ r.notBefore
  rw [hnow]
  exact Int.natCast_nonneg _

variable {id : String}

theorem admitFirst_alone {new : StarManager.NewOrder} {now : Int} {o : StarOrder}
    {m₁ : StarManager} (hm : c.manager = some m) (hcreate : m.createOrder new now id = .ok (o, m₁))
    (hfresh : id ∉ c.drawn) (hs : d = false → Sound K c)
    (hfit : Fit K d { c with manager := some m₁, drawn := id :: c.drawn }) (csrDer : List UInt8)
    (profile : ValidityProfile) (ca : CaValidity) :
    Alone K d (Ends
        (fun _ s => Leaves K d c s)
        (fun _ s => ∃ b, s = ⟨{ c with manager := some m₁, drawn := id :: c.drawn }, b, true⟩))
      (admitFirst csrDer profile ca o).run
      ⟨{ c with manager := some m₁, drawn := id :: c.drawn }, false, true⟩ := by
  obtain ⟨ho, hm₁, -, -⟩ := StarManager.createOrder_eq_ok hcreate
  have hid : o.id = id := by rw [ho]; rfl
  have hactive : o.status = .active := by rw [ho]; rfl
  have hfiled : m₁.getOrder o.id = some o := by rw [hm₁, StarManager.getOrder_insert_self]
  refine safe_try (alone_quiet rfl hfit ?_)
  intro e r hissue
  cases hissue
  cases hissue : issueTimed profile ca e.issue with
  | error err => exact ⟨false, rfl⟩
  | ok result =>
    have hcert := issued_of_issue hissue 1 o.id
    refine safe_try (alone_call rfl hfit ?_ ?_)
    · rintro _ _ ⟨⟩
      refine ⟨by simp [hid], fun hdead => ?_⟩
      have hst := hdead.order m₁ o rfl hfiled
      rw [hactive] at hst
      cases hst
    · intro e r c' hcommit
      rcases transact_eq hcommit with ⟨err, rfl, rfl⟩ | ⟨db, hdb, rfl, rfl⟩
      · exact ⟨hfit.anchored, fun _ => ⟨true, rfl⟩⟩
      · have hsound : d = false → Sound K { c with
            manager := some (m.insert (o.renewedWith (result.starCertificate 1 o.id)))
            db := db
            drawn := id :: c.drawn } :=
          fun hd => (hs hd).admitted hm hcreate hfresh (hid ▸ hcert) hdb
        refine ⟨fun hd => ⟨_, hsound hd, rfl, rfl⟩, fun hfit' => ?_⟩
        refine safe_try (alone_call rfl hfit' (by simp) ?_)
        intro e r c' hstep
        have hstep : some (Core.update _ (m₁.storeRenewedCertificate o.id _)) = some (r, c') := hstep
        have hstore : m₁.storeRenewedCertificate o.id (result.starCertificate 1 o.id) =
            .ok (m.insert (o.renewedWith (result.starCertificate 1 o.id))) := by
          refine StarManager.storeRenewedCertificate_eq_ok.mpr ⟨o, hfiled, ?_, ?_, ?_⟩
          · rw [hactive]; simp
          · rw [hactive]; simp
          · rw [hm₁, StarManager.insert_insert (StarOrder.renewedWith_id o _)]
        rw [hstore] at hstep
        cases hstep
        exact ⟨fun hd => (hsound hd).anchored, fun _ => ⟨hsound, by simp [rolledBack]⟩⟩

theorem admitOrder_alone (new : StarManager.NewOrder) (profile : ValidityProfile) (ca : CaValidity)
    (hfit : Fit K d c) (hs : d = false → Sound K c) :
    Alone K d (fun _ s => Leaves K d c s) (admitOrder L new profile ca) ⟨c, false, true⟩ := by
  refine safe_bind (alone_call rfl hfit (by simp) ?_)
  intro e r c' hstep
  obtain ⟨m, hm, hstep⟩ := Option.bind_eq_some_iff.mp hstep
  simp only [Core.onManager] at hstep
  split at hstep
  · cases hstep
    exact ⟨hfit.anchored, fun _ => ⟨hs, fun _ => ⟨rfl, rfl⟩⟩⟩
  · next o m₁ hcreate =>
    split at hstep
    · cases hstep
    · next hfresh =>
      cases hstep
      have hdraw : d = false → Sound K { c with drawn := e.uuid :: c.drawn } :=
        fun hd => (hs hd).draw e.uuid
      obtain ⟨ho, hm₁, -, -⟩ := StarManager.createOrder_eq_ok hcreate
      have hid : o.id = e.uuid := by rw [ho]; rfl
      -- removing the provisional order brings back the manager, since nothing had its id
      have hback : m₁.removeOrder o.id = m := by
        rw [hm₁, StarManager.removeOrder_insert]
        rw [hid, Option.eq_none_iff_forall_ne_some]
        exact fun o' ho' => hfresh (hfit.tracked.order m e.uuid o' hm ho')
      refine ⟨fun hd => ⟨_, hdraw hd, rfl, rfl⟩, fun hfit' => ?_⟩
      refine safe_bind ((admitFirst_alone hm hcreate hfresh hs hfit' _ profile ca).mono ?_)
      intro r s hr
      cases r with
      | ok result => exact hr
      | error err =>
        obtain ⟨b, rfl⟩ := hr
        refine safe_bind (alone_call rfl hfit' (by simp) ?_)
        intro e' r c' hstep
        cases hstep
        rw [hback, ← hm]
        exact ⟨fun hd => (hdraw hd).anchored, fun _ => ⟨hdraw, fun _ => ⟨rfl, rfl⟩⟩⟩

theorem postLocked_alone (req : PostRequest) (config : StarConfig) (csrDer : List UInt8)
    (profile : ValidityProfile) (ca : CaValidity) (hfit : Fit K d c) (hs : d = false → Sound K c) :
    Alone K d (fun _ s => Leaves K d c s) (postLocked L req config csrDer profile ca)
      ⟨c, false, true⟩ := by
  unfold postLocked
  split
  · exact ⟨hs, fun _ => ⟨rfl, rfl⟩⟩
  · exact admitOrder_alone L _ profile ca hfit hs

/-! ### The renewal cycle -/

def Due (dueAt : Int) (ids : List String) (c : Core) : Prop :=
  ∀ m, c.manager = some m → ∀ id ∈ ids, ∀ o, m.getOrder id = some o →
    o.needsRenewalAt m.config.preRenewalFactor dueAt = true

structure Between (K : StarConfig → Prop) (d : Bool) (dueAt : Int) (ids : List String)
    (s : Section) : Prop where
  held : s.held = true
  fit : Fit K d s.core
  due : d = false → Due dueAt ids s.core
  sound : d = false → Sound K s.core

variable {dueAt : Nat} {ids : List String} {b : Bool}

theorem renewOne_alone (hid : id ∉ ids) (h : Between K d dueAt (id :: ids) ⟨c, b, true⟩) :
    Alone K d (fun _ s => Between K d dueAt ids s ∧
        (b = false → s.failed = true → s.core.manager = c.manager ∧ s.core.db = c.db))
      (renewOne L dueAt id).run ⟨c, b, true⟩ := by
  obtain ⟨-, hfit, hall, hs⟩ := h
  have hrest : d = false → Due dueAt ids c :=
    fun hd m hm id' hid' => hall hd m hm id' (List.mem_cons_of_mem _ hid')
  have hkeep : ∀ b', Between K d dueAt ids ⟨c, b', true⟩ ∧
      (b = false → b' = true → c.manager = c.manager ∧ c.db = c.db) :=
    fun b' => ⟨⟨rfl, hfit, hrest, hs⟩, fun _ _ => ⟨rfl, rfl⟩⟩
  refine safe_bind (safe_lift (alone_getOrder hfit ?_))
  intro m hm
  cases ho : m.getOrder id with
  | none => exact hkeep b
  | some o =>
    show Alone K d _ (ExceptT.run (ite _ _ _)) _
    split
    · exact hkeep b
    · next hactive =>
      have hactive : o.status = .active := not_not.mp hactive
      refine safe_bind (safe_lift (alone_quiet rfl hfit fun e found _ => ?_))
      refine safe_ofExcept (fun ca _ => ?_) fun _ _ => hkeep b
      refine safe_ofExcept (fun stored _ => ?_) fun _ _ => hkeep b
      refine safe_try (alone_quiet rfl hfit fun e r _ => ends_of (fun _ _ => ?_) fun _ _ => hkeep b)
      refine safe_try (alone_quiet rfl hfit fun e r _ => ends_of (fun _ _ => ?_) fun _ _ => hkeep b)
      refine safe_try (alone_quiet rfl hfit fun e r hissue => ?_)
      cases hissue
      refine ends_of (fun result hissue => ?_) fun _ _ => hkeep b
      have hcert := issued_of_issue hissue (o.currentRenewals + 1) id
      have hend : result.notAfter ≤ o.lifetimeEnd := by
        rw [renewal_notAfter hissue]
        exact (min_le_left _ _).trans (min_le_right _ _)
      refine safe_try (alone_quiet rfl hfit fun e r _ => ends_of (fun _ _ => ?_) fun _ _ => hkeep b)
      refine safe_try (alone_call rfl hfit (by simp) ?_)
      intro e r c' hcommit
      rcases transact_eq hcommit with ⟨err, rfl, rfl⟩ | ⟨db, hdb, rfl, rfl⟩
      · exact ⟨hfit.anchored, fun _ => hkeep _⟩
      · have hsound : d = false → Sound K { c with
            manager := some (m.insert
              (o.renewedWith (result.starCertificate (o.currentRenewals + 1) id)))
            db := db } :=
          fun hd => (hs hd).renew hm ho (hall hd m hm id List.mem_cons_self o ho) hcert hend hdb
        refine ⟨fun hd => ⟨_, hsound hd, rfl, rfl⟩, fun hfit' => ?_⟩
        refine safe_mapErr (alone_call rfl hfit' (by simp) ?_)
        intro e r c' hstep
        obtain ⟨m₁, hm₁, hstep⟩ := Option.bind_eq_some_iff.mp hstep
        obtain rfl : m = m₁ := Option.some.inj (hm.symm.trans hm₁)
        have hstep : some (Core.update _ (m.storeRenewedCertificate id _)) = some (r, c') := hstep
        have hstore : m.storeRenewedCertificate id
            (result.starCertificate (o.currentRenewals + 1) id) =
            .ok (m.insert (o.renewedWith (result.starCertificate (o.currentRenewals + 1) id))) :=
          StarManager.storeRenewedCertificate_eq_ok.mpr
            ⟨o, ho, by rw [hactive]; simp, by rw [hactive]; simp, rfl⟩
        rw [hstore] at hstep
        cases hstep
        refine ⟨fun hd => (hsound hd).anchored, fun hfit'' => ⟨⟨rfl, hfit'', ?_, hsound⟩, ?_⟩⟩
        · rintro hd _ ⟨⟩ id' hid' o' ho'
          have hne : id' ≠ o.id := by
            rintro rfl
            exact hid (StarManager.id_eq ho ▸ hid')
          rw [StarManager.getOrder_insert, StarOrder.renewedWith_id, if_neg hne] at ho'
          exact hrest hd m hm id' hid' o' ho'
        · rintro rfl
          simp [rolledBack]

theorem renewAll_alone (hnodup : ids.Nodup) {s : Section} (h : Between K d dueAt ids s) :
    Alone K d (fun _ s => s.held = true ∧ Fit K d s.core ∧ (d = false → Sound K s.core))
      (renewAll L dueAt ids) s := by
  refine Safe.mono (safe_renewAll (I := fun ids s => ids.Nodup ∧ Between K d dueAt ids s) ?_
    ids ⟨hnodup, h⟩) fun _ _ hs => ⟨hs.2.held, hs.2.fit, hs.2.sound⟩
  rintro id ids ⟨c, b, held⟩ ⟨hids, hbetween⟩
  obtain ⟨hid, hnodup⟩ := List.nodup_cons.mp hids
  obtain rfl : held = true := hbetween.held
  exact (renewOne_alone L hid hbetween).mono fun _ _ hs => ⟨hnodup, hs.1⟩

theorem expireAll_alone (ids : List String) (hfit : Fit K d c) (hs : d = false → Sound K c) :
    Alone K d (fun _ s => s.held = true ∧ Fit K d s.core ∧ (d = false → Sound K s.core))
      (expireAll ids) ⟨c, b, true⟩ := by
  induction ids generalizing c b with
  | nil => exact ⟨rfl, hfit, hs⟩
  | cons id ids ih =>
    refine safe_bind (alone_call rfl hfit (by simp) ?_)
    intro e r c' hstep
    obtain ⟨m, hm, hstep⟩ := Option.bind_eq_some_iff.mp hstep
    cases hstep
    refine ⟨fun hd => ⟨c, hs hd, rfl, rfl⟩, fun hfit' => ?_⟩
    refine safe_bind (alone_call rfl hfit' (by simp) ?_)
    intro e r c' hstep
    cases hstep
    have hsound : d = false → Sound K { c with manager := some ((m.markExpired id).removeOrder id) } := by
      intro hd
      have hremove := (hs hd).remove hm id
      rwa [← StarManager.expire_eq_removeOrder] at hremove
    exact ⟨fun hd => (hsound hd).anchored, fun hfit'' => ih hfit'' hsound⟩

theorem Env.walked_perm (e : Env) (ids : List String) : (e.walked ids).Perm ids := by
  unfold walked
  split
  · next h => exact h
  · exact .refl _

theorem cycleLocked_alone (hfit : Fit K d c) (hs : d = false → Sound K c) :
    Alone K d (fun _ s => s.held = true ∧ Fit K d s.core ∧ (d = false → Sound K s.core))
      (cycleLocked L) ⟨c, false, true⟩ := by
  refine safe_bind (alone_quiet rfl hfit fun e now _ => ?_)
  refine safe_bind (alone_quiet rfl hfit fun e expired _ => ?_)
  refine safe_bind ((expireAll_alone expired hfit hs).mono ?_)
  rintro _ ⟨c, b, held⟩ ⟨rfl, hfit, hs⟩
  refine safe_bind (alone_quiet rfl hfit fun e (dueAt : Nat) _ => ?_)
  refine safe_bind (alone_quiet rfl hfit fun e ids hids => ?_)
  obtain ⟨m, hm, hids⟩ := Option.bind_eq_some_iff.mp hids
  cases hids
  have hperm := e.walked_perm (m.ordersNeedingRenewalAt dueAt)
  have hdue : Due dueAt (e.walked (m.ordersNeedingRenewalAt dueAt)) c := by
    intro m' hm' id hid o ho
    obtain rfl : m = m' := Option.some.inj (hm.symm.trans hm')
    obtain ⟨o', ho', hneeds⟩ := StarManager.mem_ordersNeedingRenewalAt.mp (hperm.mem_iff.mp hid)
    rwa [Option.some.inj (ho.symm.trans ho')]
  refine safe_bind ((renewAll_alone L (hperm.nodup_iff.mpr (m.nodup_ordersNeedingRenewalAt dueAt))
    ⟨rfl, hfit, fun _ => hdue, hs⟩).mono ?_)
  rintro ⟨renewed, failed⟩ s hs
  exact hs

end

end Kipuka.Star
