/-
  What the operations of the service do to the orders.
-/
import Kipuka.Star.Lifecycle
import Kipuka.Star.Service

namespace Kipuka.Star

variable {K : StarConfig → Prop}

/-! ## Views -/

def Core.view (c : Core) (id : String) : OrderView :=
  ⟨c.manager.bind (·.getOrder id), c.db.row id, c.db.certsOf id⟩

variable {c : Core} {m : StarManager}

theorem Core.view_eq (hm : c.manager = some m) (id : String) :
    c.view id = ⟨m.getOrder id, c.db.row id, c.db.certsOf id⟩ := by
  rw [view, hm, Option.bind_some]

variable {r : OrderRow} {id : String} {o : StarOrder}

theorem Core.view_put (hm : c.manager = some m) (ho : o.id = id) (hr : r.id = id) {row : CertRow}
    (hrow : row.cert.starOrderId = id) (drawn : List String) (id' : String) :
    Core.view ⟨c.config, some (m.insert o), (c.db.put r).addCert row, drawn⟩ id' =
      if id' = id then ⟨some o, some r, c.db.certsOf id ++ [row]⟩ else c.view id' := by
  rw [view_eq (c := ⟨c.config, some (m.insert o), (c.db.put r).addCert row, drawn⟩) rfl, view_eq hm,
    StarManager.getOrder_insert, Db.row_addCert, Db.row_put, Db.certsOf_addCert, Db.certsOf_put, ho, hr,
    hrow]
  by_cases hid : id' = id
  · subst hid
    simp
  · simp [hid, Ne.symm hid]

/-- The invariant of the service, for every order and for ids that were never drawn. -/
structure Sound (K : StarConfig → Prop) (c : Core) : Prop where
  life : ∀ id, Life K (c.view id)
  fresh : ∀ id, id ∉ c.drawn → c.view id = .empty
  config : ∀ m, c.manager = some m → m.config.Accepted ∧ K m.config

variable {cert : StarCertificate}

theorem Issued.row_eq {id id' : String} {n : Nat} (h : Issued cert id n) (hid : id' = id) :
    ({ cert with starOrderId := id' } : StarCertificate) = cert := by
  rw [hid, ← h.order]

theorem sound_initial : Sound K Core.initial where
  life _ := .refl
  fresh _ _ := rfl
  config _ hm := absurd hm (by simp [Core.initial])

theorem Core.boot_cases (c : Core) (b : Boot K) :
    (c.boot b).drawn = c.drawn ∧
    (∃ ids : List String, (c.boot b).db = ids.foldl Db.reactivate c.db ∧ ∀ id ∈ ids, ∃ r,
      c.db.row id = some r ∧ (c.db.restoredOrder r).wronglyCompleted (b.env.now id) = true) ∧
    ((c.boot b).manager = none ∨ ∃ config m, b.config = some config ∧
      (c.boot b).manager = some m ∧ (restore b.env config c.db).2 = .ok m) := by
  unfold Core.boot
  split
  · exact ⟨rfl, ⟨[], rfl, by simp⟩, .inl rfl⟩
  · next config hconfig =>
    have hdb := restore_db b.env config c.db
    split
    · next db m hrestore =>
      rw [hrestore] at hdb
      exact ⟨rfl, hdb, .inr ⟨config, m, (Option.filter_eq_some_iff.mp hconfig).1, rfl,
        by rw [hrestore]⟩⟩
    · next db err hrestore =>
      rw [hrestore] at hdb
      exact ⟨rfl, hdb, .inl rfl⟩

variable {m' : StarManager} {db : Db} {now : Int}

namespace Sound

variable {c : Core} {m : StarManager} {id : String} {o : StarOrder}

section

variable (h : Sound K c)

include h

theorem drawn_of_order (hm : c.manager = some m) (ho : m.getOrder id = some o) : id ∈ c.drawn := by
  by_contra hid
  have hempty := congrArg OrderView.order (h.fresh id hid)
  rw [Core.view_eq hm] at hempty
  exact absurd (ho.symm.trans hempty) (by simp [OrderView.empty])

theorem of_steps {c' : Core} (hdrawn : ∀ id ∈ c.drawn, id ∈ c'.drawn)
    (hview : ∀ id, c'.view id = c.view id ∨ (id ∈ c'.drawn ∧ OrderStep K (c.view id) (c'.view id)))
    (hconfig : ∀ m, c'.manager = some m → m.config.Accepted ∧ K m.config) : Sound K c' where
  life id := by
    rcases hview id with heq | ⟨-, hstep⟩
    · rw [heq]
      exact h.life id
    · exact (h.life id).tail hstep
  fresh id hid := by
    rcases hview id with heq | ⟨hmem, -⟩
    · rw [heq]
      exact h.fresh id fun hmem => hid (hdrawn id hmem)
    · exact absurd hmem hid
  config := hconfig

theorem draw (id : String) : Sound K { c with drawn := id :: c.drawn } :=
  h.of_steps (fun _ hid => List.mem_cons_of_mem _ hid) (fun _ => .inl rfl) h.config

theorem admitted (hm : c.manager = some m) {req : StarManager.NewOrder} {m₁ : StarManager}
    (hcreate : m.createOrder req now id = .ok (o, m₁)) (hfresh : id ∉ c.drawn)
    (hcert : Issued cert id 1) {createdAt : Int}
    (hcommit : c.db.commitAdmission o cert createdAt = .ok db) : Sound K { c with
      manager := some (m.insert (o.renewedWith cert)), db := db, drawn := id :: c.drawn } := by
  obtain ⟨ho, -, hlifetime, hinterval⟩ := StarManager.createOrder_eq_ok hcreate
  have hid : o.id = id := by rw [ho]; rfl
  obtain ⟨-, r, hdb, hrid, hsecs, hend, hmax, hcount, hactive, hopened, -⟩ :=
    Db.commitAdmission_eq_ok hcommit
  rw [hcert.row_eq hid] at hdb
  subst hdb
  refine h.of_steps (fun _ hid => List.mem_cons_of_mem _ hid) ?_ ?_
  · intro id'
    rw [Core.view_put hm (o := o.renewedWith cert) hid (hrid.trans hid) hcert.order]
    by_cases hne : id' = id
    · subst hne
      -- nothing was known under a fresh id
      have hempty := h.fresh id' hfresh
      have hcerts : c.db.certsOf id' = [] := congrArg OrderView.certs hempty
      refine .inr ⟨List.mem_cons_self, ?_⟩
      rw [hempty, if_pos rfl, hcerts, List.nil_append]
      exact .admitted (h.config m hm) hinterval hlifetime ho hcert (hrid.trans hid) hsecs hend hmax
        hcount hactive (by rw [hopened, ho]; rfl)
    · exact .inl (if_neg hne)
  · rintro _ ⟨⟩
    exact h.config m hm

theorem renew (hm : c.manager = some m) (ho : m.getOrder id = some o) {dueAt : Int}
    (hdue : o.needsRenewalAt m.config.preRenewalFactor dueAt = true)
    (hcert : Issued cert id (o.currentRenewals + 1)) (hend : cert.notAfter ≤ o.lifetimeEnd)
    (hcommit : c.db.persistRenewal o cert dueAt = .ok db) :
    Sound K { c with manager := some (m.insert (o.renewedWith cert)), db := db } := by
  have hid : o.id = id := StarManager.id_eq ho
  obtain ⟨r, hr, hcount, hactive, hdb⟩ := Db.persistRenewal_eq_ok hcommit
  rw [hcert.row_eq hid] at hdb
  subst hdb
  have hrid : (r.renewedWith o cert).id = id := (Db.row_id hr).trans hid
  refine h.of_steps (fun _ hid => hid) ?_ ?_
  · intro id'
    rw [Core.view_put hm (o := o.renewedWith cert) hid hrid hcert.order]
    by_cases hne : id' = id
    · subst hne
      refine .inr ⟨h.drawn_of_order hm ho, ?_⟩
      rw [if_pos rfl, Core.view_eq hm, ho, ← hid, hr]
      exact .renewed (h.config m hm) hdue (hid ▸ hcert) hend hcount hactive
    · exact .inl (if_neg hne)
  · rintro _ ⟨⟩
    exact h.config m hm

theorem cancel (hm : c.manager = some m) (ho : m.getOrder id = some o) {now' : Int}
    (hcancel : m.cancelOrder id now' = .ok m') :
    Sound K { c with manager := some m', db := c.db.cancelRow id now } := by
  refine h.of_steps (fun _ hid => hid) ?_ ?_
  · intro id'
    rw [Core.view_eq (c := { c with manager := some m', db := _ }) rfl, Core.view_eq hm,
      StarManager.getOrder_cancelOrder hcancel, Db.row_cancelRow]
    have hcerts : (c.db.cancelRow id now).certsOf id' = c.db.certsOf id' := by
      unfold Db.certsOf
      rw [Db.certs_cancelRow]
    rw [hcerts]
    by_cases hne : id' = id
    · subst hne
      refine .inr ⟨h.drawn_of_order hm ho, ?_⟩
      have hstep : OrderStep K ⟨some o, c.db.row id', c.db.certsOf id'⟩ _ := .cancelled now now'
      simpa [ho, StarOrder.cancel, ite_not] using hstep
    · exact .inl (by simp [hne])
  · rintro _ ⟨⟩
    obtain ⟨o', -, rfl⟩ := StarManager.cancelOrder_eq_ok.mp hcancel
    split <;> exact h.config m hm

theorem remove (hm : c.manager = some m) (id : String) :
    Sound K { c with manager := some (m.removeOrder id) } := by
  refine h.of_steps (fun _ hid => hid) ?_ ?_
  · intro id'
    rw [Core.view_eq (c := { c with manager := some _ }) rfl, Core.view_eq hm,
      StarManager.getOrder_removeOrder]
    by_cases hne : id' = id
    · cases ho : m.getOrder id' with
      | none => exact .inl (by simp)
      | some o =>
        refine .inr ⟨h.drawn_of_order hm ho, ?_⟩
        rw [if_pos hne]
        exact .forgotten
    · exact .inl (by simp [hne])
  · rintro _ ⟨⟩
    exact h.config m hm

theorem mirrored (hm : c.manager = some m) (ho : m.getOrder id = some o) :
    ∃ r, c.db.row id = some r ∧ Mirrors o r (c.db.certsOf id) := by
  have hok := (h.life id).ok
  rw [Core.view_eq hm] at hok
  cases hr : c.db.row id with
  | none => exact absurd (hok.orphan hr).1 (by simp [ho])
  | some r => exact ⟨r, rfl, hok.mirrored o r ho hr⟩

theorem not_wronglyCompleted (hr : c.db.row id = some r) (now : Int) :
    (c.db.restoredOrder r).wronglyCompleted now = false := by
  have hok := (h.life id).ok.not_wronglyCompleted (r := r) hr now
  rw [Db.restoredOrder, Db.row_id hr]
  exact hok

theorem boot_db (b : Boot K) : (c.boot b).db = c.db := by
  obtain ⟨-, ⟨ids, hdb, hids⟩, -⟩ := c.boot_cases b
  cases ids with
  | nil => exact hdb
  | cons id ids =>
    obtain ⟨r, hr, hwrong⟩ := hids id List.mem_cons_self
    rw [h.not_wronglyCompleted hr] at hwrong
    cases hwrong

end

variable {b : Boot K} (h : Sound K c)

include h

theorem boot_getOrder (hm : (c.boot b).manager = some m) (id : String) :
    m.getOrder id = ((c.db.row id).map c.db.restoredOrder).filter
      fun o => decide ((b.env.cleanupNow : Int) < o.lifetimeEnd) := by
  obtain ⟨-, -, hnone | ⟨config, m', -, hm', hok⟩⟩ := c.boot_cases b
  · exact absurd (hnone.symm.trans hm) (by simp)
  · obtain rfl : m = m' := Option.some.inj (hm.symm.trans hm')
    rw [restore_ok hok]
    congr 1
    cases hr : c.db.row id with
    | none => rfl
    | some r =>
      have hright := h.not_wronglyCompleted hr (b.env.now (c.db.restoredOrder r).id)
      simp only [Option.map_some, StarOrder.revived, hright, Bool.false_eq_true, if_false]

theorem boot_getOrder_live (hm : (c.boot b).manager = some m) (hr : c.db.row id = some r)
    (hlive : (b.env.cleanupNow : Int) < r.lifetimeEnd) :
    m.getOrder id = some (r.restored (c.db.certsOf id)) := by
  have hkept : Option.filter (fun o : StarOrder =>
      decide ((b.env.cleanupNow : Int) < o.lifetimeEnd)) (some (c.db.restoredOrder r)) =
      some (c.db.restoredOrder r) := Option.filter_some_pos (decide_eq_true hlive)
  rw [h.boot_getOrder hm, hr, Option.map_some, hkept, Db.restoredOrder, Db.row_id hr]

theorem boot_step (b : Boot K) (id : String) : OrderStep K (c.view id) ((c.boot b).view id) := by
  unfold Core.view
  rw [h.boot_db b]
  cases hm : (c.boot b).manager with
  | none => exact .forgotten
  | some m =>
    rw [Option.bind_some]
    cases hr : c.db.row id with
    | none =>
      rw [h.boot_getOrder hm, hr]
      exact .forgotten
    | some r =>
      by_cases hlive : (b.env.cleanupNow : Int) < r.lifetimeEnd
      · rw [h.boot_getOrder_live hm hr hlive]
        exact .loaded
      · have hgone : Option.filter (fun o : StarOrder =>
            decide ((b.env.cleanupNow : Int) < o.lifetimeEnd)) (some (c.db.restoredOrder r)) = none :=
          Option.filter_some_neg (decide_eq_false hlive)
        rw [h.boot_getOrder hm, hr, Option.map_some, hgone]
        exact .forgotten

theorem boot (b : Boot K) : Sound K (c.boot b) := by
  obtain ⟨hdrawn, -, hmanager⟩ := c.boot_cases b
  refine h.of_steps (by simp [hdrawn]) ?_ ?_
  · intro id
    by_cases hid : id ∈ c.drawn
    · exact .inr ⟨hdrawn ▸ hid, h.boot_step b id⟩
    · left
      have hempty := h.fresh id hid
      have hrow : c.db.row id = none := congrArg OrderView.row hempty
      rw [hempty]
      unfold Core.view
      rw [h.boot_db b, hrow, show c.db.certsOf id = [] from congrArg OrderView.certs hempty]
      cases hm : (c.boot b).manager with
      | none => rfl
      | some m =>
        rw [Option.bind_some, h.boot_getOrder hm, hrow]
        rfl
  · intro m hm
    obtain hnone | ⟨config, m', hconfig, hm', hok⟩ := hmanager
    · exact absurd (hnone.symm.trans hm) (by simp)
    · obtain rfl : m = m' := Option.some.inj (hm.symm.trans hm')
      rw [restore_config hok]
      exact b.accepted config hconfig

end Sound

/-! ## What a call changes -/

inductive Changes (c : Core) : Op → Core → Prop where
  | nothing {op : Op} : Changes c op c
  | created {m m' : StarManager} {req : StarManager.NewOrder} {now : Int} {id : String} {o : StarOrder}
      (hm : c.manager = some m) (hcreate : m.createOrder req now id = .ok (o, m'))
      (hfresh : id ∉ c.drawn) :
      Changes c (.createOrder req) { c with manager := some m', drawn := id :: c.drawn }
  | stored {m m' : StarManager} {id : String} {cert : StarCertificate} (hm : c.manager = some m)
      (hstore : m.storeRenewedCertificate id cert = .ok m') :
      Changes c (.storeRenewedCertificate id cert) { c with manager := some m' }
  | cancelled {m m' : StarManager} {id : String} {now : Int} (hm : c.manager = some m)
      (hcancel : m.cancelOrder id now = .ok m') :
      Changes c (.cancelOrder id) { c with manager := some m' }
  | removed {m : StarManager} {id : String} (hm : c.manager = some m) :
      Changes c (.removeOrder id) { c with manager := some (m.removeOrder id) }
  | marked {m : StarManager} {id : String} (hm : c.manager = some m) :
      Changes c (.markExpired id) { c with manager := some (m.markExpired id) }
  | admittedRow {o : StarOrder} {cert : StarCertificate} {createdAt : Int} {db : Db}
      (hcommit : c.db.commitAdmission o cert createdAt = .ok db) :
      Changes c (.commitAdmission o cert) { c with db := db }
  | renewedRow {o : StarOrder} {cert : StarCertificate} {dueAt : Nat} {db : Db}
      (hcommit : c.db.persistRenewal o cert dueAt = .ok db) :
      Changes c (.persistRenewal o cert dueAt) { c with db := db }
  | cancelledRow {id : String} {now : Nat} :
      Changes c (.commitCancel id now) { c with db := c.db.cancelRow id now }

variable {c' : Core} {e : Env}

theorem transact_eq {r : Except String Db} {p : Except KipukaError Unit}
    (h : some (c.transact e r) = some (p, c')) :
    (∃ err, p = .error err ∧ c' = c) ∨ ∃ db, r = .ok db ∧ p = .ok () ∧ c' = { c with db := db } := by
  unfold Core.transact at h
  split at h
  · cases h
    exact .inl ⟨_, rfl, rfl⟩
  · cases h
    exact .inl ⟨_, rfl, rfl⟩
  · cases h
    exact .inr ⟨_, rfl, rfl, rfl⟩

theorem update_eq {r : Except StarError StarManager} {p : Except StarError Unit}
    (h : some (c.update r) = some (p, c')) :
    c' = c ∨ ∃ m', r = .ok m' ∧ c' = { c with manager := some m' } := by
  unfold Core.update at h
  split at h
  · cases h
    exact .inl rfl
  · cases h
    exact .inr ⟨_, rfl, rfl⟩

variable {op : Op}

theorem step_changes {r : Reply op} (h : c.step e op = some (r, c')) : Changes c op c' := by
  cases op with
  | lock | unlock =>
    obtain ⟨m, hm, h⟩ := Option.bind_eq_some_iff.mp h
    cases h
  | star =>
    simp only [Core.step] at h
    repeat' split at h
    all_goals
      cases h
      exact .nothing
  | now | getCa | signingKey | recordChecked | recordAuditEvent | issue | issuerDn =>
    cases h
    exact .nothing
  | commitAdmission o cert =>
    rcases transact_eq h with ⟨err, -, rfl⟩ | ⟨db, hdb, -, rfl⟩
    · exact .nothing
    · exact .admittedRow hdb
  | persistRenewal o cert dueAt =>
    rcases transact_eq h with ⟨err, -, rfl⟩ | ⟨db, hdb, -, rfl⟩
    · exact .nothing
    · exact .renewedRow hdb
  | commitCancel id now =>
    rcases transact_eq h with ⟨err, -, rfl⟩ | ⟨db, ⟨⟩, -, rfl⟩
    · exact .nothing
    · exact .cancelledRow
  | createOrder req =>
    obtain ⟨m, hm, h⟩ := Option.bind_eq_some_iff.mp h
    simp only [Core.onManager] at h
    split at h
    · cases h
      exact .nothing
    · next o m' hcreate =>
      split at h
      · cases h
      · next hfresh =>
        cases h
        exact .created hm hcreate hfresh
  | storeRenewedCertificate id cert =>
    obtain ⟨m, hm, h⟩ := Option.bind_eq_some_iff.mp h
    rcases update_eq h with rfl | ⟨m', hm', rfl⟩
    · exact .nothing
    · exact .stored hm hm'
  | cancelOrder id =>
    obtain ⟨m, hm, h⟩ := Option.bind_eq_some_iff.mp h
    rcases update_eq h with rfl | ⟨m', hm', rfl⟩
    · exact .nothing
    · exact .cancelled hm hm'
  | removeOrder id =>
    obtain ⟨m, hm, h⟩ := Option.bind_eq_some_iff.mp h
    cases h
    exact .removed hm
  | markExpired id =>
    obtain ⟨m, hm, h⟩ := Option.bind_eq_some_iff.mp h
    cases h
    exact .marked hm
  | expiredIds | ordersNeedingRenewalAt | getOrder | getCurrentCertificate =>
    obtain ⟨m, hm, h⟩ := Option.bind_eq_some_iff.mp h
    cases h
    exact .nothing

/-! ## Where orders and rows come from -/

/-- The origin of an order that is in memory after a call. -/
inductive OrderCame (c : Core) (op : Op) (c' : Core) (id : String) (o' : StarOrder) : Prop where
  | created {req : StarManager.NewOrder} (hop : op = .createOrder req) (hfresh : id ∉ c.drawn)
      (hdrawn : c'.drawn = id :: c.drawn) (hprofile : o'.profile = req.profile)
      (hnone : o'.currentCertificate = none)
  | kept {m : StarManager} {o : StarOrder} (hm : c.manager = some m) (ho : m.getOrder id = some o)
      (hprofile : o'.profile = o.profile)
      (hcancelled : o.status = .cancelled → o'.status = .cancelled)
      (hcert : o'.currentCertificate = o.currentCertificate ∨ ∃ cert,
        op = .storeRenewedCertificate id cert ∧ o'.currentCertificate = some cert)

/-- The origin of a row that is in the tables after a call. -/
inductive RowCame (c : Core) (op : Op) (id : String) (r' : OrderRow) : Prop where
  | admitted {o : StarOrder} {cert : StarCertificate} (hop : op = .commitAdmission o cert)
      (hid : o.id = id) (hprofile : r'.profile = o.profile)
  | kept {r : OrderRow} (hr : c.db.row id = some r) (hprofile : r'.profile = r.profile)
      (hcancelled : r.status = .cancelled → r'.status = .cancelled)

section

variable {c c' : Core} {m' : StarManager} {e : Env} {reply : Reply op}
  (h : c.step e op = some (reply, c'))

include h

theorem orderCame_of_step {o' : StarOrder} (hm' : c'.manager = some m')
    (ho' : m'.getOrder id = some o') : OrderCame c op c' id o' := by
  have hsame : c'.manager = c.manager → OrderCame c op c' id o' := fun hmanager =>
    .kept (hmanager.symm.trans hm') ho' rfl (fun hst => hst) (.inl rfl)
  cases step_changes h with
  | nothing | admittedRow | renewedRow | cancelledRow => exact hsame rfl
  | created hm hcreate hfresh =>
    cases hm'
    obtain ⟨rfl, rfl, -, -⟩ := StarManager.createOrder_eq_ok hcreate
    rw [StarManager.getOrder_insert] at ho'
    split at ho'
    · next hid =>
      cases ho'
      subst hid
      exact .created rfl hfresh rfl rfl rfl
    · exact .kept hm ho' rfl (fun hst => hst) (.inl rfl)
  | @stored m _ storedId cert hm hstore =>
    cases hm'
    rw [StarManager.getOrder_storeRenewedCertificate hstore, Option.map_eq_some_iff] at ho'
    obtain ⟨o, ho, rfl⟩ := ho'
    split
    · next hid =>
      subst hid
      refine .kept hm ho rfl (fun hst => ?_) (.inr ⟨cert, rfl, rfl⟩)
      -- the order has to be open
      obtain ⟨o₁, ho₁, hopen, -, -⟩ := StarManager.storeRenewedCertificate_eq_ok.mp hstore
      exact absurd (Option.some.inj (ho.symm.trans ho₁) ▸ hst) hopen
    · exact .kept hm ho rfl (fun hst => hst) (.inl rfl)
  | cancelled hm hcancel =>
    cases hm'
    rw [StarManager.getOrder_cancelOrder hcancel, Option.map_eq_some_iff] at ho'
    obtain ⟨o, ho, rfl⟩ := ho'
    split
    · exact .kept hm ho rfl (fun _ => rfl) (.inl rfl)
    · exact .kept hm ho rfl (fun hst => hst) (.inl rfl)
  | removed hm =>
    cases hm'
    rw [StarManager.getOrder_removeOrder] at ho'
    split at ho'
    · cases ho'
    · exact .kept hm ho' rfl (fun hst => hst) (.inl rfl)
  | marked hm =>
    cases hm'
    rw [StarManager.getOrder_markExpired, Option.map_eq_some_iff] at ho'
    obtain ⟨o, ho, rfl⟩ := ho'
    split
    · next hactive => exact .kept hm ho rfl (fun hst => absurd hst (by simp [hactive.2])) (.inl rfl)
    · exact .kept hm ho rfl (fun hst => hst) (.inl rfl)

theorem rowCame_of_step {r' : OrderRow} (hr' : c'.db.row id = some r') : RowCame c op id r' := by
  cases step_changes h with
  | admittedRow hcommit =>
    obtain ⟨-, r, rfl, hid, -, -, -, -, -, -, hprofile⟩ := Db.commitAdmission_eq_ok hcommit
    rw [Db.row_addCert, Db.row_put, hid] at hr'
    split at hr'
    · next heq =>
      cases hr'
      exact .admitted rfl heq.symm hprofile
    · exact .kept hr' rfl fun hst => hst
  | renewedRow hcommit =>
    obtain ⟨r, hr, -, hactive, rfl⟩ := Db.persistRenewal_eq_ok hcommit
    rw [Db.row_addCert, Db.row_put, OrderRow.renewedWith_id, Db.row_id hr] at hr'
    split at hr'
    · next heq =>
      cases hr'
      subst heq
      exact .kept hr rfl fun hst => absurd (hst.symm.trans hactive) (by simp)
    · exact .kept hr' rfl fun hst => hst
  | cancelledRow =>
    rw [Db.row_cancelRow, Option.map_eq_some_iff] at hr'
    obtain ⟨r, hr, rfl⟩ := hr'
    split
    · exact .kept hr rfl fun _ => rfl
    · exact .kept hr rfl fun hst => hst
  | _ => exact .kept hr' rfl fun hst => hst

theorem certsOf_step (id : String) :
    c'.db.certsOf id = c.db.certsOf id ∨ (∃ o cert, op = .commitAdmission o cert ∧ o.id = id) ∨
      ∃ r, c.db.row id = some r ∧ r.status = .active := by
  cases step_changes h with
  | @admittedRow o cert createdAt db hcommit =>
    obtain ⟨-, r, rfl, -⟩ := Db.commitAdmission_eq_ok hcommit
    by_cases hid : o.id = id
    · exact .inr (.inl ⟨o, cert, rfl, hid⟩)
    · left
      rw [Db.certsOf_addCert, if_neg hid, List.append_nil, Db.certsOf_put]
  | @renewedRow o cert dueAt db hcommit =>
    obtain ⟨r, hr, -, hactive, rfl⟩ := Db.persistRenewal_eq_ok hcommit
    by_cases hid : o.id = id
    · exact .inr (.inr ⟨r, hid ▸ hr, hactive⟩)
    · left
      rw [Db.certsOf_addCert, if_neg hid, List.append_nil, Db.certsOf_put]
  | cancelledRow =>
    left
    unfold Db.certsOf
    rw [Db.certs_cancelRow]
  | _ => exact .inl rfl

theorem drawn_subset_step (hid : id ∈ c.drawn) : id ∈ c'.drawn := by
  cases step_changes h with
  | created => exact List.mem_cons_of_mem _ hid
  | _ => exact hid

end

/-! ## Dead orders -/

/-- The order was cancelled: wherever it is still known, it is known as cancelled. -/
structure Dead (id : String) (c : Core) : Prop where
  drawn : id ∈ c.drawn
  order : ∀ m o, c.manager = some m → m.getOrder id = some o → o.status = .cancelled
  row : ∀ r, c.db.row id = some r → r.status = .cancelled

variable {now' : Int}

theorem dead_of_cancel (hdrawn : id ∈ c.drawn) (hcancel : m.cancelOrder id now' = .ok m') :
    Dead id { c with manager := some m', db := c.db.cancelRow id now } where
  drawn := hdrawn
  order := by
    rintro _ o' ⟨⟩ ho'
    rw [StarManager.getOrder_cancelOrder hcancel, Option.map_eq_some_iff] at ho'
    obtain ⟨o, -, rfl⟩ := ho'
    split
    · rfl
    · next hst => exact not_not.mp fun hne => hst ⟨rfl, hne⟩
  row := by
    intro r hr
    rw [Db.row_cancelRow, Option.map_eq_some_iff] at hr
    obtain ⟨r₀, -, rfl⟩ := hr
    rw [if_pos rfl]
    rfl

def Buried (c c' : Core) : Prop :=
  ∀ id, Dead id c → Dead id c' ∧ c'.db.certsOf id = c.db.certsOf id

theorem Buried.refl (c : Core) : Buried c c := fun _ h => ⟨h, rfl⟩

theorem Buried.trans {c c' c'' : Core} (h : Buried c c') (h' : Buried c' c'') : Buried c c'' := by
  intro id hid
  obtain ⟨hd, hcerts⟩ := h id hid
  obtain ⟨hd', hcerts'⟩ := h' id hd
  exact ⟨hd', hcerts'.trans hcerts⟩

theorem step_buried {r : Reply op} (h : c.step e op = some (r, c'))
    (hnew : ∀ o cert, op = .commitAdmission o cert → ¬Dead o.id c) : Buried c c' := by
  intro id hdead
  refine ⟨⟨drawn_subset_step h hdead.drawn, fun m o hm ho => ?_, fun r hr => ?_⟩, ?_⟩
  · cases orderCame_of_step h hm ho with
    | created hop hfresh => exact absurd hdead.drawn hfresh
    | kept hm₀ ho₀ hprofile hcancelled => exact hcancelled (hdead.order _ _ hm₀ ho₀)
  · cases rowCame_of_step h hr with
    | admitted hop hid => exact absurd (hid ▸ hdead) (hnew _ _ hop)
    | kept hr₀ hprofile hcancelled => exact hcancelled (hdead.row _ hr₀)
  · rcases certsOf_step h id with hcerts | ⟨o, cert, hop, rfl⟩ | ⟨r, hr, hactive⟩
    · exact hcerts
    · exact absurd hdead (hnew o cert hop)
    · rw [hdead.row r hr] at hactive
      cases hactive

/-! ## Drawn ids -/

structure Tracked (c : Core) : Prop where
  order : ∀ m id o, c.manager = some m → m.getOrder id = some o → id ∈ c.drawn
  row : ∀ id r, c.db.row id = some r → id ∈ c.drawn

theorem step_tracked (ht : Tracked c) {r : Reply op} (h : c.step e op = some (r, c'))
    (hnew : ∀ o cert, op = .commitAdmission o cert → o.id ∈ c.drawn) : Tracked c' := by
  constructor
  · intro m id o hm ho
    cases orderCame_of_step h hm ho with
    | created hop hfresh hdrawn =>
      rw [hdrawn]
      exact List.mem_cons_self
    | kept hm₀ ho₀ => exact drawn_subset_step h (ht.order _ id _ hm₀ ho₀)
  · intro id r' hr'
    cases rowCame_of_step h hr' with
    | admitted hop hid => exact drawn_subset_step h (hid ▸ hnew _ _ hop)
    | kept hr => exact drawn_subset_step h (ht.row id _ hr)

/-! ## Restarts -/

theorem foldl_reactivate_certs (ids : List String) (db : Db) :
    (ids.foldl Db.reactivate db).certs = db.certs := by
  induction ids generalizing db with
  | nil => rfl
  | cons i ids ih => rw [List.foldl_cons, ih, Db.certs_reactivate]

theorem foldl_reactivate_certsOf (ids : List String) (db : Db) (id : String) :
    (ids.foldl Db.reactivate db).certsOf id = db.certsOf id := by
  unfold Db.certsOf
  rw [foldl_reactivate_certs]

theorem foldl_reactivate_row {ids : List String}
    (hr : (ids.foldl Db.reactivate db).row id = some r) : ∃ r₀, db.row id = some r₀ ∧
      r.profile = r₀.profile ∧ (r₀.status = .cancelled → r.status = .cancelled) := by
  induction ids generalizing db with
  | nil => exact ⟨r, hr, rfl, fun hst => hst⟩
  | cons i ids ih =>
    obtain ⟨r₁, hr₁, hprofile, hstays⟩ := ih hr
    rw [Db.row_reactivate, Option.map_eq_some_iff] at hr₁
    obtain ⟨r₀, hr₀, rfl⟩ := hr₁
    refine ⟨r₀, hr₀, ?_, fun hst => hstays ?_⟩
    · rw [hprofile]
      split <;> rfl
    · rwa [if_neg (by simp [hst])]

variable {b : Boot K}

theorem boot_order (hm : (c.boot b).manager = some m) (ho : m.getOrder id = some o) :
    ∃ r, c.db.row id = some r ∧ (c.db.restoredOrder r).revived b.env = o := by
  obtain ⟨-, -, hnone | ⟨config, m', -, hm', hok⟩⟩ := c.boot_cases b
  · exact absurd (hnone.symm.trans hm) (by simp)
  · obtain rfl : m = m' := Option.some.inj (hm.symm.trans hm')
    rw [restore_ok hok, Option.filter_eq_some_iff, Option.map_eq_some_iff] at ho
    exact ho.1

theorem boot_tracked (h : Tracked c) (b : Boot K) : Tracked (c.boot b) := by
  obtain ⟨hdrawn, ⟨ids, hdb, -⟩, -⟩ := c.boot_cases b
  refine ⟨fun m id o hm ho => ?_, fun id r hr => ?_⟩
  · obtain ⟨r, hr, -⟩ := boot_order hm ho
    rw [hdrawn]
    exact h.row id r hr
  · rw [hdb] at hr
    obtain ⟨r₀, hr₀, -⟩ := foldl_reactivate_row hr
    rw [hdrawn]
    exact h.row id r₀ hr₀

theorem boot_buried (c : Core) (b : Boot K) : Buried c (c.boot b) := by
  intro id hdead
  obtain ⟨hdrawn, ⟨ids, hdb, -⟩, -⟩ := c.boot_cases b
  refine ⟨⟨hdrawn ▸ hdead.drawn, fun m o hm ho => ?_, fun r hr => ?_⟩, ?_⟩
  · obtain ⟨r, hr, rfl⟩ := boot_order hm ho
    have hst : (c.db.restoredOrder r).status = .cancelled := hdead.row r hr
    unfold StarOrder.revived StarOrder.wronglyCompleted
    simp [hst]
  · rw [hdb] at hr
    obtain ⟨r₀, hr₀, -, hstays⟩ := foldl_reactivate_row hr
    exact hstays (hdead.row r₀ hr₀)
  · rw [hdb]
    exact foldl_reactivate_certsOf ids c.db id

end Kipuka.Star
