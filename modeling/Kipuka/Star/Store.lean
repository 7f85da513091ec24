/-
  The tables `star_orders` and `star_certificates`, the three statements that change them, and
  `StarManager::restore`.
-/
import Kipuka.Star.Issue

namespace Kipuka.Star

open Generic

/-! ## Tables -/

structure OrderRow where
  id : String
  subjectDn : String
  keyType : String
  profile : String
  renewalIntervalSecs : Nat
  lifetimeEnd : Int
  maxRenewals : Nat
  currentRenewals : Nat
  status : StarOrderStatus
  requestorDn : Option String
  caId : String
  csrDer : List UInt8
  createdAt : Int
  cancelledAt : Option Int
  /-- Not a column: when `create_order` opened the order. -/
  openedAt : Int
  deriving DecidableEq, Repr

structure CertRow where
  cert : StarCertificate
  /-- Not a column: when the order was found due, `none` for its first certificate. -/
  dueAt : Option Int
  deriving DecidableEq, Repr

def newer (best : Option StarCertificate) (c : CertRow) : Option StarCertificate :=
  match best with
  | none => some c.cert
  | some b => if b.renewalNumber < c.cert.renewalNumber then some c.cert else some b

def latestOf (cs : List CertRow) : Option StarCertificate := cs.foldl newer none

variable {cs : List CertRow}

theorem latestOf_concat {c : CertRow}
    (h : ∀ b, latestOf cs = some b → b.renewalNumber < c.cert.renewalNumber) :
    latestOf (cs ++ [c]) = some c.cert := by
  unfold latestOf at h ⊢
  rw [List.foldl_append, List.foldl_cons, List.foldl_nil]
  cases hb : cs.foldl newer none with
  | none => rfl
  | some b => exact if_pos (h b hb)

theorem newer_cases (best : Option StarCertificate) (c : CertRow) :
    newer best c = some c.cert ∨ (newer best c = best ∧ best ≠ none) := by
  cases best with
  | none => exact .inl rfl
  | some b =>
    by_cases h : b.renewalNumber < c.cert.renewalNumber
    · exact .inl (if_pos h)
    · exact .inr ⟨if_neg h, by simp⟩

theorem mem_of_latestOf {b : StarCertificate} (h : latestOf cs = some b) :
    ∃ c ∈ cs, c.cert = b := by
  induction cs using List.reverseRecOn with
  | nil => simp [latestOf] at h
  | append_singleton cs c ih =>
    rw [latestOf, List.foldl_append, List.foldl_cons, List.foldl_nil] at h
    rcases newer_cases (cs.foldl newer none) c with hc | ⟨hc, -⟩
    · rw [hc] at h
      exact ⟨c, by simp, Option.some.inj h⟩
    · rw [hc] at h
      obtain ⟨c', hc', rfl⟩ := ih h
      exact ⟨c', by simp [hc'], rfl⟩

theorem latestOf_ne_none (h : cs ≠ []) : latestOf cs ≠ none := by
  induction cs using List.reverseRecOn with
  | nil => exact absurd rfl h
  | append_singleton cs c ih =>
    rw [latestOf, List.foldl_append, List.foldl_cons, List.foldl_nil]
    rcases newer_cases (cs.foldl newer none) c with hc | ⟨hc, hne⟩
    · rw [hc]
      simp
    · rw [hc]
      exact hne

def OrderRow.restored (r : OrderRow) (cs : List CertRow) : StarOrder where
  id := r.id
  subjectDn := r.subjectDn
  keyType := r.keyType
  profile := r.profile
  renewalInterval := r.renewalIntervalSecs
  lifetimeEnd := r.lifetimeEnd
  maxRenewals := r.maxRenewals
  currentRenewals := r.currentRenewals
  status := r.status
  requestorDn := r.requestorDn
  caId := r.caId
  csrDer := r.csrDer
  currentCertificate := (latestOf cs).map fun c => { c with starOrderId := r.id }
  createdAt := r.createdAt
  cancelledAt := r.cancelledAt

def OrderRow.renewedWith (r : OrderRow) (order : StarOrder) (cert : StarCertificate) : OrderRow :=
  { r with
    currentRenewals := cert.renewalNumber
    status := if cert.covers order.lifetimeEnd then .completed else .active }

def OrderRow.cancel (r : OrderRow) (now : Int) : OrderRow :=
  { r with status := .cancelled, cancelledAt := some now }

@[simp] theorem OrderRow.renewedWith_id (r : OrderRow) (order : StarOrder) (cert : StarCertificate) :
    (r.renewedWith order cert).id = r.id := rfl

@[simp] theorem OrderRow.cancel_id (r : OrderRow) (now : Int) : (r.cancel now).id = r.id := rfl

structure Db where
  orders : Table String OrderRow
  certs : List CertRow
  keyed : orders.All fun k row => row.id = k

variable {db : Db}

namespace Db

def empty : Db := ⟨∅, [], AList.all_empty _⟩

abbrev row (db : Db) (id : String) : Option OrderRow := db.orders.lookup id

def certsOf (db : Db) (id : String) : List CertRow :=
  db.certs.filter fun c => decide (c.cert.starOrderId = id)

def put (db : Db) (r : OrderRow) : Db where
  orders := db.orders.insert r.id r
  certs := db.certs
  keyed := db.keyed.insert rfl

def addCert (db : Db) (c : CertRow) : Db := { db with certs := db.certs ++ [c] }

variable {db' : Db}

theorem row_id {id : String} {r : OrderRow} (h : db.row id = some r) : r.id = id :=
  db.keyed id r h

theorem row_put (db : Db) (r : OrderRow) (id : String) :
    (db.put r).row id = if id = r.id then some r else db.row id :=
  AList.lookup_insert_eq ..

@[simp] theorem row_addCert (db : Db) (c : CertRow) (id : String) :
    (db.addCert c).row id = db.row id := rfl

@[simp] theorem certsOf_put (db : Db) (r : OrderRow) (id : String) :
    (db.put r).certsOf id = db.certsOf id := rfl

theorem certsOf_addCert (db : Db) (c : CertRow) (id : String) :
    (db.addCert c).certsOf id =
      db.certsOf id ++ if c.cert.starOrderId = id then [c] else [] := by
  simp [certsOf, addCert, List.filter_append, List.filter_cons]

/-! ### Statements -/

/-- The transaction of `post_star_order`: the order with its first certificate. `createdAt` is the
    database's own clock. -/
def commitAdmission (db : Db) (order : StarOrder) (cert : StarCertificate) (createdAt : Int) :
    Except String Db :=
  match db.row order.id with
  | some _ => .error "UNIQUE constraint failed: star_orders.id"
  | none =>
    .ok ((db.put {
      id := order.id
      subjectDn := order.subjectDn
      keyType := order.keyType
      profile := order.profile
      renewalIntervalSecs := order.renewalInterval
      lifetimeEnd := order.lifetimeEnd
      maxRenewals := order.maxRenewals
      currentRenewals := 1
      status := .active
      requestorDn := order.requestorDn
      caId := order.caId
      csrDer := order.csrDer
      createdAt := createdAt
      cancelledAt := none
      openedAt := order.createdAt }).addCert ⟨{ cert with starOrderId := order.id }, none⟩)

/-- The transaction of `persist_renewal`: a compare-and-set on the counter and the status. -/
def persistRenewal (db : Db) (order : StarOrder) (cert : StarCertificate) (dueAt : Int) :
    Except String Db :=
  match db.row order.id with
  | none => .error "no rows returned by a query that expected to return at least one row"
  | some r =>
    if r.currentRenewals = order.currentRenewals ∧ r.status = .active then
      .ok ((db.put (r.renewedWith order cert)).addCert ⟨{ cert with starOrderId := order.id }, some dueAt⟩)
    else .error "no rows returned by a query that expected to return at least one row"

/-- `UPDATE star_orders SET status = 'cancelled', cancelled_at = ? WHERE id = ?`. -/
def cancelRow (db : Db) (id : String) (now : Int) : Db :=
  match db.row id with
  | none => db
  | some r => db.put (r.cancel now)

/-- `UPDATE star_orders SET status = 'active' WHERE id = ? AND status = 'completed'`. -/
def reactivate (db : Db) (id : String) : Db :=
  match db.row id with
  | none => db
  | some r => if r.status = .completed then db.put { r with status := .active } else db

variable {order : StarOrder} {cert : StarCertificate}

theorem commitAdmission_eq_ok
    {createdAt : Int} (h : db.commitAdmission order cert createdAt = .ok db') :
    db.row order.id = none ∧ ∃ r : OrderRow,
      db' = (db.put r).addCert ⟨{ cert with starOrderId := order.id }, none⟩ ∧
      r.id = order.id ∧ r.renewalIntervalSecs = order.renewalInterval ∧
      r.lifetimeEnd = order.lifetimeEnd ∧ r.maxRenewals = order.maxRenewals ∧
      r.currentRenewals = 1 ∧ r.status = .active ∧ r.openedAt = order.createdAt ∧
      r.profile = order.profile := by
  unfold commitAdmission at h
  cases hrow : db.row order.id with
  | some r => simp [hrow] at h
  | none =>
    simp only [hrow, Except.ok.injEq] at h
    exact ⟨rfl, _, h.symm, rfl, rfl, rfl, rfl, rfl, rfl, rfl, rfl⟩

theorem persistRenewal_eq_ok {dueAt : Int} (h : db.persistRenewal order cert dueAt = .ok db') :
    ∃ r, db.row order.id = some r ∧ r.currentRenewals = order.currentRenewals ∧
      r.status = .active ∧ db' = (db.put (r.renewedWith order cert)).addCert
        ⟨{ cert with starOrderId := order.id }, some dueAt⟩ := by
  unfold persistRenewal at h
  cases hrow : db.row order.id with
  | none => simp [hrow] at h
  | some r =>
    by_cases hcas : r.currentRenewals = order.currentRenewals ∧ r.status = .active
    · simp only [hrow, if_pos hcas, Except.ok.injEq] at h
      exact ⟨r, rfl, hcas.1, hcas.2, h.symm⟩
    · simp [hrow, if_neg hcas] at h

/-- A row written over the one with its id. -/
theorem row_put_over {id : String} {r : OrderRow} (r' : OrderRow) (hrow : db.row id = some r)
    (hr : r'.id = r.id) (id' : String) :
    (db.put r').row id' = (db.row id').map fun x => if id' = id then r' else x := by
  rw [row_put, hr, row_id hrow]
  by_cases hid : id' = id
  · simp [hid, hrow]
  · simp [hid]

theorem row_cancelRow (db : Db) (id id' : String) (now : Int) :
    (db.cancelRow id now).row id' = (db.row id').map fun r =>
      if id' = id then r.cancel now else r := by
  unfold cancelRow
  cases hrow : db.row id with
  | none => by_cases hid : id' = id <;> simp [hid, hrow]
  | some r =>
    rw [row_put_over _ hrow (OrderRow.cancel_id ..)]
    by_cases hid : id' = id <;> simp [hid, hrow]

@[simp] theorem certs_cancelRow (db : Db) (id : String) (now : Int) :
    (db.cancelRow id now).certs = db.certs := by
  unfold cancelRow
  split <;> rfl

theorem row_reactivate (db : Db) (id id' : String) :
    (db.reactivate id).row id' = (db.row id').map fun r =>
      if id' = id ∧ r.status = .completed then { r with status := .active } else r := by
  unfold reactivate
  cases hrow : db.row id with
  | none => by_cases hid : id' = id <;> simp [hid, hrow]
  | some r =>
    by_cases hst : r.status = .completed
    · simp only [hst, if_true]
      rw [row_put_over { r with status := .active } hrow rfl]
      by_cases hid : id' = id <;> simp [hid, hrow, hst]
    · by_cases hid : id' = id <;> simp [hid, hrow, hst]

@[simp] theorem certs_reactivate (db : Db) (id : String) : (db.reactivate id).certs = db.certs := by
  unfold reactivate
  split
  · rfl
  · split <;> rfl

end Db

/-! ## Restore -/

/-- What the environment decides during `restore`: a failing read, a failing update of one order,
    the clock when the order is looked at, and the clock of the final cleanup. -/
structure RestoreEnv where
  readError : Option String
  updateError : String → Option String
  now : String → Nat
  cleanupNow : Nat

def Db.restoredOrder (db : Db) (r : OrderRow) : StarOrder := r.restored (db.certsOf r.id)

def StarOrder.wronglyCompleted (o : StarOrder) (now : Int) : Bool :=
  decide (o.status = .completed) && decide (now < o.lifetimeEnd) &&
    o.currentCertificate.all fun cert => !cert.covers o.lifetimeEnd

def StarOrder.revived (e : RestoreEnv) (o : StarOrder) : StarOrder :=
  if o.wronglyCompleted (e.now o.id) then { o with status := .active } else o

def restoreAll (e : RestoreEnv) : List StarOrder → Db → StarManager → Db × Except StarError StarManager
  | [], db, m => (db, .ok (m.cleanupExpired e.cleanupNow).2)
  | o :: os, db, m =>
    if o.wronglyCompleted (e.now o.id) then
      match e.updateError o.id with
      | some msg => (db, .error (.databaseError msg))
      | none => restoreAll e os (db.reactivate o.id) (m.insert { o with status := .active })
    else restoreAll e os db (m.insert o)

def Db.restored (db : Db) : List StarOrder := db.orders.entries.map fun r => db.restoredOrder r.2

def restore (e : RestoreEnv) (config : StarConfig) (db : Db) : Db × Except StarError StarManager :=
  match e.readError with
  | some msg => (db, .error (.databaseError msg))
  | none => restoreAll e db.restored db (StarManager.new config)

def load (e : RestoreEnv) (os : List StarOrder) (m : StarManager) : StarManager :=
  os.foldl (fun m o => m.insert (o.revived e)) m

@[simp] theorem StarOrder.revived_id (e : RestoreEnv) (o : StarOrder) : (o.revived e).id = o.id := by
  unfold revived
  split <;> rfl

variable {o : StarOrder}

theorem mem_restored : o ∈ db.restored ↔ ∃ r, db.row o.id = some r ∧ o = db.restoredOrder r := by
  unfold Db.restored
  rw [List.mem_map]
  constructor
  · rintro ⟨⟨k, r⟩, hr, rfl⟩
    have hrow : db.row k = some r := AList.mem_lookup_iff.mpr hr
    have hk : (db.restoredOrder r).id = k := Db.row_id hrow
    exact ⟨r, by rw [hk]; exact hrow, rfl⟩
  · rintro ⟨r, hrow, ho⟩
    exact ⟨⟨o.id, r⟩, AList.mem_lookup_iff.mp hrow, ho.symm⟩

theorem nodup_restored (db : Db) : (db.restored.map (·.id)).Nodup := by
  have hkeys : db.restored.map (·.id) = db.orders.keys := by
    unfold Db.restored
    rw [List.map_map]
    refine List.map_congr_left ?_
    rintro ⟨k, r⟩ hr
    exact Db.row_id (AList.mem_lookup_iff.mpr hr)
  rw [hkeys]
  exact db.orders.keys_nodup

variable {e : RestoreEnv} {m : StarManager} {os : List StarOrder} {id : String}

theorem getOrder_load_of_notMem (h : id ∉ os.map (·.id)) :
    (load e os m).getOrder id = m.getOrder id := by
  induction os generalizing m with
  | nil => rfl
  | cons o os ih =>
    simp only [List.map_cons, List.mem_cons, not_or] at h
    refine (ih h.2).trans ?_
    rw [StarManager.getOrder_insert, StarOrder.revived_id, if_neg h.1]

theorem getOrder_load_of_mem (hnodup : (os.map (·.id)).Nodup) (h : o ∈ os) :
    (load e os m).getOrder o.id = some (o.revived e) := by
  induction os generalizing m with
  | nil => cases h
  | cons o' os ih =>
    rw [List.map_cons, List.nodup_cons] at hnodup
    rcases List.mem_cons.mp h with rfl | h
    · refine (getOrder_load_of_notMem hnodup.1).trans ?_
      rw [StarManager.getOrder_insert, StarOrder.revived_id, if_pos rfl]
    · exact ih hnodup.2 h

theorem restoreAll_db (e : RestoreEnv) (os : List StarOrder) (db : Db) (m : StarManager) :
    ∃ ids : List String, (restoreAll e os db m).1 = ids.foldl Db.reactivate db ∧
      ∀ id ∈ ids, ∃ o ∈ os, o.id = id ∧ o.wronglyCompleted (e.now o.id) = true := by
  induction os generalizing db m with
  | nil => exact ⟨[], rfl, by simp⟩
  | cons o os ih =>
    unfold restoreAll
    split
    · next hwrong =>
      split
      · exact ⟨[], rfl, by simp⟩
      · obtain ⟨ids, hdb, hids⟩ := ih (db.reactivate o.id) (m.insert { o with status := .active })
        refine ⟨o.id :: ids, hdb, ?_⟩
        intro id hid
        rcases List.mem_cons.mp hid with rfl | hid
        · exact ⟨o, List.mem_cons_self, rfl, hwrong⟩
        · obtain ⟨o', ho', h⟩ := hids id hid
          exact ⟨o', List.mem_cons_of_mem _ ho', h⟩
    · obtain ⟨ids, hdb, hids⟩ := ih db (m.insert o)
      refine ⟨ids, hdb, ?_⟩
      intro id hid
      obtain ⟨o', ho', h⟩ := hids id hid
      exact ⟨o', List.mem_cons_of_mem _ ho', h⟩

theorem restoreAll_ok {m' : StarManager} (h : (restoreAll e os db m).2 = .ok m') :
    m' = ((load e os m).cleanupExpired e.cleanupNow).2 := by
  induction os generalizing db m with
  | nil => exact (Except.ok.inj h).symm
  | cons o os ih =>
    unfold restoreAll at h
    have hrevived : ∀ b, o.wronglyCompleted (e.now o.id) = b →
        o.revived e = if b then { o with status := .active } else o := by
      rintro _ rfl
      rfl
    split at h
    · next hwrong =>
      split at h
      · cases h
      · rw [ih h, load, load, List.foldl_cons, hrevived true hwrong, if_pos rfl]
    · next hright =>
      rw [ih h, load, load, List.foldl_cons, hrevived false (Bool.eq_false_iff.mpr hright),
        if_neg Bool.false_ne_true]

variable {config : StarConfig}

theorem restore_ok (h : (restore e config db).2 = .ok m) (id : String) :
    m.getOrder id = ((db.row id).map fun r => (db.restoredOrder r).revived e).filter
      fun o => decide ((e.cleanupNow : Int) < o.lifetimeEnd) := by
  unfold restore at h
  split at h
  · cases h
  · rw [restoreAll_ok h, StarManager.getOrder_cleanupExpired]
    congr 1
    cases hrow : db.row id with
    | none =>
      refine (getOrder_load_of_notMem ?_).trans (StarManager.getOrder_new config id)
      rw [List.mem_map]
      rintro ⟨o, ho, rfl⟩
      obtain ⟨r, hr, -⟩ := mem_restored.mp ho
      simp [hrow] at hr
    | some r =>
      have hid : (db.restoredOrder r).id = id := Db.row_id hrow
      have hmem : db.restoredOrder r ∈ db.restored := mem_restored.mpr ⟨r, by rw [hid]; exact hrow, rfl⟩
      have hload := getOrder_load_of_mem (e := e) (m := StarManager.new config) (nodup_restored db) hmem
      rw [hid] at hload
      exact hload

theorem restore_config (h : (restore e config db).2 = .ok m) : m.config = config := by
  have hload : ∀ (os : List StarOrder) (m : StarManager), (load e os m).config = m.config := by
    intro os
    induction os with
    | nil => exact fun _ => rfl
    | cons o os ih => exact fun m => ih _
  unfold restore at h
  split at h
  · cases h
  · rw [restoreAll_ok h]
    exact (StarManager.foldl_expire_config _ _).trans (hload _ _)

theorem restore_db (e : RestoreEnv) (config : StarConfig) (db : Db) :
    ∃ ids : List String, (restore e config db).1 = ids.foldl Db.reactivate db ∧
      ∀ id ∈ ids, ∃ r, db.row id = some r ∧
        (db.restoredOrder r).wronglyCompleted (e.now id) = true := by
  unfold restore
  split
  · exact ⟨[], rfl, by simp⟩
  · obtain ⟨ids, hdb, hids⟩ := restoreAll_db e db.restored db (StarManager.new config)
    refine ⟨ids, hdb, ?_⟩
    intro id hid
    obtain ⟨o, ho, rfl, hwrong⟩ := hids id hid
    obtain ⟨r, hr, rfl⟩ := mem_restored.mp ho
    exact ⟨r, hr, hwrong⟩

end Kipuka.Star
