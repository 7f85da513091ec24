/-
  STAR orders and the manager that keeps them (`src/config/star.rs`, `src/star/mod.rs`).
-/
import Kipuka.Generic.Calendar
import Kipuka.Generic.Outcome
import Kipuka.Generic.Runtime
import Mathlib.Data.Rat.Floor

namespace Kipuka.Star

open Generic

/-! ## Configuration -/

structure StarConfig where
  enabled : Bool
  minRenewalIntervalSecs : Nat
  maxRenewalIntervalSecs : Nat
  defaultRenewalIntervalSecs : Nat
  maxLifetimeDays : Nat
  maxActiveOrders : Nat
  preRenewalFactor : ℚ
  deriving DecidableEq

def StarConfig.default : StarConfig where
  enabled := false
  minRenewalIntervalSecs := 3600
  maxRenewalIntervalSecs := 604800
  defaultRenewalIntervalSecs := 86400
  maxLifetimeDays := 365
  maxActiveOrders := 10000
  preRenewalFactor := 1 / 2

inductive StarConfigError where
  | minTooSmall (got : Nat)
  | maxTooLarge (got : Nat)
  | minAboveMax (min max : Nat)
  | defaultOutside (default min max : Nat)
  | noLifetime
  | noOrders
  | factorOutside (got : ℚ)
  deriving DecidableEq

def StarConfigError.message (showFloat : ℚ → String) : StarConfigError → String
  | .minTooSmall got => s!"[star].min_renewal_interval_secs must be >= 3600 (1 hour), got {got}"
  | .maxTooLarge got => s!"[star].max_renewal_interval_secs must be <= 604800 (7 days), got {got}"
  | .minAboveMax min max =>
    s!"[star].min_renewal_interval_secs ({min}) must be <= max_renewal_interval_secs ({max})"
  | .defaultOutside default min max =>
    s!"[star].default_renewal_interval_secs ({default}) must be between " ++
      s!"min_renewal_interval_secs ({min}) and max_renewal_interval_secs ({max})"
  | .noLifetime => "[star].max_lifetime_days must be >= 1"
  | .noOrders => "[star].max_active_orders must be >= 1"
  | .factorOutside got =>
    "[star].pre_renewal_factor must be between 0.1 and 0.9, got " ++ showFloat got

def StarConfig.validate (c : StarConfig) : Except StarConfigError Unit :=
  if c.minRenewalIntervalSecs < 3600 then .error (.minTooSmall c.minRenewalIntervalSecs)
  else if c.maxRenewalIntervalSecs > 604800 then .error (.maxTooLarge c.maxRenewalIntervalSecs)
  else if c.minRenewalIntervalSecs > c.maxRenewalIntervalSecs then
    .error (.minAboveMax c.minRenewalIntervalSecs c.maxRenewalIntervalSecs)
  else if c.defaultRenewalIntervalSecs < c.minRenewalIntervalSecs ∨
      c.defaultRenewalIntervalSecs > c.maxRenewalIntervalSecs then
    .error (.defaultOutside c.defaultRenewalIntervalSecs c.minRenewalIntervalSecs
      c.maxRenewalIntervalSecs)
  else if c.maxLifetimeDays < 1 then .error .noLifetime
  else if c.maxActiveOrders < 1 then .error .noOrders
  else if ¬(1 / 10 ≤ c.preRenewalFactor ∧ c.preRenewalFactor ≤ 9 / 10) then
    .error (.factorOutside c.preRenewalFactor)
  else .ok ()

/-- The limits that `validate` checks. -/
structure StarConfig.Accepted (c : StarConfig) : Prop where
  min_le : 3600 ≤ c.minRenewalIntervalSecs
  le_max : c.maxRenewalIntervalSecs ≤ 604800
  min_le_max : c.minRenewalIntervalSecs ≤ c.maxRenewalIntervalSecs
  min_le_default : c.minRenewalIntervalSecs ≤ c.defaultRenewalIntervalSecs
  default_le_max : c.defaultRenewalIntervalSecs ≤ c.maxRenewalIntervalSecs
  lifetime : 1 ≤ c.maxLifetimeDays
  orders : 1 ≤ c.maxActiveOrders
  le_factor : 1 / 10 ≤ c.preRenewalFactor
  factor_le : c.preRenewalFactor ≤ 9 / 10

theorem StarConfig.accepted_iff (c : StarConfig) : c.validate = .ok () ↔ c.Accepted := by
  simp only [validate, check_eq_ok, not_not, and_true]
  constructor
  · rintro ⟨h1, h2, h3, h4, h5, h6, h7, h8⟩
    exact ⟨by omega, by omega, by omega, by omega, by omega, by omega, by omega, h7, h8⟩
  · rintro ⟨h1, h2, h3, h4, h5, h6, h7, h8, h9⟩
    exact ⟨by omega, by omega, by omega, by omega, by omega, by omega, h8, h9⟩

theorem StarConfig.default_accepted : StarConfig.default.Accepted :=
  ⟨by decide, by decide, by decide, by decide, by decide, by decide, by decide, by decide +kernel,
    by decide +kernel⟩

/-! ### The two rounded products -/

def preRenewalSecs (interval : Nat) (factor : ℚ) : Int := ⌊(interval : ℚ) * factor⌋

def cadence (interval : Nat) (factor : ℚ) : Nat :=
  max 1 ⌊(interval : ℚ) * (1 - factor)⌋.toNat

variable {interval : Nat} {factor : ℚ}

theorem cadence_le (hpos : 1 ≤ interval) (hlt : factor < 1) :
    (cadence interval factor : Int) ≤ interval - preRenewalSecs interval factor := by
  have hinterval : (0 : ℚ) < interval := Nat.cast_pos.mpr hpos
  have hsum : (interval : ℚ) * factor + interval * (1 - factor) = interval := by ring
  have hrest : 0 < (interval : ℚ) * (1 - factor) := mul_pos hinterval (by linarith)
  -- the window is shorter than the interval
  have hwindow : preRenewalSecs interval factor < interval := by
    refine Int.floor_lt.mpr ?_
    push_cast
    linarith
  have hfloors : preRenewalSecs interval factor + ⌊(interval : ℚ) * (1 - factor)⌋ ≤ interval := by
    have h := Int.le_floor_add ((interval : ℚ) * factor) (interval * (1 - factor))
    rw [hsum, Int.floor_natCast] at h
    exact h
  have hnonneg : 0 ≤ ⌊(interval : ℚ) * (1 - factor)⌋ := Int.floor_nonneg.mpr hrest.le
  unfold cadence
  omega

theorem le_cadence (hinterval : 3600 ≤ interval)
    (hfactor : factor ≤ 9 / 10) : 360 ≤ cadence interval factor := by
  have hfloor : (360 : Int) ≤ ⌊(interval : ℚ) * (1 - factor)⌋ := by
    refine Int.le_floor.mpr ?_
    have hcast : (3600 : ℚ) ≤ interval := by exact_mod_cast hinterval
    push_cast
    nlinarith
  unfold cadence
  omega

/-! ## Orders -/

inductive StarError where
  | orderNotFound (id : String)
  | orderCancelled (id : String)
  | orderExpired (id : String)
  | maxRenewalsReached (orderId : String) (max : Nat)
  | maxOrdersReached (limit : Nat)
  | invalidInterval (requested min max : Nat)
  | issuanceError (msg : String)
  | databaseError (msg : String)
  deriving DecidableEq, Repr

def StarError.message : StarError → String
  | .orderNotFound id => s!"STAR order not found: {id}"
  | .orderCancelled id => s!"STAR order cancelled: {id}"
  | .orderExpired id => s!"STAR order expired: {id}"
  | .maxRenewalsReached orderId max => s!"STAR order {orderId} reached maximum renewals ({max})"
  | .maxOrdersReached limit => s!"maximum active STAR orders reached ({limit})"
  | .invalidInterval requested min max =>
    s!"invalid renewal interval: {requested}s (allowed {min}s–{max}s)"
  | .issuanceError msg => s!"issuance error: {msg}"
  | .databaseError msg => s!"database error: {msg}"

structure StarCertificate where
  certificateDer : List UInt8
  serialNumber : String
  notBefore : Int
  notAfter : Int
  renewalNumber : Nat
  starOrderId : String
  deriving DecidableEq, Repr

inductive StarOrderStatus where
  | active | cancelled | completed | expired
  deriving DecidableEq, Repr

def StarOrderStatus.asStr : StarOrderStatus → String
  | .active => "active"
  | .cancelled => "cancelled"
  | .completed => "completed"
  | .expired => "expired"

structure StarOrder where
  id : String
  subjectDn : String
  keyType : String
  profile : String
  renewalInterval : Nat
  lifetimeEnd : Int
  maxRenewals : Nat
  currentRenewals : Nat
  status : StarOrderStatus
  requestorDn : Option String
  caId : String
  csrDer : List UInt8
  currentCertificate : Option StarCertificate
  createdAt : Int
  cancelledAt : Option Int
  deriving DecidableEq, Repr

def StarCertificate.covers (cert : StarCertificate) (lifetimeEnd : Int) : Bool :=
  decide (timestamp lifetimeEnd ≤ timestamp cert.notAfter)

def StarOrder.renewedWith (o : StarOrder) (cert : StarCertificate) : StarOrder :=
  { o with
    currentRenewals := o.currentRenewals + 1
    currentCertificate := some cert
    status := if cert.covers o.lifetimeEnd then .completed else o.status }

def StarOrder.needsRenewalAt (factor : ℚ) (now : Int) (o : StarOrder) : Bool :=
  decide (o.status = .active) && decide (now < o.lifetimeEnd) &&
    match o.currentCertificate with
    | none => true
    | some cert => decide (cert.notAfter - seconds (preRenewalSecs o.renewalInterval factor) ≤ now)

section

variable (o : StarOrder) (cert : StarCertificate)

@[simp] theorem StarOrder.renewedWith_id : (o.renewedWith cert).id = o.id := rfl

@[simp] theorem StarOrder.renewedWith_currentCertificate :
    (o.renewedWith cert).currentCertificate = some cert := rfl

theorem StarOrder.renewedWith_status :
    (o.renewedWith cert).status = if cert.covers o.lifetimeEnd then .completed else o.status := rfl

end

variable {o : StarOrder}

theorem StarOrder.renewedWith_active_iff (h : o.status = .active) (cert : StarCertificate) :
    (o.renewedWith cert).status = .active ↔
      timestamp cert.notAfter < timestamp o.lifetimeEnd := by
  rw [renewedWith_status, h, StarCertificate.covers]
  by_cases hc : timestamp o.lifetimeEnd ≤ timestamp cert.notAfter <;> simp [hc, not_le.mp, not_lt]

variable {cert : StarCertificate}

theorem StarOrder.needsRenewalAt_iff (h : o.currentCertificate = some cert) (factor : ℚ) (now : Int) :
    o.needsRenewalAt factor now = true ↔ o.status = .active ∧ now < o.lifetimeEnd ∧
      cert.notAfter - seconds (preRenewalSecs o.renewalInterval factor) ≤ now := by
  simp [needsRenewalAt, h, and_assoc]

def maxRenewalsFor (lifetimeSecs interval : Nat) (factor : ℚ) : Nat :=
  min ((lifetimeSecs + cadence interval factor - 1) / cadence interval factor + 1) 4294967295

/-! ## The manager -/

structure StarManager where
  orders : Table String StarOrder
  config : StarConfig
  keyed : orders.All fun k o => o.id = k

namespace StarManager

structure NewOrder where
  subjectDn : String
  keyType : String
  profile : String
  renewalIntervalSecs : Nat
  lifetimeDays : Nat
  caId : String
  csrDer : List UInt8
  requestorDn : Option String
  deriving DecidableEq, Repr

def new (config : StarConfig) : StarManager := ⟨∅, config, AList.all_empty _⟩

abbrev getOrder (m : StarManager) (id : String) : Option StarOrder := m.orders.lookup id

def insert (m : StarManager) (o : StarOrder) : StarManager where
  orders := m.orders.insert o.id o
  config := m.config
  keyed := m.keyed.insert rfl

def removeOrder (m : StarManager) (id : String) : StarManager where
  orders := m.orders.erase id
  config := m.config
  keyed := m.keyed.erase id

def activeOrderCount (m : StarManager) : Nat :=
  (m.orders.entries.filter fun e => decide (e.2.status = .active)).length

def NewOrder.build (req : NewOrder) (factor : ℚ) (now : Int) (id : String) : StarOrder where
  id := id
  subjectDn := req.subjectDn
  keyType := req.keyType
  profile := req.profile
  renewalInterval := req.renewalIntervalSecs
  lifetimeEnd := now + days req.lifetimeDays
  maxRenewals :=
    maxRenewalsFor (numSeconds (now + days req.lifetimeDays - now)).toNat req.renewalIntervalSecs
      factor
  currentRenewals := 0
  status := .active
  requestorDn := req.requestorDn
  caId := req.caId
  csrDer := req.csrDer
  currentCertificate := none
  createdAt := now
  cancelledAt := none

def createOrder (m : StarManager) (req : NewOrder) (now : Int) (id : String) :
    Except StarError (StarOrder × StarManager) :=
  if req.lifetimeDays = 0 ∨ req.lifetimeDays > m.config.maxLifetimeDays then
    .error (.issuanceError "STAR lifetime is outside configured bounds")
  else if req.renewalIntervalSecs < m.config.minRenewalIntervalSecs ∨
      req.renewalIntervalSecs > m.config.maxRenewalIntervalSecs then
    .error (.invalidInterval req.renewalIntervalSecs m.config.minRenewalIntervalSecs
      m.config.maxRenewalIntervalSecs)
  else if m.activeOrderCount ≥ m.config.maxActiveOrders then
    .error (.maxOrdersReached m.config.maxActiveOrders)
  else
    let order := req.build m.config.preRenewalFactor now id
    .ok (order, m.insert order)

def getCurrentCertificate (m : StarManager) (starId : String) (now : Int) :
    Except StarError StarCertificate :=
  match m.getOrder starId with
  | none => .error (.orderNotFound starId)
  | some order =>
    if order.lifetimeEnd ≤ now then .error (.orderExpired starId)
    else
      match order.status with
      | .cancelled => .error (.orderCancelled starId)
      | .expired => .error (.orderExpired starId)
      | .active | .completed => order.currentCertificate.elim (.error (.orderNotFound starId)) .ok

def storeRenewedCertificate (m : StarManager) (starId : String) (cert : StarCertificate) :
    Except StarError StarManager :=
  match m.getOrder starId with
  | none => .error (.orderNotFound starId)
  | some order =>
    if order.status = .cancelled then .error (.orderCancelled starId)
    else if order.status = .expired then .error (.orderExpired starId)
    else .ok (m.insert (order.renewedWith cert))

/-- `StarManager::cancel_order`: only a cancelled order is left as it is. -/
def cancelOrder (m : StarManager) (starId : String) (now : Int) : Except StarError StarManager :=
  match m.getOrder starId with
  | none => .error (.orderNotFound starId)
  | some order =>
    if order.status = .cancelled then .ok m
    else .ok (m.insert { order with status := .cancelled, cancelledAt := some now })

def expiredIds (m : StarManager) (now : Int) : List String :=
  (m.orders.entries.filter fun e => decide (e.2.lifetimeEnd ≤ now)).map (·.2.id)

def markExpired (m : StarManager) (id : String) : StarManager :=
  match m.getOrder id with
  | none => m
  | some order => if order.status = .active then m.insert { order with status := .expired } else m

def expire (m : StarManager) (id : String) : StarManager := (m.markExpired id).removeOrder id

def cleanupExpired (m : StarManager) (now : Int) : Nat × StarManager :=
  ((m.expiredIds now).length, (m.expiredIds now).foldl expire m)

def ordersNeedingRenewalAt (m : StarManager) (now : Int) : List String :=
  (m.orders.entries.filter fun e => e.2.needsRenewalAt m.config.preRenewalFactor now).map (·.2.id)

/-! ### What each operation does to the order under one id -/

variable {m : StarManager} {m' : StarManager}

@[ext] theorem ext (ho : m.orders = m'.orders) (hc : m.config = m'.config) : m = m' := by
  cases m
  cases m'
  cases ho
  cases hc
  rfl

variable {id : String}

theorem id_eq (h : m.getOrder id = some o) : o.id = id := m.keyed id o h

@[simp] theorem getOrder_new (config : StarConfig) (id : String) :
    (new config).getOrder id = none := AList.lookup_empty id

theorem getOrder_insert (m : StarManager) (o : StarOrder) (id : String) :
    (m.insert o).getOrder id = if id = o.id then some o else m.getOrder id :=
  AList.lookup_insert_eq ..

@[simp] theorem getOrder_insert_self (o : StarOrder) :
    (m.insert o).getOrder o.id = some o := AList.lookup_insert _

theorem getOrder_removeOrder (id id' : String) :
    (m.removeOrder id).getOrder id' = if id' = id then none else m.getOrder id' :=
  AList.lookup_erase_eq ..

@[simp] theorem insert_config (o : StarOrder) : (m.insert o).config = m.config := rfl

@[simp] theorem removeOrder_config (id : String) :
    (m.removeOrder id).config = m.config := rfl

theorem insert_insert {o' : StarOrder} (h : o'.id = o.id) :
    (m.insert o).insert o' = m.insert o' := by
  refine ext ?_ rfl
  show (m.orders.insert o.id o).insert o'.id o' = m.orders.insert o'.id o'
  rw [h, AList.insert_insert]

theorem removeOrder_insert (h : m.getOrder o.id = none) :
    (m.insert o).removeOrder o.id = m := by
  have hnot : o.id ∉ m.orders := AList.lookup_eq_none.mp h
  refine ext (AList.ext ?_) rfl
  show (m.orders.insert o.id o).entries.kerase o.id = m.orders.entries
  rw [AList.entries_insert_of_notMem hnot]
  exact List.kerase_cons_eq rfl

theorem getOrder_markExpired (id id' : String) :
    (m.markExpired id).getOrder id' = (m.getOrder id').map fun o =>
      if id' = id ∧ o.status = .active then { o with status := .expired } else o := by
  unfold markExpired
  by_cases hid : id' = id
  · subst hid
    cases ho : m.getOrder id' with
    | none => exact ho
    | some o =>
      by_cases hst : o.status = .active
      · simp [hst, getOrder_insert, id_eq ho]
      · simp [hst, ho]
  · split
    · simp [hid]
    · next o ho => split <;> simp [hid, getOrder_insert, id_eq ho]

theorem getOrder_expire (id id' : String) :
    (m.expire id).getOrder id' = if id' = id then none else m.getOrder id' := by
  unfold expire
  rw [getOrder_removeOrder]
  split
  · rfl
  · next h => simp [getOrder_markExpired, h]

theorem expire_eq_removeOrder (id : String) :
    m.expire id = m.removeOrder id := by
  unfold expire markExpired
  split
  · rfl
  · next o ho =>
    split
    · refine ext ?_ rfl
      show (m.orders.insert o.id _).erase id = m.orders.erase id
      rw [id_eq ho]
      refine AList.ext ?_
      show (m.orders.insert id _).entries.kerase id = m.orders.entries.kerase id
      rw [AList.entries_insert]
      exact List.kerase_cons_eq rfl
    · rfl

theorem mem_entries {e : Sigma fun _ : String => StarOrder} :
    e ∈ m.orders.entries ↔ m.getOrder e.1 = some e.2 :=
  AList.mem_lookup_iff.symm

theorem mem_ids_iff (p : StarOrder → Bool) :
    id ∈ (m.orders.entries.filter fun e => p e.2).map (·.2.id) ↔
      ∃ o, m.getOrder id = some o ∧ p o = true := by
  simp only [List.mem_map, List.mem_filter, mem_entries]
  constructor
  · rintro ⟨⟨k, o⟩, ⟨ho, hp⟩, rfl⟩
    exact ⟨o, by rw [id_eq ho]; exact ho, hp⟩
  · rintro ⟨o, ho, hp⟩
    exact ⟨⟨id, o⟩, ⟨ho, hp⟩, id_eq ho⟩

variable {now : Int}

theorem mem_expiredIds :
    id ∈ m.expiredIds now ↔ ∃ o, m.getOrder id = some o ∧ o.lifetimeEnd ≤ now := by
  refine (mem_ids_iff fun o => decide (o.lifetimeEnd ≤ now)).trans ?_
  simp only [decide_eq_true_eq]

theorem mem_ordersNeedingRenewalAt :
    id ∈ m.ordersNeedingRenewalAt now ↔
      ∃ o, m.getOrder id = some o ∧ o.needsRenewalAt m.config.preRenewalFactor now = true :=
  mem_ids_iff (StarOrder.needsRenewalAt m.config.preRenewalFactor now)

theorem nodup_ordersNeedingRenewalAt (m : StarManager) (now : Int) :
    (m.ordersNeedingRenewalAt now).Nodup := by
  have hkeys : m.ordersNeedingRenewalAt now =
      ((m.orders.entries.filter fun e =>
        e.2.needsRenewalAt m.config.preRenewalFactor now)).map (·.1) := by
    refine List.map_congr_left ?_
    rintro ⟨k, o⟩ he
    exact id_eq (mem_entries.mp (List.mem_filter.mp he).1)
  rw [hkeys]
  exact m.orders.keys_nodup.sublist (List.filter_sublist.map _)

theorem getOrder_foldl_expire (ids : List String) (m : StarManager) (id : String) :
    (ids.foldl expire m).getOrder id = if id ∈ ids then none else m.getOrder id := by
  induction ids generalizing m with
  | nil => simp
  | cons i ids ih =>
    rw [List.foldl_cons, ih, getOrder_expire]
    by_cases h : id = i <;> simp [h]

theorem getOrder_cleanupExpired (m : StarManager) (now : Int) (id : String) :
    (m.cleanupExpired now).2.getOrder id =
      (m.getOrder id).filter fun o => decide (now < o.lifetimeEnd) := by
  show ((m.expiredIds now).foldl expire m).getOrder id = _
  rw [getOrder_foldl_expire]
  cases ho : m.getOrder id with
  | none => simp
  | some o =>
    by_cases hend : o.lifetimeEnd ≤ now
    · rw [if_pos (mem_expiredIds.mpr ⟨o, ho, hend⟩)]
      exact (Option.filter_some_neg (by simpa using hend)).symm
    · rw [if_neg (by simpa [mem_expiredIds, ho] using hend)]
      exact (Option.filter_some_pos (by simpa using hend)).symm

theorem foldl_expire_config (ids : List String) (m : StarManager) :
    (ids.foldl expire m).config = m.config := by
  induction ids generalizing m with
  | nil => rfl
  | cons i ids ih => rw [List.foldl_cons, ih, expire_eq_removeOrder, removeOrder_config]

theorem createOrder_eq_ok {req : NewOrder} (h : m.createOrder req now id = .ok (o, m')) :
    o = req.build m.config.preRenewalFactor now id ∧ m' = m.insert o ∧
      1 ≤ req.lifetimeDays ∧ m.config.minRenewalIntervalSecs ≤ req.renewalIntervalSecs := by
  simp only [createOrder, check_eq_ok, Except.ok.injEq, Prod.mk.injEq] at h
  obtain ⟨hlife, hinterval, -, rfl, rfl⟩ := h
  exact ⟨rfl, rfl, by omega, by omega⟩

theorem storeRenewedCertificate_eq_ok : m.storeRenewedCertificate id cert = .ok m' ↔
      ∃ o, m.getOrder id = some o ∧ o.status ≠ .cancelled ∧ o.status ≠ .expired ∧
        m' = m.insert (o.renewedWith cert) := by
  unfold storeRenewedCertificate
  cases m.getOrder id with
  | none => simp
  | some o =>
    simp only [check_eq_ok, Except.ok.injEq, Option.some.injEq, exists_eq_left']
    rw [eq_comm (a := m')]

theorem cancelOrder_eq_ok : m.cancelOrder id now = .ok m' ↔ ∃ o, m.getOrder id = some o ∧
        m' = if o.status = .cancelled then m
          else m.insert { o with status := .cancelled, cancelledAt := some now } := by
  unfold cancelOrder
  cases m.getOrder id with
  | none => simp
  | some o =>
    simp only [Option.some.injEq, exists_eq_left']
    rw [← apply_ite Except.ok, Except.ok.injEq, eq_comm]

theorem getOrder_storeRenewedCertificate
    (h : m.storeRenewedCertificate id cert = .ok m') (id' : String) :
    m'.getOrder id' = (m.getOrder id').map fun o => if id' = id then o.renewedWith cert else o := by
  obtain ⟨o, ho, -, -, rfl⟩ := storeRenewedCertificate_eq_ok.mp h
  rw [getOrder_insert, StarOrder.renewedWith_id, id_eq ho]
  by_cases hid : id' = id
  · subst hid
    simp [ho]
  · simp [hid]

theorem getOrder_cancelOrder (h : m.cancelOrder id now = .ok m') (id' : String) :
    m'.getOrder id' = (m.getOrder id').map fun o =>
      if id' = id ∧ o.status ≠ .cancelled then
        { o with status := .cancelled, cancelledAt := some now }
      else o := by
  obtain ⟨o, ho, rfl⟩ := cancelOrder_eq_ok.mp h
  by_cases hst : o.status = .cancelled
  · rw [if_pos hst]
    by_cases hid : id' = id
    · subst hid
      simp [ho, hst]
    · simp [hid]
  · rw [if_neg hst, getOrder_insert]
    show (if id' = o.id then _ else _) = _
    rw [id_eq ho]
    by_cases hid : id' = id
    · subst hid
      simp [ho, hst, id_eq ho]
    · simp [hid]

theorem getCurrentCertificate_eq_ok (h : m.getCurrentCertificate id now = .ok cert) :
    ∃ o, m.getOrder id = some o ∧ o.status ≠ .cancelled ∧ o.status ≠ .expired ∧
      o.currentCertificate = some cert := by
  unfold getCurrentCertificate at h
  cases ho : m.getOrder id with
  | none => simp [ho] at h
  | some o =>
    simp only [ho, check_eq_ok] at h
    refine ⟨o, rfl, ?_⟩
    cases hst : o.status <;> cases hc : o.currentCertificate <;> simp_all

end StarManager

end Kipuka.Star
