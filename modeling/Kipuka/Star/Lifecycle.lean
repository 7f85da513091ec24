/-
  The life of one order.
-/
import Kipuka.Star.Store

namespace Kipuka.Star

open Generic

structure OrderView where
  order : Option StarOrder
  row : Option OrderRow
  certs : List CertRow

def OrderView.empty : OrderView := ⟨none, none, []⟩

/-- What holds of certificate number `number` of order `id`, whoever issued it. -/
structure Issued (cert : StarCertificate) (id : String) (number : Nat) : Prop where
  order : cert.starOrderId = id
  number : cert.renewalNumber = number
  nonneg : 0 ≤ cert.notBefore
  nonempty : cert.notBefore < cert.notAfter
  fourDigits : cert.notAfter ≤ seconds 253402300799

def StarOrder.cancel (o : StarOrder) (now : Int) : StarOrder :=
  if o.status = .cancelled then o else { o with status := .cancelled, cancelledAt := some now }

section

variable (K : StarConfig → Prop)

inductive OrderStep : OrderView → OrderView → Prop where
  | admitted {config : StarConfig} (hconfig : config.Accepted ∧ K config)
      {req : StarManager.NewOrder} (hinterval : config.minRenewalIntervalSecs ≤ req.renewalIntervalSecs)
      (hlifetime : 1 ≤ req.lifetimeDays) {now : Int} {id : String} {o : StarOrder}
      (ho : o = req.build config.preRenewalFactor now id) {cert : StarCertificate}
      (hcert : Issued cert id 1) {r : OrderRow} (hid : r.id = id)
      (hsecs : r.renewalIntervalSecs = o.renewalInterval) (hend : r.lifetimeEnd = o.lifetimeEnd)
      (hmax : r.maxRenewals = o.maxRenewals) (hcount : r.currentRenewals = 1)
      (hactive : r.status = .active) (hopened : r.openedAt = now) :
      OrderStep .empty ⟨some (o.renewedWith cert), some r, [⟨cert, none⟩]⟩
  | renewed {config : StarConfig} (hconfig : config.Accepted ∧ K config) {o : StarOrder}
      {r : OrderRow} {certs : List CertRow} {dueAt : Int}
      (hdue : o.needsRenewalAt config.preRenewalFactor dueAt = true) {cert : StarCertificate}
      (hcert : Issued cert o.id (o.currentRenewals + 1)) (hend : cert.notAfter ≤ o.lifetimeEnd)
      (hcount : r.currentRenewals = o.currentRenewals) (hactive : r.status = .active) :
      OrderStep ⟨some o, some r, certs⟩
        ⟨some (o.renewedWith cert), some (r.renewedWith o cert), certs ++ [⟨cert, some dueAt⟩]⟩
  | cancelled {o : StarOrder} {row : Option OrderRow} {certs : List CertRow} (now now' : Int) :
      OrderStep ⟨some o, row, certs⟩ ⟨some (o.cancel now'), row.map (·.cancel now), certs⟩
  | forgotten {order : Option StarOrder} {row : Option OrderRow} {certs : List CertRow} :
      OrderStep ⟨order, row, certs⟩ ⟨none, row, certs⟩
  | loaded {order : Option StarOrder} {r : OrderRow} {certs : List CertRow} :
      OrderStep ⟨order, some r, certs⟩ ⟨some (r.restored certs), some r, certs⟩

def Life : OrderView → Prop := Relation.ReflTransGen (OrderStep K) .empty

end

/-! ## What every life keeps -/

structure Mirrors (o : StarOrder) (r : OrderRow) (certs : List CertRow) : Prop where
  id : o.id = r.id
  renewals : o.currentRenewals = r.currentRenewals
  certificate : o.currentCertificate = latestOf certs
  lifetime : o.lifetimeEnd = r.lifetimeEnd
  interval : o.renewalInterval = r.renewalIntervalSecs
  status : o.status = r.status ∨
    (o.status = .completed ∧ r.status = .active ∧ r.currentRenewals = 1)

variable {r : OrderRow} {certs : List CertRow} {o : StarOrder}

theorem Mirrors.cancel (h : Mirrors o r certs) (now now' : Int) :
    Mirrors (o.cancel now') (r.cancel now) certs := by
  unfold StarOrder.cancel
  split
  · next hst => exact ⟨h.id, h.renewals, h.certificate, h.lifetime, h.interval, .inl hst⟩
  · exact ⟨h.id, h.renewals, h.certificate, h.lifetime, h.interval, .inl rfl⟩

/-- What holds of an order: its certificates are numbered from 1 and counted, and memory mirrors the
    row. -/
structure OrderView.Ok (v : OrderView) : Prop where
  orphan : v.row = none → v.order = none ∧ v.certs = []
  counted : ∀ r, v.row = some r → 1 ≤ r.currentRenewals ∧
    v.certs.map (·.cert.renewalNumber) = List.range' 1 r.currentRenewals
  owned : ∀ r, v.row = some r → ∀ c ∈ v.certs, c.cert.starOrderId = r.id
  completed : ∀ r, v.row = some r → r.status = .completed → 2 ≤ r.currentRenewals ∧
    ∃ cert, latestOf v.certs = some cert ∧ cert.covers r.lifetimeEnd = true
  unexpired : ∀ r, v.row = some r → r.status ≠ .expired
  mirrored : ∀ o r, v.order = some o → v.row = some r → Mirrors o r v.certs

theorem OrderView.empty_ok : OrderView.empty.Ok where
  orphan _ := ⟨rfl, rfl⟩
  counted r h := absurd h (by simp [empty])
  owned r h := absurd h (by simp [empty])
  completed r h := absurd h (by simp [empty])
  unexpired r h := absurd h (by simp [empty])
  mirrored o r _ h := absurd h (by simp [empty])

variable {v : OrderView}

section

variable (h : v.Ok) (hr : v.row = some r)

include h hr

theorem OrderView.Ok.latest_le {b : StarCertificate} (hb : latestOf v.certs = some b) :
    b.renewalNumber ≤ r.currentRenewals := by
  obtain ⟨c, hc, rfl⟩ := mem_of_latestOf hb
  have hmem : c.cert.renewalNumber ∈ v.certs.map (·.cert.renewalNumber) := List.mem_map_of_mem hc
  rw [(h.counted r hr).2, List.mem_range'_1] at hmem
  omega

theorem OrderView.Ok.latest_isSome : latestOf v.certs ≠ none := by
  refine latestOf_ne_none ?_
  intro hnil
  obtain ⟨hpos, hnum⟩ := h.counted r hr
  have hlen := congrArg List.length hnum
  rw [hnil, List.length_map, List.length_range', List.length_nil] at hlen
  omega

theorem OrderView.Ok.restored_mirrors : Mirrors (r.restored v.certs) r v.certs where
  id := rfl
  renewals := rfl
  certificate := by
    show (latestOf v.certs).map _ = latestOf v.certs
    cases hb : latestOf v.certs with
    | none => rfl
    | some b =>
      obtain ⟨c, hc, rfl⟩ := mem_of_latestOf hb
      rw [Option.map_some, ← h.owned r hr c hc]
  lifetime := rfl
  interval := rfl
  status := .inl rfl

end

section

variable {K : StarConfig → Prop}

section

variable {cert : StarCertificate} (h : (⟨some o, some r, certs⟩ : OrderView).Ok)
  (hcert : Issued cert o.id (o.currentRenewals + 1))
  (hcount : r.currentRenewals = o.currentRenewals)

include h hcert hcount

theorem OrderView.Ok.latestOf_renewed (dueAt : Option Int) :
    latestOf (certs ++ [⟨cert, dueAt⟩]) = some cert := by
  refine latestOf_concat ?_
  intro b hb
  have hle := h.latest_le rfl hb
  show b.renewalNumber < cert.renewalNumber
  rw [hcert.number]
  omega

theorem renewed_ok {dueAt : Int} (hstatus : o.status = .active) :
    (⟨some (o.renewedWith cert), some (r.renewedWith o cert),
      certs ++ [⟨cert, some dueAt⟩]⟩ : OrderView).Ok := by
  have hm := h.mirrored o r rfl rfl
  obtain ⟨hpos, hnum⟩ := h.counted r rfl
  have hlatest := h.latestOf_renewed hcert hcount (some dueAt)
  constructor
  · intro hrow
    cases hrow
  · rintro _ ⟨⟩
    refine ⟨by show 1 ≤ cert.renewalNumber; rw [hcert.number]; omega, ?_⟩
    show (certs ++ [_]).map _ = List.range' 1 cert.renewalNumber
    rw [List.map_append, hnum, hcert.number, ← hcount, List.range'_concat]
    simp only [List.map_cons, List.map_nil, Nat.one_mul, hcert.number, ← hcount, Nat.add_comm]
  · rintro _ ⟨⟩ c hc
    rcases List.mem_append.mp hc with hc | hc
    · exact h.owned r rfl c hc
    · rw [List.mem_singleton.mp hc]
      exact hcert.order.trans hm.id
  · rintro _ ⟨⟩ hcompleted
    refine ⟨by show 2 ≤ cert.renewalNumber; rw [hcert.number]; omega, cert, hlatest, ?_⟩
    have hcov : (if cert.covers o.lifetimeEnd then StarOrderStatus.completed else .active) =
      .completed := hcompleted
    show cert.covers r.lifetimeEnd = true
    rw [← hm.lifetime]
    by_contra hnot
    rw [if_neg hnot] at hcov
    cases hcov
  · rintro _ ⟨⟩
    show (if cert.covers o.lifetimeEnd then StarOrderStatus.completed else .active) ≠ .expired
    split <;> simp
  · rintro _ _ ⟨⟩ ⟨⟩
    exact ⟨hm.id, hcert.number.symm, hlatest.symm, hm.lifetime, hm.interval,
      .inl (by rw [StarOrder.renewedWith_status, hstatus]; rfl)⟩

end

theorem OrderStep.ok {v' : OrderView} (hstep : OrderStep K v v') (h : v.Ok) : v'.Ok := by
  cases hstep with
  | @admitted config hconfig req hinterval hlifetime now id o ho cert hcert r hid hsecs hend hmax
      hcount hactive hopened =>
    subst ho
    constructor
    · intro hrow
      cases hrow
    · rintro _ ⟨⟩
      rw [hcount]
      exact ⟨le_rfl, by simp [hcert.number]⟩
    · rintro _ ⟨⟩ c hc
      rw [List.mem_singleton.mp hc, hid]
      exact hcert.order
    · rintro _ ⟨⟩ hcompleted
      rw [hactive] at hcompleted
      cases hcompleted
    · rintro _ ⟨⟩
      rw [hactive]
      decide
    · rintro _ _ ⟨⟩ ⟨⟩
      refine ⟨hid.symm, hcount.symm, rfl, hend.symm, hsecs.symm, ?_⟩
      rw [StarOrder.renewedWith_status, hactive, hcount]
      split
      · exact .inr ⟨rfl, rfl, rfl⟩
      · exact .inl rfl
  | @renewed config hconfig o r certs dueAt hdue cert hcert hend hcount hactive =>
    have hstatus : o.status = .active := by
      simp only [StarOrder.needsRenewalAt, Bool.and_eq_true, decide_eq_true_eq] at hdue
      exact hdue.1.1
    exact renewed_ok h hcert hcount hstatus
  | @cancelled o row certs now now' =>
    cases row with
    | none => exact absurd (h.orphan rfl).1 (by simp)
    | some r =>
      constructor
      · intro hrow
        cases hrow
      · rintro _ ⟨⟩
        exact h.counted r rfl
      · rintro _ ⟨⟩
        exact h.owned r rfl
      · rintro _ ⟨⟩ hcompleted
        cases hcompleted
      · rintro _ ⟨⟩
        show StarOrderStatus.cancelled ≠ .expired
        decide
      · rintro _ _ ⟨⟩ ⟨⟩
        exact (h.mirrored o r rfl rfl).cancel now now'
  | @forgotten order row certs =>
    exact ⟨fun hrow => ⟨rfl, (h.orphan hrow).2⟩, h.counted, h.owned, h.completed, h.unexpired,
      fun o r ho => absurd ho (by simp)⟩
  | @loaded order r certs =>
    refine ⟨fun hrow => absurd hrow (by simp), h.counted, h.owned, h.completed, h.unexpired, ?_⟩
    rintro _ _ ⟨⟩ ⟨⟩
    exact h.restored_mirrors rfl

theorem Life.ok (h : Life K v) : v.Ok := by
  induction h with
  | refl => exact OrderView.empty_ok
  | tail _ hstep ih => exact hstep.ok ih

end

theorem OrderView.Ok.not_wronglyCompleted (h : v.Ok) (hr : v.row = some r) (now : Int) :
    (r.restored v.certs).wronglyCompleted now = false := by
  unfold StarOrder.wronglyCompleted
  by_cases hst : r.status = .completed
  · obtain ⟨-, cert, hlatest, hcovers⟩ := h.completed r hr hst
    have hcert := (h.restored_mirrors hr).certificate
    rw [hlatest] at hcert
    rw [hcert]
    show (_ && !cert.covers r.lifetimeEnd) = false
    rw [hcovers, Bool.not_true, Bool.and_false]
  · have hst' : (r.restored v.certs).status ≠ .completed := hst
    simp [hst']

end Kipuka.Star
