/-
  The renewal of an order: what it is issued under, and when the order is due again.
-/
import Kipuka.Ca.Limits
import Kipuka.Star.Order

namespace Kipuka.Ca

def IssuanceResult.starCertificate (r : IssuanceResult) (number : Nat) (id : String) :
    Star.StarCertificate :=
  ⟨r.certificateDer, r.serialNumber, r.notBefore, r.notAfter, number, id⟩

end Kipuka.Ca

namespace Kipuka.Star

open Generic
open Ca (CaValidity IssuanceResult IssueEnv ValidityProfile issueTimed issueTimed_eq_ok issued_within
  longCa notAfterFor_eq_ok profileNotAfter secondsNotAfter)

variable {ca : CaValidity} {e : IssueEnv} {r : IssuanceResult}

/-! ## A renewal -/

/-- The profile a renewal is issued under: the stored one with the order's own limits. -/
def renewalProfile (stored : ValidityProfile) (order : StarOrder) : ValidityProfile :=
  { stored with
    maxValiditySeconds := some order.renewalInterval
    maxNotAfter := some order.lifetimeEnd }

theorem renewal_notAfter {stored : ValidityProfile} {order : StarOrder}
    (h : issueTimed (renewalProfile stored order) ca e = .ok r) :
    r.notAfter = min (min (min (e.now + days stored.maxValidityDays)
      (e.now + seconds order.renewalInterval)) order.lifetimeEnd) ca.notAfter := by
  obtain ⟨hna, -⟩ := issueTimed_eq_ok h
  obtain ⟨u, hu, ht, -⟩ := notAfterFor_eq_ok hna
  simp only [profileNotAfter, secondsNotAfter, renewalProfile, except_bind_eq_ok, check_eq_ok,
    Except.ok.injEq] at hu
  obtain ⟨v, ⟨-, -, rfl⟩, rfl⟩ := hu
  exact ht

/-- A certificate ends at the first of four limits, one of them the order's end `l` and one the
    interval's end `b`, which lies beyond `d`. It covers the order or ends beyond `d` exactly when
    each of the other two limits does. -/
theorem covers_or_beyond_iff {a b c d l : Int} (hb : d < b) :
    timestamp l ≤ timestamp (min (min (min a b) l) c) ∨ d < min (min (min a b) l) c ↔
      (d < a ∨ timestamp l ≤ timestamp a) ∧ (d < c ∨ timestamp l ≤ timestamp c) := by
  simp only [timestamp_min, le_min_iff, lt_min_iff, le_refl, and_true]
  constructor
  · rintro (⟨⟨ha, -⟩, hc⟩ | ⟨⟨⟨ha, -⟩, -⟩, hc⟩)
    · exact ⟨.inr ha, .inr hc⟩
    · exact ⟨.inl ha, .inl hc⟩
  · rintro ⟨ha, hc⟩
    -- a limit inside the window that covers the order: the limits beyond it cover it too
    have hall : ∀ y, y ≤ d → timestamp l ≤ timestamp y →
        (timestamp l ≤ timestamp a ∧ timestamp l ≤ timestamp b) ∧ timestamp l ≤ timestamp c := by
      intro y hy hly
      have hbeyond : ∀ x, d < x → timestamp l ≤ timestamp x := fun x hx =>
        hly.trans (timestamp_mono (hy.trans hx.le))
      exact ⟨⟨ha.elim (hbeyond a) id, hbeyond b hb⟩, hc.elim (hbeyond c) id⟩
    rcases lt_or_ge d a with hda | hda
    · rcases lt_or_ge d c with hdc | hdc
      · rcases lt_or_ge d l with hdl | hdl
        · exact .inr ⟨⟨⟨hda, hb⟩, hdl⟩, hdc⟩
        · exact .inl (hall l hdl le_rfl)
      · exact .inl (hall c hdc (hc.resolve_left hdc.not_gt))
    · exact .inl (hall a hda (ha.resolve_left hda.not_gt))

/-- A renewed order is not due again at the time of the renewal exactly when each of the two limits
    that do not come from the order, the stored profile's days and the CA's expiry, lies beyond the
    pre-renewal window or covers the order's lifetime. -/
theorem not_due_after_renewal_iff {m m' : StarManager} (haccepted : m.config.Accepted)
    {id : String} {order : StarOrder} (horder : m.getOrder id = some order)
    (hactive : order.status = .active) (hinterval : 1 ≤ order.renewalInterval)
    {stored : ValidityProfile} {ca : CaValidity} {e : IssueEnv} {r : IssuanceResult}
    (hissue : issueTimed (renewalProfile stored order) ca e = .ok r)
    (hstore : m.storeRenewedCertificate id
      (r.starCertificate (order.currentRenewals + 1) id) = .ok m') :
    id ∉ m'.ordersNeedingRenewalAt e.now ↔
      ∀ limit ∈ [(e.now : Int) + days stored.maxValidityDays, ca.notAfter],
        e.now + seconds (preRenewalSecs order.renewalInterval m.config.preRenewalFactor) < limit ∨
          timestamp order.lifetimeEnd ≤ timestamp limit := by
  obtain ⟨o, ho, -, -, rfl⟩ := StarManager.storeRenewedCertificate_eq_ok.mp hstore
  obtain rfl : order = o := Option.some.inj (horder.symm.trans ho)
  obtain ⟨hbefore, hpos, -⟩ := issued_within hissue
  have hafter := renewal_notAfter hissue
  have hid : id = order.id := (StarManager.id_eq horder).symm
  -- the window is shorter than the interval
  have hwindow : preRenewalSecs order.renewalInterval m.config.preRenewalFactor <
      order.renewalInterval := by
    have hcad := cadence_le hinterval (lt_of_le_of_lt haccepted.factor_le (by norm_num))
    have hone : 1 ≤ cadence order.renewalInterval m.config.preRenewalFactor := le_max_left _ _
    omega
  have hb := seconds_lt hwindow
  have hdue : id ∈ (m.insert (order.renewedWith
      (r.starCertificate (order.currentRenewals + 1) id))).ordersNeedingRenewalAt e.now ↔
      timestamp r.notAfter < timestamp order.lifetimeEnd ∧ (e.now : Int) < order.lifetimeEnd ∧
        r.notAfter - seconds (preRenewalSecs order.renewalInterval m.config.preRenewalFactor) ≤
          e.now := by
    rw [StarManager.mem_ordersNeedingRenewalAt, StarManager.getOrder_insert,
      StarOrder.renewedWith_id, if_pos hid]
    simp only [Option.some.injEq, exists_eq_left', StarManager.insert_config]
    rw [StarOrder.needsRenewalAt_iff (order.renewedWith_currentCertificate _),
      StarOrder.renewedWith_active_iff hactive]
    rfl
  have hiff := covers_or_beyond_iff (a := e.now + days stored.maxValidityDays)
    (b := e.now + seconds order.renewalInterval) (c := ca.notAfter) (l := order.lifetimeEnd)
    (d := e.now + seconds (preRenewalSecs order.renewalInterval m.config.preRenewalFactor))
    (by omega)
  rw [← hafter] at hiff
  simp only [List.forall_mem_cons, List.not_mem_nil, false_imp_iff, implies_true, and_true]
  rw [← hiff, hdue]
  -- the certificate is not empty and ends no later than the order
  have hend : (e.now : Int) < order.lifetimeEnd := by
    have := min_le_right (min (e.now + days stored.maxValidityDays)
      (e.now + seconds order.renewalInterval)) order.lifetimeEnd
    have := min_le_left (min (min (e.now + days stored.maxValidityDays)
      (e.now + seconds order.renewalInterval)) order.lifetimeEnd) ca.notAfter
    omega
  clear hafter hiff hdue
  omega

/-! ### A label that allows one day -/

def enabledConfig : StarConfig := { StarConfig.default with enabled := true }

theorem enabledConfig_accepted : enabledConfig.Accepted :=
  enabledConfig.accepted_iff.mp (by decide +kernel)

def issuedAt (now : Nat) (serial : String) : IssueEnv :=
  ⟨now, now, now, none, none, none, serial, [], "CN=dev"⟩

def weekly : StarManager.NewOrder :=
  ⟨"CN=dev", "Rsa(2048)", "profile", 604800, 30, "ca", [], some "CN=dev"⟩

def labelProfile (maxValidityDays : Nat) : ValidityProfile :=
  ⟨"default", maxValidityDays, some 604800, some 1769817600000000000⟩

def weeklyManager (maxValidityDays : Nat) : StarManager :=
  (StarManager.new enabledConfig).insert
    ((weekly.build (1 / 2) 1767225600000000000 "o").renewedWith
      ⟨[], "01", 1767225600000000000, 1767225600000000000 + days maxValidityDays, 1, "o"⟩)

/-- Half a day later the order is renewed, and it is due again at that very time: the certificate
    lasts a day, the window three and a half. -/
theorem due_at_once_under_short_label :
    (weeklyManager 1).config.Accepted ∧
      ∃ order r m', (weeklyManager 1).getOrder "o" = some order ∧ order.status = .active ∧
        3600 ≤ order.renewalInterval ∧
        issueTimed (renewalProfile (labelProfile 1) order) longCa
          (issuedAt 1767268800000000000 "02") = .ok r ∧
        (weeklyManager 1).storeRenewedCertificate "o"
          (r.starCertificate (order.currentRenewals + 1) "o") = .ok m' ∧
        "o" ∈ m'.ordersNeedingRenewalAt 1767268800000000000 := by
  refine ⟨enabledConfig_accepted, _, ⟨[], "02", "CN=dev", 1767268800000000000, 1767355200000000000⟩,
    _, rfl, rfl, by decide, by decide +kernel, rfl, ?_⟩
  rw [StarManager.mem_ordersNeedingRenewalAt]
  exact ⟨_, rfl, by decide +kernel⟩

/-- With a label that allows a week, the order is not due again at once. -/
theorem not_due_after_renewal_week :
    ∃ order r m', (weeklyManager 7).getOrder "o" = some order ∧
      issueTimed (renewalProfile (labelProfile 7) order) longCa
        (issuedAt 1767571200000000000 "02") = .ok r ∧
      (weeklyManager 7).storeRenewedCertificate "o"
        (r.starCertificate (order.currentRenewals + 1) "o") = .ok m' ∧
      "o" ∉ m'.ordersNeedingRenewalAt 1767571200000000000 := by
  have hissue : issueTimed (renewalProfile (labelProfile 7) ((weekly.build (1 / 2)
      1767225600000000000 "o").renewedWith ⟨[], "01", 1767225600000000000,
        1767225600000000000 + days 7, 1, "o"⟩)) longCa (issuedAt 1767571200000000000 "02") =
      .ok ⟨[], "02", "CN=dev", 1767571200000000000, 1768176000000000000⟩ := by decide +kernel
  exact ⟨_, _, _, rfl, hissue, rfl, (not_due_after_renewal_iff (m := weeklyManager 7)
    enabledConfig_accepted rfl rfl (by decide) hissue rfl).mpr (by decide +kernel)⟩

end Kipuka.Star
