/-
  How many certificates an order gets, over whole lives of the service with restarts: not more than
  `create_order` computed. Assumed is one pre-renewal factor for all starts, and that nothing but
  the interval and the lifetime limits the certificates of the order.
-/
import Kipuka.Star.Refine
import Mathlib.Data.List.Chain

namespace Kipuka.Star

open Generic

/-! ## Neighbouring certificates -/

/-- `b` was issued as the successor of `a`: `a` was due, and it did not cover the lifetime unless it is
    the first certificate. -/
structure Follows (factor : ℚ) (r : OrderRow) (a b : CertRow) : Prop where
  later : 1 < b.cert.renewalNumber
  due : ∃ t, b.dueAt = some t ∧
    a.cert.notAfter - seconds (preRenewalSecs r.renewalIntervalSecs factor) ≤ t
  uncovered : 1 < a.cert.renewalNumber → a.cert.covers r.lifetimeEnd = false

structure Paced (factor : ℚ) (v : OrderView) : Prop where
  latest : latestOf v.certs = v.certs.getLast?.map (·.cert)
  first : ∀ x ∈ v.certs.head?, x.dueAt = none
  issued : ∀ x ∈ v.certs, 0 ≤ x.cert.notBefore ∧ x.cert.notBefore < x.cert.notAfter ∧
    x.cert.notAfter ≤ seconds 253402300799
  opened : ∀ r, v.row = some r → 3600 ≤ r.renewalIntervalSecs ∧ factor ≤ 9 / 10 ∧
    ∃ n : Nat, 1 ≤ n ∧ r.lifetimeEnd = r.openedAt + days n ∧
      r.maxRenewals = maxRenewalsFor (n * 86400) r.renewalIntervalSecs factor
  uncovered : ∀ r, v.row = some r → r.status = .active → 2 ≤ r.currentRenewals →
    ∀ x ∈ v.certs.getLast?, x.cert.covers r.lifetimeEnd = false
  spaced : ∀ r, v.row = some r → v.certs.IsChain (Follows factor r)

theorem paced_empty (factor : ℚ) : Paced factor .empty where
  latest := rfl
  first x hx := absurd hx (by simp [OrderView.empty])
  issued x hx := absurd hx (by simp [OrderView.empty])
  opened r hr := absurd hr (by simp [OrderView.empty])
  uncovered r hr := absurd hr (by simp [OrderView.empty])
  spaced r hr := absurd hr (by simp [OrderView.empty])

section

variable {K : StarConfig → Prop} {factor : ℚ}
  (hK : ∀ config, K config → config.preRenewalFactor = factor)

include hK

theorem OrderStep.paced {v v' : OrderView} (hstep : OrderStep K v v') (hok : v.Ok)
    (h : Paced factor v) : Paced factor v' := by
  cases hstep with
  | @admitted config hconfig req hinterval hlifetime now id o ho cert hcert r hid hsecs hend hmax
      hcount hactive hopened =>
    subst ho
    constructor
    · rfl
    · rintro _ ⟨⟩
      rfl
    · intro x hx
      rw [List.mem_singleton.mp hx]
      exact ⟨hcert.nonneg, hcert.nonempty, hcert.fourDigits⟩
    · rintro _ ⟨⟩
      have hlen : req.renewalIntervalSecs = r.renewalIntervalSecs := hsecs.symm
      have hmin := hconfig.1.min_le
      refine ⟨by omega, hK config hconfig.2 ▸ hconfig.1.factor_le, req.lifetimeDays, hlifetime, ?_, ?_⟩
      · rw [hend, hopened]
        rfl
      · rw [hmax, hsecs, ← hK config hconfig.2]
        show maxRenewalsFor (numSeconds (now + days req.lifetimeDays - now)).toNat _ _ = _
        rw [add_sub_cancel_left, numSeconds_days]
        rfl
    · rintro _ ⟨⟩ _ htwo
      omega
    · exact fun _ _ => List.isChain_singleton _
  | @renewed config hconfig o r certs dueAt hdue cert hcert hend hcount hactive =>
    have hmirrors := hok.mirrored o r rfl rfl
    have hpos := (hok.counted r rfl).1
    have hlatest := hok.latestOf_renewed hcert hcount (some dueAt)
    -- the certificate that is renewed
    obtain ⟨a, ha⟩ : ∃ a, certs.getLast? = some a := by
      rw [← Option.ne_none_iff_exists']
      intro hnone
      have hsome := hok.latest_isSome rfl
      rw [h.latest, hnone] at hsome
      exact hsome rfl
    have hcurrent : o.currentCertificate = some a.cert := by
      rw [hmirrors.certificate, h.latest, ha, Option.map_some]
    constructor
    · rw [List.getLast?_concat]
      exact hlatest
    · intro x hx
      cases certs with
      | nil => cases ha
      | cons b l => exact h.first x hx
    · intro x hx
      rcases List.mem_append.mp hx with hx | hx
      · exact h.issued x hx
      · rw [List.mem_singleton.mp hx]
        exact ⟨hcert.nonneg, hcert.nonempty, hcert.fourDigits⟩
    · rintro _ ⟨⟩
      exact h.opened r rfl
    · rintro _ ⟨⟩ hst _ x hx
      rw [List.getLast?_concat] at hx
      cases hx
      have hst : (if cert.covers o.lifetimeEnd then StarOrderStatus.completed else .active) =
        .active := hst
      show cert.covers r.lifetimeEnd = false
      rw [← hmirrors.lifetime]
      by_contra hcovers
      rw [if_pos (Bool.not_eq_false _ ▸ hcovers)] at hst
      cases hst
    · rintro _ ⟨⟩
      refine List.isChain_append.mpr ⟨(h.spaced r rfl).imp fun _ _ hf => ⟨hf.later, hf.due, hf.uncovered⟩,
        List.isChain_singleton _, ?_⟩
      intro x hx y hy
      rw [ha] at hx
      cases hx
      cases hy
      refine ⟨?_, ⟨dueAt, rfl, ?_⟩, ?_⟩
      · show 1 < cert.renewalNumber
        rw [hcert.number]
        omega
      · have hdue := ((StarOrder.needsRenewalAt_iff hcurrent _ _).mp hdue).2.2
        rw [hK config hconfig.2, hmirrors.interval] at hdue
        exact hdue
      · intro htwo
        have hle : a.cert.renewalNumber ≤ r.currentRenewals :=
          hok.latest_le rfl (by rw [h.latest, ha, Option.map_some])
        exact h.uncovered r rfl hactive (by omega) a ha
  | @cancelled o row certs now now' =>
    cases row with
    | none => exact absurd (hok.orphan rfl).1 (by simp)
    | some r =>
      refine ⟨h.latest, h.first, h.issued, ?_, ?_, ?_⟩
      · rintro _ ⟨⟩
        exact h.opened r rfl
      · rintro _ ⟨⟩ hst
        cases hst
      · rintro _ ⟨⟩
        exact (h.spaced r rfl).imp fun _ _ hf => ⟨hf.later, hf.due, hf.uncovered⟩
  | forgotten | loaded =>
    exact ⟨h.latest, h.first, h.issued, h.opened, h.uncovered, h.spaced⟩

theorem Life.paced {v : OrderView} (h : Life K v) : Paced factor v := by
  induction h with
  | refl => exact paced_empty factor
  | tail hlife hstep ih => exact hstep.paced hK (Life.ok hlife) ih

end

/-! ## Counting -/

section

variable {factor : ℚ} {r : OrderRow}

/-- Neither the label nor the CA limits the certificate, and the clock did not run backwards before
    it was issued. -/
structure Unlimited (r : OrderRow) (x : CertRow) : Prop where
  ends : x.cert.notAfter = min (x.cert.notBefore + seconds r.renewalIntervalSecs) r.lifetimeEnd
  clock : ∀ t, x.dueAt = some t → t ≤ x.cert.notBefore

theorem covers_of_eq {cert : StarCertificate} (h : cert.notAfter = r.lifetimeEnd) :
    cert.covers r.lifetimeEnd = true := by
  rw [StarCertificate.covers, h]
  exact decide_eq_true le_rfl

theorem Unlimited.full {x : CertRow} (h : Unlimited r x) (hcovers : x.cert.covers r.lifetimeEnd = false) :
    x.cert.notAfter = x.cert.notBefore + seconds r.renewalIntervalSecs := by
  rcases min_choice (x.cert.notBefore + seconds r.renewalIntervalSecs) r.lifetimeEnd with hmin | hmin
  · rw [h.ends, hmin]
  · rw [covers_of_eq (h.ends.trans hmin)] at hcovers
    cases hcovers

theorem Follows.gap {a b : CertRow} (h : Follows factor r a b) (hb : Unlimited r b)
    (hpos : 1 ≤ r.renewalIntervalSecs) (hlt : factor < 1)
    (hfull : a.cert.notAfter = a.cert.notBefore + seconds r.renewalIntervalSecs) :
    a.cert.notBefore + seconds (cadence r.renewalIntervalSecs factor) ≤ b.cert.notBefore := by
  obtain ⟨t, ht, hdue⟩ := h.due
  have hclock := hb.clock t ht
  have hcadence := cadence_le hpos hlt
  unfold seconds at hfull hdue ⊢
  omega

variable {a : CertRow} {l : List CertRow} (hpos : 1 ≤ r.renewalIntervalSecs) (hlt : factor < 1)
  (hchain : (a :: l).IsChain (Follows factor r)) (hunlimited : ∀ x ∈ a :: l, Unlimited r x)

include hpos hlt hchain hunlimited

theorem spaced_lt {bound : Int} (hbound : ∀ x ∈ a :: l, x.cert.notBefore < bound)
    (hfull : l ≠ [] → a.cert.notAfter = a.cert.notBefore + seconds r.renewalIntervalSecs) :
    a.cert.notBefore + seconds (l.length * cadence r.renewalIntervalSecs factor : Nat) < bound := by
  induction l generalizing a with
  | nil =>
    have hlast := hbound a List.mem_cons_self
    simpa [seconds] using hlast
  | cons b l ih =>
    obtain ⟨hfollows, hrest⟩ := List.isChain_cons_cons.mp hchain
    have hgap := hfollows.gap (hunlimited b (by simp)) hpos hlt (hfull (by simp))
    have hnext := ih hrest (fun x hx => hunlimited x (List.mem_cons_of_mem _ hx))
      (fun x hx => hbound x (List.mem_cons_of_mem _ hx)) ?_
    · rw [List.length_cons, Nat.succ_mul]
      unfold seconds at hgap hnext ⊢
      omega
    · -- a certificate with a successor does not cover the lifetime
      intro hne
      cases l with
      | nil => exact absurd rfl hne
      | cons c l =>
        have huncovered := (List.isChain_cons_cons.mp hrest).1.uncovered hfollows.later
        exact (hunlimited b (by simp)).full huncovered

theorem length_le_one_of_covered (hend : a.cert.notAfter = r.lifetimeEnd) : l.length ≤ 1 := by
  rcases l with _ | ⟨b, _ | ⟨c, l⟩⟩
  · simp
  · simp
  · obtain ⟨hfollows, hrest⟩ := List.isChain_cons_cons.mp hchain
    have hb := hunlimited b (by simp)
    obtain ⟨t, ht, hdue⟩ := hfollows.due
    have hclock := hb.clock t ht
    have hcadence := cadence_le hpos hlt
    have hends : b.cert.notAfter = r.lifetimeEnd := by
      rw [hb.ends]
      unfold seconds at hdue ⊢
      omega
    have huncovered := (List.isChain_cons_cons.mp hrest).1.uncovered hfollows.later
    rw [covers_of_eq hends] at huncovered
    cases huncovered

end

theorem succ_le_maxRenewalsFor {lifetimeSecs interval gaps : Nat} {factor : ℚ}
    (h : gaps * cadence interval factor < lifetimeSecs + cadence interval factor)
    (hsmall : gaps < 4294967295) : gaps + 1 ≤ maxRenewalsFor lifetimeSecs interval factor := by
  have hcadence : 0 < cadence interval factor := lt_of_lt_of_le Nat.one_pos (le_max_left _ _)
  have hgaps : gaps ≤ (lifetimeSecs + cadence interval factor - 1) / cadence interval factor := by
    rw [Nat.le_div_iff_mul_le hcadence]
    omega
  unfold maxRenewalsFor
  omega

section

variable {W : Type} [DecidableEq W] {factor : ℚ} (L : StarLib)

/-- An order never gets more certificates than `create_order` computed, if its certificates are limited
    by the interval and the lifetime only and its first one begins when it was opened. -/
theorem renewals_bounded
    {xs : List (Event W Env Task (Boot fun config => config.preRenewalFactor = factor))}
    {c : Config W Op Task Result (World W) Reply} (h : Lives L xs c)
    (hdropped : c.shared.dropped = false) {id : String} {r : OrderRow}
    (hr : c.shared.core.db.row id = some r)
    (hunlimited : ∀ x ∈ c.shared.core.db.certsOf id, Unlimited r x)
    (hopened : ∀ x ∈ c.shared.core.db.certsOf id, x.dueAt = none → x.cert.notBefore = r.openedAt) :
    (c.shared.core.db.certsOf id).length ≤ r.maxRenewals ∧
      ∃ n, r.lifetimeEnd = r.openedAt + days n ∧
        r.maxRenewals = maxRenewalsFor (n * 86400) r.renewalIntervalSecs factor := by
  obtain ⟨c₀, hsound, hdb, -⟩ := (lives_inv L h).shared.fit.anchored hdropped
  rw [← hdb] at hr hunlimited hopened ⊢
  have hpaced := (hsound.life id).paced fun _ hK => hK
  obtain ⟨hinterval, hfactor, n, hn, hend, hmax⟩ := hpaced.opened r hr
  refine ⟨?_, n, hend, hmax⟩
  have hlt : factor < 1 := lt_of_le_of_lt hfactor (by norm_num)
  have hcadence := le_cadence hinterval hfactor
  have hchain := hpaced.spaced r hr
  have hissued := hpaced.issued
  have hfirst := hpaced.first
  change (c₀.db.certsOf id).IsChain _ at hchain
  change ∀ x ∈ c₀.db.certsOf id, _ at hissued
  change ∀ x ∈ (c₀.db.certsOf id).head?, _ at hfirst
  cases hcerts : c₀.db.certsOf id with
  | nil => simp
  | cons a l =>
    rw [hcerts] at hchain hissued hfirst hunlimited hopened
    have hstart : a.cert.notBefore = r.openedAt := hopened a List.mem_cons_self (hfirst a rfl)
    rw [hmax, List.length_cons]
    rcases min_choice (a.cert.notBefore + seconds r.renewalIntervalSecs) r.lifetimeEnd with hmin | hmin
    · have hfull := (hunlimited a List.mem_cons_self).ends.trans hmin
      have hspaced : ∀ bound, (∀ x ∈ a :: l, x.cert.notBefore < bound) → a.cert.notBefore +
          seconds (l.length * cadence r.renewalIntervalSecs factor : Nat) < bound :=
        fun _ hbound => spaced_lt (by omega) hlt hchain hunlimited hbound fun _ => hfull
      have hlife := hspaced r.lifetimeEnd fun x hx =>
        (hissued x hx).2.1.trans_le ((hunlimited x hx).ends ▸ min_le_right _ _)
      -- four-digit years keep the number of certificates far below the saturation
      have hyears := hspaced (seconds 253402300799) fun x hx =>
        (hissued x hx).2.1.trans_le (hissued x hx).2.2
      have hnonneg := (hissued a List.mem_cons_self).1
      have hgaps : l.length * 360 ≤ l.length * cadence r.renewalIntervalSecs factor :=
        Nat.mul_le_mul_left _ hcadence
      refine succ_le_maxRenewalsFor ?_ ?_
      · rw [hend, hstart] at hlife
        unfold days seconds at hlife
        omega
      · unfold seconds at hyears
        omega
    · have hone := length_le_one_of_covered (by omega) hlt hchain hunlimited
        ((hunlimited a List.mem_cons_self).ends.trans hmin)
      have hgaps : l.length * cadence r.renewalIntervalSecs factor ≤
          1 * cadence r.renewalIntervalSecs factor := Nat.mul_le_mul_right _ hone
      exact succ_le_maxRenewalsFor (by omega) (by omega)

/-- The order of `renewal` has two certificates, and could get ten. -/
theorem renewals_bounded_month :
    ∃ c r, Lives (K := fun config => config.preRenewalFactor = 1 / 2) plainLib (renewal rfl) c ∧
      c.shared.core.db.row "o" = some r ∧ (c.shared.core.db.certsOf "o").length = 2 ∧
      r.maxRenewals = 10 ∧ (c.shared.core.db.certsOf "o").length ≤ r.maxRenewals := by
  have hend : (ended (renewal (K := fun config => config.preRenewalFactor = 1 / 2) rfl)).map (fun c =>
        (c.shared.dropped, (c.shared.core.db.certsOf "o").length,
        (c.shared.core.db.row "o").map fun r => (r.maxRenewals,
          (c.shared.core.db.certsOf "o").all fun x => decide (x.cert.notAfter =
              min (x.cert.notBefore + seconds r.renewalIntervalSecs) r.lifetimeEnd) &&
            x.dueAt.all (fun t => decide (t ≤ x.cert.notBefore)) &&
            (x.dueAt.isSome || decide (x.cert.notBefore = r.openedAt))))) =
      some (false, 2, some (10, true)) := by
    decide +kernel
  obtain ⟨c, hlives, hc⟩ := Option.map_eq_some_iff.mp hend
  simp only [Prod.mk.injEq, Option.map_eq_some_iff, List.all_eq_true, Bool.and_eq_true,
    Bool.or_eq_true, decide_eq_true_eq, Option.all_eq_true] at hc
  obtain ⟨hdropped, htwo, r, hr, hmax, hall⟩ := hc
  have hunlimited : ∀ x ∈ c.shared.core.db.certsOf "o", Unlimited r x :=
    fun x hx => ⟨(hall x hx).1.1, (hall x hx).1.2⟩
  have hopened : ∀ x ∈ c.shared.core.db.certsOf "o", x.dueAt = none →
      x.cert.notBefore = r.openedAt := by
    intro x hx hnone
    rcases (hall x hx).2 with hsome | hstart
    · rw [hnone] at hsome
      cases hsome
    · exact hstart
  exact ⟨c, r, hlives, hr, htwo, hmax,
    (renewals_bounded plainLib hlives hdropped hr hunlimited hopened).1⟩

end

end Kipuka.Star
