/-
  Which operations of the manager change the status of an order that is completed, cancelled or
  expired.
-/
import Kipuka.Star.Store

namespace Kipuka.Star

open Generic

inductive ManagerOp where
  | store (id : String) (cert : StarCertificate)
  | cancel (id : String) (now : Int)
  | cleanup (now : Int)
  | restore (e : RestoreEnv) (db : Db)

namespace ManagerOp

/-- One operation. A refused one changes nothing, and after a failed restore there is no server. -/
def apply (m : StarManager) : ManagerOp → Option StarManager
  | store id cert => some ((m.storeRenewedCertificate id cert).toOption.getD m)
  | cancel id now => some ((m.cancelOrder id now).toOption.getD m)
  | cleanup now => some (m.cleanupExpired now).2
  | restore e db => (Star.restore e m.config db).2.toOption

/-- A cancellation of the order, unless it is cancelled, or a restore where the order's row has
    another status, or is completed before the end of its lifetime without a latest certificate that
    covers it. -/
def Disturbs (id : String) (status : StarOrderStatus) : ManagerOp → Prop
  | store _ _ => False
  | cancel id' _ => id' = id ∧ status ≠ .cancelled
  | cleanup _ => False
  | restore e db => ∃ r, db.row id = some r ∧ (r.status ≠ status ∨
      r.status = .completed ∧ (e.now id : Int) < r.lifetimeEnd ∧
        ∀ cert ∈ latestOf (db.certsOf id), cert.covers r.lifetimeEnd = false)

/-! ### One operation -/

variable {m m' : StarManager} {id : String} {o o' : StarOrder}

section

variable (ho : m.getOrder id = some o)

include ho

theorem store_keeps (hterminal : o.status ≠ .active) {id' : String} {cert : StarCertificate}
    (happly : (store id' cert).apply m = some m') (ho' : m'.getOrder id = some o') :
    o'.status = o.status := by
  obtain rfl := Option.some.inj happly
  cases hstore : m.storeRenewedCertificate id' cert with
  | error e =>
    rw [hstore] at ho'
    exact congrArg _ (Option.some.inj (ho'.symm.trans ho))
  | ok m₁ =>
    rw [hstore] at ho'
    have ho' : m₁.getOrder id = some o' := ho'
    rw [StarManager.getOrder_storeRenewedCertificate hstore, ho, Option.map_some] at ho'
    obtain rfl := Option.some.inj ho'
    by_cases hid : id = id'
    · -- only a completed order is still open to a certificate
      obtain ⟨o₁, ho₁, hcancelled, hexpired, -⟩ :=
        StarManager.storeRenewedCertificate_eq_ok.mp hstore
      obtain rfl : o = o₁ := Option.some.inj (ho.symm.trans (hid ▸ ho₁))
      have hcompleted : o.status = .completed := by
        cases hst : o.status <;> simp_all
      rw [if_pos hid, StarOrder.renewedWith_status, hcompleted, ite_self]
    · rw [if_neg hid]

theorem cancel_keeps_iff {id' : String} {now : Int} (happly : (cancel id' now).apply m = some m')
    (ho' : m'.getOrder id = some o') :
    o'.status = o.status ↔ ¬(cancel id' now).Disturbs id o.status := by
  obtain rfl := Option.some.inj happly
  cases hcancel : m.cancelOrder id' now with
  | error e =>
    rw [hcancel] at ho'
    obtain rfl := Option.some.inj (ho'.symm.trans ho)
    -- it fails only where there is no order
    have hid : id' ≠ id := by
      rintro rfl
      rw [StarManager.cancelOrder_eq_ok.mpr ⟨o', ho, rfl⟩] at hcancel
      cases hcancel
    simp [Disturbs, hid]
  | ok m₁ =>
    rw [hcancel] at ho'
    have ho' : m₁.getOrder id = some o' := ho'
    rw [StarManager.getOrder_cancelOrder hcancel, ho, Option.map_some] at ho'
    obtain rfl := Option.some.inj ho'
    by_cases hid : id' = id
    · by_cases hst : o.status = .cancelled
      · simp [Disturbs, hst]
      · simp [Disturbs, hst, hid, Ne.symm hst]
    · simp [Disturbs, hid, Ne.symm hid]

theorem cleanup_keeps {now : Int} (happly : (cleanup now).apply m = some m')
    (ho' : m'.getOrder id = some o') : o'.status = o.status := by
  obtain rfl := Option.some.inj happly
  rw [StarManager.getOrder_cleanupExpired, ho, Option.filter_eq_some_iff] at ho'
  exact congrArg _ (Option.some.inj ho'.1).symm

end

theorem wronglyCompleted_iff {db : Db} {r : OrderRow} (hr : db.row id = some r) (now : Int) :
    (db.restoredOrder r).wronglyCompleted now = true ↔ r.status = .completed ∧
      now < r.lifetimeEnd ∧ ∀ cert ∈ latestOf (db.certsOf id), cert.covers r.lifetimeEnd = false := by
  rw [Db.restoredOrder, Db.row_id hr, StarOrder.wronglyCompleted, Bool.and_eq_true,
    Bool.and_eq_true, decide_eq_true_iff, decide_eq_true_iff, and_assoc]
  refine and_congr_right fun _ => and_congr_right fun _ => ?_
  rw [OrderRow.restored]
  cases latestOf (db.certsOf id) with
  | none => simp
  | some cert => simp [StarCertificate.covers]

theorem restore_keeps_iff {e : RestoreEnv} {db : Db} {status : StarOrderStatus}
    (hterminal : status ≠ .active) (happly : (restore e db).apply m = some m')
    (ho' : m'.getOrder id = some o') :
    o'.status = status ↔ ¬(restore e db).Disturbs id status := by
  have hok : (Star.restore e m.config db).2 = .ok m' := by
    have happly : (Star.restore e m.config db).2.toOption = some m' := happly
    cases hres : (Star.restore e m.config db).2 with
    | error err =>
      rw [hres] at happly
      cases happly
    | ok m₁ =>
      rw [hres] at happly
      cases happly
      rfl
  rw [restore_ok hok, Option.filter_eq_some_iff, Option.map_eq_some_iff] at ho'
  obtain ⟨⟨r, hr, rfl⟩, -⟩ := ho'
  have hid : (db.restoredOrder r).id = id := Db.row_id hr
  have hwrong := wronglyCompleted_iff hr (e.now id)
  simp only [Disturbs, hr, Option.some.injEq, exists_eq_left', ← hwrong]
  rw [StarOrder.revived, hid]
  split
  · next h => simp [h, hterminal.symm]
  · next h =>
    rw [or_iff_left h, not_not]
    exact Iff.rfl

theorem status_kept_iff {op : ManagerOp} (ho : m.getOrder id = some o)
    (hterminal : o.status ≠ .active) (happly : op.apply m = some m')
    (ho' : m'.getOrder id = some o') : o'.status = o.status ↔ ¬op.Disturbs id o.status := by
  cases op with
  | store id' cert => exact iff_of_true (store_keeps ho hterminal happly ho') not_false
  | cancel id' now => exact cancel_keeps_iff ho happly ho'
  | cleanup now => exact iff_of_true (cleanup_keeps ho happly ho') not_false
  | restore e db => exact restore_keeps_iff hterminal happly ho'

end ManagerOp

/-! ### Sequences -/

/-- Along the operations the order under `id` has the status `status` until it is removed. -/
def Keeps (id : String) (status : StarOrderStatus) : StarManager → List ManagerOp → Prop
  | _, [] => True
  | m, op :: ops => ∀ m' o', op.apply m = some m' → m'.getOrder id = some o' →
      o'.status = status ∧ Keeps id status m' ops

/-- No operation of the run disturbs the order in this status. -/
def Undisturbed (id : String) (status : StarOrderStatus) : StarManager → List ManagerOp → Prop
  | _, [] => True
  | m, op :: ops => ∀ m' o', op.apply m = some m' → m'.getOrder id = some o' →
      ¬op.Disturbs id status ∧ Undisturbed id status m' ops

/-- A terminal status is kept until the order is removed exactly when no operation disturbs it. -/
theorem terminal_kept_iff {m : StarManager} {id : String} {o : StarOrder}
    (ho : m.getOrder id = some o) (hterminal : o.status ≠ .active) (ops : List ManagerOp) :
    Keeps id o.status m ops ↔ Undisturbed id o.status m ops := by
  induction ops generalizing m o with
  | nil => exact Iff.rfl
  | cons op ops ih =>
    refine forall_congr' fun m' => forall_congr' fun o' => forall_congr' fun happly =>
      forall_congr' fun ho' => ?_
    have hstep := ManagerOp.status_kept_iff ho hterminal happly ho'
    rw [← hstep]
    refine and_congr_right fun hst => ?_
    rw [← hst] at hterminal ⊢
    exact ih ho' hterminal

/-! ### A completed order that is cancelled -/

def coveredManager : StarManager :=
  (StarManager.new enabledConfig).insert
    ((weekly.build (1 / 2) 1767225600000000000 "o").renewedWith
      ⟨[], "01", 1767225600000000000, 1767225600000000000 + days 30, 1, "o"⟩)

/-- The order is completed, and a cancellation makes it cancelled. -/
theorem completed_order_is_cancelled :
    ∃ o o' m', coveredManager.getOrder "o" = some o ∧ o.status = .completed ∧
      (ManagerOp.cancel "o" 1767268800000000000).apply coveredManager = some m' ∧
      m'.getOrder "o" = some o' ∧ o'.status = .cancelled :=
  ⟨_, _, _, rfl, by decide +kernel, rfl, rfl, by decide +kernel⟩

/-- A second certificate and a cleanup leave the completed order completed. -/
theorem terminal_kept_renewal :
    Keeps "o" .completed coveredManager
      [.store "o" ⟨[], "02", 1767268800000000000, 1767355200000000000, 2, "o"⟩,
        .cleanup 1767268800000000000] := by
  have ho : coveredManager.getOrder "o" = some _ := rfl
  have hst : ((weekly.build (1 / 2) 1767225600000000000 "o").renewedWith
      ⟨[], "01", 1767225600000000000, 1767225600000000000 + days 30, 1, "o"⟩).status =
      .completed := by decide +kernel
  have hkept := terminal_kept_iff ho (by rw [hst]; decide)
    [.store "o" ⟨[], "02", 1767268800000000000, 1767355200000000000, 2, "o"⟩,
      .cleanup 1767268800000000000]
  rw [hst] at hkept
  refine hkept.mpr ?_
  intro m₁ o₁ _ _
  refine ⟨not_false, ?_⟩
  intro m₂ o₂ _ _
  exact ⟨not_false, trivial⟩

end Kipuka.Star
