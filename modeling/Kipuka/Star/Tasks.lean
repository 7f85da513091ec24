/-
  Rules for the tasks of the STAR service: what is left to show of a request or a cycle when the
  calls it makes on its way to an order keep an invariant.
-/
import Kipuka.Generic.History
import Kipuka.Star.Service

namespace Kipuka.Star

open Generic

/-! ## Kinds of calls -/

/-- What a request calls without the lock. -/
def Op.outside : Op → Prop
  | .star | .now | .getCa _ | .signingKey _ | .recordChecked .. | .getCurrentCertificate _ => True
  | _ => False

/-- What a cycle calls on its way from order to order. -/
def Op.upkeep : Op → Prop
  | .lock | .unlock | .now | .expiredIds _ | .markExpired _ | .removeOrder _ => True
  | .ordersNeedingRenewalAt _ => True
  | _ => False

variable {L : StarLib}

theorem only_expireAll (ids : List String) : Only Op.upkeep (expireAll ids) := by
  induction ids with
  | nil => trivial
  | cons id ids ih => exact only_bind (only_op trivial) fun _ => only_bind (only_op trivial) fun _ => ih

theorem only_getStarCertificate (orderId : String) :
    Only Op.outside (getStarCertificate L orderId).run := by
  refine only_try (only_op trivial) fun _ => only_ask (only_op trivial) fun found => ?_
  split
  · exact only_ofExcept fun _ _ => trivial
  all_goals trivial

/-! ## Rules -/

section

variable {E σ α : Type} {exec : E → (op : Op) → σ → Option (Reply op × σ)} {R G : σ → σ → Prop}
  {P : Op → Prop} {I : σ → Prop} {s : σ}

theorem safe_withLock {p : Prog Op Reply α} {Q : α → σ → Prop} (hI : Steady exec R G P I)
    (hQ : ∀ a, Steady exec R G P (Q a)) (hlock : P .lock) (hunlock : P .unlock)
    (hp : ∀ s, I s → Safe exec R G Q p s) (h : I s) : Safe exec R G Q (withLock p) s := by
  refine hI.bind (p := ask .lock) (only_op hlock) h fun _ s h => ?_
  refine safe_bind ((hp s h).mono fun a s ha => ?_)
  exact (hQ a).bind (p := ask .unlock) (only_op hunlock) ha fun _ _ ha => ha

variable {C : Except KipukaError Response → σ → Prop}

section

variable (hI : Steady exec R G Op.outside I) (herror : ∀ e s, I s → C (.error e) s)

include hI herror

theorem safe_postStarOrder {req : PostRequest}
    (hlocked : ∀ config csrDer ca (limitNow now : Nat) s, I s → Safe exec R G C
      (withLock (postLocked L req config csrDer (req.profile config ca limitNow now) ca)) s)
    (h : I s) : Safe exec R G C (postStarOrder L req).run s := by
  refine hI.attempt (only_op trivial) h (fun config s h => ?_) fun _ => herror _
  refine safe_ofExcept (fun csrDer _ => ?_) fun e _ => herror e s h
  refine hI.ask (only_op trivial) h fun found s h => ?_
  refine safe_ofExcept (fun ca _ => ?_) fun e _ => herror e s h
  refine hI.attempt (only_op trivial) h (fun _ s h => ?_) fun _ => herror _
  refine hI.ask (only_op trivial) h fun limitNow s h => ?_
  refine hI.ask (only_op trivial) h fun now s h => ?_
  refine hI.attempt (only_op trivial) h (fun _ s h => ?_) fun _ => herror _
  exact safe_ask ((hlocked config csrDer ca limitNow now s h).mono fun _ _ h => h)

theorem safe_deleteStarOrder {identity orderId : String}
    (hlocked : ∀ s, I s → Safe exec R G C (withLock (deleteLocked identity orderId).run) s)
    (h : I s) : Safe exec R G C (deleteStarOrder identity orderId).run s := by
  refine hI.attempt (only_op trivial) h (fun _ s h => ?_) fun _ => herror _
  exact safe_ask ((hlocked s h).mono fun _ _ h => h)

end

/-- The invariant of the loop may speak of the orders that are still to come. -/
theorem safe_renewAll {I : List String → σ → Prop} {dueAt : Nat}
    (hone : ∀ id ids s, I (id :: ids) s →
      Safe exec R G (fun _ s => I ids s) (renewOne L dueAt id).run s)
    (ids : List String) (h : I ids s) :
    Safe exec R G (fun _ s => I [] s) (renewAll L dueAt ids) s := by
  induction ids generalizing s with
  | nil => exact h
  | cons id ids ih =>
    refine safe_bind ((hone id ids s h).mono fun result s h => ?_)
    refine safe_bind ((ih h).mono fun counts s h => ?_)
    rcases result with (_ | _) | _ <;> exact h

theorem safe_renewalCycle (hI : Steady exec R G Op.upkeep I)
    (hone : ∀ dueAt id s, I s → Safe exec R G (fun _ s => I s) (renewOne L dueAt id).run s)
    (h : I s) : Safe exec R G (fun _ s => I s) (renewalCycle L) s := by
  refine safe_withLock hI (fun _ => hI) trivial trivial (fun s h => ?_) h
  refine hI.bind (p := ask .now) (only_op trivial) h fun now s h => ?_
  refine hI.bind (p := ask (.expiredIds now)) (only_op trivial) h fun expired s h => ?_
  refine hI.bind (only_expireAll expired) h fun _ s h => ?_
  refine hI.bind (p := ask .now) (only_op trivial) h fun dueAt s h => ?_
  refine hI.bind (p := ask (.ordersNeedingRenewalAt dueAt)) (only_op trivial) h fun ids s h => ?_
  have hall := safe_renewAll (I := fun _ => I) (fun id _ => hone dueAt id) ids h
  exact safe_bind (hall.mono fun _ _ h => h)

end

end Kipuka.Star
