/-
  Restarts and cancellations, over whole lives: requests, cycles and restarts in any order. Proved
  is what of an order a restart shows, exactly, and that a cancelled order stays cancelled.
  Requests that are dropped while they hold the lock are left out of the first result.
-/
import Kipuka.Star.Refine

namespace Kipuka.Star

open Generic

variable {W : Type} [DecidableEq W] {K : StarConfig → Prop} (L : StarLib)

/-! ## Restarts -/

/-- Whenever the lock is free and no request was dropped in its section: a restart keeps the counter and
    the certificate of an order, and its status exactly if it is not completed by its first
    certificate. -/
theorem restart_seen_iff {xs : List (Event W Env Task (Boot K))}
    {c : Config W Op Task Result (World W) Reply} (h : Lives L xs c)
    (hdropped : c.shared.dropped = false) (hlock : c.shared.lock = none) {m : StarManager}
    (hm : c.shared.core.manager = some m) {id : String} {o : StarOrder} (ho : m.getOrder id = some o)
    {b : Boot K} {m' : StarManager} (hrestart : (c.shared.boot b).core.manager = some m')
    (hlive : (b.env.cleanupNow : Int) < o.lifetimeEnd) :
    ∃ o', m'.getOrder id = some o' ∧ o'.currentRenewals = o.currentRenewals ∧
      o'.currentCertificate = o.currentCertificate ∧
      (o'.status = o.status ↔ ¬(o.status = .completed ∧ o.currentRenewals = 1)) := by
  have hsound : Sound K c.shared.core := (lives_inv L h).shared.sound hdropped hlock
  have hok := (hsound.life id).ok
  obtain ⟨r, hr, hmirrors⟩ := hsound.mirrored hm ho
  have hrestored := hok.restored_mirrors hr
  rw [hmirrors.lifetime] at hlive
  refine ⟨_, hsound.boot_getOrder_live hrestart hr hlive, hmirrors.renewals.symm,
    hrestored.certificate.trans hmirrors.certificate.symm, ?_⟩
  show r.status = o.status ↔ _
  rcases hmirrors.status with hst | ⟨hst, hactive, hone⟩
  · -- a completed row has at least two certificates
    refine iff_of_true hst.symm ?_
    rintro ⟨hcompleted, hone⟩
    have htwo := (hok.completed r hr (hst ▸ hcompleted)).1
    rw [← hmirrors.renewals, hone] at htwo
    omega
  · refine iff_of_false (by rw [hst, hactive]; simp) ?_
    exact not_not.mpr ⟨hst, hmirrors.renewals.trans hone⟩

/-- An order for a day with certificates of a week is completed at once, and active an hour later when
    the server has restarted. -/
theorem completed_order_active_after_restart :
    ∃ c m o m' o', Lives (K := fun _ => True) plainLib (admission trivial "1") c ∧
      c.shared.dropped = false ∧ c.shared.lock = none ∧
      c.shared.core.manager = some m ∧ m.getOrder "o" = some o ∧
      (c.shared.boot (bootAt (K := fun _ => True) trivial 1767229200000000000)).core.manager = some m' ∧
      ((bootAt (K := fun _ => True) trivial 1767229200000000000).env.cleanupNow : Int) < o.lifetimeEnd ∧
      m'.getOrder "o" = some o' ∧ o.status = .completed ∧ o'.status = .active := by
  have hend : (ended (admission (K := fun _ => True) trivial "1")).map (fun c =>
        (c.shared.dropped, c.shared.lock,
        (c.shared.core.manager.bind (·.getOrder "o")).map fun o => (o.lifetimeEnd, o.status),
        ((c.shared.boot (bootAt (K := fun _ => True) trivial 1767229200000000000)).core.manager.bind
          (·.getOrder "o")).map (·.status))) =
      some (false, none, some (1767312000000000000, .completed), some .active) := by
    decide +kernel
  obtain ⟨c, hlives, hc⟩ := Option.map_eq_some_iff.mp hend
  simp only [Prod.mk.injEq, Option.map_eq_some_iff, Option.bind_eq_some_iff] at hc
  obtain ⟨hdropped, hlock, ⟨o, ⟨m, hm, ho⟩, hlife, hst⟩, o', ⟨m', hm', ho'⟩, hst'⟩ := hc
  exact ⟨c, m, o, m', o', hlives, hdropped, hlock, hm, ho, hm', by rw [hlife]; decide, ho', hst, hst'⟩

theorem restart_not_seen_after_renewal :
    ∃ c m o m' o', Lives (K := fun _ => True) plainLib (renewal trivial) c ∧
      c.shared.core.manager = some m ∧ m.getOrder "o" = some o ∧
      (c.shared.boot (bootAt (K := fun _ => True) trivial 1767571200000000001)).core.manager = some m' ∧
      m'.getOrder "o" = some o' ∧ o'.currentRenewals = o.currentRenewals ∧
      o'.currentCertificate = o.currentCertificate ∧ o'.status = o.status := by
  have hend : (ended (renewal (K := fun _ => True) trivial)).map (fun c =>
        (c.shared.dropped, c.shared.lock,
        (c.shared.core.manager.bind (·.getOrder "o")).map fun o => (o.lifetimeEnd, o.currentRenewals),
        (c.shared.boot (bootAt (K := fun _ => True) trivial 1767571200000000001)).core.manager.isSome)) =
      some (false, none, some (1769817600000000000, 2), true) := by
    decide +kernel
  obtain ⟨c, hlives, hc⟩ := Option.map_eq_some_iff.mp hend
  simp only [Prod.mk.injEq, Option.map_eq_some_iff, Option.bind_eq_some_iff,
    Option.isSome_iff_exists] at hc
  obtain ⟨hdropped, hlock, ⟨o, ⟨m, hm, ho⟩, hlife, hcount⟩, m', hm'⟩ := hc
  have hlater : ((bootAt (K := fun _ => True) trivial 1767571200000000001).env.cleanupNow : Int) <
      o.lifetimeEnd := by
    rw [hlife]
    decide
  obtain ⟨o', ho', hrenewals, hcertificate, hstatus⟩ :=
    restart_seen_iff plainLib hlives hdropped hlock hm ho hm' hlater
  exact ⟨c, m, o, m', o', hlives, hm, ho, hm', ho', hrenewals, hcertificate,
    hstatus.mpr fun hone => by omega⟩

/-! ## Cancellations -/

theorem Dead.not_served {c : Core} {id : String} (h : Dead id c) {m : StarManager}
    (hm : c.manager = some m) (now : Int) (cert : StarCertificate) :
    m.getCurrentCertificate id now ≠ .ok cert := by
  intro hserved
  obtain ⟨o, ho, hopen, -, -⟩ := StarManager.getCurrentCertificate_eq_ok hserved
  exact hopen (h.order m o hm ho)

def Result.status : Result → Option Nat
  | .http (.ok resp) => some resp.status
  | _ => none

def Refused (id : String) (t : Task) (r : Result) : Prop := t = .fetch id → r.status ≠ some 200

theorem ask_dead {w : W} {op : Op} (hq : op.quiet = true) {Q : Reply op → World W → Prop} {id : String}
    {s : World W} (h : Dead id s.core)
    (hQ : ∀ e r s', s.core.step e op = some (r, s.core) → Dead id s'.core → Q r s') :
    Safe (exec w) ((starPact W K L).Seen w) (fun _ _ => True) Q (ask op) s := by
  refine safe_op ?_
  intro e r s' he
  obtain ⟨rfl, hstep⟩ := exec_quiet hq he
  exact ⟨trivial, fun s'' hs => hQ e r s'' hstep (hs.2.buried id h).1⟩

theorem getStarCertificate_refused {w : W} {id : String} {s : World W} (h : Dead id s.core) :
    Safe (exec w) ((starPact W K L).Seen w) (fun _ _ => True)
      (fun r _ => Refused id (.fetch id) (.http r)) (getStarCertificate L id).run s := by
  refine safe_try (ask_dead L rfl h fun e r s _ h => ends_of (fun config _ => ?_) fun _ _ => ?_)
  · refine safe_bind (safe_lift (ask_dead L rfl h fun e found s' hfound _ => ?_))
    obtain ⟨m, hm, hfound⟩ := Option.bind_eq_some_iff.mp hfound
    cases hfound
    cases hserved : m.getCurrentCertificate id e.now with
    | ok cert => exact absurd hserved (h.not_served hm e.now cert)
    | error err => cases err <;> exact fun _ => by simp [Result.status]
  · exact fun _ => by simp [Result.status]

theorem dead_forces (w : W) (id : String) :
    (starPact W K L).Forces w (fun s => Dead id s.core) (Refused id) where
  stable h hb := (hb id h).1
  stable_rely h hr := (hr.buried id h).1
  others _ _ := rfl
  abandon _ := rfl
  safe t _ s h := by
    refine Safe.guarantee (G := fun _ _ => True) ?_ fun _ _ _ => rfl
    cases t with
    | fetch id' =>
      by_cases hid : id' = id
      · subst hid
        exact safe_bind (getStarCertificate_refused L h)
      · exact safe_of_forall (fun _ _ heq => absurd (Task.fetch.inj heq) hid) _ _
    | post | delete | cycle => exact safe_of_forall (fun _ _ heq => absurd heq (by simp)) _ _

/-- Once a cancellation of `id` has succeeded, in every life from there on: no certificate of the order
    is committed, its certificate is not served, and no request for it ends in a success if its
    thread was idle then. -/
theorem cancelled_for_good {xs : List (Event W Env Task (Boot K))}
    {c : Config W Op Task Result (World W) Reply} (h : Lives L xs c) {identity id : String}
    {f : Finished W Task Result} (hf : f ∈ c.done) (htask : f.task = .delete identity id)
    {resp : Response} (hresult : f.result = .http (.ok resp))
    {ys : List (Event W Env Task (Boot K))} {c' : Config W Op Task Result (World W) Reply}
    (hrest : (starSystem L W).live World.boot c ys = some c') :
    c'.shared.core.db.certsOf id = c.shared.core.db.certsOf id ∧
    (∀ m now cert, c'.shared.core.manager = some m → m.getCurrentCertificate id now ≠ .ok cert) ∧
    ∀ w, c.threads w = none → ∃ new, c'.done = c.done ++ new ∧
      ∀ g ∈ new, g.thread = w → g.task = .fetch id → g.result.status ≠ some 200 := by
  have hinv := lives_inv L h
  have hdead : Dead id c.shared.core := by
    have hsettled : Settled f.task f.result c.shared.core := hinv.done f hf
    rw [htask, hresult] at hsettled
    exact hsettled
  obtain ⟨hdead', hcerts⟩ := ((starPact W K L).live_inv hinv hrest).2 id hdead
  refine ⟨hcerts, fun m now cert hm => hdead'.not_served hm now cert, fun w hw => ?_⟩
  exact (starPact W K L).live_forced (dead_forces L w id) hinv hdead (by rw [hw]; trivial) hrest

def cancellation : List (Event Unit Env Task (Boot fun _ => True)) :=
  renewal trivial ++ solo (.delete "CN=dev" "o") (calm 1767657600000000000 "03") 9

def askedAgain : List (Event Unit Env Task (Boot fun _ => True)) :=
  .restart (bootAt trivial 1767744000000000000) :: solo (.fetch "o") (calm 1767744000000000000 "03") 3

theorem cancelled_for_good_after_restart :
    ∃ c c' g, Lives plainLib cancellation c ∧
      (starSystem plainLib Unit).live World.boot c askedAgain = some c' ∧
      (c.shared.core.db.certsOf "o").length = 2 ∧
      c'.shared.core.db.certsOf "o" = c.shared.core.db.certsOf "o" ∧
      g ∈ c'.done ∧ g.task = .fetch "o" ∧ g.result.status ≠ some 200 := by
  have hend : (ended cancellation).map (fun c =>
        (c.done.any fun f => f.task == .delete "CN=dev" "o" && f.result.status == some 204,
        c.done.any (·.task == .fetch "o"), (c.threads ()).isNone,
        (c.shared.core.db.certsOf "o").length,
        ((starSystem plainLib Unit).live World.boot c askedAgain).map
          (·.done.any (·.task == .fetch "o")))) =
      some (true, false, true, 2, some true) := by
    decide +kernel
  obtain ⟨c, hlives, hc⟩ := Option.map_eq_some_iff.mp hend
  simp only [Prod.mk.injEq, Option.map_eq_some_iff, List.any_eq_true, List.any_eq_false,
    Bool.and_eq_true, beq_iff_eq, Option.isNone_iff_eq_none] at hc
  obtain ⟨⟨f, hf, htask, hstatus⟩, hnone, hidle, hcerts, c', hrest, g, hg, hgtask⟩ := hc
  obtain ⟨resp, hresult⟩ : ∃ resp, f.result = .http (.ok resp) := by
    unfold Result.status at hstatus
    split at hstatus
    · next resp hresp => exact ⟨resp, hresp⟩
    · cases hstatus
  obtain ⟨hkept, -, hrefused⟩ := cancelled_for_good plainLib hlives hf htask hresult hrest
  obtain ⟨new, hdone, hnew⟩ := hrefused () hidle
  have hgnew : g ∈ new := by
    rw [hdone, List.mem_append] at hg
    exact hg.resolve_left fun hold => hnone g hold hgtask
  exact ⟨c, c', g, hlives, hrest, hcerts, hkept, hg, hgtask, hnew g hgnew rfl hgtask⟩

end Kipuka.Star
