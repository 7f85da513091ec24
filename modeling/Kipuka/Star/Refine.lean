/-
  STAR over whole lives of the server: any requests and renewal cycles on any number of threads,
  failing issuances and transactions, and restarts between any two operations.
-/
import Kipuka.Star.Section

namespace Kipuka.Star

open Generic

variable {W : Type}

/-! ## Invariant, rely and guarantee -/

section

variable (K : StarConfig → Prop)

structure Good (s : World W) : Prop where
  fit : Fit K s.dropped s.core
  sound : s.dropped = false → s.lock = none → Sound K s.core

/-- What the others do: nothing while `w` has the lock, and they do not give it to `w`. -/
structure Rely (w : W) (s s' : World W) : Prop where
  buried : Buried s.core s'.core
  held : s.lock = some w → s' = s
  free : s.lock ≠ some w → s'.lock ≠ some w

structure Guar (w : W) (s s' : World W) : Prop where
  good : Good K s'
  buried : Buried s.core s'.core
  held : ∀ v, v ≠ w → s.lock = some v → s' = s
  free : ∀ v, v ≠ w → s.lock ≠ some v → s'.lock ≠ some v

abbrev Runs {α : Type} (w : W) (Q : α → World W → Prop) (p : Prog Op Reply α) (s : World W) : Prop :=
  Safe (exec w) (fun s s' => Good K s' ∧ Rely w s s') (Guar K w) Q p s

/-- A worker outside the lock, in a good world. -/
structure Idle (w : W) (s : World W) : Prop where
  good : Good K s
  free : s.lock ≠ some w

end

variable {K : StarConfig → Prop} {w : W}

theorem Rely.refl (w : W) (s : World W) : Rely w s s := ⟨.refl _, fun _ => rfl, fun h => h⟩

variable {s : World W}

theorem Rely.trans {s' s'' : World W} (h : Rely w s s') (h' : Rely w s' s'') : Rely w s s'' where
  buried := h.buried.trans h'.buried
  held hw := by
    have heq := h.held hw
    rw [h'.held (heq ▸ hw), heq]
  free hw := h'.free (h.free hw)

variable {s' : World W}

theorem Guar.rely {v : W} (hne : v ≠ w) (h : Guar K v s s') : Rely w s s' :=
  ⟨h.buried, h.held w hne.symm, h.free w hne.symm⟩

theorem Idle.seen (h : Idle K w s) (hs : Good K s' ∧ Rely w s s') : Idle K w s' :=
  ⟨hs.1, hs.2.free h.free⟩

variable {op : Op}

theorem exec_core (hop : op.ofLock = false) (e : Env) (s : World W) :
    exec w e op s = (s.core.step e op).map fun r => (r.1, { s with core := r.2 }) := by
  cases op with
  | lock | unlock => exact absurd hop (by simp [Op.ofLock])
  | _ => rfl

variable {e : Env} {r : Reply op}

/-! ## Outside the lock -/

theorem exec_quiet (hq : op.quiet = true)
    (h : exec w e op s = some (r, s')) : s' = s ∧ s.core.step e op = some (r, s.core) := by
  rw [exec_core (Op.not_ofLock hq), Option.map_eq_some_iff] at h
  obtain ⟨⟨r, c'⟩, hstep, h⟩ := h
  cases step_quiet hq hstep
  cases h
  exact ⟨rfl, hstep⟩

theorem steady_idle : Steady (exec w) (fun s s' => Good K s' ∧ Rely w s s') (Guar K w)
    Op.outside (Idle K w) := by
  refine ⟨fun e op s r s' hop h he => ?_, fun _ _ h hs => h.seen hs⟩
  have hq : op.quiet = true := by
    cases op <;> trivial
  obtain ⟨rfl, -⟩ := exec_quiet hq he
  exact ⟨⟨h.good, .refl _, fun _ _ _ => rfl, fun _ _ hv => hv⟩, h⟩

/-! ## Inside the lock -/

variable {α : Type} {p : Prog Op Reply α} {Q : α → Section → Prop} {c : Core}

theorem runs_of_alone {d b : Bool} (hfit : Fit K d c) (h : Alone K d Q p ⟨c, b, true⟩) :
    Runs K w (fun a s => ∃ c' b', s = ⟨c', some w, d⟩ ∧ Fit K d c' ∧ Q a ⟨c', b', true⟩) p
      ⟨c, some w, d⟩ := by
  induction p generalizing c b with
  | ret a => exact ⟨c, b, rfl, hfit, h⟩
  | call op k ih =>
    intro e r s' he
    cases hop : op.ofLock with
    | true =>
      cases op with
      | lock => cases he
      | unlock => exact absurd (h e () ⟨c, b, false⟩ rfl).1.held (by simp)
      | _ => exact absurd hop (by simp [Op.ofLock])
    | false =>
      rw [exec_core hop, Option.map_eq_some_iff] at he
      obtain ⟨⟨r, c'⟩, hstep, he⟩ := he
      cases he
      have hsection : Section.exec e op ⟨c, b, true⟩ = some (r, ⟨c', b || rolledBack op r, true⟩) := by
        rw [exec_of_not_ofLock hop]
        exact Option.map_eq_some_iff.mpr ⟨(r, c'), hstep, rfl⟩
      obtain ⟨hkeeps, hk⟩ := h e r _ hsection
      refine ⟨⟨⟨hkeeps.fit, fun _ hlock => absurd hlock (by simp)⟩, hkeeps.buried, ?_, ?_⟩, ?_⟩
      · rintro v hv ⟨⟩
        exact absurd rfl hv
      · exact fun v _ hlock => hlock
      · intro s'' hs
        rw [hs.2.held rfl]
        exact ih r hkeeps.fit (hk _ rfl)

theorem withLock_runs {Q : α → Core → Prop} (hQ : ∀ {a c c'}, Q a c → Buried c c' → Q a c')
    (hp : ∀ {d c}, Fit K d c → (d = false → Sound K c) →
      Alone K d (fun a s => (d = false → Sound K s.core) ∧ Q a s.core) p ⟨c, false, true⟩)
    (h : Idle K w s) : Runs K w (fun a s => Idle K w s ∧ Q a s.core) (withLock p) s := by
  refine safe_bind (safe_op ?_)
  intro e r s' he
  obtain ⟨c, lock, d⟩ := s
  cases lock with
  | some v => cases he
  | none =>
    cases he
    have hfit := h.good.fit
    have hsound : d = false → Sound K c := fun hd => h.good.sound hd rfl
    refine ⟨⟨⟨hfit, fun _ hlock => absurd hlock (by simp)⟩, .refl c, fun _ _ hv => absurd hv (by simp),
      ?_⟩, ?_⟩
    · rintro v hv - ⟨⟩
      exact hv rfl
    · intro s'' hs
      rw [hs.2.held rfl]
      refine safe_bind ((runs_of_alone hfit (hp hfit hsound)).mono ?_)
      rintro a _ ⟨c', b', rfl, hfit', hsound', hQa⟩
      refine safe_bind (safe_op ?_)
      intro e r s' he
      cases he
      refine ⟨⟨⟨hfit', fun hd _ => hsound' hd⟩, .refl c', ?_, fun _ _ _ => by simp⟩, ?_⟩
      · rintro v hv ⟨⟩
        exact absurd rfl hv
      · intro s'' hs
        exact ⟨⟨hs.1, hs.2.free (by simp)⟩, hQ hQa hs.2.buried⟩

/-! ## Requests and cycles -/

/-- After a successful delete the order is dead. -/
def Settled : Task → Result → Core → Prop
  | .delete _ id, .http (.ok _), c => Dead id c
  | _, _, _ => True

variable {c' : Core}

theorem Settled.buried {t : Task} {r : Result} (h : Settled t r c) (hb : Buried c c') :
    Settled t r c' := by
  unfold Settled at h ⊢
  split at h
  · exact (hb _ h).1
  · trivial

section

variable (L : StarLib)

theorem postStarOrder_runs (req : PostRequest) (h : Idle K w s) :
    Runs K w (fun _ s => Idle K w s) (postStarOrder L req).run s := by
  refine safe_postStarOrder steady_idle (fun _ _ h => h) ?_ h
  intro config csrDer ca limitNow now s h
  refine (withLock_runs (Q := fun _ _ => True) (fun _ _ => trivial) ?_ h).mono fun _ _ hs => hs.1
  intro d c hfit hs
  exact (postLocked_alone L req config csrDer _ ca hfit hs).mono fun _ _ hl => ⟨hl.sound, trivial⟩

theorem getStarCertificate_runs (id : String) (h : Idle K w s) :
    Runs K w (fun _ s => Idle K w s) (getStarCertificate L id).run s :=
  steady_idle.only (only_getStarCertificate id) h

theorem deleteStarOrder_runs (identity id : String) (h : Idle K w s) :
    Runs K w (fun r s => Idle K w s ∧ ∀ resp, r = .ok resp → Dead id s.core)
      (deleteStarOrder identity id).run s := by
  refine safe_deleteStarOrder steady_idle (fun _ _ hs => ⟨hs, by simp⟩) (fun s h => ?_) h
  refine withLock_runs
    (Q := fun (r : Except KipukaError Response) c => ∀ resp, r = .ok resp → Dead id c) ?_ ?_ h
  · exact fun hdead hb resp hr => (hb id (hdead resp hr)).1
  · intro d c hfit hs
    exact (deleteLocked_alone identity id hfit hs).mono fun _ _ hl => ⟨hl.1.sound, hl.2⟩

theorem renewalCycle_runs (h : Idle K w s) :
    Runs K w (fun _ s => Idle K w s) (renewalCycle L) s := by
  refine (withLock_runs (Q := fun _ _ => True) (fun _ _ => trivial) ?_ h).mono fun _ _ hs => hs.1
  intro d c hfit hs
  exact (cycleLocked_alone L hfit hs).mono fun _ _ hl => ⟨hl.2.2, trivial⟩

theorem taskProg_runs (t : Task) (h : Idle K w s) :
    Runs K w (fun r s => s.lock ≠ some w ∧ Settled t r s.core) (taskProg L t) s := by
  cases t with
  | post req =>
    exact safe_bind ((postStarOrder_runs L req h).mono fun _ _ hs => ⟨hs.free, trivial⟩)
  | fetch id =>
    exact safe_bind ((getStarCertificate_runs L id h).mono fun _ _ hs => ⟨hs.free, trivial⟩)
  | delete identity id =>
    refine safe_bind ((deleteStarOrder_runs identity id h).mono ?_)
    rintro r s ⟨hs, hdead⟩
    cases r with
    | ok resp => exact ⟨hs.free, hdead resp rfl⟩
    | error err => exact ⟨hs.free, trivial⟩
  | cycle => exact safe_bind ((renewalCycle_runs L h).mono fun _ _ hs => ⟨hs.free, trivial⟩)

/-! ## Lives -/

theorem abandon_guar [DecidableEq W] (h : Good K s) :
    Guar K w s ((starSystem L W).abandon w s) ∧ ((starSystem L W).abandon w s).lock ≠ some w := by
  show Guar K w s (ite _ _ _) ∧ (ite _ _ _ : World W).lock ≠ some w
  split
  · next hlock =>
    refine ⟨⟨⟨⟨h.fit.tracked, fun hd => absurd hd (by simp)⟩, fun hd => absurd hd (by simp)⟩, .refl _,
      ?_, fun _ _ _ => by simp⟩, by simp⟩
    intro v hv hlock'
    exact absurd (Option.some.inj (hlock'.symm.trans hlock)) hv
  · next hlock => exact ⟨⟨h, .refl _, fun _ _ _ => rfl, fun _ _ hv => hv⟩, hlock⟩

theorem Core.boot_congr (b : Boot K) (hdb : c'.db = c.db) (hdrawn : c'.drawn = c.drawn) :
    c'.boot b = c.boot b := by
  obtain ⟨config, manager, db, drawn⟩ := c
  obtain ⟨config', manager', db', drawn'⟩ := c'
  cases hdb
  cases hdrawn
  rfl

theorem boot_good (h : Good K s) (b : Boot K) : Good K (s.boot b) := by
  have hsound : s.dropped = false → Sound K (s.core.boot b) := by
    intro hd
    obtain ⟨c, hc, hdb, hdrawn⟩ := h.fit.anchored hd
    rw [← Core.boot_congr b hdb hdrawn]
    exact hc.boot b
  exact ⟨⟨boot_tracked h.fit.tracked b, fun hd => (hsound hd).anchored⟩, fun hd _ => hsound hd⟩

variable (K W) in
def starPact [DecidableEq W] : Pact (starSystem L W) (World.boot (K := K)) where
  inv := Good K
  rely := Rely
  guar := Guar K
  idle w s := s.lock ≠ some w
  post _ t r s := Settled t r s.core
  evolve s s' := Buried s.core s'.core
  rely_refl := Rely.refl
  rely_trans _ := Rely.trans
  guar_rely := Guar.rely
  idle_stable h hr := hr.free h
  post_stable h hb := h.buried hb
  evolve_refl _ := .refl _
  evolve_trans := .trans
  guar_evolve h := h.buried
  guar_inv h := h.good
  abandon _ _ h := abandon_guar L h
  boots b s h := ⟨boot_good h b, boot_buried s.core b, fun _ => by simp [World.boot]⟩
  safe _ t _ hinv hidle := taskProg_runs L t ⟨hinv, hidle⟩

theorem good_initial : Good K (World.initial W) where
  fit := ⟨⟨fun _ _ _ hm => absurd hm (by simp [World.initial, Core.initial]),
    fun id _ hr => absurd ((AList.lookup_empty id).symm.trans hr) (by simp)⟩,
    fun _ => sound_initial.anchored⟩
  sound _ _ := sound_initial

variable [DecidableEq W]

/-- The events, restarts among them, lead from an empty world to this configuration. -/
abbrev Lives (xs : List (Event W Env Task (Boot K))) (c : Config W Op Task Result (World W) Reply) :
    Prop :=
  (starSystem L W).live World.boot (Config.initial (World.initial W)) xs = some c

theorem lives_inv {xs : List (Event W Env Task (Boot K))} {c : Config W Op Task Result (World W) Reply}
    (h : Lives L xs c) : (starPact W K L).Inv c := by
  have hinitial : (starPact W K L).Inv (Config.initial (World.initial W)) :=
    (starPact W K L).inv_initial good_initial fun _ => by simp [starPact, World.initial]
  exact ((starPact W K L).live_inv hinitial h).1

/-- Run alone from `c`, `p` leaves the manager and the tables as they were if one of its
    transactions fails. -/
def FailsCleanly {α : Type} (p : Prog Op Reply α) (c : Core) : Prop :=
  Safe Section.exec Eq (fun _ _ => True)
    (fun _ s => s.failed = true → s.core.manager = c.manager ∧ s.core.db = c.db) p ⟨c, false, true⟩

theorem Alone.failsCleanly {d : Bool} (h : Alone K d Q p ⟨c, false, true⟩)
    (hQ : ∀ a s, Q a s → s.failed = true → s.core.manager = c.manager ∧ s.core.db = c.db) :
    FailsCleanly p c :=
  (h.mono hQ).guarantee fun _ _ _ => trivial

/-- In every life in which no request is dropped in its section: the certificates of an order are
    numbered from one to its `current_renewals`, the manager has the counter and the latest
    certificate of the tables whenever the lock is free, and an admission, a renewal or a cancellation
    whose transaction fails changes neither. -/
theorem memory_and_tables_agree {xs : List (Event W Env Task (Boot K))}
    {c : Config W Op Task Result (World W) Reply} (h : Lives L xs c)
    (hdropped : c.shared.dropped = false) :
    (∀ id r, c.shared.core.db.row id = some r →
      (c.shared.core.db.certsOf id).map (·.cert.renewalNumber) = List.range' 1 r.currentRenewals) ∧
    (c.shared.lock = none → ∀ m id o, c.shared.core.manager = some m → m.getOrder id = some o →
      ∃ r, c.shared.core.db.row id = some r ∧ o.currentRenewals = r.currentRenewals ∧
        o.currentCertificate = latestOf (c.shared.core.db.certsOf id)) ∧
    (∀ new profile ca, FailsCleanly (admitOrder L new profile ca) c.shared.core) ∧
    (∀ dueAt id, FailsCleanly (renewOne L dueAt id).run c.shared.core) ∧
    (∀ identity id, FailsCleanly (deleteLocked identity id).run c.shared.core) := by
  have hgood : Good K c.shared := (lives_inv L h).shared
  obtain ⟨c₀, hsound, hdb, -⟩ := hgood.fit.anchored hdropped
  have hfit : Fit K true c.shared.core := ⟨hgood.fit.tracked, by simp⟩
  refine ⟨?_, ?_, ?_, ?_, ?_⟩
  · intro id r hr
    rw [← hdb] at hr ⊢
    exact ((hsound.life id).ok.counted r hr).2
  · intro hlock m id o hm ho
    obtain ⟨r, hr, hmirrors⟩ := (hgood.sound hdropped hlock).mirrored hm ho
    exact ⟨r, hr, hmirrors.renewals, hmirrors.certificate⟩
  · intro new profile ca
    exact (admitOrder_alone L new profile ca hfit (by simp)).failsCleanly fun _ _ hl => hl.failed
  · intro dueAt id
    have hone : Between K true dueAt [id] ⟨c.shared.core, false, true⟩ :=
      ⟨rfl, hfit, by simp, by simp⟩
    exact (renewOne_alone L List.not_mem_nil hone).failsCleanly fun _ _ hl => hl.2 rfl
  · intro identity id
    exact (deleteLocked_alone identity id hfit (by simp)).failsCleanly fun _ _ hl => hl.1.failed

end

/-! ### A life with one order -/

def plainLib : StarLib where
  decodeBase64 body := .ok body
  authorizeCsr _ _ := .ok ()
  keyType _ := "Rsa(2048)"
  toJson _ := .ok "profile"
  fromJson _ := .ok (labelProfile 7)
  certsOnly _ := .ok "pkcs7"

def calm (now : Nat) (serial : String) : Env :=
  ⟨now, "o", some Ca.longCa, .ok "CN=ca", issuedAt now serial, none, now, []⟩

section

variable {K : StarConfig → Prop} (hK : K enabledConfig)

def bootAt (now : Nat) : Boot K where
  config := some enabledConfig
  accepted := by
    rintro _ ⟨⟩
    exact ⟨enabledConfig_accepted, hK⟩
  env := ⟨none, fun _ => none, fun _ => now, now⟩

def ended (xs : List (Event Unit Env Task (Boot K))) :
    Option (Config Unit Op Task Result (World Unit) Reply) :=
  (starSystem plainLib Unit).live World.boot (Config.initial (World.initial Unit)) xs

def solo (t : Task) (e : Env) (n : Nat) : List (Event Unit Env Task (Boot K)) :=
  .act (.start () t) :: List.replicate n (.act (.step () e))

def admission (lifetime : String) : List (Event Unit Env Task (Boot K)) :=
  .restart (bootAt hK 1767225600000000000) ::
    solo (.post ⟨"CN=dev", "ca", some 90, some "604800", some lifetime, List.replicate 60 0⟩)
      (calm 1767225600000000000 "01") 13

def renewal : List (Event Unit Env Task (Boot K)) :=
  admission hK "30" ++ solo .cycle (calm 1767571200000000000 "02") 15

end

theorem memory_and_tables_agree_renewal :
    ∃ c, Lives (K := fun _ => True) plainLib (renewal trivial) c ∧ c.shared.dropped = false ∧
      c.shared.lock = none ∧
      (∃ r, c.shared.core.db.row "o" = some r ∧ r.currentRenewals = 2 ∧
        (c.shared.core.db.certsOf "o").map (·.cert.renewalNumber) = List.range' 1 r.currentRenewals) ∧
      ∃ m o r, c.shared.core.manager = some m ∧ m.getOrder "o" = some o ∧
        c.shared.core.db.row "o" = some r ∧ o.currentRenewals = r.currentRenewals ∧
        o.currentCertificate = latestOf (c.shared.core.db.certsOf "o") := by
  have hend : (ended (renewal (K := fun _ => True) trivial)).map (fun c =>
        (c.shared.dropped, c.shared.lock,
        (c.shared.core.db.row "o").map (·.currentRenewals),
        (c.shared.core.manager.bind (·.getOrder "o")).map (·.currentRenewals))) =
      some (false, none, some 2, some 2) := by
    decide +kernel
  obtain ⟨c, hlives, hc⟩ := Option.map_eq_some_iff.mp hend
  simp only [Prod.mk.injEq, Option.map_eq_some_iff, Option.bind_eq_some_iff] at hc
  obtain ⟨hdropped, hlock, ⟨r, hr, hcount⟩, o, ⟨m, hm, ho⟩, -⟩ := hc
  obtain ⟨hnumbers, hmirror, -⟩ := memory_and_tables_agree plainLib hlives hdropped
  obtain ⟨r', hr', hagree⟩ := hmirror hlock m "o" o hm ho
  exact ⟨c, hlives, hdropped, hlock, ⟨r, hr, hcount, hnumbers "o" r hr⟩, m, o, r', hm, ho, hr', hagree⟩

end Kipuka.Star
