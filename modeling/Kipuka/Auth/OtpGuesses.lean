/-
  How many wrong one-time passwords are looked up before an entity is locked out? The lookup and the
  record of its failure are two calls, so that requests in flight can all look up before the first
  failure is recorded; with one request at a time the bound is the policy's.
-/
import Kipuka.Auth.Otp
import Kipuka.Auth.Window
import Kipuka.Generic.Ledger

namespace Kipuka.Auth.Otp

open Generic FailureTracker

section

variable (L : OtpLib) (enabled : Bool)

/-- OTP requests in any interleaving. A request is the value of its `Authorization` header. -/
def requests (W : Type) :
    System W Env Op (Option (List UInt8)) (Option (Except Response AuthResult)) State Reply where
  exec := exec
  abandon _ s := s
  prog := tryExtractOtp L enabled

end

/-! ## What a call says about an entity -/

section

variable (who : String)

def evaluates : (op : Op) → Reply op → Bool
  | .findToken entityId _ _, .ok none => decide (entityId = who)
  | _, _ => false

def records : Op → Bool
  | .recordFailure entityId => decide (entityId = who)
  | _ => false

def locks : (op : Op) → Reply op → Bool
  | .recordFailure entityId, .lockedOut _ => decide (entityId = who)
  | _, _ => false

/-- The entity is seen to hold an active OTP, if that is what the call asks. -/
def seesActive : (op : Op) → Reply op → Bool
  | .findActive entityId _, .ok none => decide (entityId ≠ who)
  | .findActive entityId _, .error _ => decide (entityId ≠ who)
  | _, _ => true

def About : Op → Prop
  | .check entityId => entityId = who
  | .recordFailure entityId => entityId = who
  | .recordSuccess entityId => entityId = who
  | _ => True

/-! ## Programs -/

/-- A program whose thread has a failure to record (`b`) or has not, and that ends in `Q`. A guess
    is only looked up when no failure is waiting. -/
def Books {α : Type} (Q : α → Bool → Prop) : Prog Op Reply α → Bool → Prop
  | .ret a, b => Q a b
  | .call op k, b => ∀ reply, seesActive who op reply = true →
      (evaluates who op reply = true → b = false ∧ Books Q (k reply) true) ∧
        (evaluates who op reply = false → Books Q (k reply) (!records who op && b))

variable {who} {α β : Type} {p : Prog Op Reply α} {b : Bool}

theorem books_bind {f : α → Prog Op Reply β} {Q : β → Bool → Prop}
    (h : Books who (fun a b => Books who Q (f a) b) p b) : Books who Q (p >>= f) b := by
  induction p generalizing b with
  | ret a => exact h
  | call op k ih =>
    intro reply hsees
    obtain ⟨h1, h2⟩ := h reply hsees
    exact ⟨fun he => ⟨(h1 he).1, ih reply (h1 he).2⟩, fun he => ih reply (h2 he)⟩

theorem books_mono {Q Q' : α → Bool → Prop}
    (h : Books who Q p b) (hQ : ∀ a b, Q a b → Q' a b) : Books who Q' p b := by
  induction p generalizing b with
  | ret a => exact hQ a b h
  | call op k ih =>
    intro reply hsees
    obtain ⟨h1, h2⟩ := h reply hsees
    exact ⟨fun he => ⟨(h1 he).1, ih reply (h1 he).2⟩, fun he => ih reply (h2 he)⟩

variable {op : Op} {k : Reply op → Prog Op Reply α} {Q : α → Bool → Prop}

theorem Books.waiting (h : Books who Q (.call op k) true) {reply : Reply op}
    (hsees : seesActive who op reply = true) :
    evaluates who op reply = false ∧ Books who Q (k reply) (!records who op && true) := by
  obtain ⟨h1, h2⟩ := h reply hsees
  cases he : evaluates who op reply with
  | false => exact ⟨rfl, h2 he⟩
  | true => exact absurd (h1 he).1.symm Bool.false_ne_true

theorem books_call (he : ∀ reply, evaluates who op reply = false) (hr : records who op = false)
    (h : ∀ reply, seesActive who op reply = true → Books who Q (k reply) b) :
    Books who Q (.call op k) b := by
  intro reply hsees
  refine ⟨fun h' => absurd ((he reply).symm.trans h') Bool.false_ne_true, fun _ => ?_⟩
  rw [hr]
  exact h reply hsees

theorem books_consumeOtp (entityId tokenHash now : String) :
    Books who (fun _ b => b = false) (consumeOtp entityId tokenHash now).run false := by
  rw [consumeOtp_eq]
  refine books_call (fun _ => rfl) rfl fun reply _ => ?_
  cases reply with
  | error | ok => exact rfl

variable (L : OtpLib) (enabled : Bool)

theorem books_validateOtp (entityId otpValue : String) :
    Books who (fun result b => b = true → entityId = who ∧ ∃ reason, result = .error reason)
      (validateOtp L enabled entityId otpValue).run false := by
  cases enabled with
  | false => exact fun h => absurd h Bool.false_ne_true
  | true =>
    rw [validateOtp_eq]
    refine books_call (fun _ => rfl) rfl fun now _ => ?_
    intro found _
    cases found with
    | error msg => exact ⟨fun h => absurd h Bool.false_ne_true, fun _ h => absurd h Bool.false_ne_true⟩
    | ok row =>
      cases row with
      | none =>
        exact ⟨fun h => ⟨rfl, fun _ => ⟨of_decide_eq_true h, _, rfl⟩⟩,
          fun _ h => absurd h Bool.false_ne_true⟩
      | some row =>
        refine ⟨fun h => absurd h Bool.false_ne_true, fun _ => ?_⟩
        by_cases hne : asBytes (hashOf L otpValue) ≠ asBytes row.tokenHash
        · simp only [if_pos hne]
          exact fun h => absurd h Bool.false_ne_true
        · simp only [if_neg hne]
          exact books_mono (books_consumeOtp entityId (hashOf L otpValue) now)
            fun _ _ hb h => absurd (hb.symm.trans h) Bool.false_ne_true

theorem books_refuse (entityId : String) (status : LockoutStatus) :
    Books who (fun _ b => b = false) (refuse entityId status) false := by
  cases status with
  | allowed => exact rfl
  | lockedOut retryAfter => exact books_call (fun _ => rfl) rfl fun _ _ => rfl

theorem books_failedAttempt {entityId : String} (reason : String) (hb : b = true → entityId = who) :
    Books who (fun _ b => b = false) (failedAttempt entityId reason) b := by
  rw [failedAttempt_eq]
  refine books_call (fun _ => rfl) rfl fun _ _ => ?_
  refine books_call (fun _ => rfl) rfl fun now _ => ?_
  refine books_call (fun reply => by cases reply <;> rfl) rfl fun found hsees => ?_
  -- without an OTP in sight nothing is recorded, so nothing may wait
  have hrefused : seesActive who (.findActive entityId now) found = decide (entityId ≠ who) →
      b = false := by
    intro heq
    rw [hsees] at heq
    cases hbool : b with
    | false => rfl
    | true => exact absurd (hb hbool) (of_decide_eq_true heq.symm)
  cases found with
  | error msg =>
    rw [hrefused rfl]
    exact books_refuse entityId .allowed
  | ok row =>
    cases row with
    | none =>
      rw [hrefused rfl]
      exact books_refuse entityId .allowed
    | some id =>
      intro status _
      refine ⟨fun h => absurd h Bool.false_ne_true, fun _ => ?_⟩
      have hdone : (!records who (.recordFailure entityId) && b) = false := by
        cases hbool : b with
        | false => exact Bool.and_false _
        | true => simp [records, hb hbool]
      rw [hdone]
      exact books_refuse entityId status

theorem books_authenticate (entityId otpValue : String) :
    Books who (fun _ b => b = false) (authenticate L enabled entityId otpValue) false := by
  refine books_call (fun _ => rfl) rfl fun status _ => ?_
  cases status with
  | lockedOut retryAfter => exact rfl
  | allowed =>
    show Books who _ ((validateOtp L enabled entityId otpValue).run >>= _) false
    refine books_bind (books_mono (books_validateOtp L enabled entityId otpValue) ?_)
    intro result b hwaits
    cases result with
    | ok value =>
      have hfalse : b = false := by
        cases b with
        | false => rfl
        | true =>
          obtain ⟨-, reason, hreason⟩ := hwaits rfl
          cases hreason
      subst hfalse
      exact books_call (fun _ => rfl) rfl fun _ _ => rfl
    | error reason =>
      refine books_bind (books_mono (books_failedAttempt reason fun h => (hwaits h).1) ?_)
      exact fun _ _ h => h

theorem books_tryExtractOtp (authorization : Option (List UInt8)) :
    Books who (fun _ b => b = false) (tryExtractOtp L enabled authorization) false := by
  unfold tryExtractOtp
  split
  · exact rfl
  · exact rfl
  · next entityId otpValue _ =>
    exact books_bind (books_mono (books_authenticate L enabled entityId otpValue) fun _ _ h => h)

/-! ## The books of a run -/

variable (who)

/-- Wrong guesses that are looked up, against failures that are recorded. -/
def guessLedger (W : Type) : Ledger (requests L enabled W) where
  gains x := evaluates who x.op x.reply
  settles x := records who x.op
  good _ _ := false
  fair x := seesActive who x.op x.reply = true
  clean _ p := Books who (fun _ b => b = false) p false
  owes _ p := Books who (fun _ b => b = false) p true
  start := books_tryExtractOtp L enabled
  exclusive {x} h := by
    obtain ⟨w, t, e, op, reply⟩ := x
    cases op with
    | recordFailure entityId => exact absurd h Bool.false_ne_true
    | _ => rfl
  clean_gain {x} _ hfair h hgain := ((h x.reply hfair).1 hgain).2
  clean_other {x} k hfair h hgain := by
    have hnext := (h x.reply hfair).2 hgain
    rwa [Bool.and_false] at hnext
  owes_gain hfair h := (Books.waiting h hfair).1
  owes_settle hfair h hsettle := by
    have hnext := (Books.waiting h hfair).2
    rwa [hsettle] at hnext
  owes_other hfair h hsettle := by
    have hnext := (Books.waiting h hfair).2
    rwa [hsettle] at hnext
  clean_ret _ := rfl
  owes_ret h := absurd h.symm Bool.false_ne_true

/-- The store has refused the request, and its failure is not recorded yet. -/
def AwaitsRecording (th : Option (Thread Op (Option (List UInt8))
    (Option (Except Response AuthResult)) Reply)) : Prop :=
  ∃ th', th = some th' ∧ Books who (fun _ b => b = false) th'.prog true

/-! ## The calls of a request -/

variable {who}

theorem about_validateOtp (entityId otpValue : String) :
    Only (About who) (validateOtp L enabled entityId otpValue).run := by
  cases enabled with
  | false => trivial
  | true =>
    refine only_ask (only_op trivial) fun now => only_try (only_op trivial) fun found => ?_
    cases found with
    | none => trivial
    | some row =>
      dsimp only
      split
      · trivial
      · refine only_try (only_op trivial) fun rows => ?_
        split <;> trivial

theorem about_failedAttempt (reason : String) : Only (About who) (failedAttempt who reason) := by
  have hactive : Only (About who) (hasActiveOtp who).run :=
    only_ask (only_op trivial) fun now => only_try (only_op trivial) fun _ => trivial
  have hrefuse : ∀ status, Only (About who) (refuse who status) := by
    intro status
    cases status with
    | allowed => trivial
    | lockedOut retryAfter => exact ⟨trivial, fun _ => trivial⟩
  refine only_bind (p := ask _) (only_op trivial) fun _ => only_bind hactive fun found => ?_
  dsimp only
  split
  · exact only_bind (p := ask _) (only_op rfl) hrefuse
  · exact hrefuse .allowed

theorem about_tryExtractOtp {authorization : Option (List UInt8)} {otpValue : String}
    (h : basicCredentials L authorization = some (.ok (who, otpValue))) :
    Only (About who) (tryExtractOtp L enabled authorization) := by
  unfold tryExtractOtp
  rw [h]
  refine only_bind ?_ fun _ => trivial
  refine only_bind (p := ask (.check who)) (only_op rfl) fun status => ?_
  cases status with
  | lockedOut retryAfter => trivial
  | allowed =>
    refine only_bind (about_validateOtp L enabled who otpValue) fun result => ?_
    cases result with
    | ok value => exact ⟨rfl, fun _ => trivial⟩
    | error reason => exact only_bind (about_failedAttempt reason) fun _ => trivial

end

/-! ## The tracker -/

/-- The record of the entity after `n` failures, none of which has locked it. -/
structure Unlocked (p : LockoutPolicy) (who : String) (start : Int) (ids : Finset String) (n : Nat)
    (t : FailureTracker) : Prop where
  policy : t.policy = p
  named : ∀ k r, t.records.lookup k = some r → k ∈ ids
  record : (n = 0 ∧ t.records.lookup who = none) ∨
    ∃ r, t.records.lookup who = some r ∧ r.lockedUntil = none ∧ r.failures = n ∧ start ≤ r.windowStart
  below : n < p.maxFailures

section

variable {p : LockoutPolicy} {who : String} {start : Int} {ids : Finset String} {n : Nat}
  {t : FailureTracker} {window : Nat}

theorem durationSince_lt {now first : Int} (hstart : start ≤ first)
    (hnow : now - start < window) (hpos : 0 < window) : durationSince now first < window := by
  unfold durationSince
  omega

variable {now : Int}

theorem Unlocked.not_prunable (h : Unlocked p who start ids n t)
    (hstart : start ≤ now) (hnow : now - start < p.failureWindow) :
    ∀ r ∈ t.records.lookup who, r.isPrunable now t.policy.failureWindow = false := by
  intro r hr
  rcases h.record with ⟨-, hnone⟩ | ⟨r', hr', -, -, hfirst⟩
  · rw [hnone] at hr
    cases hr
  · rw [hr'] at hr
    cases hr
    have hlt := durationSince_lt hfirst hnow (by omega)
    rw [h.policy]
    simp only [Record.isPrunable, Bool.and_eq_false_iff, decide_eq_false_iff_not]
    exact .inr (by omega)

theorem lookup_of_not_prunable {o o' : Option Record}
    (h : o' = o ∨ o' = none ∧ ∀ r ∈ o, r.isPrunable now window = true)
    (hlive : ∀ r ∈ o, r.isPrunable now window = false) : o' = o := by
  rcases h with h | ⟨h, hstale⟩
  · exact h
  · cases o with
    | none => exact h
    | some r => exact absurd ((hstale r rfl).symm.trans (hlive r rfl)) Bool.noConfusion

theorem Unlocked.check (h : Unlocked p who start ids n t) (hstart : start ≤ now)
    (hnow : now - start < p.failureWindow) (identity : String) :
    Unlocked p who start ids n (t.check identity now).2 := by
  have hsame := lookup_of_not_prunable (lookup_check t who identity now) (h.not_prunable hstart hnow)
  refine ⟨(check_policy t identity now).trans h.policy, ?_, by rw [hsame]; exact h.record, h.below⟩
  exact fun k r hr => h.named k r ((lookup_check t k identity now).eq_some hr)

theorem Unlocked.recordFailure (h : Unlocked p who start ids n t) (hen : p.isEnabled = true)
    (hids : ids.card ≤ 10000) (hwho : who ∈ ids) (hstart : start ≤ now)
    (hnow : now - start < p.failureWindow)
    (hfree : (t.recordFailure who now).1 = .allowed) :
    Unlocked p who start ids (n + 1) (t.recordFailure who now).2 := by
  have hpolicy := h.policy
  by_cases hlen : who.utf8ByteSize ≤ 4096
  · have hsame := lookup_of_not_prunable (lookup_pruneIfDue t who now) (h.not_prunable hstart hnow)
    obtain ⟨hstatus, hlookup⟩ := recordFailure_eq t (by rw [hpolicy]; exact hen) hlen
      (room_of_named h.named hids hwho now)
    rw [hsame, hpolicy] at hstatus hlookup
    -- the failure is the `n + 1`-st of its window
    obtain ⟨first, hfirst, hfailed⟩ : ∃ first, start ≤ first ∧
        failed p now (t.records.lookup who) = countUp p now (n + 1) first := by
      rcases h.record with ⟨hn, hnone⟩ | ⟨r, hr, hunlocked, hcount, hfirst⟩
      · refine ⟨now, hstart, ?_⟩
        rw [hnone, hn]
        exact failed_opens (fun r hr => by cases hr) fun r hr => by cases hr
      · refine ⟨r.windowStart, hfirst, ?_⟩
        rw [hr, failed_continues hunlocked (durationSince_lt hfirst hnow (by omega)), hcount]
    rw [hfailed] at hstatus hlookup
    have hbelow : n + 1 < p.maxFailures := by
      by_contra hge
      have hlocked : (countUp p now (n + 1) first).1.isLocked = true :=
        countUp_isLocked.mpr (Nat.not_lt.mp hge)
      rw [← hstatus, hfree] at hlocked
      cases hlocked
    refine ⟨(recordFailure_policy t who now).trans hpolicy, ?_, .inr ?_, hbelow⟩
    · intro k r hr
      rw [hlookup k] at hr
      split at hr
      · next hk => exact hk ▸ hwho
      · exact h.named k r ((lookup_pruneIfDue t k now).eq_some hr)
    · refine ⟨_, (hlookup who).trans (if_pos rfl), ?_⟩
      rw [countUp, if_neg (by omega)]
      exact ⟨rfl, rfl, hfirst⟩
  · -- an overlong identity is always refused
    have hrefused : (t.recordFailure who now).1 = _ :=
      recordFailure_overlong t (by rw [hpolicy]; exact hen) (Nat.not_le.mp hlen)
    cases hfree.symm.trans hrefused

end

/-! ## Runs -/

/-- What is known of a call in a run before the lockout: it is about the entity, within the window
    that begins at `start`, sees the OTP, is no success and does not lock. -/
structure Quiet {W Task : Type} (p : LockoutPolicy) (who : String) (start : Int)
    (x : Called W Env Op Task Reply) : Prop where
  about : About who x.op
  started : start ≤ x.env.instant
  inside : x.env.instant - start < p.failureWindow
  active : seesActive who x.op x.reply = true
  noSuccess : x.op ≠ .recordSuccess who
  noLock : locks who x.op x.reply = false

theorem Unlocked.step {W Task : Type} {p : LockoutPolicy} {who : String} {start : Int}
    {ids : Finset String} {n : Nat} {x : Called W Env Op Task Reply} {s s' : State}
    (h : Unlocked p who start ids n s.tracker) (hen : p.isEnabled = true) (hids : ids.card ≤ 10000)
    (hwho : who ∈ ids) (hx : Quiet p who start x) (he : Otp.step x.env x.op s = (x.reply, s')) :
    Unlocked p who start ids (n + if records who x.op = true then 1 else 0) s'.tracker := by
  obtain ⟨w, t, e, op, reply⟩ := x
  obtain ⟨habout, hstart, hinside, -, hsuccess, hlock⟩ := hx
  obtain ⟨instant, utc, replica, dbError⟩ := e
  dsimp only at habout hstart hinside hsuccess hlock he ⊢
  cases op with
  | check entityId =>
    cases he
    exact h.check hstart hinside entityId
  | recordFailure entityId =>
    obtain rfl : entityId = who := habout
    have hstatus : (s.tracker.recordFailure entityId instant).1 = reply := congrArg Prod.fst he
    have hstate : (s.tracker.recordFailure entityId instant).2 = s'.tracker :=
      congrArg (fun r => r.2.tracker) he
    have hfree : (s.tracker.recordFailure entityId instant).1 = .allowed := by
      rw [hstatus]
      cases reply with
      | allowed => rfl
      | lockedOut retryAfter => simp [locks] at hlock
    rw [← hstate, if_pos (by simp [records])]
    exact h.recordFailure hen hids hwho hstart hinside hfree
  | recordSuccess entityId =>
    obtain rfl : entityId = who := habout
    exact absurd rfl hsuccess
  | utcNow | auditEvent =>
    cases he
    exact h
  | findToken | consume | findActive | revoke => cases dbError <;> cases he <;> exact h

section

variable (L : OtpLib) (enabled : Bool) {W : Type} [DecidableEq W] {p : LockoutPolicy} {who : String}
  {start : Int} {ids : Finset String} {s : State} {as : List (Act W Env (Option (List UInt8)))}
  {c : Config W Op (Option (List UInt8)) (Option (Except Response AuthResult)) State Reply}

section

variable (hen : 0 < p.maxFailures) (hpolicy : s.tracker.policy = p)
  (hclean : s.tracker.records.lookup who = none) (hroom : s.tracker.records.size < 10000)
  (hquiet : ∀ x ∈ (requests L enabled W).history (Config.initial s) as, Quiet p who start x)
  (hrun : (requests L enabled W).run (Config.initial s) as = some c)

include hen hpolicy hclean hroom hquiet hrun

theorem recorded_lt : ((requests L enabled W).history (Config.initial s) as).countP
    (fun x => records who x.op) < p.maxFailures := by
  let ids : Finset String := insert who s.tracker.records.keys.toFinset
  have hcard : ids.card ≤ 10000 := by
    have hkeys : s.tracker.records.keys.toFinset.card ≤ s.tracker.records.size := by
      refine (List.toFinset_card_le _).trans (Nat.le_of_eq ?_)
      exact List.length_map ..
    exact (Finset.card_insert_le who s.tracker.records.keys.toFinset).trans (by omega)
  have hstart : Unlocked p who start ids 0 s.tracker := by
    refine ⟨hpolicy, ?_, .inl ⟨rfl, hclean⟩, hen⟩
    intro k r hr
    refine Finset.mem_insert_of_mem (List.mem_toFinset.mpr ?_)
    exact AList.mem_keys.mpr (AList.lookup_isSome.mp (by rw [hr]; rfl))
  have hrun' := (requests L enabled W).run_shared (A := Quiet p who start)
    (I := fun s h => Unlocked p who start ids (h.countP fun x => records who x.op) s.tracker)
    ?_ (fun h => h) (c := Config.initial s) hstart hquiet hrun
  · exact hrun'.below
  · intro s s' h x he hx hI
    rw [List.countP_append, List.countP_singleton]
    exact hI.step (decide_eq_true hen) hcard (Finset.mem_insert_self _ _) hx (Option.some.inj he)

theorem guesses_lt (hkept : ∀ w, .abandon w ∉ as) :
    ∃ waiting : Finset W, (∀ w ∈ waiting, AwaitsRecording who (c.threads w)) ∧
      ((requests L enabled W).history (Config.initial s) as).countP
        (fun x => evaluates who x.op x.reply) < p.maxFailures + waiting.card := by
  obtain ⟨owing, surplus, lost, hb, hlost⟩ := (guessLedger who L enabled W).balance
    (fun x hx => (hquiet x hx).active) hrun
  refine ⟨owing, hb.owes, ?_⟩
  have hsum := hb.sum
  have hlt := recorded_lt L enabled hen hpolicy hclean hroom hquiet hrun
  have hzero : (guessLedger who L enabled W).goods c.done = 0 :=
    List.countP_eq_zero.mpr fun _ _ h => by cases h
  have hnone := hlost hkept
  have hgains : ((requests L enabled W).history (Config.initial s) as).countP
      (guessLedger who L enabled W).gains = ((requests L enabled W).history (Config.initial s) as).countP
        fun x => evaluates who x.op x.reply := rfl
  have hsettles : ((requests L enabled W).history (Config.initial s) as).countP
      (guessLedger who L enabled W).settles = ((requests L enabled W).history (Config.initial s)
        as).countP fun x => records who x.op := rfl
  omega

end

/-- **Wrong guesses before the lockout.** Requests for one entity that holds an OTP, from a clean
    record, within one failure window, with no success and no request dropped: as long as no
    failure has locked the entity, and if at most one request waits to record its failure, at most
    `maxFailures` wrong guesses were looked up. -/
theorem guesses_bounded (hen : 0 < p.maxFailures) (hpolicy : s.tracker.policy = p)
    (hclean : s.tracker.records.lookup who = none) (hroom : s.tracker.records.size < 10000)
    (hwho : ∀ w authorization, .start w authorization ∈ as →
      ∃ otpValue, basicCredentials L authorization = some (.ok (who, otpValue)))
    (hkept : ∀ w, .abandon w ∉ as)
    (hrun : (requests L enabled W).run (Config.initial s) as = some c)
    (hcalls : ∀ x ∈ (requests L enabled W).history (Config.initial s) as,
      start ≤ x.env.instant ∧ x.env.instant - start < p.failureWindow ∧
        seesActive who x.op x.reply = true ∧ x.op ≠ .recordSuccess who ∧
        locks who x.op x.reply = false)
    (hserial : ∀ v w, AwaitsRecording who (c.threads v) → AwaitsRecording who (c.threads w) → v = w) :
    ((requests L enabled W).history (Config.initial s) as).countP
      (fun x => evaluates who x.op x.reply) ≤ p.maxFailures := by
  have habout : ∀ x ∈ (requests L enabled W).history (Config.initial s) as, About who x.op := by
    refine (requests L enabled W).run_calls ?_ hrun
    intro w authorization hstart
    obtain ⟨otpValue, hcredentials⟩ := hwho w authorization hstart
    exact about_tryExtractOtp L enabled hcredentials
  have hquiet : ∀ x ∈ (requests L enabled W).history (Config.initial s) as, Quiet p who start x := by
    intro x hx
    obtain ⟨hstarted, hinside, hactive, hsuccess, hlock⟩ := hcalls x hx
    exact ⟨habout x hx, hstarted, hinside, hactive, hsuccess, hlock⟩
  obtain ⟨waiting, hwaiting, hlt⟩ := guesses_lt L enabled hen hpolicy hclean hroom hquiet hrun hkept
  have hcard : waiting.card ≤ 1 := by
    refine Finset.card_le_one.mpr fun v hv w hw => ?_
    exact hserial v w (hwaiting v hv) (hwaiting w hw)
  omega

end

/-! ## Runs with two requests -/

def guessStart (n : Nat) : State := ⟨[oneUse], .new ⟨n, fromSecs 60, fromSecs 300⟩ 0, []⟩

def guess : Option (List UInt8) := some (asBytes "Basic dev:x")

def stepAt (n : Nat) : Env := ⟨fromSecs n, "2026", [oneUse], none⟩

theorem guess_credentials : basicCredentials plainLib guess = some (.ok ("dev", "x")) := by
  decide +kernel

/-- One worker: a whole request, and then a second one up to its lookup. With a limit of two, both
    guesses were looked up and the entity is not locked yet. -/
theorem guesses_bounded_sequential :
    let S := requests plainLib true Unit
    let acts := .start () guess :: (List.range 8).map (fun n => .step () (stepAt n)) ++
      .start () guess :: (List.range 3).map fun n => .step () (stepAt (n + 8))
    (S.history (Config.initial (guessStart 2)) acts).countP
      (fun x => evaluates "dev" x.op x.reply) ≤ 2 := by
  intro S acts
  have hsome : (S.run (Config.initial (guessStart 2)) acts).isSome = true := by decide +kernel
  obtain ⟨c, hc⟩ := Option.isSome_iff_exists.mp hsome
  have hcalls : ∀ x ∈ S.history (Config.initial (guessStart 2)) acts,
      (0 : Int) ≤ x.env.instant ∧ x.env.instant - 0 < fromSecs 60 ∧
        seesActive "dev" x.op x.reply = true ∧ x.op ≠ .recordSuccess "dev" ∧
        locks "dev" x.op x.reply = false := by
    decide +kernel
  refine guesses_bounded plainLib true (p := ⟨2, fromSecs 60, fromSecs 300⟩)
    (by decide) rfl rfl (by decide) ?_ (by simp [acts]) hc hcalls ?_
  · intro w authorization hstart
    have hguess : authorization = guess := by simpa [acts] using hstart
    exact ⟨"x", hguess ▸ guess_credentials⟩
  · exact fun _ _ _ _ => rfl

/-- Two requests at once: both pass the check before either failure is recorded, so two wrong
    guesses are looked up although the first failure is to lock the entity. -/
theorem two_guesses_before_lockout :
    let S := requests plainLib true Bool
    let acts := [.start true guess, .start false guess] ++
      (List.range 3).flatMap fun n => [.step true (stepAt n), .step false (stepAt n)]
    let h := S.history (Config.initial (guessStart 1)) acts
    (guessStart 1).tracker.policy.maxFailures = 1 ∧
      (guessStart 1).tracker.records.lookup "dev" = none ∧
      basicCredentials plainLib guess = some (.ok ("dev", "x")) ∧
      (S.run (Config.initial (guessStart 1)) acts).isSome = true ∧
      (∀ x ∈ h, 0 ≤ x.env.instant ∧ x.env.instant - 0 < fromSecs 60 ∧
        seesActive "dev" x.op x.reply = true ∧ x.op ≠ .recordSuccess "dev" ∧
        locks "dev" x.op x.reply = false) ∧
      h.countP (fun x => evaluates "dev" x.op x.reply) = 2 := by
  decide +kernel

end Kipuka.Auth.Otp
