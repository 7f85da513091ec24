/-
  The alarm on consecutive violations (FAU_ARP.1) in runs of OTP requests: the end of `record_inner`
  (`src/audit/mod.rs`), `audit_type_for` (`src/state.rs`) and `try_extract_otp` (`src/auth/otp.rs`).
-/
import Kipuka.Auth.Otp
import Kipuka.Enroll.Calls

namespace Kipuka.Audit.Alarm

open Generic
open Auth.Otp (OtpLib tryExtractOtp)

def isViolation : Op → Bool
  | .recordViolation => true
  | _ => false

/-- What an alarm does: it halts the process or writes to the system logger. -/
def isAction : Op → Bool
  | .setHalted | .emitSyslogAlarm _ => true
  | _ => false

def isReset : Op → Bool
  | .resetViolations => true
  | _ => false

inductive Entry where
  | success
  | event (calls : List (Answered Op Reply))

def Entry.isSuccess : Entry → Bool
  | .success => true
  | .event _ => false

def violated (calls : List (Answered Op Reply)) : Bool := calls.any fun c => isViolation c.1

def Entry.lockout : Entry → Bool
  | .success => false
  | .event calls => violated calls

def Entry.alarm : Entry → Bool
  | .success => false
  | .event calls => violated calls && calls.any fun c => isAction c.1

def lockouts (log : List Entry) : Nat := log.countP Entry.lockout

def sinceSuccess (log : List Entry) : List Entry := log.takeWhile fun x => !x.isSuccess

/-- What the requests share: the token table and the failure tracker, and the process's part of the
    audit state. -/
structure Shared where
  otp : Auth.Otp.State
  violationCount : UInt32
  halted : Bool
  log : List Entry

/-- The surroundings of a request, and the answers to the other calls of an audit event. At a call
    without one the event breaks off. -/
structure Env where
  otp : Auth.Otp.Env
  answer : (op : Op) → Option (Reply op)

def Shared.answer (s : Shared) (e : Env) : (op : Op) → Option (Reply op)
  | .isHalted => some s.halted
  | .recordViolation => some (s.violationCount + 1)
  | op => e.answer op

def eventFor (eventType : String) (actor : Option String) (detail : String) : AuditEvent :=
  actor.elim (Enroll.auditEvent eventType detail) fun a => Enroll.actorEvent eventType a detail

def Shared.recorded (s : Shared) (calls : List (Answered Op Reply)) : Shared :=
  { s with
    violationCount :=
      if violated calls then s.violationCount + 1
      else if calls.any fun c => isReset c.1 then 0 else s.violationCount
    halted := s.halted || calls.any fun c => decide (c.1 = .setHalted)
    log := .event calls :: s.log }

section

variable (H : Hashes) (st : AuditState)

def callsFor (e : Env) (s : Shared) (event : AuditEvent) : List (Answered Op Reply) :=
  ((record H st event).playBy (s.answer e)).1

def note (e : Env) (s : Shared) : Auth.Otp.Op → Shared
  | .auditEvent eventType actor detail =>
    s.recorded (callsFor H st e s (eventFor eventType actor detail))
  | .recordSuccess _ => { s with log := .success :: s.log }
  | _ => s

def otpRequests (L : OtpLib) (enabled : Bool) (W : Type) :
    System W Env Auth.Otp.Op (Option (List UInt8))
      (Option (Except Auth.Otp.Response Auth.Otp.AuthResult)) Shared Auth.Otp.Reply where
  exec _ e op s :=
    some ((Auth.Otp.step e.otp op s.otp).1,
      { note H st e s op with otp := (Auth.Otp.step e.otp op s.otp).2 })
  abandon _ s := s
  prog := tryExtractOtp L enabled

end

/-! ## The calls of one event -/

section Calls

variable {H : Hashes} {st : AuditState} {event : AuditEvent} {calls : List (Answered Op Reply)}

abbrev Quiet {α : Type} (p : Prog Op Reply α) : Prop :=
  Only (fun op => isViolation op = false ∧ isAction op = false) p

theorem quiet_admission : Quiet admission.run := by
  refine only_ask (only_op ⟨rfl, rfl⟩) fun halted => ?_
  split <;> trivial

theorem quiet_writeEvent : Quiet (inTransaction (writeEvent H st event)).run := by
  have hwrite : Quiet (writeEvent H st event).run := by
    refine only_seq quiet_admission fun _ => only_try (only_op ⟨rfl, rfl⟩) fun _ => ?_
    have hlimit : Quiet (enforceRowLimit st.config).run :=
      only_enforceRowLimit (fun _ => ⟨rfl, rfl⟩) ⟨rfl, rfl⟩ (fun _ => ⟨rfl, rfl⟩) st.config
    refine only_seq hlimit fun _ => ?_
    refine only_ask (only_op ⟨rfl, rfl⟩) fun timestamp => ?_
    exact only_try (only_op ⟨rfl, rfl⟩) fun tail => only_mapErr (only_op ⟨rfl, rfl⟩)
  refine only_bind hwrite fun result => ?_
  cases result with
  | ok u => trivial
  | error e => exact only_bind (only_op ⟨rfl, rfl⟩) fun _ => trivial

/-- Where a violation is counted and the count is below the threshold, `p` raises no alarm and does
    not fail. -/
def Tame (threshold : UInt32) (p : Prog Op Reply (Except KipukaError Unit)) : Prop :=
  ∀ calls q, Plays p calls q → (∀ n, ⟨.recordViolation, n⟩ ∈ calls → ¬ threshold ≤ n) →
    ∀ c ∈ calls, isViolation c.1 = true →
      (∀ c ∈ calls, isAction c.1 = false) ∧ ∀ r, q = .ret r → r = .ok ()

theorem tame_seq {α : Type} {threshold : UInt32} {x : Fallible α} {f : α → Fallible Unit}
    (hx : Quiet x.run) (hf : ∀ a, Tame threshold (f a).run) : Tame threshold (x >>= f).run := by
  intro calls q hplay hlow c hc hviolation
  have hquiet : Only (fun op => isViolation op = false) x.run := hx.mono fun op hop => hop.1
  obtain ⟨h₁, h₂, a, rfl, hfirst, hrest, hc⟩ := plays_seq_of_flag hplay hquiet hc hviolation
  obtain ⟨hactions, hok⟩ :=
    hf a h₂ q hrest (fun n hn => hlow n (List.mem_append_right _ hn)) c hc hviolation
  refine ⟨List.forall_mem_append.mpr ⟨fun c hc => ?_, hactions⟩, hok⟩
  exact (hx.plays hfirst c hc).2

theorem tame_trackViolations (cfg : AuditConfig) (eventType : AuditEventType) :
    Tame cfg.alarmThreshold (trackViolations cfg eventType).run := by
  intro calls q hplay hlow c hc hviolation
  have hother (hquiet : Only (fun op => isViolation op = false) (trackViolations cfg eventType).run) :
      False := by
    rw [hquiet.plays hplay c hc] at hviolation
    cases hviolation
  cases eventType with
  | securityViolation =>
    cases hplay with
    | start => cases hc
    | call _ _ n rest =>
      have hrest : Plays (if cfg.alarmThreshold ≤ n then raiseAlarm cfg n else pure ()).run _ q := rest
      rw [if_neg (hlow n List.mem_cons_self)] at hrest
      cases hrest
      refine ⟨List.forall_mem_singleton.mpr rfl, fun r hr => ?_⟩
      exact (Prog.ret.inj hr).symm
  | authSuccess => exact (hother (only_lift (only_op rfl))).elim
  | _ => exact (hother trivial).elim

theorem tame_recordInner : Tame st.config.alarmThreshold (recordInner H st event).run := by
  refine tame_seq quiet_admission fun _ => tame_seq ?_ fun _ => ?_
  · exact only_mapErr (only_op ⟨rfl, rfl⟩)
  refine tame_seq quiet_writeEvent fun _ => tame_seq ?_ fun _ => ?_
  · exact only_mapErr (only_op ⟨rfl, rfl⟩)
  · exact tame_trackViolations st.config event.eventType

/-- How `record_checked` ends: only a failed event sets the flag, and none counts a violation. -/
def ending (st : AuditState) (result : Except KipukaError Unit) :
    Prog Op Reply (Except KipukaError Unit) := do
  let result ← (latch st.config result).run
  ask .unlockWrites
  pure result

theorem only_ending (result : Except KipukaError Unit) :
    Only (fun op => isViolation op = false ∧ (isAction op = true → result ≠ .ok ()))
      (ending st result) := by
  have hunlock : ∀ r, Only (fun op => isViolation op = false ∧ (isAction op = true → result ≠ .ok ()))
      (ask .unlockWrites >>= fun _ => pure r : Prog Op Reply (Except KipukaError Unit)) :=
    fun r => only_bind (only_op ⟨rfl, fun h => by cases h⟩) fun _ => trivial
  refine only_bind ?_ hunlock
  unfold latch
  split
  · exact only_ask (only_op ⟨rfl, fun _ h => by cases h⟩) fun _ => trivial
  · trivial

theorem threshold_le_of_alarm {q : Prog Op Reply Unit} (hplay : Plays (record H st event) calls q)
    {n : UInt32} (hreply : ∀ m, ⟨.recordViolation, m⟩ ∈ calls → m = n)
    (halarm : (Entry.event calls).alarm = true) : st.config.alarmThreshold ≤ n := by
  obtain ⟨hviolated, hacted⟩ := Bool.and_eq_true_iff.mp halarm
  obtain ⟨c, hc, hviolation⟩ := List.any_eq_true.mp hviolated
  obtain ⟨d, hd, haction⟩ := List.any_eq_true.mp hacted
  have hchecked : ∃ p', Plays (recordChecked H st event).run calls p' := by
    rcases plays_bind hplay with h | ⟨h₁, h₂, a, rfl, hend, hret⟩
    · exact h
    · cases hret
      exact ⟨_, (List.append_nil h₁).symm ▸ hend⟩
  obtain ⟨p', hchecked⟩ := hchecked
  by_contra hlow
  unfold recordChecked at hchecked
  split at hchecked
  · cases hchecked
    cases hc
  cases hchecked with
  | start => cases hc
  | @call _ _ u _ _ rest =>
    have hrest : Plays ((recordInner H st event).run >>= ending st) _ p' := rest
    replace hc := (List.mem_cons.mp hc).resolve_left (by rintro rfl; cases hviolation)
    replace hd := (List.mem_cons.mp hd).resolve_left (by rintro rfl; cases haction)
    have hlower {h' : List (Answered Op Reply)} (hsub : h' ⊆ _) (m : UInt32)
        (hm : ⟨.recordViolation, m⟩ ∈ h') : ¬ st.config.alarmThreshold ≤ m :=
      hreply m (List.mem_cons_of_mem _ (hsub hm)) ▸ hlow
    rcases plays_bind hrest with ⟨q', hinner⟩ | ⟨h₁, h₂, result, rfl, hinner, hending⟩
    · have hquiet := tame_recordInner _ q' hinner (hlower (List.Subset.refl _)) c hc hviolation
      exact absurd haction (by simp [hquiet.1 d hd])
    · have honly := (only_ending result).plays hending
      have hc₁ : c ∈ h₁ := (List.mem_append.mp hc).resolve_right fun h => by
        simp [(honly c h).1] at hviolation
      obtain ⟨hquiet, hok⟩ :=
        tame_recordInner _ _ hinner (hlower (List.subset_append_left _ _)) c hc₁ hviolation
      rcases List.mem_append.mp hd with hd | hd
      · exact absurd haction (by simp [hquiet d hd])
      · exact (honly d hd).2 haction (hok result rfl)

end Calls

/-! ## Runs -/

section Runs

variable {H : Hashes} {st : AuditState} {s : Shared}

/-- The counter does not exceed the lockouts, and an alarm comes when they have reached the
    threshold. -/
structure Counted (st : AuditState) (s : Shared) : Prop where
  count : s.violationCount.toNat ≤ lockouts s.log
  alarms : ∀ after entry before, s.log = after ++ entry :: before → entry.alarm = true →
    st.config.alarmThreshold.toNat ≤ lockouts (entry :: before)

theorem lockouts_of_alarm {entry : Entry} (h : entry.alarm = true) (log : List Entry) :
    lockouts (entry :: log) = lockouts log + 1 := by
  refine List.countP_cons_of_pos ?_
  cases entry with
  | success => cases h
  | event calls => exact (Bool.and_eq_true_iff.mp h).1

theorem alarms_cons {new : Entry} (hs : Counted st s)
    (hnew : new.alarm = true → st.config.alarmThreshold.toNat ≤ lockouts (new :: s.log)) :
    ∀ after entry before, new :: s.log = after ++ entry :: before → entry.alarm = true →
      st.config.alarmThreshold.toNat ≤ lockouts (entry :: before) := by
  intro after entry before hlog halarm
  cases after with
  | nil =>
    obtain ⟨rfl, rfl⟩ := List.cons.inj hlog
    exact hnew halarm
  | cons x after => exact hs.alarms after entry before (List.cons.inj hlog).2 halarm

theorem counted_recorded (e : Env) (event : AuditEvent) (hs : Counted st s) :
    Counted st (s.recorded (callsFor H st e s event)) := by
  have hincrement : (s.violationCount + 1).toNat ≤ lockouts s.log + 1 := by
    rw [UInt32.toNat_add]
    exact (Nat.mod_le _ _).trans (Nat.add_le_add_right hs.count 1)
  constructor
  · have hcons (calls : List (Answered Op Reply)) : lockouts (.event calls :: s.log) =
        lockouts s.log + if violated calls = true then 1 else 0 := List.countP_cons
    simp only [Shared.recorded, hcons]
    split_ifs
    · exact hincrement
    · exact Nat.zero_le _
    · exact hs.count
  · refine alarms_cons hs fun halarm => ?_
    have hreply : ∀ m, ⟨.recordViolation, m⟩ ∈ callsFor H st e s event →
        m = s.violationCount + 1 := by
      intro m hm
      have hanswer : some (s.violationCount + 1) = some m := answer_of_mem_playBy hm
      exact (Option.some.inj hanswer).symm
    have hle := threshold_le_of_alarm (plays_playBy _ _) hreply halarm
    rw [lockouts_of_alarm halarm]
    exact (UInt32.le_iff_toNat_le.mp hle).trans hincrement

theorem counted_note (e : Env) (op : Auth.Otp.Op) (hs : Counted st s) :
    Counted st (note H st e s op) := by
  cases op with
  | auditEvent eventType actor detail => exact counted_recorded e _ hs
  | recordSuccess entityId =>
    refine ⟨hs.count, alarms_cons hs fun halarm => ?_⟩
    cases halarm
  | _ => exact hs

variable {L : OtpLib} {enabled : Bool} {W : Type} [DecidableEq W]
  {as : List (Act W Env (Option (List UInt8)))} {c : Config W _ _ _ Shared Auth.Otp.Reply}

/-- An alarm at a lockout comes after as many lockouts since the last successful authentication as
    the threshold says, if the threshold is at most one or if no lockout came before that success.
    The process starts with its counter at zero. -/
theorem alarm_consecutive (hcount : s.violationCount = 0) (hlog : s.log = [])
    (hrun : (otpRequests H st L enabled W).run (Config.initial s) as = some c)
    {after before : List Entry} {entry : Entry} (hentry : c.shared.log = after ++ entry :: before)
    (halarm : entry.alarm = true) (hwhen : st.config.alarmThreshold ≤ 1 ∨
      lockouts (sinceSuccess before) = lockouts before) :
    st.config.alarmThreshold.toNat ≤ lockouts (sinceSuccess (entry :: before)) := by
  have hstart : Counted st s := by
    refine ⟨?_, fun after entry before h => ?_⟩
    · rw [hcount]
      exact Nat.zero_le _
    · rw [hlog] at h
      exact absurd h (by simp)
  have hcounted : Counted st c.shared := by
    refine System.run_preserves _ (I := Counted st) ?_ (fun _ _ h => h) hstart hrun
    intro w e op s r s' hexec hs
    obtain ⟨-, rfl⟩ := Prod.mk.inj (Option.some.inj hexec)
    obtain ⟨hcount, halarms⟩ := counted_note (H := H) e op hs
    exact ⟨hcount, halarms⟩
  have hlockout : lockouts (sinceSuccess (entry :: before)) = lockouts (sinceSuccess before) + 1 := by
    cases entry with
    | success => cases halarm
    | event calls => exact lockouts_of_alarm halarm _
  rcases hwhen with hone | hall
  · rw [hlockout]
    exact (UInt32.le_iff_toNat_le.mp hone).trans (Nat.le_add_left 1 _)
  · rw [hlockout, hall, ← lockouts_of_alarm halarm]
    exact hcounted.alarms after entry before hentry halarm

/-! ## A run with two lockouts -/

def works : (op : Op) → Option (Reply op)
  | .isHalted => some false
  | .recordViolation => some 0
  | .setHalted | .resetViolations | .lockWrites | .unlockWrites | .rollback => some ()
  | .now => some ⟨"2026-03-01T10:15:00.000Z", by decide⟩
  | .countRows => some (.ok 0)
  | .oldestIds _ => some (.ok [])
  | .chainTail => some (.ok none)
  | .emitSyslogAlarm _ | .begin | .updateWriterLock | .deleteRow _ | .insertRow _ | .otherWrite _
  | .commit => some (.ok ())

def tokens : List Auth.Otp.OtpToken :=
  ["dev", "eve", "bob"].map fun who => { Auth.Otp.oneUse with entityId := who }

def atStart : Shared :=
  ⟨⟨tokens, .new ⟨1, fromSecs 60, fromSecs 300⟩ 0, []⟩, 0, false, []⟩

def haltsAt (threshold : UInt32) : AuditState :=
  ⟨{ AuditConfig.default with alarmThreshold := threshold, alarmAction := "halt" }, none⟩

def attempt (credentials : String) (steps : Nat) : List (Act Unit Env (Option (List UInt8))) :=
  .start () (some (asBytes ("Basic " ++ credentials))) ::
    List.replicate steps (.step () ⟨⟨0, "2026", tokens, none⟩, works⟩)

def runAt (threshold : UInt32) (acts : List (Act Unit Env (Option (List UInt8)))) :=
  (otpRequests (knownDigests []) (haltsAt threshold) Auth.Otp.plainLib true Unit).run
    (Config.initial atStart) acts

/-- A success and then two lockouts: with a threshold of two the second one raises the alarm. -/
theorem alarm_consecutive_twoLockouts :
    ∃ c, runAt 2 (attempt "dev:p" 6 ++ attempt "eve:x" 9 ++ attempt "bob:x" 9) = some c ∧
      ∃ entry before, c.shared.log = entry :: before ∧ entry.alarm = true ∧
        2 ≤ lockouts (sinceSuccess (entry :: before)) := by
  have hlogged : (runAt 2 (attempt "dev:p" 6 ++ attempt "eve:x" 9 ++ attempt "bob:x" 9)).map
      (fun c => (c.shared.log.map Entry.alarm,
        (lockouts (sinceSuccess c.shared.log.tail), lockouts c.shared.log.tail))) =
      some ([true, false, false, false, false], (1, 1)) := by decide +kernel
  obtain ⟨c, hrun, hc⟩ := Option.map_eq_some_iff.mp hlogged
  obtain ⟨halarms, hcounts⟩ := Prod.mk.inj hc
  obtain ⟨hsince, hall⟩ := Prod.mk.inj hcounts
  obtain ⟨entry, before, hlog, halarm, -⟩ := List.map_eq_cons_iff.mp halarms
  have hentry : c.shared.log = [] ++ entry :: before := hlog
  rw [hlog, List.tail_cons] at hsince hall
  exact ⟨c, hrun, entry, before, hlog, halarm,
    alarm_consecutive rfl rfl hrun hentry halarm (.inr (hsince.trans hall.symm))⟩

/-- Two lockouts with a success in between: with a threshold of two the second one halts the
    process. -/
theorem alarm_across_success :
    (haltsAt 2).config.validate = .ok () ∧
      (runAt 2 (attempt "eve:x" 9 ++ attempt "dev:p" 6 ++ attempt "bob:x" 9)).map
        (fun c => (c.shared.halted, c.shared.log.map fun x => (x.isSuccess, x.lockout, x.alarm))) =
          some (true, [(false, true, true), (false, false, false), (true, false, false),
            (false, true, false), (false, false, false)]) ∧
      (runAt 2 (attempt "eve:x" 9 ++ attempt "dev:p" 6 ++ attempt "bob:x" 9)).map
        (fun c => lockouts (sinceSuccess c.shared.log)) = some 1 := by
  decide +kernel

end Runs

end Kipuka.Audit.Alarm
