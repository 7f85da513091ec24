/-
  Issuing a one-time password (`generate_otp` in `src/routes/admin/otp.rs`): when it expires.
-/
import Kipuka.Auth.Otp
import Kipuka.Generic.Outcome
import Kipuka.Generic.TimeText

namespace Kipuka.Auth.Otp

open Generic
open Inventory (AdminRole requireOperator)

/-! ## The endpoint -/

/-- The fields of `OtpConfig` that the endpoint reads; the entropy decides how many bytes are drawn. -/
structure OtpConfig where
  enabled : Bool
  ttlSeconds : UInt64
  maxUsage : UInt32

structure GenerateOtpRequest where
  entityId : String
  ttlSeconds : Option UInt64
  maxUsage : Option UInt32

structure OtpResponse where
  token : String
  entityId : String
  expiresAt : String
  maxUsage : UInt32
  deriving DecidableEq, Repr

/-- What the surroundings give: the random bytes, the clock, and the insertion, which chooses the
    row's id. -/
structure Issuing where
  random : Except String (List UInt8)
  now : Int
  inserted : Except String Int

structure Issued where
  row : OtpToken
  response : OtpResponse
  audit : String × String
  deriving DecidableEq, Repr

def asI64 (n : UInt64) : Int := n.toBitVec.toInt

def durationSeconds (secs : Int) : Outcome Inventory.Response Int :=
  if -9223372036854775 ≤ secs ∧ secs ≤ 9223372036854775 then .ok (secs * 1000000000) else .panic

/-- `+` of a time and a duration. The years of a date are -262143 to 262142. -/
def addDuration (t duration : Int) : Outcome Inventory.Response Int :=
  let year := (civil ((t + duration) / 86400000000000)).year
  if -262143 ≤ year ∧ year ≤ 262142 then .ok (t + duration) else .panic

def expiresAt (now : Int) (ttl : UInt64) : Outcome Inventory.Response String := do
  let duration ← durationSeconds (asI64 ttl)
  let expiry ← addDuration now duration
  return rfc3339Millis expiry

def badRequest (error detail : String) : Inventory.Response := ⟨400, some error, some detail⟩

def serverError (error detail : String) : Inventory.Response := ⟨500, some error, some detail⟩

def generateOtp (L : OtpLib) (encode : List UInt8 → String) (cfg : OtpConfig) (role : AdminRole)
    (req : GenerateOtpRequest) (e : Issuing) : Outcome Inventory.Response Issued :=
  match requireOperator role with
  | some refusal => .err refusal
  | none =>
    if !cfg.enabled then
      .err (badRequest "otp_disabled" "OTP authentication is not enabled in server configuration")
    else if req.entityId.isEmpty then
      .err (badRequest "invalid_entity_id" "entity_id must not be empty")
    else
      let ttl := req.ttlSeconds.getD cfg.ttlSeconds
      let maxUsage := req.maxUsage.getD cfg.maxUsage
      match e.random with
      | .error _ =>
        .err (serverError "rng_failure" "failed to obtain secure random bytes for OTP generation")
      | .ok raw => do
        let token := encode raw
        let tokenHash := hexEncode (L.sha256 (asBytes token))
        let expires ← expiresAt e.now ttl
        match e.inserted with
        | .error _ => .err (serverError "storage_error" "Failed to store OTP token")
        | .ok id =>
          return {
            row := ⟨id, tokenHash, req.entityId, expires, maxUsage.toNat, 0, false, none⟩
            response := ⟨token, req.entityId, expires, maxUsage⟩
            audit := ("otp_generated", s!"entity_id={req.entityId}") }

/-! ## Expiry -/

section

variable {L : OtpLib} {encode : List UInt8 → String} {cfg : OtpConfig} {role : AdminRole}
  {req : GenerateOtpRequest} {e : Issuing}

theorem expiresAt_of_fourDigits {now : Int} {ttl : UInt64} (hnow : FourDigits now)
    (hexpiry : FourDigits (now + ttl.toNat * 1000000000)) :
    expiresAt now ttl = .ok (rfc3339Millis (now + ttl.toNat * 1000000000)) := by
  unfold FourDigits at hnow hexpiry
  have hcast : asI64 ttl = ttl.toNat := BitVec.toInt_eq_toNat_of_lt (by
    show 2 * ttl.toNat < 2 ^ 64
    omega)
  obtain ⟨hlow, hhigh⟩ := civil_year
    (show 0 ≤ (now + ttl.toNat * 1000000000) / 86400000000000 by omega) (by omega)
  rw [expiresAt, durationSeconds, hcast, if_pos (by omega), Outcome.ok_bind, addDuration,
    if_pos ⟨by omega, by omega⟩]
  rfl

/-- What the endpoint and its surroundings ask for before a token is issued, its lifetime apart. -/
structure Admitted (cfg : OtpConfig) (role : AdminRole) (req : GenerateOtpRequest) (e : Issuing) :
    Prop where
  operator : requireOperator role = none
  enabled : cfg.enabled = true
  entity : req.entityId.isEmpty = false
  random : ∃ raw, e.random = .ok raw
  inserted : ∃ id, e.inserted = .ok id

variable (L encode) in
theorem Admitted.generateOtp_eq (h : Admitted cfg role req e) :
    ∃ issued : String → Issued, (∀ text, (issued text).row.expiresAt = text) ∧
      generateOtp L encode cfg role req e =
        expiresAt e.now (req.ttlSeconds.getD cfg.ttlSeconds) >>= fun text => .ok (issued text) := by
  obtain ⟨raw, hraw⟩ := h.random
  obtain ⟨id, hid⟩ := h.inserted
  unfold generateOtp
  simp only [h.operator, h.enabled, h.entity, hraw, hid]
  exact ⟨_, fun text => rfl, rfl⟩

theorem expiresAt_cases (now : Int) (ttl : UInt64) :
    expiresAt now ttl = .panic ∨ ∃ expiry, expiresAt now ttl = .ok (rfc3339Millis expiry) := by
  unfold expiresAt durationSeconds
  split
  · unfold addDuration
    rw [Outcome.ok_bind]
    dsimp only
    split
    · exact .inr ⟨_, rfl⟩
    · exact .inl rfl
  · exact .inl rfl

end

/-- A token is issued without a panic, and the comparison of texts finds it valid at a time `t`
    exactly if `t` is before the time of its issue plus the requested seconds, in milliseconds, if
    and only if that is a time in the year 9999 at the latest. The request is one that is accepted,
    and the times that are compared have years from 1970 to 9999. -/
theorem issued_expiry (L : OtpLib) (encode : List UInt8 → String) (cfg : OtpConfig)
    (role : AdminRole) (req : GenerateOtpRequest) (e : Issuing) (hnow : FourDigits e.now)
    (hadmitted : Admitted cfg role req e) :
    (generateOtp L encode cfg role req e ≠ .panic ∧
      ∀ issued, generateOtp L encode cfg role req e = .ok issued → ∀ t, FourDigits t →
        (rfc3339Millis t < issued.row.expiresAt ↔
          millis t < millis e.now + 1000 * (req.ttlSeconds.getD cfg.ttlSeconds).toNat)) ↔
      FourDigits (e.now + (req.ttlSeconds.getD cfg.ttlSeconds).toNat * 1000000000) := by
  obtain ⟨issue, hrow, hgenerate⟩ := hadmitted.generateOtp_eq L encode
  rw [hgenerate]
  generalize req.ttlSeconds.getD cfg.ttlSeconds = ttl
  constructor
  · rintro ⟨hpanic, hexact⟩
    by_contra hlate
    unfold FourDigits at hnow hlate
    rcases expiresAt_cases e.now ttl with hexpires | ⟨expiry, hexpires⟩
    · rw [hexpires] at hpanic
      exact hpanic rfl
    · -- at the last time with four digits the token would still be valid
      have hlatest := hexact (issue (rfc3339Millis expiry)) (by rw [hexpires]; rfl) latest
        fourDigits_latest
      rw [hrow] at hlatest
      refine not_latest_lt expiry (hlatest.mpr ?_)
      unfold millis latest
      omega
  · intro hexpiry
    rw [expiresAt_of_fourDigits hnow hexpiry, Outcome.ok_bind]
    refine ⟨by simp, fun issued hissued t ht => ?_⟩
    have hsum : millis (e.now + ttl.toNat * 1000000000) = millis e.now + 1000 * ttl.toNat := by
      unfold millis
      omega
    rw [← Outcome.ok.inj hissued, hrow, rfc3339Millis_lt_iff ht hexpiry, hsum]

/-! ## A server -/

namespace Sample

def lib : OtpLib := ⟨fun _ => none, fun bs => bs⟩

def config : OtpConfig := ⟨true, 3600, 1⟩

def issue (ttl : UInt64) : Outcome Inventory.Response Issued :=
  generateOtp lib hexEncode config .operator ⟨"dev", some ttl, none⟩
    ⟨.ok [7], 1700000000123000000, .ok 1⟩

end Sample

open Sample in
theorem issued_expiry_two_hours :
    (issue 7200 ≠ .panic) ∧ ∀ issued, issue 7200 = .ok issued →
      (rfc3339Millis 1700007200122999999 < issued.row.expiresAt ↔
        millis 1700007200122999999 < millis 1700000000123000000 + 1000 * (7200 : UInt64).toNat) := by
  have hadmitted : Admitted config .operator ⟨"dev", some 7200, none⟩
      ⟨.ok [7], 1700000000123000000, .ok 1⟩ := ⟨rfl, rfl, rfl, ⟨_, rfl⟩, _, rfl⟩
  obtain ⟨hpanic, hexact⟩ := (issued_expiry lib hexEncode config .operator
    ⟨"dev", some 7200, none⟩ ⟨.ok [7], 1700000000123000000, .ok 1⟩ (by unfold FourDigits; decide)
    hadmitted).mpr (by unfold FourDigits; decide)
  exact ⟨hpanic, fun issued h => hexact issued h _ (by unfold FourDigits; decide)⟩

open Sample in
/-- With 2⁶³ seconds the endpoint panics. With 2⁶⁴ - 1 it issues a token that expired a second ago,
    and with 3·10¹¹, some 9500 years, one that is never valid: its expiry starts with a sign. -/
theorem expiry_out_of_range :
    issue 9223372036854775808 = .panic ∧
      (∃ issued, issue 18446744073709551615 = .ok issued ∧
        issued.row.expiresAt = "2023-11-14T22:13:19.123Z") ∧
      ∃ issued, issue 300000000000 = .ok issued ∧
        issued.row.expiresAt = "+11530-06-30T03:33:20.123Z" ∧
        ¬ rfc3339Millis 1700000000123000000 < issued.row.expiresAt := by
  refine ⟨by decide +kernel, ⟨_, rfl, by decide +kernel⟩, ⟨_, rfl, by decide +kernel, by decide +kernel⟩⟩

end Kipuka.Auth.Otp
