/-
  The `[audit]` section (`src/config/audit.rs`): fields, defaults and the startup check.
-/
import Kipuka.Generic.Outcome
import Mathlib.Algebra.Group.Int.Defs

namespace Kipuka.Audit

open Generic

inductive RotationPolicy where
  | size | daily | weekly | never
  deriving DecidableEq, Repr

inductive OverflowPolicy where
  | dropOldest | halt
  deriving DecidableEq, Repr

structure AuditConfig where
  enabled : Bool
  logPath : String
  signed : Bool
  integrityKey : Option String
  rotationPolicy : RotationPolicy
  maxFileSize : UInt64
  retentionCount : UInt32
  logToDb : Bool
  overflowPolicy : OverflowPolicy
  maxRows : Option UInt64
  alarmThreshold : UInt32
  alarmAction : String
  auditableEvents : List String
  rotationCheckIntervalSecs : Option UInt64
  deriving DecidableEq, Repr

def defaultLogPath : String := "/var/log/kipuka/audit.log"

def defaultMaxFileSize : UInt64 := 100 * 1024 * 1024

def defaultRetentionCount : UInt32 := 10

def defaultAlarmThreshold : UInt32 := 10

def defaultAlarmAction : String := "syslog"

def AuditConfig.default : AuditConfig where
  enabled := true
  logPath := defaultLogPath
  signed := false
  integrityKey := none
  rotationPolicy := .daily
  maxFileSize := defaultMaxFileSize
  retentionCount := defaultRetentionCount
  logToDb := true
  overflowPolicy := .dropOldest
  maxRows := none
  alarmThreshold := defaultAlarmThreshold
  alarmAction := defaultAlarmAction
  auditableEvents := []
  rotationCheckIntervalSecs := none

def i64Max : UInt64 := 9223372036854775807

def asI64 (n : UInt64) : Int := if n ≤ i64Max then n.toNat else (n.toNat : Int) - 2 ^ 64

/-- Why a configuration is refused. `alarmAction` carries the value the message quotes. -/
inductive AuditConfigError where
  | fileOutput | eventFiltering | maxRowsRange | integrityKey | maxRowsZero | logToDb
  | alarmAction (got : String)
  | alarmThreshold | maxFileSize | rotationInterval
  deriving DecidableEq, Repr

def AuditConfigError.message (debug : String → String) : AuditConfigError → String
  | fileOutput => "file audit output/rotation settings are unsupported; configure the external " ++
      "logging sink instead"
  | eventFiltering =>
      "audit event filtering is unsupported; all security events must be recorded"
  | maxRowsRange => "[audit].max_rows exceeds the database integer range"
  | integrityKey => "[audit].integrity_key is required (and must be non-empty) when signed = true"
  | maxRowsZero => "[audit].max_rows must be positive"
  | logToDb => "[audit].log_to_db must be true: file-only audit is unsupported"
  | alarmAction got => "[audit].alarm_action must be \"syslog\" or \"halt\", got " ++ debug got
  | alarmThreshold => "[audit].alarm_threshold must be at least 1"
  | maxFileSize => "[audit].max_file_size must be at least 1 when rotation_policy = \"size\""
  | rotationInterval => "[audit].rotation_check_interval_secs must be at least 1 when set"

def integrityKeyMissing (key : Option String) : Bool :=
  match key with
  | none => true
  | some k => k.isEmpty

def AuditConfig.validate (cfg : AuditConfig) : Except AuditConfigError Unit :=
  if cfg.enabled = false then .ok () else do
    refuseIf (cfg.logPath ≠ defaultLogPath ∨ cfg.rotationPolicy ≠ .daily ∨
      cfg.maxFileSize ≠ defaultMaxFileSize ∨ cfg.retentionCount ≠ defaultRetentionCount ∨
      cfg.rotationCheckIntervalSecs.isSome) .fileOutput
    refuseIf (!cfg.auditableEvents.isEmpty) .eventFiltering
    refuseIf (cfg.maxRows.any (fun n => i64Max < n)) .maxRowsRange
    refuseIf (cfg.signed && integrityKeyMissing cfg.integrityKey) .integrityKey
    refuseIf (cfg.maxRows = some 0) .maxRowsZero
    refuseIf (!cfg.logToDb) .logToDb
    refuseIf (cfg.alarmAction ≠ "syslog" ∧ cfg.alarmAction ≠ "halt") (.alarmAction cfg.alarmAction)
    refuseIf (cfg.alarmThreshold = 0) .alarmThreshold
    refuseIf (cfg.rotationPolicy = .size ∧ cfg.maxFileSize = 0) .maxFileSize
    refuseIf (cfg.rotationCheckIntervalSecs = some 0) .rotationInterval

theorem maxRows_of_validate {cfg : AuditConfig} {limit : UInt64} (hok : cfg.validate = .ok ())
    (henabled : cfg.enabled = true) (hlimit : cfg.maxRows = some limit) :
    1 ≤ limit.toNat ∧ asI64 limit = limit.toNat := by
  unfold AuditConfig.validate at hok
  rw [if_neg (by simp [henabled])] at hok
  simp only [refuseIf_bind_eq_ok] at hok
  obtain ⟨-, -, hrange, -, hzero, -⟩ := hok
  have hle : limit ≤ i64Max := by simpa [hlimit] using hrange
  have hne : limit ≠ 0 := by simpa [hlimit] using hzero
  constructor
  · have hpos : limit.toNat ≠ 0 := fun h => hne (UInt64.toNat_inj.mp h)
    omega
  · exact if_pos hle

theorem default_validate : AuditConfig.default.validate = .ok () := by decide

end Kipuka.Audit
