/-
  The schema and its migrations (`src/db/schema.rs`).
-/
import Kipuka.Db.Sql
import Kipuka.Generic.Script

namespace Kipuka.Db

open Generic

/-! ## The statements -/

def column (name type attributes : String) : Column := ⟨name, type, attributes, none⟩

def nullable (name type : String) : Column := ⟨name, type, "", none⟩

def references (name type attributes table column : String) : Column :=
  ⟨name, type, attributes, some ⟨table, column⟩⟩

def checked (name attributes : String) (values : List String) : Column :=
  column name "TEXT" (attributes ++ " CHECK (" ++ name ++ " IN (" ++ quoted values ++ "))")

def enumOf (values : List String) : String := "ENUM(" ++ quoted values ++ ")"

def index (name table : String) (columns : List String) : Index :=
  ⟨name, table, columns.map fun c => ⟨c, ""⟩⟩

def sqliteNow : String := "NOT NULL DEFAULT (strftime('%Y-%m-%dT%H:%M:%SZ', 'now'))"

def postgresNow : String :=
  "NOT NULL DEFAULT (to_char(NOW(), 'YYYY-MM-DD\"T\"HH24:MI:SS\"Z\"'))"

def mariaDbNow : String := "NOT NULL DEFAULT (DATE_FORMAT(NOW(6), '%Y-%m-%dT%H:%i:%S.%fZ'))"

def innoDb : String := "ENGINE=InnoDB DEFAULT CHARSET=utf8mb4 COLLATE=utf8mb4_unicode_ci"

/-! ### Indexes

The dialects differ in the length that MariaDB needs for the index on a text. -/

def certificatesIndexes (subjectDnLength : String) : List Stmt := [
  .createIndex (index "idx_certificates_serial" "certificates" ["serial"]),
  .createIndex ⟨"idx_certificates_subject_dn", "certificates", [⟨"subject_dn", subjectDnLength⟩]⟩,
  .createIndex (index "idx_certificates_ca_id" "certificates" ["ca_id"]),
  .createIndex (index "idx_certificates_status" "certificates" ["status"]),
  .createIndex (index "idx_certificates_not_after" "certificates" ["not_after"])]

def otpTokensIndexes : List Stmt := [
  .createIndex (index "idx_otp_tokens_entity_id" "otp_tokens" ["entity_id"]),
  .createIndex (index "idx_otp_tokens_expires_at" "otp_tokens" ["expires_at"]),
  .createIndex (index "idx_otp_tokens_hash" "otp_tokens" ["entity_id", "token_hash"])]

def auditEventsIndexes : List Stmt := [
  .createIndex (index "idx_audit_events_timestamp" "audit_events" ["timestamp"]),
  .createIndex (index "idx_audit_events_event_type" "audit_events" ["event_type"]),
  .createIndex (index "idx_audit_events_actor" "audit_events" ["actor"])]

def caHealthIndexes : List Stmt := [
  .createIndex (index "idx_ca_health_ca_id" "ca_health" ["ca_id"])]

def enrollmentRequestsIndexes : List Stmt := [
  .createIndex (index "idx_enrollment_requests_status" "enrollment_requests" ["status"]),
  .createIndex (index "idx_enrollment_requests_ca_id" "enrollment_requests" ["ca_id"]),
  .createIndex (index "idx_enrollment_requests_entity_id" "enrollment_requests" ["entity_id"]),
  .createIndex (index "idx_enrollment_requests_csr_hash" "enrollment_requests" ["csr_hash"])]

def serverGeneratedKeysIndexes : List Stmt := [
  .createIndex (index "idx_server_generated_keys_enrollment_id" "server_generated_keys"
    ["enrollment_id"])]

def starCertificatesIndexes : List Stmt := [
  .createIndex ⟨"idx_star_certs_order", "star_certificates",
    [⟨"star_order_id", ""⟩, ⟨"renewal_number", " DESC"⟩]⟩]

def pendingCsrsIndexes : List Stmt := [
  .createIndex (index "idx_pending_csrs_ca_id" "pending_csrs" ["ca_id"]),
  .createIndex (index "idx_pending_csrs_status" "pending_csrs" ["status"]),
  .createIndex (index "idx_pending_csrs_identity" "pending_csrs" ["identity"])]

/-! ### Version 1 -/

def sqliteSchemaVersion : TableDef where
  name := "schema_version"
  columns := [
    column "version" "INTEGER" "NOT NULL",
    column "applied_at" "TEXT" sqliteNow]
  foreignKeys := []
  options := ""

def sqliteCertificates : TableDef where
  name := "certificates"
  columns := [
    column "id" "INTEGER" "PRIMARY KEY AUTOINCREMENT",
    column "serial" "TEXT" "NOT NULL UNIQUE",
    column "subject_dn" "TEXT" "NOT NULL",
    column "issuer_dn" "TEXT" "NOT NULL",
    column "not_before" "TEXT" "NOT NULL",
    column "not_after" "TEXT" "NOT NULL",
    column "der_encoded" "BLOB" "NOT NULL",
    column "ca_id" "TEXT" "NOT NULL",
    nullable "profile" "TEXT",
    checked "status" "NOT NULL DEFAULT 'active'" ["active", "revoked", "expired"],
    nullable "revocation_reason" "TEXT",
    nullable "revocation_time" "TEXT",
    column "created_at" "TEXT" sqliteNow]
  foreignKeys := []
  options := ""

def sqliteOtpTokens : TableDef where
  name := "otp_tokens"
  columns := [
    column "id" "INTEGER" "PRIMARY KEY AUTOINCREMENT",
    column "token_hash" "TEXT" "NOT NULL",
    column "entity_id" "TEXT" "NOT NULL",
    nullable "label" "TEXT",
    nullable "profile" "TEXT",
    column "created_at" "TEXT" sqliteNow,
    column "expires_at" "TEXT" "NOT NULL",
    column "max_uses" "INTEGER" "NOT NULL DEFAULT 1",
    column "current_uses" "INTEGER" "NOT NULL DEFAULT 0",
    column "revoked" "INTEGER" "NOT NULL DEFAULT 0",
    nullable "revoked_at" "TEXT"]
  foreignKeys := []
  options := ""

def sqliteAuditEvents : TableDef where
  name := "audit_events"
  columns := [
    column "id" "INTEGER" "PRIMARY KEY AUTOINCREMENT",
    column "timestamp" "TEXT" "NOT NULL DEFAULT (strftime('%Y-%m-%dT%H:%M:%f000Z', 'now'))",
    column "event_type" "TEXT" "NOT NULL",
    nullable "actor" "TEXT",
    nullable "target" "TEXT",
    nullable "detail_json" "TEXT",
    nullable "source_ip" "TEXT",
    nullable "session_id" "TEXT"]
  foreignKeys := []
  options := ""

def sqliteCaHealth : TableDef where
  name := "ca_health"
  columns := [
    column "id" "INTEGER" "PRIMARY KEY AUTOINCREMENT",
    column "ca_id" "TEXT" "NOT NULL UNIQUE",
    checked "status" "NOT NULL DEFAULT 'unknown'" ["healthy", "unhealthy", "unknown"],
    nullable "last_check" "TEXT",
    nullable "last_success" "TEXT",
    nullable "last_failure" "TEXT",
    column "consecutive_failures" "INTEGER" "NOT NULL DEFAULT 0",
    nullable "response_latency_ms" "INTEGER"]
  foreignKeys := []
  options := ""

def sqliteEnrollmentRequests : TableDef where
  name := "enrollment_requests"
  columns := [
    column "id" "INTEGER" "PRIMARY KEY AUTOINCREMENT",
    checked "request_type" "NOT NULL" ["enroll", "reenroll", "serverkeygen", "fullcmc"],
    column "csr_hash" "TEXT" "NOT NULL",
    column "ca_id" "TEXT" "NOT NULL",
    nullable "label" "TEXT",
    column "auth_method" "TEXT" "NOT NULL",
    nullable "entity_id" "TEXT",
    checked "status" "NOT NULL DEFAULT 'pending'" ["pending", "issued", "rejected"],
    references "certificate_id" "INTEGER" "" "certificates" "id",
    column "created_at" "TEXT" sqliteNow,
    nullable "completed_at" "TEXT"]
  foreignKeys := []
  options := ""

def sqliteServerGeneratedKeys : TableDef where
  name := "server_generated_keys"
  columns := [
    column "id" "INTEGER" "PRIMARY KEY AUTOINCREMENT",
    references "enrollment_id" "INTEGER" "NOT NULL" "enrollment_requests" "id",
    column "key_type" "TEXT" "NOT NULL",
    column "key_size" "INTEGER" "NOT NULL",
    column "archived" "INTEGER" "NOT NULL DEFAULT 0",
    nullable "archive_id" "TEXT",
    column "created_at" "TEXT" sqliteNow]
  foreignKeys := []
  options := ""

def sqliteStarOrders : TableDef where
  name := "star_orders"
  columns := [
    column "id" "TEXT" "PRIMARY KEY",
    column "subject_dn" "TEXT" "NOT NULL",
    column "key_type" "TEXT" "NOT NULL",
    column "profile" "TEXT" "NOT NULL",
    column "renewal_interval_secs" "INTEGER" "NOT NULL",
    column "lifetime_end" "TEXT" "NOT NULL",
    column "max_renewals" "INTEGER" "NOT NULL",
    column "current_renewals" "INTEGER" "NOT NULL DEFAULT 0",
    checked "status" "NOT NULL DEFAULT 'active'" ["active", "cancelled", "completed", "expired"],
    nullable "requestor_dn" "TEXT",
    column "ca_id" "TEXT" "NOT NULL",
    column "csr_der" "BLOB" "NOT NULL",
    column "created_at" "TEXT" sqliteNow,
    nullable "cancelled_at" "TEXT"]
  foreignKeys := []
  options := ""

def sqliteStarCertificates : TableDef where
  name := "star_certificates"
  columns := [
    column "id" "INTEGER" "PRIMARY KEY AUTOINCREMENT",
    references "star_order_id" "TEXT" "NOT NULL" "star_orders" "id",
    column "serial_number" "TEXT" "NOT NULL",
    column "certificate_der" "BLOB" "NOT NULL",
    column "not_before" "TEXT" "NOT NULL",
    column "not_after" "TEXT" "NOT NULL",
    column "renewal_number" "INTEGER" "NOT NULL",
    column "created_at" "TEXT" sqliteNow]
  foreignKeys := []
  options := ""

def migrationV1Sqlite : List Stmt := List.flatten [
  [.createTable sqliteSchemaVersion,
    .createTable sqliteCertificates],
  certificatesIndexes "",
  [.createTable sqliteOtpTokens],
  otpTokensIndexes,
  [.createTable sqliteAuditEvents],
  auditEventsIndexes,
  [.createTable sqliteCaHealth],
  caHealthIndexes,
  [.createTable sqliteEnrollmentRequests],
  enrollmentRequestsIndexes,
  [.createTable sqliteServerGeneratedKeys],
  serverGeneratedKeysIndexes,
  [.createTable sqliteStarOrders,
    .createTable sqliteStarCertificates],
  starCertificatesIndexes]

def postgresSchemaVersion : TableDef where
  name := "schema_version"
  columns := [
    column "version" "INTEGER" "NOT NULL",
    column "applied_at" "TEXT" postgresNow]
  foreignKeys := []
  options := ""

def postgresCertificates : TableDef where
  name := "certificates"
  columns := [
    column "id" "BIGSERIAL" "PRIMARY KEY",
    column "serial" "TEXT" "NOT NULL UNIQUE",
    column "subject_dn" "TEXT" "NOT NULL",
    column "issuer_dn" "TEXT" "NOT NULL",
    column "not_before" "TEXT" "NOT NULL",
    column "not_after" "TEXT" "NOT NULL",
    column "der_encoded" "BYTEA" "NOT NULL",
    column "ca_id" "TEXT" "NOT NULL",
    nullable "profile" "TEXT",
    column "status" "certificate_status" "NOT NULL DEFAULT 'active'",
    nullable "revocation_reason" "TEXT",
    nullable "revocation_time" "TEXT",
    column "created_at" "TEXT" postgresNow]
  foreignKeys := []
  options := ""

def postgresOtpTokens : TableDef where
  name := "otp_tokens"
  columns := [
    column "id" "BIGSERIAL" "PRIMARY KEY",
    column "token_hash" "TEXT" "NOT NULL",
    column "entity_id" "TEXT" "NOT NULL",
    nullable "label" "TEXT",
    nullable "profile" "TEXT",
    column "created_at" "TEXT" postgresNow,
    column "expires_at" "TEXT" "NOT NULL",
    column "max_uses" "INTEGER" "NOT NULL DEFAULT 1",
    column "current_uses" "INTEGER" "NOT NULL DEFAULT 0",
    column "revoked" "BOOLEAN" "NOT NULL DEFAULT FALSE",
    nullable "revoked_at" "TEXT"]
  foreignKeys := []
  options := ""

def postgresAuditEvents : TableDef where
  name := "audit_events"
  columns := [
    column "id" "BIGSERIAL" "PRIMARY KEY",
    column "timestamp" "TEXT" postgresNow,
    column "event_type" "TEXT" "NOT NULL",
    nullable "actor" "TEXT",
    nullable "target" "TEXT",
    nullable "detail_json" "TEXT",
    nullable "source_ip" "TEXT",
    nullable "session_id" "TEXT"]
  foreignKeys := []
  options := ""

def postgresCaHealth : TableDef where
  name := "ca_health"
  columns := [
    column "id" "BIGSERIAL" "PRIMARY KEY",
    column "ca_id" "TEXT" "NOT NULL UNIQUE",
    column "status" "ca_health_status" "NOT NULL DEFAULT 'unknown'",
    nullable "last_check" "TEXT",
    nullable "last_success" "TEXT",
    nullable "last_failure" "TEXT",
    column "consecutive_failures" "INTEGER" "NOT NULL DEFAULT 0",
    nullable "response_latency_ms" "INTEGER"]
  foreignKeys := []
  options := ""

def postgresEnrollmentRequests : TableDef where
  name := "enrollment_requests"
  columns := [
    column "id" "BIGSERIAL" "PRIMARY KEY",
    column "request_type" "enrollment_type" "NOT NULL",
    column "csr_hash" "TEXT" "NOT NULL",
    column "ca_id" "TEXT" "NOT NULL",
    nullable "label" "TEXT",
    column "auth_method" "TEXT" "NOT NULL",
    nullable "entity_id" "TEXT",
    column "status" "enrollment_status" "NOT NULL DEFAULT 'pending'",
    references "certificate_id" "BIGINT" "" "certificates" "id",
    column "created_at" "TEXT" postgresNow,
    nullable "completed_at" "TEXT"]
  foreignKeys := []
  options := ""

def postgresServerGeneratedKeys : TableDef where
  name := "server_generated_keys"
  columns := [
    column "id" "BIGSERIAL" "PRIMARY KEY",
    references "enrollment_id" "BIGINT" "NOT NULL" "enrollment_requests" "id",
    column "key_type" "TEXT" "NOT NULL",
    column "key_size" "INTEGER" "NOT NULL",
    column "archived" "BOOLEAN" "NOT NULL DEFAULT FALSE",
    nullable "archive_id" "TEXT",
    column "created_at" "TEXT" postgresNow]
  foreignKeys := []
  options := ""

def postgresStarOrders : TableDef where
  name := "star_orders"
  columns := [
    column "id" "TEXT" "PRIMARY KEY",
    column "subject_dn" "TEXT" "NOT NULL",
    column "key_type" "TEXT" "NOT NULL",
    column "profile" "TEXT" "NOT NULL",
    column "renewal_interval_secs" "INTEGER" "NOT NULL",
    column "lifetime_end" "TEXT" "NOT NULL",
    column "max_renewals" "INTEGER" "NOT NULL",
    column "current_renewals" "INTEGER" "NOT NULL DEFAULT 0",
    column "status" "star_order_status" "NOT NULL DEFAULT 'active'",
    nullable "requestor_dn" "TEXT",
    column "ca_id" "TEXT" "NOT NULL",
    column "csr_der" "BYTEA" "NOT NULL",
    column "created_at" "TEXT" postgresNow,
    nullable "cancelled_at" "TEXT"]
  foreignKeys := []
  options := ""

def postgresStarCertificates : TableDef where
  name := "star_certificates"
  columns := [
    column "id" "BIGSERIAL" "PRIMARY KEY",
    references "star_order_id" "TEXT" "NOT NULL" "star_orders" "id",
    column "serial_number" "TEXT" "NOT NULL",
    column "certificate_der" "BYTEA" "NOT NULL",
    column "not_before" "TEXT" "NOT NULL",
    column "not_after" "TEXT" "NOT NULL",
    column "renewal_number" "INTEGER" "NOT NULL",
    column "created_at" "TEXT" postgresNow]
  foreignKeys := []
  options := ""

def migrationV1Postgres : List Stmt := List.flatten [
  [.createTable postgresSchemaVersion,
    .createType ⟨"certificate_status", ["active", "revoked", "expired"]⟩,
    .createType ⟨"enrollment_type", ["enroll", "reenroll", "serverkeygen", "fullcmc"]⟩,
    .createType ⟨"enrollment_status", ["pending", "issued", "rejected"]⟩,
    .createType ⟨"ca_health_status", ["healthy", "unhealthy", "unknown"]⟩,
    .createType ⟨"star_order_status", ["active", "cancelled", "completed", "expired"]⟩,
    .createTable postgresCertificates],
  certificatesIndexes "",
  [.createTable postgresOtpTokens],
  otpTokensIndexes,
  [.createTable postgresAuditEvents],
  auditEventsIndexes,
  [.createTable postgresCaHealth],
  caHealthIndexes,
  [.createTable postgresEnrollmentRequests],
  enrollmentRequestsIndexes,
  [.createTable postgresServerGeneratedKeys],
  serverGeneratedKeysIndexes,
  [.createTable postgresStarOrders,
    .createTable postgresStarCertificates],
  starCertificatesIndexes]

def mariaDbSchemaVersion : TableDef where
  name := "schema_version"
  columns := [
    column "version" "INT" "NOT NULL",
    column "applied_at" "TEXT" mariaDbNow]
  foreignKeys := []
  options := innoDb

def mariaDbCertificates : TableDef where
  name := "certificates"
  columns := [
    column "id" "BIGINT" "AUTO_INCREMENT PRIMARY KEY",
    column "serial" "VARCHAR(255)" "NOT NULL UNIQUE",
    column "subject_dn" "TEXT" "NOT NULL",
    column "issuer_dn" "TEXT" "NOT NULL",
    column "not_before" "TEXT" "NOT NULL",
    column "not_after" "TEXT" "NOT NULL",
    column "der_encoded" "LONGBLOB" "NOT NULL",
    column "ca_id" "VARCHAR(255)" "NOT NULL",
    nullable "profile" "VARCHAR(255)",
    column "status" (enumOf ["active", "revoked", "expired"]) "NOT NULL DEFAULT 'active'",
    nullable "revocation_reason" "VARCHAR(255)",
    nullable "revocation_time" "TEXT",
    column "created_at" "TEXT" mariaDbNow]
  foreignKeys := []
  options := innoDb

def mariaDbOtpTokens : TableDef where
  name := "otp_tokens"
  columns := [
    column "id" "BIGINT" "AUTO_INCREMENT PRIMARY KEY",
    column "token_hash" "VARCHAR(512)" "NOT NULL",
    column "entity_id" "VARCHAR(255)" "NOT NULL",
    nullable "label" "VARCHAR(255)",
    nullable "profile" "VARCHAR(255)",
    column "created_at" "VARCHAR(64)" mariaDbNow,
    column "expires_at" "VARCHAR(64)" "NOT NULL",
    column "max_uses" "INT" "NOT NULL DEFAULT 1",
    column "current_uses" "INT" "NOT NULL DEFAULT 0",
    column "revoked" "BOOLEAN" "NOT NULL DEFAULT FALSE",
    nullable "revoked_at" "VARCHAR(64)"]
  foreignKeys := []
  options := innoDb

def mariaDbAuditEvents : TableDef where
  name := "audit_events"
  columns := [
    column "id" "BIGINT" "AUTO_INCREMENT PRIMARY KEY",
    column "timestamp" "TEXT" mariaDbNow,
    column "event_type" "VARCHAR(255)" "NOT NULL",
    nullable "actor" "VARCHAR(255)",
    nullable "target" "VARCHAR(255)",
    nullable "detail_json" "TEXT",
    nullable "source_ip" "VARCHAR(45)",
    nullable "session_id" "VARCHAR(255)"]
  foreignKeys := []
  options := innoDb

def mariaDbCaHealth : TableDef where
  name := "ca_health"
  columns := [
    column "id" "BIGINT" "AUTO_INCREMENT PRIMARY KEY",
    column "ca_id" "VARCHAR(255)" "NOT NULL UNIQUE",
    column "status" (enumOf ["healthy", "unhealthy", "unknown"]) "NOT NULL DEFAULT 'unknown'",
    nullable "last_check" "TEXT",
    nullable "last_success" "TEXT",
    nullable "last_failure" "TEXT",
    column "consecutive_failures" "INT" "NOT NULL DEFAULT 0",
    nullable "response_latency_ms" "INT"]
  foreignKeys := []
  options := innoDb

def mariaDbEnrollmentRequests : TableDef where
  name := "enrollment_requests"
  columns := [
    column "id" "BIGINT" "AUTO_INCREMENT PRIMARY KEY",
    column "request_type" (enumOf ["enroll", "reenroll", "serverkeygen", "fullcmc"]) "NOT NULL",
    column "csr_hash" "VARCHAR(255)" "NOT NULL",
    column "ca_id" "VARCHAR(255)" "NOT NULL",
    nullable "label" "VARCHAR(255)",
    column "auth_method" "VARCHAR(255)" "NOT NULL",
    nullable "entity_id" "VARCHAR(255)",
    column "status" (enumOf ["pending", "issued", "rejected"]) "NOT NULL DEFAULT 'pending'",
    nullable "certificate_id" "BIGINT",
    column "created_at" "TEXT" mariaDbNow,
    nullable "completed_at" "TEXT"]
  foreignKeys := [⟨"fk_enrollment_certificate", "certificate_id", ⟨"certificates", "id"⟩⟩]
  options := innoDb

def mariaDbServerGeneratedKeys : TableDef where
  name := "server_generated_keys"
  columns := [
    column "id" "BIGINT" "AUTO_INCREMENT PRIMARY KEY",
    column "enrollment_id" "BIGINT" "NOT NULL",
    column "key_type" "VARCHAR(255)" "NOT NULL",
    column "key_size" "INT" "NOT NULL",
    column "archived" "BOOLEAN" "NOT NULL DEFAULT FALSE",
    nullable "archive_id" "VARCHAR(255)",
    column "created_at" "TEXT" mariaDbNow]
  foreignKeys := [⟨"fk_sgk_enrollment", "enrollment_id", ⟨"enrollment_requests", "id"⟩⟩]
  options := innoDb

def mariaDbStarOrders : TableDef where
  name := "star_orders"
  columns := [
    column "id" "VARCHAR(255)" "PRIMARY KEY",
    column "subject_dn" "TEXT" "NOT NULL",
    column "key_type" "VARCHAR(255)" "NOT NULL",
    column "profile" "TEXT" "NOT NULL",
    column "renewal_interval_secs" "INT" "NOT NULL",
    column "lifetime_end" "TEXT" "NOT NULL",
    column "max_renewals" "INT" "NOT NULL",
    column "current_renewals" "INT" "NOT NULL DEFAULT 0",
    column "status" (enumOf ["active", "cancelled", "completed", "expired"])
      "NOT NULL DEFAULT 'active'",
    nullable "requestor_dn" "TEXT",
    column "ca_id" "VARCHAR(255)" "NOT NULL",
    column "csr_der" "LONGBLOB" "NOT NULL",
    column "created_at" "TEXT" mariaDbNow,
    nullable "cancelled_at" "TEXT"]
  foreignKeys := []
  options := innoDb

def mariaDbStarCertificates : TableDef where
  name := "star_certificates"
  columns := [
    column "id" "BIGINT" "AUTO_INCREMENT PRIMARY KEY",
    column "star_order_id" "VARCHAR(255)" "NOT NULL",
    column "serial_number" "VARCHAR(255)" "NOT NULL",
    column "certificate_der" "LONGBLOB" "NOT NULL",
    column "not_before" "TEXT" "NOT NULL",
    column "not_after" "TEXT" "NOT NULL",
    column "renewal_number" "INT" "NOT NULL",
    column "created_at" "TEXT" mariaDbNow]
  foreignKeys := [⟨"fk_star_certs_order", "star_order_id", ⟨"star_orders", "id"⟩⟩]
  options := innoDb

def migrationV1MariaDb : List Stmt := List.flatten [
  [.createTable mariaDbSchemaVersion,
    .createTable mariaDbCertificates],
  certificatesIndexes "(255)",
  [.createTable mariaDbOtpTokens],
  otpTokensIndexes,
  [.createTable mariaDbAuditEvents],
  auditEventsIndexes,
  [.createTable mariaDbCaHealth],
  caHealthIndexes,
  [.createTable mariaDbEnrollmentRequests],
  enrollmentRequestsIndexes,
  [.createTable mariaDbServerGeneratedKeys],
  serverGeneratedKeysIndexes,
  [.createTable mariaDbStarOrders,
    .createTable mariaDbStarCertificates],
  starCertificatesIndexes]

/-! ### Version 3 -/

def sqlitePendingCsrs : TableDef where
  name := "pending_csrs"
  columns := [
    column "id" "INTEGER" "PRIMARY KEY AUTOINCREMENT",
    column "csr_der" "BLOB" "NOT NULL",
    column "ca_id" "TEXT" "NOT NULL",
    nullable "subject_dn" "TEXT",
    column "identity" "TEXT" "NOT NULL",
    nullable "auth_method" "TEXT",
    checked "status" "NOT NULL DEFAULT 'pending'" ["pending", "signed", "rejected", "expired"],
    column "created_at" "TEXT" sqliteNow,
    nullable "signed_at" "TEXT",
    references "certificate_id" "INTEGER" "" "certificates" "id"]
  foreignKeys := []
  options := ""

def migrationV3Sqlite : List Stmt := List.flatten [
  [.createTable sqlitePendingCsrs],
  pendingCsrsIndexes]

def postgresPendingCsrs : TableDef where
  name := "pending_csrs"
  columns := [
    column "id" "BIGSERIAL" "PRIMARY KEY",
    column "csr_der" "BYTEA" "NOT NULL",
    column "ca_id" "TEXT" "NOT NULL",
    nullable "subject_dn" "TEXT",
    column "identity" "TEXT" "NOT NULL",
    nullable "auth_method" "TEXT",
    column "status" "pending_csr_status" "NOT NULL DEFAULT 'pending'",
    column "created_at" "TEXT" postgresNow,
    nullable "signed_at" "TEXT",
    references "certificate_id" "BIGINT" "" "certificates" "id"]
  foreignKeys := []
  options := ""

def migrationV3Postgres : List Stmt := List.flatten [
  [.createType ⟨"pending_csr_status", ["pending", "signed", "rejected", "expired"]⟩,
    .createTable postgresPendingCsrs],
  pendingCsrsIndexes]

def mariaDbPendingCsrs : TableDef where
  name := "pending_csrs"
  columns := [
    column "id" "BIGINT" "AUTO_INCREMENT PRIMARY KEY",
    column "csr_der" "LONGBLOB" "NOT NULL",
    column "ca_id" "VARCHAR(255)" "NOT NULL",
    nullable "subject_dn" "TEXT",
    column "identity" "VARCHAR(255)" "NOT NULL",
    nullable "auth_method" "VARCHAR(255)",
    column "status" (enumOf ["pending", "signed", "rejected", "expired"])
      "NOT NULL DEFAULT 'pending'",
    column "created_at" "TEXT" mariaDbNow,
    nullable "signed_at" "TEXT",
    nullable "certificate_id" "BIGINT"]
  foreignKeys := [⟨"fk_pending_csrs_certificate", "certificate_id", ⟨"certificates", "id"⟩⟩]
  options := innoDb

def migrationV3MariaDb : List Stmt := List.flatten [
  [.createTable mariaDbPendingCsrs],
  pendingCsrsIndexes]

/-! ## The migrations -/

/-- Statements with the contexts of their errors, and the context of the error of the record. -/
structure Migration where
  version : Int
  statements : List (Stmt × (String → String))
  recording : String → String

def failedOn (kind : DbKind) (migration : String) (stmt : Stmt) : Stmt × (String → String) :=
  (stmt, fun e => "migration " ++ migration ++ " failed on [" ++ stmt.sql kind ++ "]: " ++ e)

def recordingSchemaVersion (e : String) : String := "recording schema version: " ++ e

def migrationV1 (kind : DbKind) : Migration where
  version := 1
  statements :=
    (match kind with
      | .sqlite => migrationV1Sqlite
      | .postgres => migrationV1Postgres
      | .mariaDb => migrationV1MariaDb).map (failedOn kind "v1")
  recording := recordingSchemaVersion

def migrationV2 : Migration where
  version := 2
  statements := [
    (.createIndex (index "idx_otp_tokens_hash" "otp_tokens" ["entity_id", "token_hash"]),
      fun e => "migration v2 failed: " ++ e)]
  recording := recordingSchemaVersion

def migrationV3 (kind : DbKind) : Migration where
  version := 3
  statements :=
    (match kind with
      | .sqlite => migrationV3Sqlite
      | .postgres => migrationV3Postgres
      | .mariaDb => migrationV3MariaDb).map (failedOn kind "v3")
  recording := recordingSchemaVersion

def auditWriterLock : TableDef :=
  ⟨"audit_writer_lock", [
      column "id" "INTEGER" "PRIMARY KEY",
      column "revision" "INTEGER" "NOT NULL"],
    [], ""⟩

def migrationV4 : Migration where
  version := 4
  statements := [
    (.createTable auditWriterLock, fun e => "audit lock migration: " ++ e),
    (.insertWriterLock, id)]
  recording := id

def migrationV5 (kind : DbKind) : Migration where
  version := 5
  statements :=
    match kind with
    | .mariaDb => [
        (.modifyColumn "star_orders" (column "profile" "TEXT" "NOT NULL"),
          fun e => "STAR policy migration: " ++ e)]
    | _ => []
  recording := id

def alters (kind : DbKind) : List Stmt :=
  match kind with
  | .postgres | .mariaDb => [
      .addColumn true "audit_events" (nullable "prev_hash" "TEXT"),
      .addColumn true "audit_events" (nullable "record_hash" "TEXT")]
  | .sqlite => [
      .addColumn false "audit_events" (nullable "prev_hash" "TEXT"),
      .addColumn false "audit_events" (nullable "record_hash" "TEXT")]

def migrationV6 (kind : DbKind) : Migration where
  version := 6
  statements := (alters kind).map (failedOn kind "v6")
  recording := id

def migrations (kind : DbKind) : List Migration :=
  [migrationV1 kind, migrationV2, migrationV3 kind, migrationV4, migrationV5 kind,
    migrationV6 kind]

def query (kind : DbKind) (stmt : Stmt) (context : String → String) (d : Database) :
    Except KipukaError Database :=
  (exec kind d stmt).mapError fun e => .db (context e.text)

def Migration.stage (kind : DbKind) (m : Migration) : Stage Database KipukaError where
  number := m.version
  steps := m.statements.map fun s => query kind s.1 s.2
  record := query kind (.insertVersion m.version) m.recording

/-- `SELECT COALESCE(MAX(version), 0)`, and 0 where there is no such table. -/
def Database.currentVersion (d : Database) : Int :=
  if d.hasColumn "schema_version" "version" then d.versions.max?.getD 0 else 0

def script (kind : DbKind) : Script Database KipukaError where
  stages := (migrations kind).map (Migration.stage kind)
  number := Database.currentVersion

def runMigrations (kind : DbKind) (d : Database) : Except KipukaError Database :=
  (script kind).run d

end Kipuka.Db
