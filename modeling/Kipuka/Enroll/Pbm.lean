/-
  The password-based MAC of CMP (`derive_pbm_key` and its call in `src/routes/cmp.rs`) over every
  iteration count and every OID. The count goes through `as_i64`, a default and `as u32` before it is
  checked, and the OID is searched for in its text.
-/
import Kipuka.Enroll.Admission

namespace Kipuka.Enroll

open Generic
open Keygen (containsStr)
open Auth (oidText)

/-- `as_i64` of an ASN.1 integer. -/
def asI64 (n : Int) : Option Int :=
  if -9223372036854775808 ≤ n ∧ n < 9223372036854775808 then some n else none

def PbmParameter.of (salt : List UInt8) (owf : List Nat) (iterationCount : Int) (mac : String) :
    PbmParameter :=
  ⟨salt, oidText owf, asI64 iterationCount, mac⟩

/-- The count as it is passed to `derive_pbm_key`. -/
def countAsU32 (n : Int) : Nat := ((asI64 n).getD 1 % 4294967296).toNat

def HashKind.oid : HashKind → List Nat
  | .sha256 => Auth.idSha256
  | .sha384 => Auth.idSha384
  | .sha512 => Auth.idSha512

/-- The text of the OID contains that of a hash function, the cast makes an accepted count of `n`,
    and the OID is another one or the count is changed by the cast. -/
def Misread (owf : List Nat) (n : Int) : Prop :=
  (∃ kind : HashKind, containsStr (oidText owf) (oidText kind.oid) = true) ∧
    1 ≤ countAsU32 n ∧ countAsU32 n ≤ 100000 ∧
    ((∀ kind : HashKind, owf ≠ kind.oid) ∨ countAsU32 n ≠ n)

theorem owfOids_oid {text : String} {kind : HashKind} (h : (text, kind) ∈ owfOids) :
    text = oidText kind.oid := by
  cases kind <;> simp [owfOids] at h <;> rw [h] <;> decide

theorem containsStr_of_hashKind {oids : List (String × HashKind)} {text : String} {kind : HashKind}
    (h : hashKind oids text = some kind) : ∃ oid, (oid, kind) ∈ oids ∧ containsStr text oid = true := by
  obtain ⟨⟨oid, kind'⟩, hfound, rfl⟩ := Option.map_eq_some_iff.mp h
  have hcontains := List.find?_some hfound
  exact ⟨oid, List.mem_of_find?_eq_some hfound, hcontains⟩

theorem hashKind_oid (kind : HashKind) : hashKind owfOids (oidText kind.oid) = some kind := by
  cases kind <;> decide

theorem hashKind_of_containsStr {text : String} {kind : HashKind}
    (h : containsStr text (oidText kind.oid) = true) : ∃ kind', hashKind owfOids text = some kind' := by
  have hmem : (oidText kind.oid, kind) ∈ owfOids := by
    cases kind <;> decide
  have hfound : (owfOids.find? fun oid => containsStr text oid.1).isSome :=
    List.find?_isSome.mpr ⟨_, hmem, h⟩
  obtain ⟨found, hfound⟩ := Option.isSome_iff_exists.mp hfound
  exact ⟨found.2, Option.map_eq_some_iff.mpr ⟨found, hfound, rfl⟩⟩

theorem countAsU32_of_small {n : Int} (hpos : 1 ≤ n) (hmax : n ≤ 100000) : countAsU32 n = n := by
  have hin : -9223372036854775808 ≤ n ∧ n < 9223372036854775808 := by omega
  rw [countAsU32, asI64, if_pos hin, Option.getD_some]
  omega

section

variable (L : CmpLib) {secret salt : List UInt8} {owf : List Nat} {n : Int} {key : List UInt8}

theorem derivePbmKey_eq_ok {text : String} {count : Nat} :
    derivePbmKey L secret salt text count = .ok key ↔ ∃ kind, hashKind owfOids text = some kind ∧
      1 ≤ count ∧ count ≤ 100000 ∧ key = (L.digest kind)^[count] (secret ++ salt) := by
  have hcount : ∀ kind : HashKind, 1 ≤ count →
      (L.digest kind)^[count - 1] (L.digest kind (secret ++ salt)) =
        (L.digest kind)^[count] (secret ++ salt) := by
    intro kind h
    rw [← Function.iterate_succ_apply, Nat.succ_eq_add_one, Nat.sub_add_cancel h]
  unfold derivePbmKey
  rw [except_bind_eq_ok]
  constructor
  · rintro ⟨kind, hkind, h⟩
    obtain ⟨hzero, h⟩ := refuseIf_bind_eq_ok.mp h
    obtain ⟨hlarge, h⟩ := refuseIf_bind_eq_ok.mp h
    have hpos : 1 ≤ count := Nat.one_le_iff_ne_zero.mpr (of_decide_eq_false hzero)
    refine ⟨kind, okOrElse_eq_ok.mp hkind, hpos, not_lt.mp (of_decide_eq_false hlarge), ?_⟩
    rw [← hcount kind hpos]
    exact (Except.ok.inj h).symm
  · rintro ⟨kind, hkind, hpos, hle, rfl⟩
    refine ⟨kind, okOrElse_eq_ok.mpr hkind, ?_⟩
    refine refuseIf_bind_eq_ok.mpr ⟨decide_eq_false (Nat.one_le_iff_ne_zero.mp hpos), ?_⟩
    refine refuseIf_bind_eq_ok.mpr ⟨decide_eq_false (not_lt.mpr hle), ?_⟩
    exact congrArg Except.ok (hcount kind hpos)

theorem derivePbmKey_exact (h : ¬ Misread owf n) :
    derivePbmKey L secret salt (oidText owf) (countAsU32 n) = .ok key ↔ ∃ kind : HashKind,
      owf = kind.oid ∧ 1 ≤ n ∧ n ≤ 100000 ∧ key = (L.digest kind)^[n.toNat] (secret ++ salt) := by
  rw [derivePbmKey_eq_ok]
  constructor
  · rintro ⟨kind, hkind, hpos, hmax, rfl⟩
    obtain ⟨text, hmem, hcontains⟩ := containsStr_of_hashKind hkind
    rw [owfOids_oid hmem] at hcontains
    obtain ⟨hother, hkept⟩ : ¬ (∀ kind : HashKind, owf ≠ kind.oid) ∧ ¬ countAsU32 n ≠ n :=
      not_or.mp fun hwrong => h ⟨⟨kind, hcontains⟩, hpos, hmax, hwrong⟩
    push Not at hother hkept
    obtain ⟨kind', rfl⟩ := hother
    obtain rfl : kind' = kind := Option.some.inj ((hashKind_oid kind').symm.trans hkind)
    refine ⟨kind', rfl, by omega, by omega, ?_⟩
    rw [show n.toNat = countAsU32 n by omega]
  · rintro ⟨kind, rfl, hpos, hmax, rfl⟩
    have hsame := countAsU32_of_small hpos hmax
    refine ⟨kind, hashKind_oid kind, by omega, by omega, ?_⟩
    rw [show n.toNat = countAsU32 n by omega]

variable (secret salt) in
theorem Misread.derives (h : Misread owf n) :
    ∃ key, derivePbmKey L secret salt (oidText owf) (countAsU32 n) = .ok key := by
  obtain ⟨⟨kind, hcontains⟩, hpos, hmax, -⟩ := h
  obtain ⟨kind', hkind⟩ := hashKind_of_containsStr hcontains
  exact ⟨_, (derivePbmKey_eq_ok L).mpr ⟨kind', hkind, hpos, hmax, rfl⟩⟩

theorem Misread.not_named (h : Misread owf n) {kind : HashKind} (howf : owf = kind.oid)
    (hpos : 1 ≤ n) : ¬ n ≤ 100000 := by
  intro hmax
  rcases h.2.2.2 with hother | hchanged
  · exact hother kind howf
  · exact hchanged (countAsU32_of_small hpos hmax)

variable {app : AppState} {config : CmpConfig} {msg : PkiMessage} {sender mac : String}

theorem verifyMacProtection_eq_ok {part : Protected} (hallowed : config.allowMacProtection = true)
    (hpbm : pbmParameter msg.protectionAlg = .ok (.of salt owf n mac))
    (hsecret : sharedSecret L app config sender = .ok secret) :
    verifyMacProtection L app config msg sender part = .ok () ↔
      ∃ key, derivePbmKey L secret salt (oidText owf) (countAsU32 n) = .ok key ∧
        computePbmHmac L key part.bytes mac = .ok part.protection := by
  unfold verifyMacProtection
  rw [hpbm, hsecret, hallowed]
  change (derivePbmKey L secret salt (oidText owf) (countAsU32 n) >>= _) = _ ↔ _
  rw [except_bind_eq_ok]
  refine exists_congr fun key => and_congr_right fun _ => ?_
  rw [except_bind_eq_ok]
  constructor
  · rintro ⟨computed, hmac, h⟩
    have hsame : computed = part.protection := not_not.mp (of_decide_eq_false (refuseIf_eq_ok.mp h))
    exact hmac.trans (congrArg Except.ok hsame)
  · intro hmac
    exact ⟨part.protection, hmac, refuseIf_eq_ok.mpr (by simp)⟩

/-- With a MAC algorithm that the server has, what is verified is the MAC under the named hash
    function applied as often as the count says, and nothing with other parameters, if and only if
    the parameters are not misread. -/
theorem mac_verified_iff (hallowed : config.allowMacProtection = true)
    (hpbm : pbmParameter msg.protectionAlg = .ok (.of salt owf n mac))
    (hsecret : sharedSecret L app config sender = .ok secret)
    (hmac : ∀ key bytes, ∃ tag, computePbmHmac L key bytes mac = .ok tag) :
    (∀ part, verifyMacProtection L app config msg sender part = .ok () ↔ ∃ kind : HashKind,
      owf = kind.oid ∧ 1 ≤ n ∧ n ≤ 100000 ∧
        computePbmHmac L ((L.digest kind)^[n.toNat] (secret ++ salt)) part.bytes mac =
          .ok part.protection) ↔ ¬ Misread owf n := by
  constructor
  · intro hexact hmisread
    obtain ⟨key, hkey⟩ := hmisread.derives L secret salt
    obtain ⟨tag, htag⟩ := hmac key []
    have hverified : verifyMacProtection L app config msg sender ⟨[], tag, []⟩ = .ok () :=
      (verifyMacProtection_eq_ok L hallowed hpbm hsecret).mpr ⟨key, hkey, htag⟩
    obtain ⟨kind, howf, hpos, hmax, -⟩ := (hexact _).mp hverified
    exact hmisread.not_named howf hpos hmax
  · intro hread part
    rw [verifyMacProtection_eq_ok L hallowed hpbm hsecret]
    constructor
    · rintro ⟨key, hkey, htag⟩
      obtain ⟨kind, howf, hpos, hmax, rfl⟩ := (derivePbmKey_exact L hread).mp hkey
      exact ⟨kind, howf, hpos, hmax, htag⟩
    · rintro ⟨kind, howf, hpos, hmax, htag⟩
      exact ⟨_, (derivePbmKey_exact L hread).mpr ⟨kind, howf, hpos, hmax, rfl⟩, htag⟩

end

namespace PbmSample

def message (owf : List Nat) (n : Int) : PkiMessage :=
  ⟨none, none, .other, .other, none, some ⟨"", none, some (.ok (.ok (.of [] owf n "1.2.840.113549.2.9")))⟩,
    none, .ok []⟩

def app : AppState := { plainApp with cmpMacSecrets := [("alice", "07")] }

def config : CmpConfig := ⟨true, true, true, true, true, true, ["alice"]⟩

def verified (owf : List Nat) (n : Int) : Except KipukaError Unit :=
  verifyMacProtection plainLib app config (message owf n) "alice" ⟨[], [], []⟩

end PbmSample

/-- SHA3-512 is taken for SHA-256, and a count that does not fit into 64 bits for 1. -/
theorem mac_verified_other_parameters :
    PbmSample.verified [2, 16, 840, 1, 101, 3, 4, 2, 10] 18446744073709551616 = .ok () ∧
      [2, 16, 840, 1, 101, 3, 4, 2, 10] ∉ [HashKind.sha256.oid, HashKind.sha384.oid, HashKind.sha512.oid] ∧
      ¬ (18446744073709551616 : Int) ≤ 100000 := by
  decide

theorem mac_verified_sha384 : PbmSample.verified HashKind.sha384.oid 3 = .ok () := by
  have hread : ¬ Misread HashKind.sha384.oid 3 := by
    rintro ⟨-, -, -, hother | hchanged⟩
    · exact hother .sha384 rfl
    · exact hchanged rfl
  exact ((mac_verified_iff plainLib rfl rfl rfl fun _ _ => ⟨_, rfl⟩).mpr hread _).mpr
    ⟨.sha384, rfl, by decide, by decide, rfl⟩

end Kipuka.Enroll
