/-
  The tamper-evident hash chain of the audit trail (`src/audit/mod.rs`): `chain_hash` and
  `verify_chain`.
-/
import Kipuka.Audit.Config
import Kipuka.Audit.Record
import Kipuka.Generic.HashChain

namespace Kipuka.Audit

open Generic

structure Digest where
  bytes : List UInt8
  length_eq : bytes.length = 32

def Digest.ofNat (n : Nat) : Digest :=
  ⟨(List.range 32).map fun i => UInt8.ofNat (n / 256 ^ (31 - i)), by simp⟩

structure Hashes where
  sha256 : List UInt8 → Digest
  hmacSha256 : (key : List UInt8) → List UInt8 → Digest

structure AuditState where
  config : AuditConfig
  integrityKey : Option (List UInt8)

/-- HMAC-SHA256 under the integrity key when there is one, otherwise SHA-256. -/
def AuditState.digest (st : AuditState) (H : Hashes) (bytes : List UInt8) : Digest :=
  match st.integrityKey with
  | some key => H.hmacSha256 key bytes
  | none => H.sha256 bytes

def chainPreimage (prev : Option String) (canonical : List UInt8) : List UInt8 :=
  asBytes (prev.getD "") ++ [rs] ++ canonical

def AuditState.chainHash (st : AuditState) (H : Hashes) (prev : Option String)
    (canonical : List UInt8) : String :=
  hexEncode (st.digest H (chainPreimage prev canonical)).bytes

structure AuditRow where
  id : Int
  timestamp : String
  eventType : String
  actor : Option String
  target : Option String
  detailJson : Option String
  sourceIp : Option String
  sessionId : Option String
  prevHash : Option String
  recordHash : Option String
  deriving DecidableEq, Repr

def AuditRow.canonical (row : AuditRow) : List UInt8 :=
  canonicalBytes row.timestamp row.eventType row.actor row.target row.detailJson row.sourceIp
    row.sessionId

structure ChainVerifyReport where
  total : Nat
  ok : Bool
  brokenAt : Option Int
  detail : Option String
  deriving DecidableEq, Repr

def linkageBroken (total : Nat) (id : Int) : ChainVerifyReport where
  total := total
  ok := false
  brokenAt := some id
  detail := some ("prev_hash linkage broken at id=" ++ toString id ++ ": stored prev_hash does " ++
    "not match the preceding record_hash (row deleted, inserted, or reordered)")

def recordHashMismatch (total : Nat) (id : Int) : ChainVerifyReport where
  total := total
  ok := false
  brokenAt := some id
  detail := some ("record_hash mismatch at id=" ++ toString id ++ ": row contents were altered " ++
    "after insertion")

/-- The walk of `verify_chain`, with the hash the next row must point at. -/
def verifyRows (H : Hashes) (st : AuditState) (total : Nat) :
    Option String → List AuditRow → ChainVerifyReport
  | _, [] => { total := total, ok := true, brokenAt := none, detail := none }
  | expectedPrev, row :: rows =>
    if row.prevHash ≠ expectedPrev then linkageBroken total row.id
    else if row.recordHash ≠ some (st.chainHash H row.prevHash row.canonical) then
      recordHashMismatch total row.id
    else verifyRows H st total row.recordHash rows

/-- `verify_chain` on the rows the query returned, in order of their ids. -/
def verifyChain (H : Hashes) (st : AuditState) (rows : List AuditRow) : ChainVerifyReport :=
  verifyRows H st rows.length none rows

/-! ## The rows as a hash chain -/

def AuditRow.link (row : AuditRow) : Link String (List UInt8) :=
  ⟨row.prevHash, row.recordHash, row.canonical⟩

theorem verifyRows_ok_iff (H : Hashes) (st : AuditState) (total : Nat) (expectedPrev : Option String)
    (rows : List AuditRow) :
    (verifyRows H st total expectedPrev rows).ok = true ↔
      Linked (st.chainHash H) expectedPrev (rows.map AuditRow.link) := by
  induction rows generalizing expectedPrev with
  | nil => simp [verifyRows, Linked]
  | cons row rows ih =>
    rw [List.map_cons, Linked, verifyRows]
    by_cases hprev : row.prevHash = expectedPrev
    · by_cases hhash : row.recordHash = some (st.chainHash H row.prevHash row.canonical)
      · rw [if_neg (not_not.mpr hprev), if_neg (not_not.mpr hhash), ih]
        exact ⟨fun h => ⟨hprev, hhash, h⟩, fun h => h.2.2⟩
      · rw [if_neg (not_not.mpr hprev), if_pos hhash]
        exact ⟨fun h => Bool.noConfusion h, fun h => absurd h.2.1 hhash⟩
    · rw [if_pos hprev]
      exact ⟨fun h => Bool.noConfusion h, fun h => absurd h.1 hprev⟩

theorem verifyChain_ok_iff (H : Hashes) (st : AuditState) (rows : List AuditRow) :
    (verifyChain H st rows).ok = true ↔ Linked (st.chainHash H) none (rows.map AuditRow.link) :=
  verifyRows_ok_iff H st rows.length none rows

/-! ## The preimage splits in one way

  A `prev_hash` that the verifier accepted is absent or 64 hexadecimal digits, so the separator
  after it is the first one of the preimage. -/

theorem canonicalBytes_eq_asBytes (row : AuditRow) :
    ∃ cs : List Char, row.canonical = asBytes (String.ofList cs) := by
  have h := foldl_fields [row.timestamp, row.eventType, row.actor.getD "", row.target.getD "",
    row.detailJson.getD "", row.sourceIp.getD "", row.sessionId.getD ""] []
  rw [← asBytes_ofList, List.nil_append] at h
  exact ⟨_, h⟩

def HexOrAbsent (prev : Option String) : Prop := ∀ h, prev = some h → ∃ d : Digest, h = hexEncode d.bytes

theorem rsChar_not_mem_hexEncode (bs : List UInt8) : rsChar ∉ (hexEncode bs).toList := by
  intro h
  unfold hexEncode at h
  rw [String.toList_ofList] at h
  exact absurd (le_of_mem_hexChars h) (by decide)

variable {prev : Option String}

theorem rsChar_not_mem_prev (h : HexOrAbsent prev) : rsChar ∉ (prev.getD "").toList := by
  cases prev with
  | none => exact List.not_mem_nil
  | some s =>
    obtain ⟨d, rfl⟩ := h s rfl
    exact rsChar_not_mem_hexEncode d.bytes

variable {prev' : Option String}

theorem prev_inj (h : HexOrAbsent prev) (h' : HexOrAbsent prev')
    (heq : prev.getD "" = prev'.getD "") : prev = prev' := by
  have hne : ∀ d : Digest, hexEncode d.bytes ≠ "" := by
    intro d hempty
    have hnil : d.bytes = [] := hexEncode_inj.mp (hempty.trans (by decide : "" = hexEncode []))
    have hlen := d.length_eq
    rw [hnil] at hlen
    exact absurd hlen (by decide)
  cases prev with
  | none =>
    cases prev' with
    | none => rfl
    | some s =>
      obtain ⟨d, rfl⟩ := h' s rfl
      exact absurd heq.symm (hne d)
  | some s =>
    cases prev' with
    | none =>
      obtain ⟨d, rfl⟩ := h s rfl
      exact absurd heq (hne d)
    | some s' => exact congrArg some heq

theorem chainPreimage_inj {row row' : AuditRow} (h : HexOrAbsent prev) (h' : HexOrAbsent prev')
    (heq : chainPreimage prev row.canonical = chainPreimage prev' row'.canonical) :
    prev = prev' ∧ row.canonical = row'.canonical := by
  have hrs : [rs] = asBytes (String.ofList [rsChar]) := by decide
  have hbytes : ∀ (p : Option String) (cs : List Char),
      chainPreimage p (asBytes (String.ofList cs)) =
        asBytes (String.ofList ((p.getD "").toList ++ rsChar :: cs)) := by
    intro p cs
    rw [chainPreimage, hrs, asBytes_ofList, asBytes_ofList, asBytes_ofList, asBytes_eq_flatMap]
    simp
  obtain ⟨cs, hcs⟩ := canonicalBytes_eq_asBytes row
  obtain ⟨cs', hcs'⟩ := canonicalBytes_eq_asBytes row'
  rw [hcs, hcs', hbytes, hbytes, asBytes_inj, String.ofList_inj] at heq
  obtain ⟨hprev, hchars⟩ := split_at_first heq (rsChar_not_mem_prev h) (rsChar_not_mem_prev h')
  refine ⟨prev_inj h h' (String.toList_inj.mp hprev), ?_⟩
  rw [hcs, hcs', hchars]

variable {H : Hashes} {st : AuditState} {rows : List AuditRow} {row : AuditRow}

theorem hexOrAbsent_of_mem (h : Linked (st.chainHash H) none (rows.map AuditRow.link))
    (hrow : row ∈ rows) : HexOrAbsent row.prevHash := by
  intro s hs
  have hlink : row.link ∈ rows.map AuditRow.link := List.mem_map.mpr ⟨row, hrow, rfl⟩
  rcases prev_of_mem h hlink with hnone | ⟨m, -, hsome⟩
  · exact absurd (hs.symm.trans hnone) (Option.some_ne_none s)
  · have heq : s = st.chainHash H m.prev m.body := Option.some.inj (hs.symm.trans hsome)
    exact ⟨_, heq⟩

/-! ## The last record hash fixes the trail -/

/-- The digest in use does not collide on the preimages of two lists of rows. -/
def PreimagesCollisionFree (H : Hashes) (st : AuditState) (rows rows' : List AuditRow) : Prop :=
  ∀ row ∈ rows, ∀ row' ∈ rows',
    st.digest H (chainPreimage row.prevHash row.canonical) =
      st.digest H (chainPreimage row'.prevHash row'.canonical) →
    chainPreimage row.prevHash row.canonical = chainPreimage row'.prevHash row'.canonical

theorem chainHash_inj {p p' : Option String} {c c' : List UInt8}
    (h : st.chainHash H p c = st.chainHash H p' c') :
    st.digest H (chainPreimage p c) = st.digest H (chainPreimage p' c') := by
  have hbytes := hexEncode_inj.mp h
  cases hd : st.digest H (chainPreimage p c)
  cases hd' : st.digest H (chainPreimage p' c')
  simpa [hd, hd'] using hbytes

variable {rows' : List AuditRow}

theorem collisionFreeOn_links (hok : Linked (st.chainHash H) none (rows.map AuditRow.link))
    (hok' : Linked (st.chainHash H) none (rows'.map AuditRow.link))
    (hfree : PreimagesCollisionFree H st rows rows') :
    CollisionFreeOn (st.chainHash H) (rows.map AuditRow.link) (rows'.map AuditRow.link) := by
  intro l hl m hm heq
  obtain ⟨row, hrow, rfl⟩ := List.mem_map.mp hl
  obtain ⟨row', hrow', rfl⟩ := List.mem_map.mp hm
  have hpre := hfree row hrow row' hrow' (chainHash_inj heq)
  exact chainPreimage_inj (hexOrAbsent_of_mem hok hrow) (hexOrAbsent_of_mem hok' hrow') hpre

/-- Two rows agree in both hashes and in the text that is hashed. -/
def SameEvidence (row row' : AuditRow) : Prop :=
  row.prevHash = row'.prevHash ∧ row.recordHash = row'.recordHash ∧ row.canonical = row'.canonical

theorem forall₂_sameEvidence
    (h : rows.map AuditRow.link = rows'.map AuditRow.link) : List.Forall₂ SameEvidence rows rows' := by
  induction rows generalizing rows' with
  | nil =>
    cases rows' with
    | nil => exact .nil
    | cons row' rows' => cases h
  | cons row rows ih =>
    cases rows' with
    | nil => cases h
    | cons row' rows' =>
      obtain ⟨hlink, hrest⟩ := List.cons.inj h
      obtain ⟨hprev, hhash, hbody⟩ := Link.mk.inj hlink
      exact .cons ⟨hprev, hhash, hbody⟩ (ih hrest)

theorem lastHash_links (rows : List AuditRow) (hne : rows ≠ []) :
    lastHash none (rows.map AuditRow.link) = (rows.getLast hne).recordHash := by
  obtain ⟨init, last, rfl⟩ : ∃ init last, rows = init ++ [last] :=
    ⟨rows.dropLast, rows.getLast hne, (List.dropLast_append_getLast hne).symm⟩
  rw [List.map_append, List.map_singleton, lastHash_concat, List.getLast_append_singleton]
  rfl

/-- Two non-empty lists of rows that the verifier accepts and that end in the same record hash
    have the same length and agree row by row: with the last hash kept elsewhere, no edit,
    deletion, insertion or reordering of rows goes unnoticed. -/
theorem verifyChain_unique (H : Hashes) (st : AuditState) (rows rows' : List AuditRow)
    (hne : rows ≠ []) (hne' : rows' ≠ [])
    (hok : (verifyChain H st rows).ok = true) (hok' : (verifyChain H st rows').ok = true)
    (hhead : (rows.getLast hne).recordHash = (rows'.getLast hne').recordHash)
    (hfree : PreimagesCollisionFree H st rows rows') :
    rows.length = rows'.length ∧ List.Forall₂ SameEvidence rows rows' := by
  rw [verifyChain_ok_iff] at hok hok'
  have hlast : lastHash none (rows.map AuditRow.link) = lastHash none (rows'.map AuditRow.link) := by
    rw [lastHash_links rows hne, lastHash_links rows' hne', hhead]
  have hlinks : rows.map AuditRow.link = rows'.map AuditRow.link :=
    linked_unique hok hok' (by simpa using hne) (by simpa using hne') hlast
      (collisionFreeOn_links hok hok' hfree)
  have hrows := forall₂_sameEvidence hlinks
  exact ⟨hrows.length_eq, hrows⟩

def startHash : String := "c791a907705067fb09da9691987efa76fc01719d2ce522f4e7442886d5728f73"

def failureHash : String := "fee4d8c8b9353323649b5a4cc2480edd44bf1ad418da1c52d3ae760ec059d54c"

def startRow : AuditRow where
  id := 1
  timestamp := "2026-03-01T09:30:00.000Z"
  eventType := "ca.start"
  actor := none
  target := none
  detailJson := none
  sourceIp := none
  sessionId := none
  prevHash := none
  recordHash := some startHash

def failureRow : AuditRow where
  id := 2
  timestamp := "2026-03-01T09:30:05.250Z"
  eventType := "auth.failure"
  actor := some "eve"
  target := none
  detailJson := none
  sourceIp := some "192.0.2.7"
  sessionId := none
  prevHash := some startHash
  recordHash := some failureHash

def knownDigests (known : List (String × Nat)) : Hashes where
  sha256 bytes :=
    match known.find? fun e => asBytes e.1 = bytes with
    | some e => .ofNat e.2
    | none => .ofNat 0
  hmacSha256 _ _ := .ofNat 0

def twoDigests : Hashes := knownDigests [
  ("\x1e2026-03-01T09:30:00.000Z\x1eca.start\x1e\x1e\x1e\x1e\x1e\x1e",
    0xc791a907705067fb09da9691987efa76fc01719d2ce522f4e7442886d5728f73),
  ("c791a907705067fb09da9691987efa76fc01719d2ce522f4e7442886d5728f73\x1e" ++
    "2026-03-01T09:30:05.250Z\x1eauth.failure\x1eeve\x1e\x1e\x1e192.0.2.7\x1e\x1e",
    0xfee4d8c8b9353323649b5a4cc2480edd44bf1ad418da1c52d3ae760ec059d54c)]

def unkeyed : AuditState := ⟨.default, none⟩

/-- A trail, and the same trail with its rows renumbered and an absent target stored as empty. -/
theorem verifyChain_unique_renumbered :
    let rows := [startRow, failureRow]
    let rows' := [{ startRow with id := 5 }, { failureRow with id := 8, target := some "" }]
    (verifyChain twoDigests unkeyed rows).ok = true ∧ rows.length = rows'.length ∧
      List.Forall₂ SameEvidence rows rows' := by
  refine ⟨by decide +kernel, ?_⟩
  refine verifyChain_unique twoDigests unkeyed _ _ (List.cons_ne_nil _ _) (List.cons_ne_nil _ _)
    (by decide +kernel) (by decide +kernel) rfl ?_
  intro row hrow row' hrow'
  simp only [List.mem_cons, List.not_mem_nil, or_false] at hrow hrow'
  rcases hrow with rfl | rfl <;> rcases hrow' with rfl | rfl
  · exact fun _ => rfl
  · exact fun h => absurd (congrArg Digest.bytes h) (by decide +kernel)
  · exact fun h => absurd (congrArg Digest.bytes h) (by decide +kernel)
  · exact fun _ => by decide +kernel

end Kipuka.Audit
