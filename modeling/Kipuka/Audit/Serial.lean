/-
  The audit trail as it would be without concurrency: events appended one after the other.
-/
import Kipuka.Audit.Write
import Mathlib.Data.List.DropRight

namespace Kipuka.Audit

open Generic

def excess (cfg : AuditConfig) (n : Nat) : Nat :=
  match cfg.maxRows, cfg.overflowPolicy with
  | some limit, .dropOldest => ((n : Int) - asI64 limit + 1).toNat
  | _, _ => 0

def HasRoom (cfg : AuditConfig) (n : Nat) : Prop :=
  ∀ limit, cfg.maxRows = some limit → cfg.overflowPolicy = .halt → (n : Int) < asI64 limit

def tailHash (rows : List AuditRow) : Option String := (rows.getLast?.map AuditRow.recordHash).join

def kept (cfg : AuditConfig) (rows : List AuditRow) : List AuditRow :=
  rows.drop (excess cfg rows.length)

section

variable (H : Hashes) (st : AuditState)

structure Append (before : List AuditRow) (row : AuditRow) (after : List AuditRow) : Prop where
  enabled : st.config.enabled = true
  room : HasRoom st.config before.length
  written : ∃ event timestamp id,
    row = (newRow H st event timestamp (tailHash (kept st.config before))).withId id
  after_eq : after = kept st.config before ++ [row]

inductive Appends (before : List AuditRow) : List AuditRow → List AuditRow → Prop where
  | nil : Appends before [] before
  | snoc {rows after after' : List AuditRow} {row : AuditRow} (h : Appends before rows after)
      (hrow : Append H st after row after') : Appends before (rows ++ [row]) after'

variable {H st} {rows : List AuditRow}

theorem Appends.trans {a b c rows' : List AuditRow} (h : Appends H st a rows b)
    (h' : Appends H st b rows' c) : Appends H st a (rows ++ rows') c := by
  induction h' with
  | nil => rwa [List.append_nil]
  | snoc _ hrow ih =>
    rw [← List.append_assoc]
    exact .snoc ih hrow

variable {before after : List AuditRow}

theorem Appends.eq_of_nil (h : Appends H st before rows after)
    (hnil : rows = []) : after = before := by
  cases h with
  | nil => rfl
  | snoc => exact absurd hnil (List.append_ne_nil_of_right_ne_nil _ (List.cons_ne_nil _ _))

theorem Appends.eq_nil_of_disabled
    (h : Appends H st before rows after) (hdisabled : st.config.enabled = false) : rows = [] := by
  cases h with
  | nil => rfl
  | snoc _ hrow => exact absurd (hdisabled.symm.trans hrow.enabled) (by decide)

namespace Append

variable {before after : List AuditRow} {row : AuditRow}

theorem prevHash_eq (h : Append H st before row after) :
    row.prevHash = tailHash (kept st.config before) := by
  obtain ⟨event, timestamp, id, rfl⟩ := h.written
  rfl

theorem recordHash_eq (h : Append H st before row after) :
    row.recordHash = some (st.chainHash H row.prevHash row.canonical) := by
  obtain ⟨event, timestamp, id, rfl⟩ := h.written
  rfl

end Append

theorem appends_recordHash (h : Appends H st before rows after) :
    ∀ row ∈ rows, row.recordHash ≠ none := by
  induction h with
  | nil => exact List.forall_mem_nil _
  | snoc _ hrow ih =>
    intro row hmem
    rcases List.mem_append.mp hmem with hmem | hmem
    · exact ih row hmem
    · rw [List.mem_singleton.mp hmem, hrow.recordHash_eq]
      exact Option.some_ne_none _

/-! ## What the table holds -/

variable {cfg : AuditConfig}

theorem kept_of_no_pruning (h : cfg.maxRows = none ∨ cfg.overflowPolicy = .halt)
    (rows : List AuditRow) : kept cfg rows = rows := by
  have hzero : excess cfg rows.length = 0 := by
    unfold excess
    rcases h with h | h
    · rw [h]
    · rw [h]
      cases cfg.maxRows <;> rfl
  rw [kept, hzero, List.drop_zero]

theorem appends_eq_append (hcfg : st.config.maxRows = none ∨ st.config.overflowPolicy = .halt)
    (h : Appends H st before rows after) :
    after = before ++ rows := by
  induction h with
  | nil => rw [List.append_nil]
  | snoc _ hrow ih => rw [hrow.after_eq, kept_of_no_pruning hcfg, ih, List.append_assoc]

variable {limit : UInt64}

theorem appends_length_le (hlimit : st.config.maxRows = some limit)
    (hhalt : st.config.overflowPolicy = .halt) (hfit : asI64 limit = limit.toNat)
    (h : Appends H st before rows after) :
    after.length ≤ max before.length limit.toNat ∧ (rows ≠ [] → after.length ≤ limit.toNat) := by
  cases h with
  | nil => exact ⟨Nat.le_max_left .., fun hne => absurd rfl hne⟩
  | @snoc rows mid _ row h hrow =>
    have hroom := hrow.room limit hlimit hhalt
    have hlen : after.length = mid.length + 1 := by
      rw [hrow.after_eq, kept_of_no_pruning (.inr hhalt), List.length_append]
      rfl
    omega

theorem kept_eq_rtake (hlimit : cfg.maxRows = some limit)
    (hdrop : cfg.overflowPolicy = .dropOldest) (hpos : 1 ≤ limit.toNat)
    (hfit : asI64 limit = limit.toNat) (rows : List AuditRow) :
    kept cfg rows = rows.rtake (limit.toNat - 1) := by
  have hexcess : excess cfg rows.length = rows.length - (limit.toNat - 1) := by
    unfold excess
    rw [hlimit, hdrop]
    dsimp only
    rw [hfit]
    omega
  rw [kept, hexcess, List.rtake]

theorem rtake_rtake {α : Type} (l : List α) {m n : Nat} (h : m ≤ n) :
    (l.rtake n).rtake m = l.rtake m := by
  rw [List.rtake_eq_reverse_take_reverse, List.rtake_eq_reverse_take_reverse (l := l),
    List.rtake_eq_reverse_take_reverse (l := l), List.reverse_reverse, List.take_take,
    Nat.min_eq_left h]

section DropOldest

variable {limit : UInt64} (hlimit : st.config.maxRows = some limit)
  (hdrop : st.config.overflowPolicy = .dropOldest) (hpos : 1 ≤ limit.toNat)
  (hfit : asI64 limit = limit.toNat)

include hlimit hdrop hpos hfit

/-- Under `drop_oldest` the table holds the most recent rows, as many as the limit allows: from
    the start if it was within the limit, otherwise from the first event on. -/
theorem appends_eq_rtake (h : Appends H st before rows after)
    (hstart : before.length ≤ limit.toNat ∨ rows ≠ []) :
    after = (before ++ rows).rtake limit.toNat := by
  have hsucc : limit.toNat - 1 + 1 = limit.toNat := by omega
  induction h with
  | nil =>
    have hle : before.length ≤ limit.toNat := hstart.resolve_right (fun hne => hne rfl)
    rw [List.append_nil, List.rtake, Nat.sub_eq_zero_of_le hle, List.drop_zero]
  | @snoc rows mid after row h hrow ih =>
    rw [hrow.after_eq, kept_eq_rtake hlimit hdrop hpos hfit, ← List.append_assoc]
    conv_rhs => rw [← hsucc, List.rtake_concat_succ]
    congr 1
    by_cases hle : before.length ≤ limit.toNat ∨ rows ≠ []
    · rw [ih hle, rtake_rtake _ (Nat.sub_le ..)]
    · -- the first event on a table beyond its limit
      have hnil : rows = [] := by
        by_contra hne
        exact hle (.inr hne)
      rw [h.eq_of_nil hnil, hnil, List.append_nil]

end DropOldest

/-! ## The chain -/

/-- A row as it was before the chain columns were added: both hashes `NULL`. -/
def Legacy (row : AuditRow) : Prop := row.prevHash = none ∧ row.recordHash = none

instance (row : AuditRow) : Decidable (Legacy row) :=
  inferInstanceAs (Decidable (row.prevHash = none ∧ row.recordHash = none))

def ChainFrom (H : Hashes) (st : AuditState) (p : Option String) (rows : List AuditRow) : Prop :=
  Linked (st.chainHash H) p (rows.map AuditRow.link)

variable {p : Option String}

theorem chainFrom_drop (h : ChainFrom H st p rows) (n : Nat) :
    ∃ q, ChainFrom H st q (rows.drop n) := by
  unfold ChainFrom at h
  rw [← List.take_append_drop n rows, List.map_append, linked_append] at h
  exact ⟨_, h.2⟩

theorem lastHash_eq_tailHash (p : Option String) (hne : rows ≠ []) :
    lastHash p (rows.map AuditRow.link) = tailHash rows := by
  rw [lastHash_of_ne_nil (by simpa using hne) p none, lastHash_links rows hne, tailHash,
    List.getLast?_eq_some_getLast hne]
  rfl

theorem tailHash_append {front : List AuditRow} (hne : rows ≠ []) :
    tailHash (front ++ rows) = tailHash rows := by
  rw [tailHash, tailHash, List.getLast?_append_of_ne_nil _ hne]

theorem tailHash_legacy (h : ∀ row ∈ rows, Legacy row) : tailHash rows = none := by
  unfold tailHash
  cases hlast : rows.getLast? with
  | none => rfl
  | some row => exact (h row (List.mem_of_getLast? hlast)).2

variable {row : AuditRow}

theorem chainFrom_concat (h : ChainFrom H st p rows) (hne : rows ≠ [])
    (hprev : row.prevHash = tailHash rows)
    (hhash : row.recordHash = some (st.chainHash H row.prevHash row.canonical)) :
    ChainFrom H st p (rows ++ [row]) := by
  unfold ChainFrom
  rw [List.map_append, linked_append]
  exact ⟨h, hprev.trans (lastHash_eq_tailHash p hne).symm, hhash, trivial⟩

theorem chainFrom_singleton
    (hhash : row.recordHash = some (st.chainHash H row.prevHash row.canonical)) :
    ChainFrom H st row.prevHash [row] :=
  ⟨rfl, hhash, trivial⟩

/-- After any events on a table of legacy rows: legacy rows that are left, then written rows that
    are left, and the latter are a chain. The chain starts from nothing as long as no written row
    was pruned. -/
structure Chained (H : Hashes) (st : AuditState) (before legacy written rows : List AuditRow) :
    Prop where
  suffix : written <:+ rows
  legacySuffix : legacy <:+ before
  chain : ∃ p, ChainFrom H st p written
  start : written = rows → ChainFrom H st none rows

theorem chained_concat {before legacy written : List AuditRow} (n : Nat)
    (hbefore : ∀ row ∈ before, Legacy row) (h : Chained H st before legacy written rows)
    (hprev : row.prevHash = tailHash ((legacy ++ written).drop n))
    (hhash : row.recordHash = some (st.chainHash H row.prevHash row.canonical)) :
    Chained H st before (legacy.drop n) (written.drop (n - legacy.length) ++ [row])
      (rows ++ [row]) := by
  obtain ⟨p, hchain⟩ := h.chain
  obtain ⟨q, hq⟩ := chainFrom_drop hchain (n - legacy.length)
  have hsuffix : legacy.drop n <:+ before := (List.drop_suffix n legacy).trans h.legacySuffix
  have hlegacy : ∀ r ∈ legacy.drop n, Legacy r := fun r hr => hbefore r (hsuffix.subset hr)
  rw [List.drop_append] at hprev
  refine ⟨?_, hsuffix, ?_, ?_⟩
  · obtain ⟨front, hfront⟩ := (List.drop_suffix (n - legacy.length) written).trans h.suffix
    exact ⟨front, by rw [← List.append_assoc, hfront]⟩
  · by_cases hnil : written.drop (n - legacy.length) = []
    · rw [hnil]
      exact ⟨_, chainFrom_singleton hhash⟩
    · rw [tailHash_append hnil] at hprev
      exact ⟨q, chainFrom_concat hq hnil hprev hhash⟩
  · intro heq
    have hrows : written.drop (n - legacy.length) = rows := List.append_cancel_right heq
    have hsuffix : rows <:+ written := hrows ▸ List.drop_suffix _ _
    have hwritten : written = rows :=
      h.suffix.eq_of_length (Nat.le_antisymm h.suffix.length_le hsuffix.length_le)
    by_cases hnil : rows = []
    · rw [hrows, hnil, List.append_nil, tailHash_legacy hlegacy] at hprev
      rw [hnil]
      have hsingle := chainFrom_singleton hhash
      rwa [hprev] at hsingle
    · rw [hrows, tailHash_append hnil] at hprev
      exact chainFrom_concat (h.start hwritten) hnil hprev hhash

theorem appends_chain (hbefore : ∀ row ∈ before, Legacy row) (h : Appends H st before rows after) :
    ∃ legacy written, after = legacy ++ written ∧ Chained H st before legacy written rows := by
  induction h with
  | nil =>
    exact ⟨before, [], (List.append_nil _).symm, List.suffix_rfl, List.suffix_rfl, ⟨none, trivial⟩,
      fun _ => trivial⟩
  | @snoc rows mid after row h hrow ih =>
    obtain ⟨legacy, written, rfl, hmid⟩ := ih
    refine ⟨_, _, ?_, chained_concat _ hbefore hmid hrow.prevHash_eq hrow.recordHash_eq⟩
    rw [hrow.after_eq, kept, List.drop_append, List.append_assoc]

theorem appends_chain_empty (h : Appends H st [] rows after) :
    (∃ p, ChainFrom H st p after) ∧ (after = rows → ChainFrom H st none rows) := by
  obtain ⟨legacy, written, rfl, hchained⟩ :=
    appends_chain (List.forall_mem_nil _) h
  have hnil : legacy = [] := List.suffix_nil.mp hchained.legacySuffix
  subst hnil
  exact ⟨hchained.chain, hchained.start⟩

theorem verifyChain_ok_of_chainFrom (h : ChainFrom H st p (row :: rows)) :
    (verifyChain H st (row :: rows)).ok = true ↔ row.prevHash = none := by
  rw [verifyChain_ok_iff]
  constructor
  · exact fun hok => hok.1
  · exact fun hnone => ⟨hnone, h.2⟩

theorem verifyChain_legacy (h : Legacy row) : (verifyChain H st (row :: rows)).ok = false := by
  apply Bool.eq_false_iff.mpr
  rw [Ne, verifyChain_ok_iff]
  intro hok
  have hhash : row.recordHash = some _ := hok.2.1
  exact absurd (h.2.symm.trans hhash).symm (Option.some_ne_none _)

/-! ## What the verifier says -/

theorem appends_verify (hcfg : st.config.maxRows = none ∨ st.config.overflowPolicy = .halt)
    (h : Appends H st [] rows after) : (verifyChain H st after).ok = true := by
  have heq : after = rows := appends_eq_append hcfg h
  rw [verifyChain_ok_iff, heq]
  exact (appends_chain_empty h).2 heq

theorem appends_verify_legacy {before after old : List AuditRow}
    (hbefore : ∀ row ∈ before, Legacy row) (h : Appends H st before rows after)
    (hold : ∀ row ∈ old, Legacy row) (hafter : after = old ++ rows) :
    (verifyChain H st after).ok = true ↔ old = [] := by
  cases old with
  | cons row old =>
    rw [hafter, List.cons_append, verifyChain_legacy (hold row List.mem_cons_self)]
    exact ⟨fun hok => Bool.noConfusion hok, fun hnil => absurd hnil (List.cons_ne_nil _ _)⟩
  | nil =>
    obtain ⟨legacy, written, hsplit, hchained⟩ := appends_chain hbefore h
    have hrows : legacy ++ written = rows := hsplit.symm.trans hafter
    -- a written row has a hash, so nothing of the old table is left
    have hlegacy : legacy = [] := by
      apply List.eq_nil_iff_forall_not_mem.mpr
      intro row hrow
      have hmem : row ∈ rows := hrows ▸ List.mem_append_left _ hrow
      exact appends_recordHash h row hmem (hbefore row (hchained.legacySuffix.subset hrow)).2
    have hwritten : written = rows := by rw [← hrows, hlegacy, List.nil_append]
    refine ⟨fun _ => rfl, fun _ => ?_⟩
    rw [verifyChain_ok_iff, hafter]
    exact hchained.start hwritten

theorem tailHash_ne_none (hne : rows ≠ []) (h : ∀ row ∈ rows, row.recordHash ≠ none) :
    tailHash rows ≠ none := by
  rw [tailHash, List.getLast?_eq_some_getLast hne]
  exact h _ (List.getLast_mem hne)

section DropOldest

variable {limit : UInt64} (hlimit : st.config.maxRows = some limit)
  (hdrop : st.config.overflowPolicy = .dropOldest) (hpos : 1 ≤ limit.toNat)
  (hfit : asI64 limit = limit.toNat)

include hlimit hdrop hpos hfit

theorem kept_of_appends (h : Appends H st [] rows after) :
    kept st.config after = rows.rtake (limit.toNat - 1) := by
  rw [kept_eq_rtake hlimit hdrop hpos hfit,
    appends_eq_rtake hlimit hdrop hpos hfit h (.inl (Nat.zero_le _)), List.nil_append,
    rtake_rtake _ (Nat.sub_le ..)]

theorem appends_prevHash_tail (htwo : 2 ≤ limit.toNat)
    (h : Appends H st [] rows after) : ∀ row ∈ rows.tail, row.prevHash ≠ none := by
  induction h with
  | nil => exact List.forall_mem_nil _
  | @snoc rows mid after last h hlast ih =>
    intro row hrow
    by_cases hnil : rows = []
    · rw [hnil] at hrow
      cases hrow
    · rw [List.tail_append_of_ne_nil hnil] at hrow
      rcases List.mem_append.mp hrow with hrow | hrow
      · exact ih row hrow
      · have hkept := kept_of_appends hlimit hdrop hpos hfit h
        have hne : rows.rtake (limit.toNat - 1) ≠ [] := by
          have hlen := List.length_pos_iff.mpr hnil
          rw [List.rtake, ← List.length_pos_iff, List.length_drop]
          omega
        have hsub : ∀ r ∈ rows.rtake (limit.toNat - 1), r.recordHash ≠ none :=
          fun r hr => appends_recordHash h r (List.mem_of_mem_drop hr)
        rw [List.mem_singleton.mp hrow, hlast.prevHash_eq, hkept]
        exact tailHash_ne_none hne hsub

theorem appends_prevHash_one (hone : limit.toNat = 1)
    (h : Appends H st [] rows after) : ∀ row ∈ rows, row.prevHash = none := by
  induction h with
  | nil => exact List.forall_mem_nil _
  | @snoc rows mid after last h hlast ih =>
    intro row hrow
    rcases List.mem_append.mp hrow with hrow | hrow
    · exact ih row hrow
    · have hkept := kept_of_appends hlimit hdrop hpos hfit h
      rw [hone, Nat.sub_self, List.rtake_zero] at hkept
      rw [List.mem_singleton.mp hrow, hlast.prevHash_eq, hkept]
      rfl

theorem appends_verify_dropOldest (h : Appends H st [] rows after) :
    (verifyChain H st after).ok = true ↔ rows.length ≤ limit.toNat ∨ limit.toNat = 1 := by
  have hafter : after = rows.rtake limit.toNat := by
    have heq := appends_eq_rtake hlimit hdrop hpos hfit h (.inl (Nat.zero_le _))
    rwa [List.nil_append] at heq
  obtain ⟨⟨p, hchain⟩, hstart⟩ := appends_chain_empty h
  by_cases hle : rows.length ≤ limit.toNat
  · have heq : after = rows := by
      rw [hafter, List.rtake, Nat.sub_eq_zero_of_le hle, List.drop_zero]
    refine ⟨fun _ => .inl hle, fun _ => ?_⟩
    rw [verifyChain_ok_iff, heq]
    exact hstart heq
  · -- the first row left is not the first one written
    obtain ⟨n, hn⟩ : ∃ n, rows.length - limit.toNat = n + 1 :=
      ⟨rows.length - limit.toNat - 1, by omega⟩
    have htail : after = rows.tail.drop n := by
      rw [hafter, List.rtake, hn, List.drop_tail]
    have hne : after ≠ [] := by
      rw [← List.length_pos_iff, hafter, List.rtake, List.length_drop]
      omega
    obtain ⟨first, rest, hfirst⟩ := List.exists_cons_of_ne_nil hne
    have hmem : first ∈ rows.tail := by
      have : first ∈ rows.tail.drop n := by
        rw [← htail, hfirst]
        exact List.mem_cons_self
      exact List.mem_of_mem_drop this
    rw [hfirst] at hchain ⊢
    rw [verifyChain_ok_of_chainFrom hchain]
    constructor
    · intro hnone
      by_contra hcon
      exact appends_prevHash_tail hlimit hdrop hpos hfit (by omega) h first hmem hnone
    · intro hor
      exact appends_prevHash_one hlimit hdrop hpos hfit (hor.resolve_left hle) h first
        (List.mem_of_mem_tail hmem)

end DropOldest

end

end Kipuka.Audit
