/-
  The audit trail over whole runs: any number of writers in any number of processes, in any
  interleaving, with failing statements, lost commits, rollbacks and dropped requests.
-/
import Kipuka.Audit.Latch

namespace Kipuka.Audit

open Generic

variable {W P : Type} [DecidableEq W] [DecidableEq P]

abbrev TrailConfig (W P : Type) : Type := Config W Op Task (Except Failure Unit) (World W P) Reply

def written (c : TrailConfig W P) : List AuditRow := c.shared.history.flatMap Commit.rows

/-- The writers get from a started table to this configuration by these steps. -/
def Reaches (H : Hashes) (st : AuditState) (p : W → P) (t : Table) (acts : List (Act W Env Task))
    (c : TrailConfig W P) : Prop :=
  (trail H st p).run (Config.initial (started t)) acts = some c

variable {H : Hashes} {st : AuditState} {p : W → P} {t : Table} {acts : List (Act W Env Task)}
  {c : TrailConfig W P}

omit [DecidableEq W] [DecidableEq P] in
theorem idle_started (w : W) (t : Table) : Idle w (started t : World W P) :=
  ⟨rfl, (Option.some_ne_none w).symm⟩

section

variable (h : Reaches H st p t acts c)

include h

theorem reachable_inv : (auditContract H st p).Inv c ∧ Evolve H st (started t) c.shared :=
  (auditContract H st p).run_inv ((auditContract H st p).inv_initial trivial fun w => idle_started w t) h

theorem reachable_appends : Appends H st t.rows (written c) c.shared.table.rows := by
  obtain ⟨new, hnew, happ⟩ := (reachable_inv h).2.history
  have hhistory : c.shared.history = new := by
    rw [hnew]
    rfl
  unfold written
  rw [hhistory]
  exact happ

theorem written_disabled (hdisabled : st.config.enabled = false) : written c = [] :=
  (reachable_appends h).eq_nil_of_disabled hdisabled

end

/-! ## The verifier on every committed table -/

/-- Without pruning, the verifier accepts every table that was ever committed, however the writers
    were interleaved. -/
theorem verifyChain_reachable (hcfg : st.config.maxRows = none ∨ st.config.overflowPolicy = .halt)
    (h : Reaches H st p .empty acts c) : (verifyChain H st c.shared.table.rows).ok = true :=
  appends_verify hcfg (reachable_appends h)

def envAt (timestamp : Timestamp) (newId : Int) : Env :=
  { fault := none, applied := false, now := timestamp, newId := newId }

def steps (w : W) (e : Env) (n : Nat) : List (Act W Env Task) := List.replicate n (.step w e)

theorem wellFormed_at0930 : "2026-03-01T09:30:00.000Z".toList.all timestampChar = true := by decide

def at0930 : Timestamp := ⟨"2026-03-01T09:30:00.000Z", wellFormed_at0930⟩

def at0931 : Timestamp := ⟨"2026-03-01T09:31:00.000Z", by decide⟩

def at0932 : Timestamp := ⟨"2026-03-01T09:32:00.000Z", by decide⟩

def trailDigests : Hashes := knownDigests [
  ("\x1e2026-03-01T09:30:00.000Z\x1eca.start\x1e\x1e\x1e\x1e\x1e\x1e",
    0xc791a907705067fb09da9691987efa76fc01719d2ce522f4e7442886d5728f73),
  ("c791a907705067fb09da9691987efa76fc01719d2ce522f4e7442886d5728f73\x1e" ++
    "2026-03-01T09:31:00.000Z\x1eca.stop\x1e\x1e\x1e\x1e\x1e\x1e",
    0xd842541a3c2f67a9fafeb808866e0e1823b88e3cde3053fbf2a559e44bb96104),
  ("c791a907705067fb09da9691987efa76fc01719d2ce522f4e7442886d5728f73\x1e" ++
    "2026-03-01T09:31:00.000Z\x1ecert.issue\x1e\x1e\x1e" ++
    "\x7b\"ca_id\":\"ca1\",\"detail\":\"serial=01\"\x7d\x1e\x1e\x1e",
    0xd715097f2f1d34856d97cd0a4ae7fd4c6547eed77a273b29afc29786121367b4),
  ("d842541a3c2f67a9fafeb808866e0e1823b88e3cde3053fbf2a559e44bb96104\x1e" ++
    "2026-03-01T09:32:00.000Z\x1eca.start\x1e\x1e\x1e\x1e\x1e\x1e",
    0x8ccb45e149147437c667ec441c73d94e0341cc1e38a32a72587e438fa320bdc2)]

/-- Two processes: one records an event, the other issues. The issuance opens its transaction and
    inserts a certificate while the event is being written, waits for the lock, then records its
    own event and commits. -/
def interleavedRun : List (Act Bool Env Task) :=
  .start false (.recordChecked (.new .caStart)) :: steps false (envAt at0930 1) 5 ++
  .start true (.issuance [.statement "INSERT INTO certificates", .event "ca1" "serial=01"]) ::
    steps true (envAt at0931 2) 3 ++
  steps false (envAt at0930 1) 6 ++ steps true (envAt at0931 2) 6

theorem verifyChain_reachable_interleaved :
    ∃ c, Reaches trailDigests unkeyed id .empty interleavedRun c ∧
      c.shared.table.rows.length = 2 ∧
      (verifyChain trailDigests unkeyed c.shared.table.rows).ok = true := by
  have hrows : ((trail trailDigests unkeyed id).run
      (Config.initial (started .empty)) interleavedRun).map
        (fun c => c.shared.table.rows.length) = some 2 := by decide +kernel
  obtain ⟨c, hrun, hlen⟩ := Option.map_eq_some_iff.mp hrows
  exact ⟨c, hrun, hlen, verifyChain_reachable (.inl rfl) hrun⟩

theorem appends_eq_drop {before rows after : List AuditRow} (h : Appends H st before rows after) :
    ∃ n, after = (before ++ rows).drop n := by
  induction h with
  | nil => exact ⟨0, (List.append_nil before).symm⟩
  | snoc h hrow ih =>
    obtain ⟨n, rfl⟩ := ih
    rw [hrow.after_eq, kept, List.drop_drop, ← List.append_assoc]
    generalize n + excess st.config _ = k
    rcases Nat.le_total k (before ++ _).length with hle | hge
    · exact ⟨k, (List.drop_append_of_le_length hle).symm⟩
    · rw [List.drop_eq_nil_of_le hge, List.nil_append]
      exact ⟨_, List.drop_left.symm⟩

/-- From every reachable point on, the rows that writers commit come at the end of the table, and
    rows go, if at all, at its front: no row is changed or moved. Without pruning none goes. -/
theorem table_append_only (h : Reaches H st p t acts c) {more : List (Act W Env Task)}
    {c' : TrailConfig W P} (hmore : (trail H st p).run c more = some c') :
    ∃ new n, written c' = written c ++ new ∧
      c'.shared.table.rows = (c.shared.table.rows ++ new).drop n ∧
      (st.config.maxRows = none ∨ st.config.overflowPolicy = .halt → n = 0) := by
  obtain ⟨new, hnew, happends⟩ :=
    ((auditContract H st p).run_inv (reachable_inv h).1 hmore).2.history
  have hwritten : written c' = written c ++ new.flatMap Commit.rows := by
    rw [written, hnew, List.flatMap_append]
    rfl
  by_cases hcfg : st.config.maxRows = none ∨ st.config.overflowPolicy = .halt
  · exact ⟨_, 0, hwritten, appends_eq_append hcfg happends, fun _ => rfl⟩
  · obtain ⟨n, hn⟩ := appends_eq_drop happends
    exact ⟨_, n, hwritten, hn, fun h => absurd h hcfg⟩

theorem table_append_only_interleaved : ∃ c c' new,
    Reaches trailDigests unkeyed id .empty (interleavedRun.take 16) c ∧
      (trail trailDigests unkeyed id).run c (interleavedRun.drop 16) = some c' ∧
      c.shared.table.rows.length = 1 ∧ c'.shared.table.rows = c.shared.table.rows ++ new := by
  have hlengths : (((trail trailDigests unkeyed id).run (Config.initial (started .empty))
      (interleavedRun.take 16)).bind fun c => ((trail trailDigests unkeyed id).run c
        (interleavedRun.drop 16)).map fun _ => c.shared.table.rows.length) = some 1 := by
    decide +kernel
  obtain ⟨c, hrun, hrest⟩ := Option.bind_eq_some_iff.mp hlengths
  obtain ⟨c', hmore, hlen⟩ := Option.map_eq_some_iff.mp hrest
  obtain ⟨new, n, -, hrows, hzero⟩ := table_append_only hrun hmore
  obtain rfl := hzero (.inl rfl)
  exact ⟨c, c', new, hrun, hmore, hlen, hrows⟩

/-- Under `drop_oldest`, from an empty table, the verifier accepts exactly as long as no row was
    pruned, or with a limit of one row: otherwise the first row left still points at one that is
    gone. -/
theorem verifyChain_dropOldest_iff (H : Hashes) (st : AuditState) (p : W → P) (limit : UInt64)
    (hvalid : st.config.validate = .ok ()) (hlimit : st.config.maxRows = some limit)
    (hdrop : st.config.overflowPolicy = .dropOldest) (acts : List (Act W Env Task))
    (c : TrailConfig W P) (h : Reaches H st p .empty acts c) :
    (verifyChain H st c.shared.table.rows).ok = true ↔
      (written c).length ≤ limit.toNat ∨ limit.toNat = 1 := by
  cases henabled : st.config.enabled with
  | true =>
    obtain ⟨hpos, hfit⟩ := maxRows_of_validate hvalid henabled hlimit
    exact appends_verify_dropOldest hlimit hdrop hpos hfit (reachable_appends h)
  | false =>
    have hnil := written_disabled h henabled
    have htable : c.shared.table.rows = [] := (reachable_appends h).eq_of_nil hnil
    rw [htable, hnil]
    exact ⟨fun _ => .inl (Nat.zero_le _), fun _ => rfl⟩

def twoRows : AuditState := ⟨{ AuditConfig.default with maxRows := some 2 }, none⟩

def pruningRun : List (Act Unit Env Task) :=
  .start () (.recordChecked (.new .caStart)) :: steps () (envAt at0930 1) 12 ++
  .start () (.recordChecked (.new .caStop)) :: steps () (envAt at0931 2) 12 ++
  .start () (.recordChecked (.new .caStart)) :: steps () (envAt at0932 3) 14

/-- After the third event the verifier reports the second row as broken. -/
theorem verifyChain_pruned :
    ∃ c, Reaches trailDigests twoRows id .empty pruningRun c ∧
      (verifyChain trailDigests twoRows c.shared.table.rows).ok = false ∧
      (verifyChain trailDigests twoRows c.shared.table.rows).brokenAt = some 2 := by
  have hreport : ((trail trailDigests twoRows id).run
      (Config.initial (started .empty)) pruningRun).map
        (fun c => ((verifyChain trailDigests twoRows c.shared.table.rows).ok,
          (verifyChain trailDigests twoRows c.shared.table.rows).brokenAt)) =
      some (false, some 2) := by decide +kernel
  obtain ⟨c, hrun, hc⟩ := Option.map_eq_some_iff.mp hreport
  exact ⟨c, hrun, (Prod.mk.inj hc).1, (Prod.mk.inj hc).2⟩

theorem verifyChain_dropOldest_iff_pruned :
    ∃ c, Reaches trailDigests twoRows id .empty pruningRun c ∧
      ((verifyChain trailDigests twoRows c.shared.table.rows).ok = true ↔
        (written c).length ≤ 2 ∨ (2 : Nat) = 1) := by
  have hsome : ((trail trailDigests twoRows id).run
      (Config.initial (started .empty)) pruningRun).isSome = true := by decide +kernel
  obtain ⟨c, hrun⟩ := Option.isSome_iff_exists.mp hsome
  exact ⟨c, hrun, verifyChain_dropOldest_iff trailDigests twoRows id 2 (by decide) rfl rfl pruningRun c
    hrun⟩

/-- Legacy rows in front of all rows written since: the verifier accepts exactly when there are
    none. -/
theorem verifyChain_legacy_iff (H : Hashes) (st : AuditState) (p : W → P) (t : Table)
    (hlegacy : ∀ row ∈ t.rows, Legacy row) (acts : List (Act W Env Task)) (c : TrailConfig W P)
    (h : Reaches H st p t acts c) (old : List AuditRow) (hold : ∀ row ∈ old, Legacy row)
    (htable : c.shared.table.rows = old ++ written c) :
    (verifyChain H st c.shared.table.rows).ok = true ↔ old = [] :=
  appends_verify_legacy hlegacy (reachable_appends h) hold htable

def legacyRow : AuditRow := { startRow with prevHash := none, recordHash := none }

def legacyTable : Table := ⟨[legacyRow], List.pairwise_singleton ..⟩

def upgradedRun : List (Act Unit Env Task) :=
  .start () (.recordChecked (.new .caStart)) :: steps () (envAt at0930 2) 11

/-- The verifier reports the legacy row as altered. -/
theorem verifyChain_upgraded :
    ∃ c, Reaches trailDigests unkeyed id legacyTable upgradedRun c ∧
      c.shared.table.rows = [legacyRow] ++ written c ∧ (written c).length = 1 ∧
      (verifyChain trailDigests unkeyed c.shared.table.rows).ok = false ∧
      (verifyChain trailDigests unkeyed c.shared.table.rows).brokenAt = some 1 := by
  have hreport : ((trail trailDigests unkeyed id).run
      (Config.initial (started legacyTable)) upgradedRun).map
        (fun c => (decide (c.shared.table.rows = [legacyRow] ++ written c), (written c).length,
          (verifyChain trailDigests unkeyed c.shared.table.rows).ok,
          (verifyChain trailDigests unkeyed c.shared.table.rows).brokenAt)) =
      some (true, 1, false, some 1) := by decide +kernel
  obtain ⟨c, hrun, hc⟩ := Option.map_eq_some_iff.mp hreport
  obtain ⟨htable, hrest⟩ := Prod.mk.inj hc
  obtain ⟨hlen, hrest⟩ := Prod.mk.inj hrest
  obtain ⟨hok, hbroken⟩ := Prod.mk.inj hrest
  exact ⟨c, hrun, of_decide_eq_true htable, hlen, hok, hbroken⟩

theorem verifyChain_legacy_iff_upgraded :
    ∃ c, Reaches trailDigests unkeyed id legacyTable upgradedRun c ∧
      ((verifyChain trailDigests unkeyed c.shared.table.rows).ok = true ↔ [legacyRow] = []) := by
  have htable : ((trail trailDigests unkeyed id).run
      (Config.initial (started legacyTable)) upgradedRun).map
        (fun c => decide (c.shared.table.rows = [legacyRow] ++ written c)) = some true := by
    decide +kernel
  obtain ⟨c, hrun, hc⟩ := Option.map_eq_some_iff.mp htable
  have hlegacy : ∀ row ∈ [legacyRow], Legacy row := by decide +kernel
  exact ⟨c, hrun, verifyChain_legacy_iff trailDigests unkeyed id legacyTable hlegacy upgradedRun c hrun
    [legacyRow] hlegacy (of_decide_eq_true hc)⟩

/-! ## The row limit and the halt latch -/

/-- The write was refused, not failed. -/
def Finished.refused (f : Finished W Task (Except Failure Unit)) : Prop :=
  ∃ e, f.result = .error (.refused e)

/-- The thread has not passed the admission check: it is idle, or the check still lies ahead. -/
def BeforeAdmission (c : TrailConfig W P) (w : W) : Prop :=
  ∀ th, c.threads w = some th → Gated (SeesError th.task) th.prog

/-- From `c` on the process `q` stays halted, and any writer of it that has not passed the admission
    check in `c`, and later only starts tasks that record events, commits nothing more and has
    every result an error. -/
def StaysRefused (H : Hashes) (st : AuditState) (p : W → P) (c : TrailConfig W P) (q : P) : Prop :=
  ∀ acts c', (trail H st p).run c acts = some c' →
    (c'.shared.procs q).halted = true ∧
    ∀ w, p w = q → BeforeAdmission c w → (∀ t, .start w t ∈ acts → t.audits = true) →
      commitsBy w c'.shared = commitsBy w c.shared ∧
      ∃ new, c'.done = c.done ++ new ∧ ∀ f ∈ new, f.thread = w → SeesError f.task f.result

theorem staysRefused_of_refused (henabled : st.config.enabled = true)
    (hhalt : st.config.overflowPolicy = .halt) (h : Reaches H st p t acts c)
    {g : Finished W Task (Except Failure Unit)} (hg : g ∈ c.done) (hrefused : Finished.refused g) :
    StaysRefused H st p c (p g.thread) := by
  have hinv := (reachable_inv h).1
  obtain ⟨e, he⟩ := hrefused
  have hhalted : Halted p g.thread c.shared := hinv.done g hg _ he e rfl henabled hhalt
  intro acts' c' hrun
  have hev := ((auditContract H st p).run_inv hinv hrun).2
  refine ⟨hev.halted _ hhalted, ?_⟩
  intro w hw hbefore htasks
  have hhalted' : Halted p w c.shared := by
    unfold Halted
    rw [hw]
    exact hhalted
  have hok : (auditContract H st p).OwnedOk w (commitsBy w) SeesError c.shared (c.threads w) := by
    cases hth : c.threads w with
    | none => trivial
    | some th =>
      intro s' hr
      exact (safe_of_gated (hbefore th hth) (Rely.halted hr.2 _ hhalted')).rely fun _ _ hr => hr.2
  exact (auditContract H st p).run_owned (haltedOwns H p w henabled) hinv hhalted' hok htasks hrun

/-- The row limit over every run, from any table. Under `drop_oldest` the table holds the most
    recent rows up to the limit (from the first event on, if it started beyond the limit). Under
    `halt` it never grows beyond the limit, and the first refused write is the last one: the
    process stays halted and no later audit write or issuance gets through. -/
theorem rowLimit_enforced (H : Hashes) (st : AuditState) (p : W → P) (limit : UInt64)
    (hvalid : st.config.validate = .ok ()) (hlimit : st.config.maxRows = some limit) (t : Table)
    (acts : List (Act W Env Task)) (c : TrailConfig W P) (h : Reaches H st p t acts c) :
    (st.config.overflowPolicy = .dropOldest →
      t.rows.length ≤ limit.toNat ∨ written c ≠ [] →
        c.shared.table.rows = (t.rows ++ written c).rtake limit.toNat) ∧
    (st.config.overflowPolicy = .halt →
      (c.shared.table.rows.length ≤ max t.rows.length limit.toNat ∧
        (written c ≠ [] → c.shared.table.rows.length ≤ limit.toNat)) ∧
      (st.config.enabled = true → ∀ g ∈ c.done, Finished.refused g →
        StaysRefused H st p c (p g.thread))) := by
  have happ := reachable_appends h
  cases henabled : st.config.enabled with
  | true =>
    obtain ⟨hpos, hfit⟩ := maxRows_of_validate hvalid henabled hlimit
    refine ⟨?_, ?_⟩
    · intro hdrop hstart
      exact appends_eq_rtake hlimit hdrop hpos hfit happ hstart
    · intro hhalt
      refine ⟨appends_length_le hlimit hhalt hfit happ, ?_⟩
      intro _ g hg hrefused
      exact staysRefused_of_refused henabled hhalt h hg hrefused
  | false =>
    -- nothing is written and the table stays what it was
    have hnil := written_disabled h henabled
    have htable : c.shared.table.rows = t.rows := happ.eq_of_nil hnil
    rw [htable, hnil]
    refine ⟨?_, ?_⟩
    · intro _ hstart
      have hle : t.rows.length ≤ limit.toNat := hstart.resolve_right (fun hne => hne rfl)
      rw [List.append_nil, List.rtake, Nat.sub_eq_zero_of_le hle, List.drop_zero]
    · intro _
      exact ⟨⟨Nat.le_max_left .., fun hne => absurd rfl hne⟩, fun hfalse => Bool.noConfusion hfalse⟩

def oneRowHalt : AuditState :=
  ⟨{ AuditConfig.default with maxRows := some 1, overflowPolicy := .halt }, none⟩

def refusingRun : List (Act Unit Env Task) :=
  .start () (.recordChecked (.new .caStart)) :: steps () (envAt at0930 1) 12 ++
  .start () (.recordChecked (.new .caStop)) :: steps () (envAt at0931 2) 10

/-- Three events under `drop_oldest`, and two under `halt` of which the second is refused. -/
theorem rowLimit_enforced_runs :
    (∃ c, Reaches trailDigests twoRows id .empty pruningRun c ∧
      c.shared.table.rows = (written c).rtake 2) ∧
    ∃ c, Reaches trailDigests oneRowHalt id .empty refusingRun c ∧
      c.shared.table.rows.length ≤ 1 ∧
      ∃ g ∈ c.done, Finished.refused g ∧ StaysRefused trailDigests oneRowHalt id c (id g.thread) := by
  constructor
  · have hsome : ((trail trailDigests twoRows id).run
        (Config.initial (started .empty)) pruningRun).isSome = true := by decide +kernel
    obtain ⟨c, hrun⟩ := Option.isSome_iff_exists.mp hsome
    have hlimit := rowLimit_enforced trailDigests twoRows id 2 (by decide) rfl .empty pruningRun c hrun
    exact ⟨c, hrun, hlimit.1 rfl (.inl (by decide))⟩
  · have hdone : ((trail trailDigests oneRowHalt id).run
        (Config.initial (started .empty)) refusingRun).map (fun c => c.done.map Finished.result) =
        some [.ok (), .error (.refused (.db "audit storage row limit reached"))] := by
      decide +kernel
    obtain ⟨c, hrun, hresults⟩ := Option.map_eq_some_iff.mp hdone
    have hlimit := rowLimit_enforced trailDigests oneRowHalt id 1 (by decide) rfl .empty refusingRun c
      hrun
    obtain ⟨g, hg, hrefused⟩ : ∃ g ∈ c.done,
        g.result = .error (.refused (.db "audit storage row limit reached")) := by
      apply List.mem_map.mp
      rw [hresults]
      exact List.mem_cons_of_mem _ List.mem_cons_self
    exact ⟨c, hrun, (hlimit.2 rfl).1.1, g, hg, ⟨_, hrefused⟩, (hlimit.2 rfl).2 rfl g hg ⟨_, hrefused⟩⟩

end Kipuka.Audit
