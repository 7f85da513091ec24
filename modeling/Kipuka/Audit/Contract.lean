/-
  The contract of the audit writers: what each of them relies on and guarantees, and the proof that
  every task keeps it.
-/
import Kipuka.Audit.Serial

namespace Kipuka.Audit

open Generic

section

variable {W P : Type}

/-! ## Rely, and how the store evolves -/

def HaltedStays (s s' : World W P) : Prop :=
  ∀ q, (s.procs q).halted = true → (s'.procs q).halted = true

/-- What the others may do: not touch the transaction of `w`, nor its lock, nor, while it holds the
    lock, the table. -/
structure Rely (w : W) (s s' : World W P) : Prop where
  tx : s'.tx w = s.tx w
  lock : s'.writerLock = some w ↔ s.writerLock = some w
  table : s.writerLock = some w → s'.table = s.table
  halted : HaltedStays s s'

structure Evolve (H : Hashes) (st : AuditState) (s s' : World W P) : Prop where
  history : ∃ new, s'.history = s.history ++ new ∧
    Appends H st s.table.rows (new.flatMap Commit.rows) s'.table.rows
  halted : HaltedStays s s'

theorem HaltedStays.refl (s : World W P) : HaltedStays s s := fun _ h => h

variable {s s' s'' : World W P}

theorem HaltedStays.trans (h : HaltedStays s s') (h' : HaltedStays s' s'') :
    HaltedStays s s'' := fun q hq => h' q (h q hq)

theorem Rely.refl (w : W) (s : World W P) : Rely w s s :=
  ⟨rfl, Iff.rfl, fun _ => rfl, HaltedStays.refl s⟩

theorem Rely.trans (w : W) (h : Rely w s s') (h' : Rely w s' s'') : Rely w s s'' :=
  ⟨h'.tx.trans h.tx, h'.lock.trans h.lock,
    fun hw => (h'.table (h.lock.mpr hw)).trans (h.table hw), h.halted.trans h'.halted⟩

variable {H : Hashes} {st : AuditState} {v w : W}

theorem Evolve.refl (s : World W P) : Evolve H st s s :=
  ⟨⟨[], (List.append_nil _).symm, .nil⟩, HaltedStays.refl s⟩

theorem Evolve.trans (h : Evolve H st s s') (h' : Evolve H st s' s'') : Evolve H st s s'' := by
  obtain ⟨new, hnew, happ⟩ := h.history
  obtain ⟨new', hnew', happ'⟩ := h'.history
  refine ⟨⟨new ++ new', ?_, ?_⟩, h.halted.trans h'.halted⟩
  · rw [hnew', hnew, List.append_assoc]
  · rw [List.flatMap_append]
    exact happ.trans happ'

/-! ## What a writer knows of its own transaction -/

/-- A writer between two writes: no transaction, and not the lock. -/
structure Idle (w : W) (s : World W P) : Prop where
  tx : s.tx w = none
  lock : s.writerLock ≠ some w

def Open (w : W) (s : World W P) : Prop :=
  ∃ tx, s.tx w = some tx ∧ (s.writerLock ≠ some w → tx.changes = [])

structure Holds (w : W) (tx : Tx) (t : Table) (s : World W P) : Prop where
  lock : s.writerLock = some w
  tx : s.tx w = some tx
  table : s.table = t

/-- A transaction over a table appends a chained row for each of its inserts. -/
def Whole (H : Hashes) (st : AuditState) (tx : Tx) (t : Table) : Prop :=
  Appends H st t.rows tx.inserted (tx.view t).rows

def Ready (H : Hashes) (st : AuditState) (w : W) (s : World W P) : Prop :=
  ∃ tx, s.tx w = some tx ∧ (s.writerLock ≠ some w → tx.changes = []) ∧ Whole H st tx s.table

variable {tx : Tx}

theorem whole_of_unchanged (t : Table) (h : tx.changes = []) : Whole H st tx t := by
  unfold Whole Tx.inserted Tx.view
  rw [h]
  exact .nil

theorem Idle.rely (h : Idle w s) (hr : Rely w s s') : Idle w s' :=
  ⟨hr.tx.trans h.tx, fun hl => h.lock (hr.lock.mp hl)⟩

theorem Open.rely (h : Open w s) (hr : Rely w s s') : Open w s' := by
  obtain ⟨tx, htx, hchanges⟩ := h
  exact ⟨tx, hr.tx.trans htx, fun hl => hchanges (fun h => hl (hr.lock.mpr h))⟩

variable {t : Table}

theorem Holds.rely (h : Holds w tx t s) (hr : Rely w s s') : Holds w tx t s' :=
  ⟨hr.lock.mpr h.lock, hr.tx.trans h.tx, (hr.table h.lock).trans h.table⟩

theorem Ready.rely (h : Ready H st w s) (hr : Rely w s s') : Ready H st w s' := by
  obtain ⟨tx, htx, hchanges, hwhole⟩ := h
  have hchanges' : s'.writerLock ≠ some w → tx.changes = [] :=
    fun hl => hchanges (fun h => hl (hr.lock.mpr h))
  refine ⟨tx, hr.tx.trans htx, hchanges', ?_⟩
  by_cases hl : s.writerLock = some w
  · rw [hr.table hl]
    exact hwhole
  · exact whole_of_unchanged _ (hchanges hl)

theorem Holds.isOpen (h : Holds w tx t s) : Open w s :=
  ⟨tx, h.tx, fun hl => absurd h.lock hl⟩

theorem Holds.ready (h : Holds w tx t s) (hwhole : Whole H st tx t) : Ready H st w s :=
  ⟨tx, h.tx, fun hl => absurd h.lock hl, h.table ▸ hwhole⟩

theorem Ready.isOpen (h : Ready H st w s) : Open w s := by
  obtain ⟨tx, htx, hchanges, -⟩ := h
  exact ⟨tx, htx, hchanges⟩

theorem Holds.view (h : Holds w tx t s) : s.view w = tx.view t := by
  unfold World.view
  rw [h.tx, h.table]

def Latched (st : AuditState) (p : W → P) (w : W) (s : World W P) : Prop :=
  st.config.overflowPolicy = .halt → (s.procs (p w)).halted = true

variable {α : Type} {e : Env} {effect : Option (α × World W P)} {r : Except String α}

theorem stmt_cases (h : stmt e s effect = some (r, s')) :
    (∃ msg, r = .error msg ∧ s' = s) ∨ ∃ a, r = .ok a ∧ effect = some (a, s') := by
  unfold stmt at h
  split at h
  · next msg _ =>
    cases h
    exact .inl ⟨msg, rfl, rfl⟩
  · obtain ⟨⟨a, s''⟩, heffect, heq⟩ := Option.map_eq_some_iff.mp h
    cases heq
    exact .inr ⟨a, rfl, heffect⟩

variable {p : W → P}

theorem Latched.rely (h : Latched st p w s) (hr : Rely w s s') :
    Latched st p w s' := fun hhalt => hr.halted _ (h hhalt)

def Refused (st : AuditState) (p : W → P) (w : W) (failure : Failure) (s : World W P) : Prop :=
  ∀ e, failure = .refused e → st.config.enabled = true → Latched st p w s

theorem Refused.rely {failure : Failure} (h : Refused st p w failure s)
    (hr : Rely w s s') : Refused st p w failure s' :=
  fun e he henabled => (h e he henabled).rely hr

section Flags

variable [DecidableEq P]

theorem haltedStays_setProc (s : World W P) (q : P) (f : Proc W → Proc W)
    (hf : (s.procs q).halted = true → (f (s.procs q)).halted = true) :
    HaltedStays s (s.setProc q f) := by
  intro q' hq'
  by_cases hq : q' = q
  · subst hq
    simpa [World.setProc] using hf hq'
  · simpa [World.setProc, hq] using hq'

theorem idle_setProc (h : Idle w s) (q : P) (f : Proc W → Proc W) :
    Idle w (s.setProc q f) := ⟨h.tx, h.lock⟩

theorem open_setProc (h : Open w s) (q : P) (f : Proc W → Proc W) : Open w (s.setProc q f) := h

end Flags

variable [DecidableEq W]

/-! ## What a writer guarantees -/

structure Guar (H : Hashes) (st : AuditState) (w : W) (s s' : World W P) : Prop where
  tx : ∀ v, v ≠ w → s'.tx v = s.tx v
  lock : ∀ v, v ≠ w → (s'.writerLock = some v ↔ s.writerLock = some v)
  table : s'.table = s.table ∨ s.writerLock = some w
  others : ∀ v, v ≠ w →
    s'.history.filter (·.writer = v) = s.history.filter (·.writer = v)
  evolve : Evolve H st s s'

theorem Guar.rely (hvw : v ≠ w) (h : Guar H st v s s') : Rely w s s' where
  tx := h.tx w (Ne.symm hvw)
  lock := h.lock w (Ne.symm hvw)
  table := fun hw => h.table.resolve_right
    (fun hv => hvw (Option.some.inj (hv.symm.trans hw)))
  halted := h.evolve.halted

theorem Guar.of_local (htx : ∀ v, v ≠ w → s'.tx v = s.tx v)
    (hlock : ∀ v, v ≠ w → (s'.writerLock = some v ↔ s.writerLock = some v))
    (htable : s'.table = s.table) (hhistory : s'.history = s.history)
    (hhalted : HaltedStays s s') : Guar H st w s s' where
  tx := htx
  lock := hlock
  table := .inl htable
  others := fun v _ => by rw [hhistory]
  evolve := ⟨⟨[], by rw [hhistory, List.append_nil], by rw [htable]; exact .nil⟩, hhalted⟩

theorem Guar.refl (w : W) (s : World W P) : Guar H st w s s :=
  .of_local (fun _ _ => rfl) (fun _ _ => Iff.rfl) rfl rfl (HaltedStays.refl s)

theorem Guar.setTx (w : W) (s : World W P) (tx : Option Tx) : Guar H st w s (s.setTx w tx) :=
  .of_local (fun _ hv => Function.update_of_ne hv ..) (fun _ _ => Iff.rfl) rfl rfl (HaltedStays.refl s)

theorem Guar.lockRow (h : s.writerLock = none ∨ s.writerLock = some w) :
    Guar H st w s { s with writerLock := some w } := by
  refine .of_local (fun _ _ => rfl) ?_ rfl rfl (HaltedStays.refl s)
  intro v hv
  rcases h with h | h
  · simp [h, Ne.symm hv]
  · simp [h]

theorem release_lock (s : World W P) (hv : v ≠ w) :
    (s.release w).writerLock = some v ↔ s.writerLock = some v := by
  unfold World.release
  by_cases h : s.writerLock = some w
  · simp [h, Ne.symm hv]
  · simp [h]

theorem Guar.rollback (w : W) (s : World W P) : Guar H st w s (s.rollback w) :=
  .of_local (fun _ hv => Function.update_of_ne hv ..) (fun _ hv => release_lock _ hv) rfl rfl
    (HaltedStays.refl s)

theorem idle_rollback (w : W) (s : World W P) : Idle w (s.rollback w) := by
  refine ⟨Function.update_self .., ?_⟩
  unfold World.rollback World.release
  dsimp only
  split
  · exact (Option.some_ne_none w).symm
  · next hne => exact hne

theorem Guar.commit
    (hchanges : s.writerLock ≠ some w → tx.changes = []) (hwhole : Whole H st tx s.table) :
    Guar H st w s (s.commit w tx) where
  tx := fun _ hv => Function.update_of_ne hv ..
  lock := fun _ hv => release_lock _ hv
  table := by
    by_cases hl : s.writerLock = some w
    · exact .inr hl
    · left
      show tx.view s.table = s.table
      rw [Tx.view, hchanges hl]
      rfl
  others := by
    intro v hv
    show (s.history ++ [_]).filter _ = _
    rw [List.filter_append, List.filter_singleton]
    simp [Ne.symm hv]
  evolve := by
    refine ⟨⟨[⟨w, tx.inserted, tx.writes⟩], rfl, ?_⟩, HaltedStays.refl s⟩
    rw [List.flatMap_singleton]
    exact hwhole

variable {w : W} {ε : Type} {g : String → ε}

variable {A : α → World W P → Prop}

theorem guar_stmt (h : Open w s) (he : stmt e s effect = some (r, s'))
    (hok : ∀ a s', effect = some (a, s') → Guar H st w s s' ∧ ∀ s'', Rely w s' s'' → A a s'') :
    Guar H st w s s' ∧ ∀ s'', Rely w s' s'' → Ends A (fun _ => Open w) (r.mapError g) s'' := by
  rcases stmt_cases he with ⟨msg, rfl, rfl⟩ | ⟨a, rfl, heffect⟩
  · exact ⟨Guar.refl w _, fun s'' hr => h.rely hr⟩
  · exact hok a s' heffect

theorem Holds.addChange (h : Holds w tx t s) {c : Change} (heffect : addChange s w c = some ((), s')) :
    Guar H st w s s' ∧ Holds w (tx.add c) t s' := by
  unfold Audit.addChange at heffect
  rw [h.tx] at heffect
  cases heffect
  exact ⟨Guar.setTx w s _, h.lock, Function.update_self .., h.table⟩

variable [DecidableEq P]

theorem Guar.setProc (w : W) (s : World W P) (q : P) (f : Proc W → Proc W)
    (hf : (s.procs q).halted = true → (f (s.procs q)).halted = true) :
    Guar H st w s (s.setProc q f) :=
  .of_local (fun _ _ => rfl) (fun _ _ => Iff.rfl) rfl rfl (haltedStays_setProc s q f hf)

/-! ## Statements -/

theorem commit_cases {r : Except String Unit} (h : exec p w e .commit s = some (r, s')) :
    ∃ tx, s.tx w = some tx ∧
      (s' = s.commit w tx ∨ (∃ msg, r = .error msg) ∧ s' = s.rollback w) := by
  obtain ⟨tx, htx, heq⟩ := Option.map_eq_some_iff.mp h
  refine ⟨tx, htx, ?_⟩
  split at heq
  · cases heq
    exact .inl rfl
  · next msg _ =>
    cases heq
    split
    · exact .inl rfl
    · exact .inr ⟨⟨msg, rfl⟩, rfl⟩

abbrev SafeW {α : Type} (H : Hashes) (st : AuditState) (p : W → P) (w : W)
    (Q : α → World W P → Prop) (x : Prog Op Reply α) (s : World W P) : Prop :=
  Safe (exec p w) (Rely w) (Guar H st w) Q x s

theorem safe_begin (h : Idle w s) :
    SafeW H st p w (Ends (fun _ => Ready H st w) (fun f s => Idle w s ∧ ∃ msg, f = g msg))
      (Prog.mapErr g (ask .begin)).run s := by
  refine safe_mapErr (safe_op ?_)
  intro e r s' he
  rcases stmt_cases he with ⟨msg, rfl, rfl⟩ | ⟨_, rfl, heffect⟩
  · exact ⟨Guar.refl w _, fun s'' hr => ⟨h.rely hr, msg, rfl⟩⟩
  · cases heffect
    refine ⟨Guar.setTx w s _, fun s'' hr => Ready.rely ?_ hr⟩
    exact ⟨.new, Function.update_self .., fun _ => rfl, whole_of_unchanged _ rfl⟩

theorem safe_updateWriterLock (h : Ready H st w s) : SafeW H st p w
      (Ends (fun _ s => ∃ tx t, Holds w tx t s ∧ Whole H st tx t) (fun _ => Open w))
      (Prog.mapErr g (ask .updateWriterLock)).run s := by
  refine safe_mapErr (safe_op ?_)
  intro e r s' he
  refine guar_stmt h.isOpen he ?_
  intro _ s' heffect
  split at heffect
  · next hfree =>
    cases heffect
    obtain ⟨tx, htx, -, hwhole⟩ := h
    have hholds : Holds w tx s.table { s with writerLock := some w } := ⟨rfl, htx, rfl⟩
    exact ⟨Guar.lockRow hfree, fun s'' hr => ⟨tx, s.table, hholds.rely hr, hwhole⟩⟩
  · cases heffect

section Holding

variable {tx : Tx} {t : Table} {s : World W P} (h : Holds w tx t s)

include h

theorem safe_countRows :
    SafeW H st p w
      (Ends (fun n s => Holds w tx t s ∧ n = ((tx.view t).rows.length : Int)) (fun _ => Open w))
      (Prog.mapErr g (ask .countRows)).run s := by
  refine safe_mapErr (safe_op ?_)
  intro e r s' he
  refine guar_stmt h.isOpen he ?_
  intro n s' heffect
  cases heffect
  exact ⟨Guar.refl w _, fun s'' hr => ⟨h.rely hr, by rw [h.view]⟩⟩

theorem safe_oldestIds (limit : Int) :
    SafeW H st p w
      (Ends (fun ids s => Holds w tx t s ∧
        ids = ((tx.view t).rows.map AuditRow.id).take limit.toNat) (fun _ => Open w))
      (Prog.mapErr g (ask (.oldestIds limit))).run s := by
  refine safe_mapErr (safe_op ?_)
  intro e r s' he
  refine guar_stmt h.isOpen he ?_
  intro ids s' heffect
  cases heffect
  exact ⟨Guar.refl w _, fun s'' hr => ⟨h.rely hr, by rw [h.view]⟩⟩

theorem safe_chainTail :
    SafeW H st p w
      (Ends (fun tail s => Holds w tx t s ∧ tail.join = tailHash (tx.view t).rows)
        (fun _ => Open w))
      (Prog.mapErr g (ask .chainTail)).run s := by
  refine safe_mapErr (safe_op ?_)
  intro e r s' he
  refine guar_stmt h.isOpen he ?_
  intro tail s' heffect
  cases heffect
  exact ⟨Guar.refl w _, fun s'' hr => ⟨h.rely hr, by rw [h.view, tailHash]⟩⟩

theorem safe_deleteRow (id : Int) :
    SafeW H st p w (Ends (fun _ => Holds w (tx.add (.delete id)) t) (fun _ => Open w))
      (Prog.mapErr g (ask (.deleteRow id))).run s := by
  refine safe_mapErr (safe_op ?_)
  intro e r s' he
  refine guar_stmt h.isOpen he ?_
  intro _ s' heffect
  obtain ⟨hg, hholds⟩ := h.addChange heffect
  exact ⟨hg, fun s'' hr => hholds.rely hr⟩

theorem safe_insertRow (row : NewRow) :
    SafeW H st p w
      (Ends (fun _ s => ∃ id, (∀ r ∈ (tx.view t).rows, r.id < id) ∧
        Holds w (tx.add (.insert (row.withId id))) t s) (fun _ => Open w))
      (Prog.mapErr g (ask (.insertRow row))).run s := by
  refine safe_mapErr (safe_op ?_)
  intro e r s' he
  refine guar_stmt h.isOpen he ?_
  intro _ s' heffect
  split at heffect
  · next hids =>
    rw [h.view, List.all_eq_true] at hids
    obtain ⟨hg, hholds⟩ := h.addChange heffect
    exact ⟨hg, fun s'' hr => ⟨e.newId, fun r hr' => by simpa using hids r hr', hholds.rely hr⟩⟩
  · cases heffect

end Holding

/-! ## `write_event` -/

variable {I : World W P → Prop}

theorem safe_admission (hI : ∀ {s s'}, I s → Rely w s s' → I s') (h : I s) :
    SafeW H st p w (Ends (fun _ => I) (fun _ => I)) admission.run s := by
  refine safe_ask (safe_op fun e halted s' he => ?_)
  cases he
  refine ⟨Guar.refl w s, fun s'' hr => ?_⟩
  split
  · exact hI h hr
  · exact hI h hr

theorem safe_deleteRows (first : List AuditRow) {rest : List AuditRow}
    (hview : (tx.view t).rows = first ++ rest) (h : Holds w tx t s) : SafeW H st p w
      (Ends (fun _ s => ∃ tx', Holds w tx' t s ∧ tx'.inserted = tx.inserted ∧
        (tx'.view t).rows = rest) (fun _ => Open w))
      (deleteRows (first.map AuditRow.id)).run s := by
  induction first generalizing tx s with
  | nil => exact ⟨tx, h, rfl, hview⟩
  | cons row first ih =>
    refine safe_seq (safe_deleteRow h row.id) ?_ (fun e s' hs' => hs')
    intro _ s' hs'
    have hview' : ((tx.add (.delete row.id)).view t).rows = first ++ rest := by
      rw [Tx.view_add]
      exact Table.delete_head hview
    have hinserted : (tx.add (.delete row.id)).inserted = tx.inserted := by
      rw [Tx.inserted_add]
      exact List.append_nil _
    refine (ih hview' hs').mono ?_
    intro r s'' hr
    cases r with
    | error e => exact hr
    | ok _ =>
      obtain ⟨tx', hholds, hins, hrows⟩ := hr
      exact ⟨tx', hholds, hins.trans hinserted, hrows⟩

theorem safe_enforceRowLimit {cfg : AuditConfig} (h : Holds w tx t s) : SafeW H st p w
      (Ends (fun _ s => ∃ tx', Holds w tx' t s ∧ tx'.inserted = tx.inserted ∧
        (tx'.view t).rows = kept cfg (tx.view t).rows ∧ HasRoom cfg (tx.view t).rows.length)
        (fun _ => Open w))
      (enforceRowLimit cfg).run s := by
  unfold enforceRowLimit
  cases hmax : cfg.maxRows with
  | none =>
    refine ⟨tx, h, rfl, ?_, ?_⟩
    · rw [kept_of_no_pruning (.inl hmax)]
    · intro limit hlimit
      exact absurd (hmax.symm.trans hlimit).symm (Option.some_ne_none limit)
  | some limit =>
    refine safe_seq (safe_countRows h) ?_ (fun e s' hs' => hs')
    rintro count s' ⟨hs', rfl⟩
    split
    · next hfull =>
      cases hpolicy : cfg.overflowPolicy with
      | halt => exact hs'.isOpen
      | dropOldest =>
        refine safe_seq (safe_oldestIds hs' _) ?_ (fun e s' hs' => hs')
        rintro ids s'' ⟨hs'', rfl⟩
        rw [← List.map_take]
        refine (safe_deleteRows _ (List.take_append_drop _ _).symm hs'').mono ?_
        intro r s₃ hr
        cases r with
        | error e => exact hr
        | ok _ =>
          obtain ⟨tx', hholds, hins, hrows⟩ := hr
          refine ⟨tx', hholds, hins, ?_, ?_⟩
          · rw [hrows, kept, excess, hmax, hpolicy]
          · intro limit' _ hhalt
            rw [hpolicy] at hhalt
            cases hhalt
    · next hroom =>
      have hlt : ((tx.view t).rows.length : Int) < asI64 limit := Int.not_le.mp hroom
      have hkept : kept cfg (tx.view t).rows = (tx.view t).rows := by
        have hzero : excess cfg (tx.view t).rows.length = 0 := by
          unfold excess
          rw [hmax]
          cases cfg.overflowPolicy with
          | halt => rfl
          | dropOldest => exact Int.toNat_of_nonpos (by omega)
        rw [kept, hzero, List.drop_zero]
      refine ⟨tx, hs', rfl, hkept.symm, ?_⟩
      intro limit' hlimit' _
      rw [← Option.some.inj (hmax.symm.trans hlimit')]
      exact hlt

theorem safe_writeEvent (event : AuditEvent) (henabled : st.config.enabled = true)
    (h : Ready H st w s) :
    SafeW H st p w (Ends (fun _ => Ready H st w) (fun _ => Open w)) (writeEvent H st event).run s := by
  unfold writeEvent
  refine safe_seq (safe_admission Ready.rely h) ?_ (fun e s' hs' => hs'.isOpen)
  intro _ s hs
  refine safe_seq (safe_updateWriterLock hs) ?_ (fun e s' hs' => hs')
  rintro _ s ⟨tx, t, hholds, hwhole⟩
  refine safe_seq (safe_enforceRowLimit hholds) ?_ (fun e s' hs' => hs')
  rintro _ s ⟨tx', hholds, hins, hkept, hroom⟩
  have hnow : SafeW H st p w (fun _ => Holds w tx' t) (ask .now) s := by
    refine safe_op fun e r s' he => ?_
    cases he
    exact ⟨Guar.refl w s, fun s'' hr => hholds.rely hr⟩
  refine safe_ask (hnow.mono fun timestamp s hholds => ?_)
  refine safe_seq (safe_chainTail hholds) ?_ (fun e s' hs' => hs')
  rintro tail s ⟨hholds, htail⟩
  refine (safe_insertRow hholds _).mono ?_
  intro r s hr
  cases r with
  | error e => exact hr
  | ok _ =>
    obtain ⟨id, hids, hholds⟩ := hr
    refine hholds.ready ?_
    -- the events before, then this one, chained onto what the row limit left
    have hrow : Append H st (tx.view t).rows ((newRow H st event timestamp tail.join).withId id)
        ((tx'.view t).rows ++ [(newRow H st event timestamp tail.join).withId id]) := by
      refine ⟨henabled, hroom, ⟨event, timestamp, id, ?_⟩, ?_⟩
      · rw [htail, hkept]
      · rw [hkept]
    unfold Whole
    rw [Tx.inserted_add, Tx.view_add, hins]
    have hinsert : ((tx'.view t).insert ((newRow H st event timestamp tail.join).withId id)).rows =
        (tx'.view t).rows ++ [(newRow H st event timestamp tail.join).withId id] :=
      Table.insert_rows hids
    exact hinsert ▸ Appends.snoc hwhole hrow

/-! ## The callers -/

theorem safe_inTransaction {x : ExceptT ε (Prog Op Reply) α}
    {B : ε → World W P → Prop} (hB : ∀ {e s s'}, B e s → Guar H st w s s' → B e s')
    (hB' : ∀ {e s s'}, B e s → Rely w s s' → B e s') (h : SafeW H st p w (Ends A B) x.run s) :
    SafeW H st p w (Ends A (fun e s => Idle w s ∧ B e s)) (inTransaction x).run s := by
  refine safe_bind (h.mono ?_)
  intro r s hr
  cases r with
  | ok a => exact hr
  | error e =>
    refine safe_bind (safe_op ?_)
    intro _ _ s' he
    cases he
    have hg : Guar H st w s (s.rollback w) := Guar.rollback w s
    exact ⟨hg, fun s'' hr' => ⟨(idle_rollback w s).rely hr', hB' (hB hr hg) hr'⟩⟩

theorem safe_commit (h : Ready H st w s) : SafeW H st p w (fun _ => Idle w) (ask .commit) s := by
  refine safe_op ?_
  intro e r s' he
  obtain ⟨tx, htx, hchanges, hwhole⟩ := h
  have hcommit : Guar H st w s (s.commit w tx) := Guar.commit hchanges hwhole
  have hidle : Idle w (s.commit w tx) := ⟨(idle_rollback w s).tx, (idle_rollback w s).lock⟩
  obtain ⟨tx', htx', heffect⟩ := commit_cases he
  rw [htx] at htx'
  cases htx'
  rcases heffect with rfl | ⟨-, rfl⟩
  · exact ⟨hcommit, fun s'' hr => hidle.rely hr⟩
  · exact ⟨Guar.rollback w s, fun s'' hr => (idle_rollback w s).rely hr⟩

theorem safe_flags {o : Op} {f : Proc W → Proc W} {reply : World W P → Reply o}
    (hexec : ∀ e s, exec p w e o s = some (reply s, s.setProc (p w) f))
    (hf : ∀ q : Proc W, q.halted = true → (f q).halted = true)
    (hI : ∀ {s s'}, I s → Rely w s s' → I s') (h : I (s.setProc (p w) f)) :
    SafeW H st p w (fun _ => I) (ask o) s := by
  refine safe_op ?_
  intro e r s' he
  rw [hexec] at he
  cases he
  exact ⟨Guar.setProc w s _ f (hf _), fun s'' hr => hI h hr⟩

section

variable (hI : ∀ {s s'}, I s → Rely w s s' → I s')
  (hproc : ∀ {s q f}, I s → I (World.setProc s q f))

include hI hproc

theorem safe_setHalted (h : I s) :
    SafeW H st p w (fun _ s => I s ∧ (s.procs (p w)).halted = true) (ask .setHalted) s := by
  refine safe_flags (fun _ _ => rfl) (fun _ _ => rfl) ?_ ⟨hproc h, ?_⟩
  · exact fun h hr => ⟨hI h.1 hr, hr.halted _ h.2⟩
  · simp [World.setProc]

theorem safe_latch {A : World W P → Prop} {result : Except KipukaError Unit}
    (h : Ends (fun _ => A) (fun _ => I) result s) :
    SafeW H st p w (Ends (fun _ => A) (fun _ s => I s ∧ Latched st p w s))
      (latch st.config result).run s := by
  unfold latch
  cases result with
  | ok _ => exact h
  | error e =>
    cases hpolicy : st.config.overflowPolicy with
    | dropOldest =>
      refine ⟨h, fun hhalt => ?_⟩
      rw [hpolicy] at hhalt
      cases hhalt
    | halt =>
      refine safe_ask ((safe_setHalted hI hproc h).mono ?_)
      exact fun _ s hs => ⟨hs.1, fun _ => hs.2⟩

end

theorem safe_trackViolations (cfg : AuditConfig) (eventType : AuditEventType) (h : Idle w s) :
    SafeW H st p w (fun _ => Idle w) (trackViolations cfg eventType).run s := by
  have halarm : ∀ count s, Idle w s →
      SafeW H st p w (fun _ => Idle w) (raiseAlarm cfg count).run s := by
    intro count s hs
    unfold raiseAlarm
    split
    · exact safe_lift ((safe_setHalted Idle.rely (fun h => idle_setProc h _ _) hs).mono
        (fun _ _ hs => hs.1))
    · refine safe_mapErr (safe_op ?_)
      intro e r s' he
      rcases stmt_cases he with ⟨msg, rfl, rfl⟩ | ⟨_, rfl, heffect⟩
      · exact ⟨Guar.refl w _, fun s'' hr => hs.rely hr⟩
      · cases heffect
        exact ⟨Guar.refl w _, fun s'' hr => hs.rely hr⟩
  cases eventType with
  | securityViolation =>
    refine safe_ask ((safe_flags (fun _ _ => rfl) ?_ Idle.rely (idle_setProc h _ _)).mono ?_)
    · exact fun _ hq => hq
    intro count s hs
    split
    · exact halarm count s hs
    · exact hs
  | authSuccess =>
    refine safe_lift (safe_flags (fun _ _ => rfl) ?_ Idle.rely (idle_setProc h _ _))
    exact fun _ hq => hq
  | _ => exact h

theorem safe_recordInner (event : AuditEvent) (henabled : st.config.enabled = true)
    (h : Idle w s) : SafeW H st p w (fun _ => Idle w) (recordInner H st event).run s := by
  unfold recordInner
  refine safe_seq (safe_admission Idle.rely h) ?_ (fun e s hs => hs)
  intro _ s hs
  refine safe_seq (safe_begin hs) ?_ (fun e s hs => hs.1)
  intro _ s hs
  have htx : SafeW H st p w (Ends (fun _ => Ready H st w) (fun _ s => Idle w s ∧ True))
      (inTransaction (writeEvent H st event)).run s :=
    safe_inTransaction (fun _ _ => trivial) (fun _ _ => trivial)
      ((safe_writeEvent event henabled hs).ends (fun _ _ h => h) (fun _ _ _ => trivial))
  refine safe_seq htx ?_ (fun e s hs => hs.1)
  intro _ s hs
  refine safe_seq (A := fun _ => Idle w) (B := fun _ => Idle w) (safe_mapErr ?_) ?_
    (fun e s hs => hs)
  · refine (safe_commit hs).mono ?_
    intro r s hs
    cases r with
    | ok | error => exact hs
  · exact fun _ s hs => safe_trackViolations st.config event.eventType hs

theorem safe_recordChecked (event : AuditEvent) (h : Idle w s) :
    SafeW H st p w (Ends (fun _ => Idle w) (fun _ s => Idle w s ∧ Latched st p w s))
      (recordChecked H st event).run s := by
  unfold recordChecked
  split
  · exact h
  next henabled =>
  have henabled : st.config.enabled = true := by simpa using henabled
  have hlock : SafeW H st p w (fun _ => Idle w) (ask .lockWrites) s := by
    refine safe_op ?_
    intro e r s' he
    simp only [exec] at he
    split at he
    · cases he
      exact ⟨Guar.setProc w s _ _ (fun hq => hq), fun s'' hr => (idle_setProc h _ _).rely hr⟩
    · cases he
  refine safe_bind (hlock.mono fun _ s hs => ?_)
  refine safe_bind ((safe_recordInner event henabled hs).mono fun result s hs => ?_)
  have hresult : Ends (fun _ => Idle w) (fun _ => Idle w) result s := by
    cases result with
    | ok | error => exact hs
  refine safe_bind ((safe_latch Idle.rely (fun h => idle_setProc h _ _) hresult).mono
    fun result s hs => ?_)
  -- releasing the write lock keeps the flag
  have hstable : ∀ {s s' : World W P}, Ends (fun _ => Idle w)
      (fun _ s => Idle w s ∧ Latched st p w s) result s → Rely w s s' →
      Ends (fun _ => Idle w) (fun _ s => Idle w s ∧ Latched st p w s) result s' := by
    intro s s' hs hr
    cases result with
    | ok _ => exact Idle.rely hs hr
    | error _ => exact ⟨hs.1.rely hr, hs.2.rely hr⟩
  refine safe_bind (safe_flags (fun _ _ => rfl) ?_ hstable ?_)
  · exact fun _ hq => hq
  · cases result with
    | ok _ => exact idle_setProc hs _ _
    | error _ =>
      refine ⟨idle_setProc hs.1 _ _, fun hhalt => ?_⟩
      have hflag := hs.2 hhalt
      simpa [World.setProc] using hflag

theorem safe_recordIssuance (caId detail : String) (h : Ready H st w s) :
    SafeW H st p w (Ends (fun _ => Ready H st w) (fun _ s => Open w s ∧ Latched st p w s))
      (recordIssuanceInTransaction H st caId detail).run s := by
  unfold recordIssuanceInTransaction
  split
  · exact h
  next henabled =>
  have henabled : st.config.enabled = true := by simpa using henabled
  refine safe_bind ((safe_writeEvent _ henabled h).mono fun result s hs => ?_)
  exact safe_latch Open.rely (fun h => open_setProc h _ _) hs

theorem safe_commitIssuance (h : Ready H st w s) : SafeW H st p w (Ends (fun _ => Idle w)
      (fun _ s => Idle w s ∧ (st.config.enabled = true → Latched st p w s)))
      (commitIssuance st).run s := by
  refine safe_bind ((safe_commit h).mono fun r s hs => ?_)
  cases r with
  | ok _ => exact hs
  | error e =>
    dsimp only
    split
    · refine safe_bind ((safe_setHalted Idle.rely (fun h => idle_setProc h _ _) hs).mono
        fun _ s hs => ?_)
      exact ⟨hs.1, fun _ _ => hs.2⟩
    · next hcfg => exact ⟨hs, fun henabled hhalt => absurd ⟨henabled, hhalt⟩ hcfg⟩

theorem safe_runParts (parts : List Part) (h : Ready H st w s) :
    SafeW H st p w (Ends (fun _ => Ready H st w) (fun f s => Refused st p w f s))
      (runParts H st parts).run s := by
  induction parts generalizing s with
  | nil => exact h
  | cons part parts ih =>
    cases part with
    | statement sql =>
      refine safe_seq (A := fun _ => Ready H st w) (B := fun f s => Refused st p w f s)
        (safe_mapErr (safe_op ?_)) (fun _ s hs => ih hs) (fun f s hs => hs)
      intro e r s' he
      rcases stmt_cases he with ⟨msg, rfl, rfl⟩ | ⟨_, rfl, heffect⟩
      · refine ⟨Guar.refl w _, fun s'' hr e' he' => ?_⟩
        cases he'
      · obtain ⟨tx, htx, hchanges, hwhole⟩ := h
        rw [htx] at heffect
        cases heffect
        refine ⟨Guar.setTx w s _, fun s'' hr => Ready.rely ?_ hr⟩
        exact ⟨_, Function.update_self .., hchanges, hwhole⟩
    | event caId detail =>
      refine safe_seq (A := fun _ => Ready H st w) (B := fun f s => Refused st p w f s)
        (safe_mapErr ?_) (fun _ s hs => ih hs) (fun f s hs => hs)
      refine (safe_recordIssuance caId detail h).mono fun r s hr => ?_
      cases r with
      | ok _ => exact hr
      | error e => exact fun _ _ _ => hr.2

theorem safe_issue (parts : List Part) (h : Idle w s) :
    SafeW H st p w (Ends (fun _ => Idle w) (fun f s => Idle w s ∧ Refused st p w f s))
      (issue H st parts).run s := by
  unfold issue
  refine safe_seq (safe_begin h) ?_ ?_
  · intro _ s hs
    have htx : SafeW H st p w
        (Ends (fun _ => Ready H st w) (fun f s => Idle w s ∧ Refused st p w f s))
        (inTransaction (runParts H st parts)).run s := by
      refine safe_inTransaction (B := fun f s => Refused st p w f s) ?_ Refused.rely
        (safe_runParts parts hs)
      exact fun hB hg e he henabled hhalt => hg.evolve.halted _ (hB e he henabled hhalt)
    refine safe_seq htx ?_ (fun f s hs => hs)
    intro _ s hs
    refine safe_mapErr ((safe_commitIssuance hs).mono fun r s hr => ?_)
    cases r with
    | ok _ => exact hr
    | error e => exact ⟨hr.1, fun _ _ => hr.2⟩
  · -- the transaction could not be opened: not an audit write
    rintro f s ⟨hs, msg, rfl⟩
    refine ⟨hs, fun e he => ?_⟩
    cases he

/-- What is known of a finished task: a refused write left the process halted. -/
def Post (st : AuditState) (p : W → P) (w : W) (_ : Task) (r : Except Failure Unit)
    (s : World W P) : Prop :=
  ∀ failure, r = .error failure → Refused st p w failure s

theorem safe_task (t : Task) (h : Idle w s) :
    SafeW H st p w (fun r s => Idle w s ∧ Post st p w t r s) (t.prog H st) s := by
  cases t with
  | record event =>
    refine safe_bind (safe_bind ((safe_recordChecked event h).mono fun r s hr => ?_))
    have hidle : Idle w s := by
      cases r with
      | ok _ => exact hr
      | error _ => exact hr.1
    refine ⟨hidle, fun failure hf => ?_⟩
    cases hf
  | recordChecked event =>
    refine safe_mapErr ((safe_recordChecked event h).mono fun r s hr => ?_)
    cases r with
    | ok _ =>
      refine ⟨hr, fun failure hf => ?_⟩
      cases hf
    | error e => exact ⟨hr.1, fun _ _ _ _ _ => hr.2⟩
  | issuance parts =>
    refine (safe_issue parts h).mono fun r s hr => ?_
    cases r with
    | ok _ =>
      refine ⟨hr, fun failure hf => ?_⟩
      cases hf
    | error f =>
      refine ⟨hr.1, fun failure hf => ?_⟩
      cases hf
      exact hr.2

end

section

variable {W P : Type} [DecidableEq W] [DecidableEq P]

section

variable (p : W → P) (w : W) (s : World W P)

theorem haltedStays_abandon : HaltedStays s (abandon p w s) :=
  haltedStays_setProc (s.rollback w) (p w) _ (fun hq => hq)

theorem Guar.abandon {H : Hashes} {st : AuditState} : Guar H st w s (abandon p w s) :=
  .of_local (fun _ hv => Function.update_of_ne hv ..) (fun _ hv => release_lock _ hv) rfl rfl
    (haltedStays_abandon p w s)

theorem idle_abandon : Idle w (abandon p w s) :=
  idle_setProc (idle_rollback w s) _ _

end

def auditContract (H : Hashes) (st : AuditState) (p : W → P) : Contract (trail H st p) where
  inv _ := True
  rely := Rely
  guar := Guar H st
  idle := Idle
  post := Post st p
  evolve := Evolve H st
  rely_refl := Rely.refl
  rely_trans := fun w => Rely.trans w
  guar_rely := Guar.rely
  idle_stable := Idle.rely
  post_stable := fun h hev failure hf e he henabled hhalt =>
    hev.halted _ (h failure hf e he henabled hhalt)
  evolve_refl := Evolve.refl
  evolve_trans := Evolve.trans
  guar_evolve := Guar.evolve
  guar_inv _ := trivial
  abandon w s _ := ⟨Guar.abandon p w s, idle_abandon p w s⟩
  safe _ t _ _ h := (safe_task t h).rely fun _ _ hr => hr.2

end

end Kipuka.Audit
