/-
  Revoked tokens (`crates/kipuka-otp/src/validate.rs`, `crates/kipuka-otp/src/store.rs`).
-/
import Kipuka.Generic.Ledger
import Kipuka.OtpCrate.Validate

namespace Kipuka.OtpCrate

open Generic

/-! ## What the operations keep -/

/-- No other record has the hash. -/
def Store.Belongs (hash : List UInt8) (id : Uuid) : Store → Prop
  | .memory records => ∀ key r, records.lookup key = some r → r.tokenHash = hash → key = id
  | .database table => ∀ row ∈ table.rows, row.tokenHash = hexEncode hash → row.id = uuidToId id

def Store.Revoked (id : Uuid) : Store → Prop
  | .memory records => ∀ r, records.lookup id = some r → r.revoked = true
  | .database table => ∀ row ∈ table.rows, row.id = uuidToId id → row.revoked = true

/-- How the store changes: hashes stay where they are, and revoked records stay revoked. -/
structure Evolve (s s' : Store) : Prop where
  belongs : ∀ hash id, s.Belongs hash id → s'.Belongs hash id
  revoked : ∀ id, s.Revoked id → s'.Revoked id

theorem Evolve.refl (s : Store) : Evolve s s := ⟨fun _ _ h => h, fun _ h => h⟩

theorem Evolve.trans {s s' s'' : Store} (h : Evolve s s') (h' : Evolve s' s'') : Evolve s s'' :=
  ⟨fun hash id hs => h'.belongs hash id (h.belongs hash id hs),
    fun id hs => h'.revoked id (h.revoked id hs)⟩

/-! ## How records change -/

structure OtpRecord.Became (r r' : OtpRecord) : Prop where
  id : r'.id = r.id
  tokenHash : r'.tokenHash = r.tokenHash
  maxUses : r'.maxUses = r.maxUses
  uses : r.currentUses ≤ r'.currentUses
  revoked : r.revoked = true → r'.revoked = true

/-- `grows` has the rows whose count goes up by one, by their id and count. -/
structure OtpRow.Became (grows : Int → Int → Bool) (row row' : OtpRow) : Prop where
  id : row'.id = row.id
  tokenHash : row'.tokenHash = row.tokenHash
  revoked : row.revoked = true → row'.revoked = true
  uses : row'.currentUses = row.currentUses + if grows row.id row.currentUses then 1 else 0

theorem OtpRow.Became.refl (row : OtpRow) : row.Became (fun _ _ => false) row :=
  ⟨rfl, rfl, fun h => h, (Int.add_zero _).symm⟩

/-- Every record of the second store comes from one of the first. -/
inductive Derived : Store → Store → Prop where
  | memory {records records' : Records}
      (h : ∀ key r', records'.lookup key = some r' → ∃ r, records.lookup key = some r ∧ r.Became r') :
      Derived (.memory records) (.memory records')
  | database {table table' : OtpTable} (grows : Int → Int → Bool)
      (hroom : ∀ id n, grows id n = true → n + 1 < 2147483648)
      (h : ∀ row' ∈ table'.rows, ∃ row ∈ table.rows, row.Became grows row') :
      Derived (.database table) (.database table')

theorem Derived.refl (s : Store) : Derived s s := by
  cases s with
  | memory records =>
    exact .memory fun key r hr => ⟨r, hr, rfl, rfl, rfl, le_rfl, fun h => h⟩
  | database table =>
    refine .database (fun _ _ => false) (by simp) fun row hrow => ?_
    exact ⟨row, hrow, .refl row⟩

variable {id : Uuid}

theorem derived_insert {records : Records} {r r' : OtpRecord} (hr : records.lookup id = some r)
    (hbecame : r.Became r') : Derived (.memory records) (.memory (records.insert id r')) := by
  refine .memory fun key r'' hlookup => ?_
  rcases AList.lookup_of_insert hlookup with ⟨rfl, rfl⟩ | ⟨-, hlookup⟩
  · exact ⟨r, hr, hbecame⟩
  · exact ⟨r'', hlookup, rfl, rfl, rfl, le_rfl, fun h => h⟩

variable {α : Type} {e : Env} {what : String} {result : α} {table table' : OtpTable}

theorem derived_execute (h : Derived (.database table) (.database table')) :
    Derived (.database table) (.database (Database.execute e what table result table').2) := by
  unfold Database.execute
  split
  · next f _ =>
    cases f.applied
    · exact .refl _
    · exact h
  · exact h

theorem derived_update {p : OtpRow → Bool} {f : OtpRow → OtpRow} (grows : Int → Int → Bool)
    (hroom : ∀ id n, grows id n = true → n + 1 < 2147483648)
    (hf : ∀ row, p row = true → row.Became grows (f row))
    (hp : ∀ row, p row = false → grows row.id row.currentUses = false) (table : OtpTable) :
    Derived (.database table) (.database (Database.update e what p f table).2) := by
  refine derived_execute (.database grows hroom fun row' hrow' => ?_)
  obtain ⟨row, hrow, rfl⟩ := List.mem_map.mp hrow'
  refine ⟨row, hrow, ?_⟩
  cases hrow : p row with
  | true => exact hf row hrow
  | false => exact ⟨rfl, rfl, fun h => h, by simp [hp row hrow]⟩

theorem asI32_lt (n : Nat) : asI32 n < 2147483648 := BitVec.toInt_lt

theorem step_derived (L : OtpLib) (e : Env) (op : Op) (s : Store) :
    Derived s (step L e op s).2 := by
  cases op with
  | findByHash | utcNow => exact .refl s
  | incrementUses id maxUses =>
    cases s with
    | memory records =>
      simp only [step, Store.incrementUses, Memory.incrementUses]
      split
      · next r hr =>
        split
        · exact .refl _
        · exact derived_insert hr ⟨rfl, rfl, rfl, Nat.le_succ _, fun h => h⟩
      · exact .refl _
    | database table =>
      refine derived_update (fun rowId n => rowId = uuidToId id && n < asI32 maxUses) ?_ ?_ ?_ table
      · intro rowId n h
        have hmax := asI32_lt maxUses
        simp only [Bool.and_eq_true, decide_eq_true_eq] at h
        omega
      · exact fun row hrow => ⟨rfl, rfl, fun h => h, by rw [if_pos hrow]⟩
      · exact fun row hrow => hrow
  | revoke id =>
    cases s with
    | memory records =>
      simp only [step, Store.revoke, Memory.revoke]
      split
      · next r hr => exact derived_insert hr ⟨rfl, rfl, rfl, le_rfl, fun _ => rfl⟩
      · exact .refl _
    | database table =>
      refine derived_update (fun _ _ => false) (by simp) ?_ (fun _ _ => rfl) table
      exact fun row _ => ⟨rfl, rfl, fun _ => rfl, (Int.add_zero _).symm⟩
  | cleanupExpired =>
    cases s with
    | memory records =>
      refine .memory fun key r hlookup => ⟨r, (AList.lookup_of_retain hlookup).1, ?_⟩
      exact ⟨rfl, rfl, rfl, le_rfl, fun h => h⟩
    | database table =>
      refine derived_execute (.database (fun _ _ => false) (by simp) fun row hrow => ?_)
      exact ⟨row, List.mem_of_mem_filter hrow, .refl row⟩

theorem Derived.evolve {s s' : Store} (h : Derived s s') : Evolve s s' := by
  cases h with
  | memory h =>
    constructor
    · intro hash id hbelongs key r' hlookup heq
      obtain ⟨r, hr, hbecame⟩ := h key r' hlookup
      exact hbelongs key r hr (hbecame.tokenHash ▸ heq)
    · intro id hrevoked r' hlookup
      obtain ⟨r, hr, hbecame⟩ := h id r' hlookup
      exact hbecame.revoked (hrevoked r hr)
  | database grows hroom h =>
    constructor
    · intro hash id hbelongs row' hrow' heq
      obtain ⟨row, hrow, hbecame⟩ := h row' hrow'
      rw [hbecame.id]
      exact hbelongs row hrow (hbecame.tokenHash ▸ heq)
    · intro id hrevoked row' hrow' hid'
      obtain ⟨row, hrow, hbecame⟩ := h row' hrow'
      exact hbecame.revoked (hrevoked row hrow (hbecame.id ▸ hid'))

theorem step_evolve (L : OtpLib) (e : Env) (op : Op) (s : Store) : Evolve s (step L e op s).2 :=
  (step_derived L e op s).evolve

theorem execute_of_ok {result a : α} (h : (Database.execute e what table result table').1 = .ok a) :
    (Database.execute e what table result table').2 = table' := by
  unfold Database.execute at h ⊢
  split at h
  · cases h
  · rfl

variable {L : OtpLib} {s : Store}

theorem revoked_of_revoke (h : (s.revoke L e id).1 = .ok ()) : (s.revoke L e id).2.Revoked id := by
  cases s with
  | memory records =>
    cases hr : records.lookup id with
    | none =>
      simp only [Store.revoke, Memory.revoke, hr] at h
      cases h
    | some r =>
      simp only [Store.revoke, Memory.revoke, hr]
      intro r' hr'
      rw [AList.lookup_insert] at hr'
      rw [← Option.some.inj hr']
  | database table =>
    obtain ⟨n, hok, -⟩ := except_bind_eq_ok.mp h
    intro row hrow hid
    have hrow' : row ∈ (Database.update e "revoke" (fun row => row.id = uuidToId id)
      (fun row => { row with revoked := true, revokedAt := some (L.toRfc3339 e.now) })
      table).2.rows := hrow
    rw [Database.update, execute_of_ok hok] at hrow'
    obtain ⟨row₀, -, rfl⟩ := List.mem_map.mp hrow'
    by_cases hrow₀ : row₀.id = uuidToId id
    · rw [if_pos (decide_eq_true hrow₀)]
    · rw [if_neg (by simpa using hrow₀)] at hid
      exact absurd hid hrow₀

/-- Where a lookup finds a record. -/
theorem findByHash_eq {hash : List UInt8} {record : OtpRecord}
    (h : s.findByHash L e hash = .ok (some record)) :
    (∃ records key, s = .memory records ∧ records.lookup key = some record ∧
      record.tokenHash = hash) ∨
    ∃ table, s = .database table ∧ ∃ row ∈ table.rows, row.tokenHash = hexEncode hash ∧
      row.revoked = false ∧ Database.record L row = .ok record := by
  cases s with
  | memory records =>
    obtain ⟨entry, hfind, rfl⟩ := Option.map_eq_some_iff.mp (Except.ok.inj h)
    have hlookup : records.lookup entry.1 = some entry.2 :=
      AList.mem_lookup_iff.mpr (List.mem_of_find?_eq_some hfind)
    exact .inl ⟨records, entry.1, rfl, hlookup, by simpa using List.find?_some hfind⟩
  | database table =>
    simp only [Store.findByHash, Database.findByHash] at h
    split at h
    · cases h
    · split at h
      · cases h
      · next row hrow =>
        have hsome := List.find?_some hrow
        simp only [Bool.and_eq_true, decide_eq_true_eq, Bool.not_eq_true'] at hsome
        refine .inr ⟨table, rfl, row, List.mem_of_find?_eq_some hrow, hsome.1, hsome.2, ?_⟩
        cases hread : Database.record L row with
        | error e => rw [hread] at h; cases h
        | ok r => rw [hread] at h; cases h; rfl

theorem revoked_of_findByHash {hash : List UInt8}
    (hbelongs : s.Belongs hash id) (hrevoked : s.Revoked id) {record : OtpRecord}
    (h : s.findByHash L e hash = .ok (some record)) : record.revoked = true := by
  rcases findByHash_eq h with ⟨records, key, rfl, hlookup, hhash⟩ |
    ⟨table, rfl, row, hrow, hhash, hactive, -⟩
  · exact hrevoked record (hbelongs key record hlookup hhash ▸ hlookup)
  · have := hrevoked row hrow (hbelongs row hrow hhash)
    rw [hactive] at this
    cases this

/-! ## Calls -/

section

variable (L : OtpLib) (W : Type)

theorem safe_evolve (w : W) (p : Prog Op Reply α) (s : Store) :
    Safe ((validations L W).exec w) Evolve Evolve (fun _ _ => True) p s := by
  induction p generalizing s with
  | ret a => trivial
  | call op k ih =>
    intro e r s' he
    obtain ⟨rfl, rfl⟩ := Prod.mk.inj (Option.some.inj he)
    exact ⟨step_evolve L e op s, fun s'' _ => ih _ s''⟩

def Done (t : Task) (r : Res) (s : Store) : Prop :=
  ∀ id, t = .revoke id → r = .revoked (.ok ()) → s.Revoked id

theorem safe_task (w : W) (t : Task) (s : Store) :
    Safe ((validations L W).exec w) Evolve Evolve (Done t) (prog L t) s := by
  cases t with
  | validate | cleanupExpired =>
    refine (safe_evolve L W w _ s).mono fun r s' _ id ht => ?_
    cases ht
  | revoke id =>
    intro e r s' he
    obtain ⟨rfl, rfl⟩ := Prod.mk.inj (Option.some.inj he)
    refine ⟨step_evolve L e (.revoke id) s, fun s'' hs'' id' ht hr => ?_⟩
    obtain rfl := Task.revoke.inj ht
    exact hs''.revoked id (revoked_of_revoke (Res.revoked.inj hr))

def contract : Contract (validations L W) where
  inv _ := True
  rely _ := Evolve
  guar _ := Evolve
  idle _ _ := True
  post _ := Done
  evolve := Evolve
  rely_refl _ := .refl
  rely_trans _ := .trans
  guar_rely _ h := h
  idle_stable _ _ := trivial
  post_stable h hs id ht hr := hs.revoked id (h id ht hr)
  evolve_refl := .refl
  evolve_trans := .trans
  guar_evolve h := h
  guar_inv _ := trivial
  abandon _ s _ := ⟨.refl s, trivial⟩
  safe w t s _ _ := ((safe_task L W w t s).rely fun _ _ hr => hr.2).mono fun _ _ h => ⟨trivial, h⟩

theorem safe_validate_revoked (w : W) {token : String}
    (hbelongs : s.Belongs (hashToken L token) id) (hrevoked : s.Revoked id) :
    Safe ((validations L W).exec w) Evolve (fun _ _ => True)
      (fun r _ => ∃ e, r = .validated (.error e)) (prog L (.validate token)) s := by
  intro e r s' he
  obtain ⟨hr, -⟩ := Prod.mk.inj (Option.some.inj he)
  refine ⟨trivial, fun s'' _ => ?_⟩
  have hfound : ∀ record, r = .ok (some record) → record.revoked = true :=
    fun record hrecord => revoked_of_findByHash hbelongs hrevoked (hr.trans hrecord)
  cases r with
  | error err => exact ⟨err, rfl⟩
  | ok found =>
    cases found with
    | none => exact ⟨.notFound, rfl⟩
    | some record =>
      have hrefused : consume L record = throw .revoked := if_pos (hfound record rfl)
      change Safe _ _ _ _ ((consume L record).run >>= fun result =>
        pure (Res.validated result)) s''
      rw [hrefused]
      exact ⟨.revoked, rfl⟩

theorem validateOwns (w : W) (token : String) (id : Uuid) :
    (contract L W).Owns w (fun s => s.Belongs (hashToken L token) id ∧ s.Revoked id)
      (fun _ => True) (fun _ => ())
      (fun t r => t = .validate token → ∃ e, r = .validated (.error e)) where
  stable h hs := ⟨hs.belongs _ _ h.1, hs.revoked _ h.2⟩
  stable_rely h hs := ⟨hs.belongs _ _ h.1, hs.revoked _ h.2⟩
  others _ _ := rfl
  abandon _ := rfl
  safe t _ s h := by
    by_cases ht : t = .validate token
    · subst ht
      refine (((safe_validate_revoked L W w h.1 h.2).guarantee fun _ _ _ => rfl).rely ?_).mono ?_
      · exact fun _ _ hr => hr.2
      · exact fun r _ hr _ => hr
    · exact (safe_of_forall (fun _ _ hv => absurd hv ht) _ s).guarantee fun _ _ _ => rfl

end

section

variable (L : OtpLib) {W : Type} [DecidableEq W] {s : Store} {as bs : List (Act W Env Task)}
  {c c' : Config W Op Task Res Store Reply}

/-- **Revocation.** Once `revoke` has returned `Ok` for the record of a token, in any run of
    validations, revocations and cleanups, every validation of the token that has not made its lookup
    yet returns an error. -/
theorem validate_fails_once_revoked {token : String} {id : Uuid}
    (hs : s.Belongs (hashToken L token) id)
    (hrun : (validations L W).run (Config.initial s) as = some c)
    (hrevoked : ∃ v, ⟨v, .revoke id, .revoked (.ok ())⟩ ∈ c.done) (w : W)
    (hlookup : ∀ p, c.threads w = some ⟨.validate token, p⟩ → p = prog L (.validate token))
    (hrun' : (validations L W).run c bs = some c') :
    ∃ new, c'.done = c.done ++ new ∧
      ∀ r, ⟨w, .validate token, r⟩ ∈ new → ∃ e, r = .validated (.error e) := by
  obtain ⟨hinv, hevolve⟩ := (contract L W).run_inv
    ((contract L W).inv_initial trivial fun _ => trivial) hrun
  obtain ⟨v, hv⟩ := hrevoked
  have hP : c.shared.Belongs (hashToken L token) id ∧ c.shared.Revoked id :=
    ⟨hevolve.belongs _ _ hs, hinv.done _ hv id rfl rfl⟩
  have hown := validateOwns L W w token id
  have hok : (contract L W).OwnedOk w (fun _ => ())
      (fun t r => t = .validate token → ∃ e, r = .validated (.error e)) c.shared
      (c.threads w) := by
    cases hth : c.threads w with
    | none => trivial
    | some th =>
      obtain ⟨t, p⟩ := th
      intro s' hr
      by_cases ht : t = .validate token
      · subst ht
        rw [hlookup p hth]
        exact hown.safe _ trivial s' (hown.stable_rely hP hr.2)
      · exact (safe_of_forall (fun _ _ hv => absurd hv ht) p s').guarantee fun _ _ _ => rfl
  obtain ⟨-, new, hdone, hnew⟩ := (contract L W).run_owned hown hinv hP hok
    (fun _ _ => trivial) hrun'
  exact ⟨new, hdone, fun r hr => hnew _ hr rfl rfl⟩

end

/-! ## Two callers -/

def plainLib : OtpLib where
  sha256 bs := bs
  toRfc3339 _ := ""
  parseFromRfc3339 _ := .ok 0
  hexError := "odd number of digits"
  nullError := "unexpected null"

def calm : Env := ⟨0, none⟩

def oneUse : OtpRecord where
  id := 1
  tokenHash := hashToken plainLib "p"
  entityId := "dev"
  label := "device"
  profile := "default"
  createdAt := 0
  expiresAt := 1000
  maxUses := 1
  currentUses := 0
  revoked := false

def inMemory : Store := (Store.insert plainLib calm oneUse (.memory ∅)).2

def inDatabase : Store := (Store.insert plainLib calm oneUse (.database ⟨[], 1⟩)).2

def revokedMeanwhile : List (Act Bool Env Task) :=
  [.start false (.validate "p"), .step false calm, .start true (.revoke 1), .step true calm,
    .step true calm]

def goesOn : List (Act Bool Env Task) := [.step false calm, .step false calm, .step false calm]

def validatedLater : List (Act Bool Env Task) :=
  [.start true (.validate "p"), .step true calm, .step true calm]

def outcomes (c : Config Bool Op Task Res Store Reply) : List (Bool × Task × Res) :=
  c.done.map fun f => (f.thread, f.task, f.result)

theorem mem_done_of_mem_outcomes {c : Config Bool Op Task Res Store Reply} {w : Bool} {t : Task}
    {r : Res} (h : (w, t, r) ∈ outcomes c) : ⟨w, t, r⟩ ∈ c.done := by
  obtain ⟨f, hf, heq⟩ := List.mem_map.mp h
  cases heq
  exact hf

theorem refused_after_revocation :
    ∃ c c' new, (validations plainLib Bool).run (Config.initial inMemory) revokedMeanwhile = some c ∧
      (validations plainLib Bool).run c validatedLater = some c' ∧ c'.done = c.done ++ new ∧
      ∀ r, ⟨true, .validate "p", r⟩ ∈ new → ∃ e, r = .validated (.error e) := by
  have hbelongs : inMemory.Belongs (hashToken plainLib "p") 1 := by
    intro key r hlookup _
    rcases AList.lookup_of_insert hlookup with ⟨hkey, -⟩ | ⟨-, hnone⟩
    · exact hkey
    · cases hnone
  have hany : ((validations plainLib Bool).run (Config.initial inMemory) revokedMeanwhile).any
      (fun c => decide ((true, .revoke 1, .revoked (.ok ())) ∈ outcomes c) &&
        (c.threads true).isNone &&
        ((validations plainLib Bool).run c validatedLater).isSome) = true := by decide +kernel
  obtain ⟨c, hrun, hc⟩ := (Option.any_eq_true _ _).mp hany
  simp only [Bool.and_eq_true, decide_eq_true_eq, Option.isNone_iff_eq_none] at hc
  obtain ⟨⟨hrevoked, hidle⟩, hlater⟩ := hc
  obtain ⟨c', hrun'⟩ := Option.isSome_iff_exists.mp hlater
  obtain ⟨new, hdone, hnew⟩ := validate_fails_once_revoked plainLib hbelongs hrun
    ⟨true, mem_done_of_mem_outcomes hrevoked⟩ true
    (fun p hp => by rw [hidle] at hp; cases hp) hrun'
  exact ⟨c, c', new, hrun, hrun', hdone, hnew⟩

/-- A validation that has read the token before its revocation is counted and granted after it. -/
def UsedAfterRevocation (s : Store) : Prop :=
  ((validations plainLib Bool).run (Config.initial s) revokedMeanwhile).map outcomes =
      some [(true, .revoke 1, .revoked (.ok ()))] ∧
    ((validations plainLib Bool).run (Config.initial s) (revokedMeanwhile ++ goesOn)).map
      outcomes = some [(true, .revoke 1, .revoked (.ok ())),
        (false, .validate "p", .validated (.ok ⟨"dev", "default", "device", 0⟩))] ∧
    ((validations plainLib Bool).history (Config.initial s) (revokedMeanwhile ++ goesOn)).map
      (fun x => (x.thread, x.op)) = [(false, .findByHash (hashToken plainLib "p")),
        (true, .revoke 1), (false, .utcNow), (false, .incrementUses 1 1)]

instance (s : Store) : Decidable (UsedAfterRevocation s) := by
  unfold UsedAfterRevocation
  infer_instance

theorem validated_after_revocation :
    UsedAfterRevocation inMemory ∧ UsedAfterRevocation inDatabase := by
  decide +kernel

end Kipuka.OtpCrate
