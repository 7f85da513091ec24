/-
  The number of remaining uses that a validation reports (`crates/kipuka-otp/src/validate.rs`).
-/
import Kipuka.Generic.Strand
import Kipuka.OtpCrate.Revocation

namespace Kipuka.OtpCrate

open Generic

/-! ## Counts -/

/-- The store has the token with this many uses. -/
def Store.Counted (id : Uuid) (n : Nat) : Store → Prop
  | .memory records => ∃ r, records.lookup id = some r ∧ r.currentUses = n
  | .database table => ∃ row ∈ table.rows, row.id = uuidToId id ∧ row.currentUses = (n : Int)

/-- An id names one record, and the numbers are in the range of their types. -/
def Store.Sound : Store → Prop
  | .memory records => ∀ key r, records.lookup key = some r → r.id = key ∧ r.maxUses < 4294967296
  | .database table => ∀ row ∈ table.rows, (-9223372036854775808 ≤ row.id ∧ row.id < 9223372036854775808) ∧
      (0 ≤ row.currentUses ∧ row.currentUses < 2147483648) ∧
      ∀ row' ∈ table.rows, row'.id = row.id → row'.currentUses = row.currentUses

variable {s : Store} {id : Uuid}

theorem Store.Sound.unique (h : s.Sound) {n m : Nat}
    (hn : s.Counted id n) (hm : s.Counted id m) : n = m := by
  cases s with
  | memory records =>
    obtain ⟨r, hr, rfl⟩ := hn
    obtain ⟨r', hr', rfl⟩ := hm
    rw [Option.some.inj (hr.symm.trans hr')]
  | database table =>
    obtain ⟨row, hrow, hid, huses⟩ := hn
    obtain ⟨row', hrow', hid', huses'⟩ := hm
    have hsame := (h row hrow).2.2 row' hrow' (hid'.trans hid.symm)
    omega

structure Grown (s s' : Store) : Prop where
  sound : s.Sound → s'.Sound
  counted : s.Sound → ∀ id n', s'.Counted id n' → ∃ n ≤ n', s.Counted id n

theorem Grown.refl (s : Store) : Grown s s := ⟨fun h => h, fun _ _ n h => ⟨n, le_rfl, h⟩⟩

theorem Grown.trans {s s' s'' : Store} (h : Grown s s') (h' : Grown s' s'') : Grown s s'' := by
  refine ⟨fun hs => h'.sound (h.sound hs), fun hs id n'' hn'' => ?_⟩
  obtain ⟨n', hle', hn'⟩ := h'.counted (h.sound hs) id n'' hn''
  obtain ⟨n, hle, hn⟩ := h.counted hs id n' hn'
  exact ⟨n, hle.trans hle', hn⟩

theorem Derived.grown {s s' : Store} (h : Derived s s') : Grown s s' := by
  cases h with
  | memory h =>
    constructor
    · intro hsound key r' hlookup
      obtain ⟨r, hr, hbecame⟩ := h key r' hlookup
      rw [hbecame.id, hbecame.maxUses]
      exact hsound key r hr
    · rintro - id n ⟨r', hlookup, rfl⟩
      obtain ⟨r, hr, hbecame⟩ := h id r' hlookup
      exact ⟨_, hbecame.uses, r, hr, rfl⟩
  | database grows hroom h =>
    constructor
    · intro hsound row' hrow'
      obtain ⟨row, hrow, hbecame⟩ := h row' hrow'
      obtain ⟨hrange, hcount, hone⟩ := hsound row hrow
      have hnext := hroom row.id row.currentUses
      rw [hbecame.id, hbecame.uses]
      refine ⟨hrange, ?_, fun row₂' hrow₂' hid₂' => ?_⟩
      · split
        · next hgrows =>
          have := hnext hgrows
          omega
        · omega
      obtain ⟨row₂, hrow₂, hbecame₂⟩ := h row₂' hrow₂'
      have hsame : row₂.id = row.id := hbecame₂.id.symm.trans hid₂'
      rw [hbecame₂.uses, hsame, hone row₂ hrow₂ hsame]
    · rintro hsound id n' ⟨row', hrow', hid', huses'⟩
      obtain ⟨row, hrow, hbecame⟩ := h row' hrow'
      obtain ⟨-, hcount, -⟩ := hsound row hrow
      have huses := hbecame.uses
      refine ⟨row.currentUses.toNat, ?_, row, hrow, hbecame.id.symm.trans hid', by omega⟩
      split_ifs at huses <;> omega

theorem step_grown (L : OtpLib) (e : Env) (op : Op) (s : Store) : Grown s (step L e op s).2 :=
  (step_derived L e op s).grown

theorem uuidToId_idToUuid {id : Int} (hlow : -9223372036854775808 ≤ id)
    (hhigh : id < 9223372036854775808) : uuidToId (idToUuid id) = id := by
  have hnat : (((BitVec.ofInt 128 id).setWidth 64).toNat : Int) =
      id % ((18446744073709551616 : Nat) : Int) := by
    rw [BitVec.toNat_setWidth, BitVec.toNat_ofInt]
    omega
  rw [uuidToId, idToUuid, BitVec.toInt_eq_toNat_bmod, hnat]
  show (id % _).bmod 18446744073709551616 = id
  rw [Int.emod_bmod]
  apply Int.bmod_eq_of_le
  · omega
  · omega

theorem asU32_of_range {n : Int} (hlow : 0 ≤ n) (hhigh : n < 2147483648) : (asU32 n : Int) = n := by
  rw [asU32, BitVec.toNat_ofInt]
  omega

variable {e : Env} {n maxUses : Nat}

theorem lt_of_lt_asI32 (h : (n : Int) < asI32 maxUses) : n < maxUses := by
  have hle : asI32 maxUses ≤ ((BitVec.ofNat 32 maxUses).toNat : Int) := by
    rw [asI32, BitVec.toInt_eq_toNat_cond]
    split_ifs <;> omega
  have hmod : (BitVec.ofNat 32 maxUses).toNat ≤ maxUses := by
    rw [BitVec.toNat_ofNat]
    exact Nat.mod_le _ _
  omega

theorem counted_of_findByHash {L : OtpLib} {hash : List UInt8}
    (hsound : s.Sound) {record : OtpRecord} (h : s.findByHash L e hash = .ok (some record)) :
    s.Counted record.id record.currentUses ∧ record.maxUses < 4294967296 := by
  rcases findByHash_eq h with ⟨records, key, rfl, hlookup, -⟩ | ⟨table, rfl, row, hrow, -, -, hrecord⟩
  · obtain ⟨hid, hmax⟩ := hsound key record hlookup
    exact ⟨⟨record, hid ▸ hlookup, rfl⟩, hmax⟩
  · obtain ⟨hrange, hcount, -⟩ := hsound row hrow
    obtain ⟨_, -, h⟩ := except_bind_eq_ok.mp hrecord
    iterate 4 obtain ⟨_, -, h⟩ := except_bind_eq_ok.mp h
    obtain rfl := Except.ok.inj h
    refine ⟨⟨row, hrow, ?_, ?_⟩, BitVec.isLt _⟩
    · exact (uuidToId_idToUuid hrange.1 hrange.2).symm
    · exact (asU32_of_range hcount.1 hcount.2).symm

variable {s' : Store}

theorem counted_of_incrementUses
    (hsound : s.Sound) (h : s.incrementUses e id maxUses = (.ok (), s')) :
    ∃ n < maxUses, s.Counted id n ∧ s'.Counted id (n + 1) := by
  cases s with
  | memory records =>
    simp only [Store.incrementUses, Memory.incrementUses] at h
    split at h
    · next r hr =>
      split at h
      · cases h
      · next hroom =>
        obtain rfl := (Prod.mk.inj h).2
        exact ⟨r.currentUses, Nat.not_le.mp hroom, ⟨r, hr, rfl⟩, _, AList.lookup_insert _, rfl⟩
    · cases h
  | database table =>
    obtain ⟨hok, rfl⟩ := Prod.mk.inj h
    unfold Database.incrementUses Database.update Database.execute at hok ⊢
    cases hfault : e.fault with
    | some f =>
      rw [hfault] at hok
      cases hok
    | none =>
    rw [hfault] at hok
    obtain ⟨n, hupdate, hn⟩ := except_bind_eq_ok.mp hok
    obtain rfl := Except.ok.inj hupdate
    have hsome := of_decide_eq_false (refuseIf_eq_ok.mp hn)
    obtain ⟨row, hrow, hbelow⟩ := List.countP_pos_iff.mp (Nat.pos_of_ne_zero hsome)
    obtain ⟨hid, hlt⟩ : row.id = uuidToId id ∧ row.currentUses < asI32 maxUses := by
      simpa using hbelow
    obtain ⟨-, hcount, -⟩ := hsound row hrow
    have huses : row.currentUses = (row.currentUses.toNat : Int) := by omega
    refine ⟨row.currentUses.toNat, lt_of_lt_asI32 (huses ▸ hlt), ⟨row, hrow, hid, huses⟩, ?_⟩
    refine ⟨_, List.mem_map.mpr ⟨row, hrow, if_pos hbelow⟩, hid, ?_⟩
    dsimp only
    omega

/-! ## A validation among other calls -/

section Calls

variable (L : OtpLib)

def exec (e : Env) (op : Op) (s : Store) : Option (Reply op × Store) := some (step L e op s)

/-- Any store calls of other requests. -/
def Others : Store → Store → Prop :=
  Relation.ReflTransGen fun s s' => ∃ e op, s' = (step L e op s).2

variable {L}

theorem Others.grown (h : Others L s s') : Grown s s' := by
  induction h with
  | refl => exact .refl s
  | tail _ hstep ih =>
    obtain ⟨e, op, rfl⟩ := hstep
    exact ih.trans (step_grown L e op _)

variable {token : String} {s t : Store} {trace : List (Moment Op Reply Store)}
  {v : ValidationResult}

theorem strand_validate {R : Store → Store → Prop}
    (h : Strand (exec L) R (prog L (.validate token)) s trace (.ret (.validated (.ok v))) t) :
    ∃ record e e' s₁ s₂ s₃ s₄ now, R s s₁ ∧ R s₁ s₂ ∧ R s₂ s₃ ∧
      s₁.findByHash L e (hashToken L token) = .ok (some record) ∧
      s₃.incrementUses e' record.id record.maxUses = (.ok (), s₄) ∧
      v = validationResult record ∧
      trace = [⟨s₁, ⟨.findByHash (hashToken L token), .ok (some record)⟩, s₁⟩,
        ⟨s₂, ⟨.utcNow, now⟩, s₂⟩,
        ⟨s₃, ⟨.incrementUses record.id record.maxUses, .ok ()⟩, s₄⟩] := by
  cases h with
  | @call _ _ _ s₁ _ _ e r _ _ h₁ he rest =>
  obtain ⟨hfind, rfl⟩ := Prod.mk.inj (Option.some.inj he)
  cases r with
  | error err => cases rest
  | ok found =>
    cases found with
    | none => cases rest
    | some record =>
      change Strand _ _ ((consume L record).run >>= fun result =>
        pure (Res.validated result)) _ _ _ _ at rest
      unfold consume at rest
      split at rest
      · cases rest
      cases rest with
      | @call _ _ _ s₂ _ _ _ reading _ _ h₂ he rest =>
      obtain ⟨-, rfl⟩ := Prod.mk.inj (Option.some.inj he)
      obtain ⟨now, rfl⟩ : ∃ now : Int, now = reading := ⟨reading, rfl⟩
      change Strand _ _ ((if record.expiresAt < now then throw (.expired _) else do
        Prog.mapErr id (ask (.incrementUses record.id record.maxUses))
        pure (validationResult record) : ExceptT OtpError (Prog Op Reply) ValidationResult).run >>=
          fun result => pure (Res.validated result)) _ _ _ _ at rest
      split at rest
      · cases rest
      cases rest with
      | @call _ _ _ s₃ s₄ _ e' r _ _ h₃ he rest =>
      cases r with
      | error err => cases rest
      | ok u =>
        cases rest
        exact ⟨record, e, e', s₁, s₂, s₃, s₄, now, h₁, h₂, h₃, hfind, Option.some.inj he, rfl, rfl⟩

/-- The validation found `record` and consumed a use at which the count went from `uses` to
    `uses + 1`, and every later count is at least that. It reports the limit less the count of the
    record and one, without wrapping, which is the limit less the count right after its own
    increment exactly if nobody has consumed a use since the record was found. -/
def Reports (L : OtpLib) (token : String) (trace : List (Moment Op Reply Store))
    (v : ValidationResult) : Prop :=
  ∃ record uses, ∃ found ∈ trace, ∃ last ∈ trace,
    found.call = ⟨.findByHash (hashToken L token), .ok (some record)⟩ ∧
    last.call = ⟨.incrementUses record.id record.maxUses, .ok ()⟩ ∧
    found.after.Counted record.id record.currentUses ∧
    last.before.Counted record.id uses ∧ last.after.Counted record.id (uses + 1) ∧
    record.currentUses ≤ uses ∧ uses + 1 ≤ record.maxUses ∧
    v.remainingUses = record.maxUses - (record.currentUses + 1) ∧
    (v.remainingUses = record.maxUses - (uses + 1) ↔ uses = record.currentUses) ∧
    ∀ s' n, Others L last.after s' → s'.Counted record.id n → uses + 1 ≤ n

/-- **Remaining uses.** Every validation that succeeds, amid any other operations of the store,
    reports its number so. -/
theorem remaining_exact_iff (hsound : s.Sound)
    (hstrand : Strand (exec L) (Others L) (prog L (.validate token)) s trace
      (.ret (.validated (.ok v))) t) : Reports L token trace v := by
  obtain ⟨record, e, e', s₁, s₂, s₃, s₄, now, h₁, h₂, h₃, hfind, hincrement, rfl, rfl⟩ :=
    strand_validate hstrand
  have hsound₁ := h₁.grown.sound hsound
  have hlater : Grown s₁ s₃ := h₂.grown.trans h₃.grown
  obtain ⟨hfound, hmax⟩ := counted_of_findByHash hsound₁ hfind
  obtain ⟨uses, hlt, hbefore, hafter⟩ :=
    counted_of_incrementUses (hlater.sound hsound₁) hincrement
  obtain ⟨n, hle, hn⟩ := hlater.counted hsound₁ record.id uses hbefore
  obtain rfl := hsound₁.unique hn hfound
  have hremaining : (validationResult record).remainingUses =
      record.maxUses - (record.currentUses + 1) := by
    simp only [validationResult]
    omega
  refine ⟨record, uses, _, List.mem_cons_self, _, List.mem_of_getElem? (i := 2) rfl, rfl, rfl,
    hfound, hbefore, hafter, hle, hlt, hremaining, by omega, fun s' n hs' hn => ?_⟩
  -- the count right after the increment is the only one there
  have hsound₄ : s₄.Sound := by
    have hgrown := step_grown L e' (.incrementUses record.id record.maxUses) s₃
    rw [show (step L e' (.incrementUses record.id record.maxUses) s₃).2 = s₄ from
      congrArg Prod.snd hincrement] at hgrown
    exact hgrown.sound (hlater.sound hsound₁)
  obtain ⟨m, hm, hcounted⟩ := hs'.grown.counted hsound₄ record.id n hn
  rwa [hsound₄.unique hcounted hafter] at hm

end Calls

/-! ## Two callers of one token -/

def twoUses : OtpRecord := { oneUse with maxUses := 2 }

def twiceInMemory : Store := (Store.insert plainLib calm twoUses (.memory ∅)).2

def twiceInDatabase : Store := (Store.insert plainLib calm twoUses (.database ⟨[], 1⟩)).2

theorem sound_twiceInMemory : twiceInMemory.Sound := by
  intro key r hlookup
  rcases AList.lookup_of_insert hlookup with ⟨rfl, rfl⟩ | ⟨-, hnone⟩
  · decide
  · cases hnone

/-- A call that is not disturbed reports one remaining use of two. -/
theorem remaining_exact_undisturbed :
    Reports plainLib "p" ((prog plainLib (.validate "p")).strandBy (exec plainLib)
      [calm, calm, calm] twiceInMemory).1 ⟨"dev", "default", "device", 1⟩ :=
  remaining_exact_iff sound_twiceInMemory
    (strand_of_value (fun _ => Relation.ReflTransGen.refl) (by decide +kernel))

def bothValidate (s : Store) : Option (List (Bool × Task × Res)) :=
  ((validations plainLib Bool).run (Config.initial s)
    [.start false (.validate "p"), .start true (.validate "p"), .step false calm, .step true calm,
      .step false calm, .step true calm, .step false calm, .step true calm, .step false calm,
      .step true calm]).map outcomes

def oneLeft : Option (List (Bool × Task × Res)) :=
  some [(false, .validate "p", .validated (.ok ⟨"dev", "default", "device", 1⟩)),
    (true, .validate "p", .validated (.ok ⟨"dev", "default", "device", 1⟩))]

/-- The second of two uses is consumed with one remaining use reported again. -/
theorem same_remaining :
    bothValidate twiceInMemory = oneLeft ∧ bothValidate twiceInDatabase = oneLeft := by
  decide +kernel

end Kipuka.OtpCrate
