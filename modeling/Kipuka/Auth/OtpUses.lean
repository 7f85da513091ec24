/-
  One-time passwords under concurrent validation: every `Ok` of `validate_otp` is one use.
-/
import Kipuka.Auth.Otp
import Kipuka.Generic.Ledger

namespace Kipuka.Auth.Otp

open Generic

/-! ## The system -/

inductive Task where
  | validate (entityId otpValue : String)
  | revoke (role : Inventory.AdminRole) (id : String)
  deriving DecidableEq, Repr

inductive Res where
  | validated (result : Except String Unit)
  | revoked (response : Inventory.Response)

section

variable (L : OtpLib) (enabled : Bool)

def taskProg : Task → Prog Op Reply Res
  | .validate entityId otpValue => do
    let result ← (validateOtp L enabled entityId otpValue).run
    pure (.validated result)
  | .revoke role id => do
    let response ← revokeOtp enabled role id
    pure (.revoked response)

def validations (W : Type) : System W Env Op Task Res State Reply where
  exec := exec
  abandon _ s := s
  prog := taskProg L enabled

def grants (key : String × String) : Task → Res → Bool
  | .validate entityId otpValue, .validated (.ok ()) => decide ((entityId, hashOf L otpValue) = key)
  | _, _ => false

def pays (key : String × String) : (op : Op) → Reply op → Bool
  | .consume entityId tokenHash _, .ok rows =>
    decide ((entityId, tokenHash) = key) && decide (rows ≠ 0)
  | _, _ => false

/-- A revocation of the row with this id that the database has carried out. -/
def revokes (id : Int) : (op : Op) → Reply op → Bool
  | .revoke id' _, .ok _ => decide (id' = id)
  | _, _ => false

/-! ## Programs -/

/-- A program that has taken no use: it returns an `Ok` right after the statement that takes one,
    and only then. -/
def Unpaid (key : String × String) (t : Task) : Prog Op Reply Res → Prop
  | .ret r => grants L key t r = false
  | .call op k => ∀ reply,
      (pays key op reply = true → ∃ r, k reply = .ret r ∧ grants L key t r = true) ∧
        (pays key op reply = false → Unpaid key t (k reply) ∧
          ∀ entityId tokenHash now, op = .consume entityId tokenHash now → (entityId, tokenHash) = key →
            ∃ msg, k reply = .ret (.validated (.error msg)))

variable {L}

theorem unpaid_call {key : String × String} {t : Task} {op : Op} {k : Reply op → Prog Op Reply Res}
    (hop : ∀ entityId tokenHash now, op ≠ .consume entityId tokenHash now)
    (h : ∀ reply, Unpaid L key t (k reply)) : Unpaid L key t (.call op k) := by
  intro reply
  refine ⟨fun hpays => ?_, fun _ => ⟨h reply, fun entityId tokenHash now heq =>
    absurd heq (hop entityId tokenHash now)⟩⟩
  cases op with
  | consume entityId tokenHash now => exact absurd rfl (hop entityId tokenHash now)
  | _ => exact absurd hpays Bool.false_ne_true

theorem unpaid_consume (key : String × String) (entityId otpValue now : String) :
    Unpaid L key (.validate entityId otpValue)
      ((consumeOtp entityId (hashOf L otpValue) now).run >>= fun result => pure (.validated result)) := by
  rw [consumeOtp_eq]
  intro reply
  cases reply with
  | error msg => exact ⟨fun h => absurd h Bool.false_ne_true, fun _ => ⟨rfl, fun _ _ _ _ _ => ⟨_, rfl⟩⟩⟩
  | ok rows =>
    cases rows with
    | zero =>
      refine ⟨fun h => ?_, fun _ => ⟨rfl, fun _ _ _ _ _ => ⟨_, rfl⟩⟩⟩
      simp [pays] at h
    | succ n =>
      refine ⟨fun h => ⟨_, rfl, ?_⟩, fun h => ⟨?_, ?_⟩⟩
      · simpa [pays, grants] using h
      · have hne : (entityId, hashOf L otpValue) ≠ key := by simpa [pays] using h
        exact decide_eq_false hne
      · intro entityId' tokenHash now' heq hkey
        cases heq
        simp [pays, hkey] at h

theorem unpaid_start (key : String × String) (t : Task) : Unpaid L key t (taskProg L enabled t) := by
  cases t with
  | validate entityId otpValue =>
    cases enabled with
    | false => exact rfl
    | true =>
      dsimp only [taskProg]
      rw [validateOtp_eq]
      refine unpaid_call (fun _ _ _ => Op.noConfusion) fun now => ?_
      refine unpaid_call (fun _ _ _ => Op.noConfusion) fun found => ?_
      cases found with
      | error msg => exact rfl
      | ok row =>
        cases row with
        | none => exact rfl
        | some row =>
          by_cases hne : asBytes (hashOf L otpValue) ≠ asBytes row.tokenHash
          · simp only [if_pos hne]
            exact rfl
          · simp only [if_neg hne]
            exact unpaid_consume key entityId otpValue now
  | revoke role id =>
    dsimp only [taskProg, revokeOtp]
    split
    · exact rfl
    · split
      · exact rfl
      · split
        · exact rfl
        · refine unpaid_call (fun _ _ _ => Op.noConfusion) fun now => ?_
          refine unpaid_call (fun _ _ _ => Op.noConfusion) fun reply => ?_
          cases reply with
          | error msg => exact rfl
          | ok rows =>
            cases rows with
            | zero => exact rfl
            | succ n => exact unpaid_call (fun _ _ _ => Op.noConfusion) fun _ => rfl

variable (L)

/-- The statements that take a use of the token, against the `Ok`s for it. -/
def useLedger (W : Type) (key : String × String) : Ledger (validations L enabled W) where
  gains x := pays key x.op x.reply
  settles _ := false
  good := grants L key
  fair _ := True
  clean := Unpaid L key
  owes t p := ∃ r, p = .ret r ∧ grants L key t r = true
  start := unpaid_start enabled key
  exclusive _ := rfl
  clean_gain _ h := (h _).1
  clean_other _ h hgain := ((h _).2 hgain).1
  owes_gain _ h := by
    obtain ⟨r, hr, -⟩ := h
    cases hr
  owes_settle _ h := by
    obtain ⟨r, hr, -⟩ := h
    cases hr
  owes_other _ h := by
    obtain ⟨r, hr, -⟩ := h
    cases hr
  clean_ret h := h
  owes_ret h := by
    obtain ⟨r, hr, hgood⟩ := h
    cases hr
    exact hgood

end

/-! ## The table -/

def tokenOf (key : String × String) (tokens : List OtpToken) : Option OtpToken :=
  tokens.find? fun tk => decide (tk.key = key)

@[simp] theorem consumeRow_key (entityId tokenHash now : String) (tk : OtpToken) :
    (consumeRow entityId tokenHash now tk).key = tk.key := by
  unfold consumeRow
  split <;> rfl

@[simp] theorem revokeRow_key (id : Int) (now : String) (tk : OtpToken) :
    (revokeRow id now tk).key = tk.key := by
  unfold revokeRow
  split <;> rfl

structure UsedBy (tk tk' : OtpToken) (n : Nat) : Prop where
  id : tk'.id = tk.id
  key : tk'.key = tk.key
  maxUses : tk'.maxUses = tk.maxUses
  uses : tk'.currentUses = tk.currentUses + n
  bounded : tk'.currentUses ≤ tk'.maxUses

/-- The token `tk` is in the table, used `n` times since; once it was `revoked` with some number of
    uses, it stays so. -/
structure Tallied (tk : OtpToken) (n : Nat) (revokedAt : Option Int) (tokens : List OtpToken) : Prop where
  distinct : (tokens.map OtpToken.key).Nodup
  used : ∃ tk', tokenOf tk.key tokens = some tk' ∧ UsedBy tk tk' n ∧
    ∀ uses ∈ revokedAt, tk'.revoked = true ∧ tk'.currentUses = uses

section

variable {tk tk' : OtpToken} {n : Nat} {tokens : List OtpToken} {frozen : Option Int}

theorem tokenOf_of_mem (hdistinct : (tokens.map OtpToken.key).Nodup) (htk : tk ∈ tokens) :
    tokenOf tk.key tokens = some tk := by
  obtain ⟨tk', hfind⟩ : ∃ tk', tokenOf tk.key tokens = some tk' := by
    rw [← Option.isSome_iff_exists, tokenOf, List.find?_isSome]
    exact ⟨tk, htk, by simp⟩
  have hkey : tk'.key = tk.key := by simpa using List.find?_some hfind
  rw [hfind, List.inj_on_of_nodup_map hdistinct (List.mem_of_find?_eq_some hfind) htk hkey]

section

variable {f : OtpToken → OtpToken} (hf : ∀ tk, (f tk).key = tk.key)

include hf

theorem tokenOf_map (key : String × String) (tokens : List OtpToken) :
    tokenOf key (tokens.map f) = (tokenOf key tokens).map f := by
  have hcomp : (fun tk => decide (tk.key = key)) ∘ f = fun tk => decide (tk.key = key) := by
    funext tk
    simp [hf]
  rw [tokenOf, List.find?_map, hcomp]
  rfl

theorem keys_map (tokens : List OtpToken) :
    (tokens.map f).map OtpToken.key = tokens.map OtpToken.key := by
  rw [List.map_map]
  exact List.map_congr_left fun tk _ => hf tk

end

theorem Tallied.freeze (h : Tallied tk n none tokens) (hfind : tokenOf tk.key tokens = some tk')
    (hrevoked : tk'.revoked = true) : Tallied tk n (some tk'.currentUses) tokens := by
  obtain ⟨tk₁, hfind₁, hused, -⟩ := h.used
  obtain rfl := Option.some.inj (hfind.symm.trans hfind₁)
  exact ⟨h.distinct, tk', hfind, hused, fun uses huses => ⟨hrevoked, Option.some.inj huses⟩⟩

theorem Tallied.map (h : Tallied tk n frozen tokens) {f : OtpToken → OtpToken} {n' : Nat}
    (hf : ∀ tk, (f tk).key = tk.key)
    (hstep : ∀ tk', tokenOf tk.key tokens = some tk' → UsedBy tk tk' n →
      (∀ uses ∈ frozen, tk'.revoked = true ∧ tk'.currentUses = uses) →
      UsedBy tk (f tk') n' ∧ ∀ uses ∈ frozen, (f tk').revoked = true ∧ (f tk').currentUses = uses) :
    Tallied tk n' frozen (tokens.map f) := by
  obtain ⟨tk', hfind, hused, hfrozen⟩ := h.used
  refine ⟨by rw [keys_map hf]; exact h.distinct, f tk', ?_, hstep tk' hfind hused hfrozen⟩
  rw [tokenOf_map hf, hfind]
  rfl

theorem countP_matches (hdistinct : (tokens.map OtpToken.key).Nodup) {key : String × String}
    (hfind : tokenOf key tokens = some tk) (now : String) :
    tokens.countP (·.matches key.1 key.2 now) ≠ 0 ↔ tk.usable now = true := by
  have hmem := List.mem_of_find?_eq_some hfind
  have hkey : tk.key = key := by simpa using List.find?_some hfind
  have hiff : tk.matches key.1 key.2 now = tk.usable now := by simp [OtpToken.matches, hkey]
  rw [← hiff, ← Nat.pos_iff_ne_zero, List.countP_pos_iff]
  constructor
  · rintro ⟨a, ha, hmatch⟩
    have hakey : a.key = key := by
      have := hmatch
      simp only [OtpToken.matches, Bool.and_eq_true, decide_eq_true_iff] at this
      exact this.1
    have heq : a = tk := List.inj_on_of_nodup_map hdistinct ha hmem (hakey.trans hkey.symm)
    exact heq ▸ hmatch
  · exact fun hmatch => ⟨tk, hmem, hmatch⟩

theorem Tallied.consume (h : Tallied tk n frozen tokens) (entityId tokenHash now : String) :
    Tallied tk
      (n + if pays tk.key (.consume entityId tokenHash now)
        (.ok (tokens.countP (·.matches entityId tokenHash now))) = true then 1 else 0) frozen
      (tokens.map (consumeRow entityId tokenHash now)) := by
  refine h.map (consumeRow_key entityId tokenHash now) ?_
  intro tk' hfind hused hfrozen
  by_cases hkey : (entityId, tokenHash) = tk.key
  · have hcount := countP_matches h.distinct hfind now
    rw [← hkey] at hcount
    have hmatch : tk'.matches entityId tokenHash now = tk'.usable now := by
      simp [OtpToken.matches, hused.key, hkey]
    unfold consumeRow
    rw [hmatch]
    cases husable : tk'.usable now with
    | true =>
      have hpays : pays tk.key (.consume entityId tokenHash now)
          (.ok (tokens.countP (·.matches entityId tokenHash now))) = true := by
        simp [pays, hkey, hcount.mpr husable]
      simp only [OtpToken.usable, Bool.and_eq_true, Bool.not_eq_true', decide_eq_true_iff] at husable
      rw [if_pos rfl, if_pos hpays]
      refine ⟨⟨hused.id, hused.key, hused.maxUses, ?_, ?_⟩, ?_⟩
      · have := hused.uses
        dsimp only
        omega
      · have := husable.2
        dsimp only
        omega
      · -- a revoked token is not usable
        intro uses huses
        have := (hfrozen uses huses).1
        rw [husable.1.1] at this
        cases this
    | false =>
      have hpays : pays tk.key (.consume entityId tokenHash now)
          (.ok (tokens.countP (·.matches entityId tokenHash now))) = false := by
        have hzero : tokens.countP (·.matches entityId tokenHash now) = 0 := by
          by_contra hne
          rw [hcount.mp hne] at husable
          cases husable
        simp [pays, hzero]
      rw [if_neg (by simp), if_neg (by simp [hpays])]
      exact ⟨hused, hfrozen⟩
  · have hmatch : tk'.matches entityId tokenHash now = false := by
      have : tk.key ≠ (entityId, tokenHash) := fun heq => hkey heq.symm
      simp [OtpToken.matches, hused.key, this]
    unfold consumeRow
    rw [if_neg (by simp [hmatch]), if_neg (by simp [pays, hkey])]
    exact ⟨hused, hfrozen⟩

theorem Tallied.revoke (h : Tallied tk n frozen tokens) (id : Int) (now : String) :
    Tallied tk n frozen (tokens.map (revokeRow id now)) := by
  refine h.map (revokeRow_key id now) ?_
  intro tk' _ hused hfrozen
  unfold revokeRow
  split
  · exact ⟨⟨hused.id, hused.key, hused.maxUses, hused.uses, hused.bounded⟩,
      fun uses huses => ⟨rfl, (hfrozen uses huses).2⟩⟩
  · exact ⟨hused, hfrozen⟩

theorem Tallied.step {s : State} (h : Tallied tk n frozen s.tokens) (e : Env) (op : Op) :
    Tallied tk (n + if pays tk.key op (Otp.step e op s).1 = true then 1 else 0) frozen
      (Otp.step e op s).2.tokens := by
  obtain ⟨instant, utc, replica, dbError⟩ := e
  cases op with
  | consume entityId tokenHash now =>
    cases dbError with
    | some msg => exact h
    | none => exact h.consume entityId tokenHash now
  | revoke id now =>
    cases dbError with
    | some msg => exact h
    | none => exact h.revoke id now
  | findToken | findActive => cases dbError <;> exact h
  | _ => exact h

end

/-! ## Revoked rows -/

def Revoked (id : Int) (tokens : List OtpToken) : Prop := ∀ tk ∈ tokens, tk.id = id → tk.revoked = true

section

variable {id : Int} {tokens : List OtpToken} {s : State}

theorem Revoked.map (h : Revoked id tokens) {f : OtpToken → OtpToken} (hid : ∀ tk, (f tk).id = tk.id)
    (hf : ∀ tk, tk.revoked = true → (f tk).revoked = true) : Revoked id (tokens.map f) := by
  intro tk' htk' hsame
  obtain ⟨tk, htk, rfl⟩ := List.mem_map.mp htk'
  exact hf tk (h tk htk ((hid tk).symm.trans hsame))

theorem Revoked.step (h : Revoked id s.tokens) (e : Env) (op : Op) :
    Revoked id (Otp.step e op s).2.tokens := by
  obtain ⟨instant, utc, replica, dbError⟩ := e
  cases op with
  | consume entityId tokenHash now =>
    cases dbError with
    | some msg => exact h
    | none =>
      refine h.map (fun tk => ?_) fun tk hrevoked => ?_ <;> unfold consumeRow <;> split
      · rfl
      · rfl
      · exact hrevoked
      · exact hrevoked
  | revoke id' now =>
    cases dbError with
    | some msg => exact h
    | none =>
      refine h.map (fun tk => ?_) fun tk hrevoked => ?_ <;> unfold revokeRow <;> split
      · rfl
      · rfl
      · rfl
      · exact hrevoked
  | findToken | findActive => cases dbError <;> exact h
  | _ => exact h

theorem revoked_of_revokes {e : Env} {op : Op} (h : revokes id op (Otp.step e op s).1 = true) :
    Revoked id (Otp.step e op s).2.tokens := by
  obtain ⟨instant, utc, replica, dbError⟩ := e
  cases op with
  | revoke id' now =>
    cases dbError with
    | some msg => cases h
    | none =>
      obtain rfl := of_decide_eq_true h
      intro tk' htk' hsame
      obtain ⟨tk, -, rfl⟩ := List.mem_map.mp htk'
      unfold revokeRow at hsame ⊢
      split
      · rfl
      · next hother =>
        rw [if_neg hother] at hsame
        exact absurd hsame hother
  | _ => exact absurd h Bool.false_ne_true

end

/-! ## Runs -/

section

variable (L : OtpLib) (enabled : Bool) {W : Type} [DecidableEq W] {s : State}
  {as : List (Act W Env Task)} {c : Config W Op Task Res State Reply} {tk : OtpToken}

def grantCount (key : String × String) (done : List (Finished W Task Res)) : Nat :=
  done.countP fun f => grants L key f.task f.result

/-- A thread that is about to return a grant of the token. -/
def Granting (key : String × String) (th : Option (Thread Op Task Res Reply)) : Prop :=
  ∃ t r, th = some ⟨t, .ret r⟩ ∧ grants L key t r = true

theorem mem_owing_iff {key : String × String} {h : List (Called W Env Op Task Reply)}
    {owing : Finset W} {surplus lost : Nat}
    (hb : (useLedger L enabled W key).Balance c h owing surplus lost) (w : W) :
    w ∈ owing ↔ Granting L key (c.threads w) := by
  constructor
  · intro hw
    obtain ⟨⟨t, p⟩, hth, r, hr, hgood⟩ := hb.owes w hw
    cases hr
    exact ⟨t, r, hth, hgood⟩
  · rintro ⟨t, r, hth, hgood⟩
    by_contra hw
    have hfalse := (useLedger L enabled W key).clean_ret (hb.clean w hw _ hth)
    rw [show (useLedger L enabled W key).good t r = grants L key t r from rfl, hgood] at hfalse
    cases hfalse

theorem run_tallied {n : Nat} {frozen : Option Int} {c₀ : Config W Op Task Res State Reply}
    (h : Tallied tk n frozen c₀.shared.tokens) (hrun : (validations L enabled W).run c₀ as = some c) :
    Tallied tk
      (n + ((validations L enabled W).history c₀ as).countP fun x => pays tk.key x.op x.reply)
      frozen c.shared.tokens := by
  refine (validations L enabled W).run_shared (A := fun _ => True)
    (I := fun s h => Tallied tk (n + h.countP fun x => pays tk.key x.op x.reply) frozen s.tokens)
    ?_ (fun h => h) h (fun _ _ => trivial) hrun
  intro s s' h x hx _ hI
  have hstep := hI.step x.env x.op
  rw [show Otp.step x.env x.op s = (x.reply, s') from Option.some.inj hx] at hstep
  rw [List.countP_append, List.countP_singleton, ← Nat.add_assoc]
  exact hstep

theorem run_revoked {id : Int} (hrun : (validations L enabled W).run (Config.initial s) as = some c)
    (h : ∃ x ∈ (validations L enabled W).history (Config.initial s) as,
      revokes id x.op x.reply = true) : Revoked id c.shared.tokens := by
  refine (validations L enabled W).run_shared (A := fun _ => True)
    (I := fun s h => (∃ x ∈ h, revokes id x.op x.reply = true) → Revoked id s.tokens)
    ?_ (fun h => h) (fun h => absurd h (by simp)) (fun _ _ => trivial) hrun h
  rintro s s' h x hx _ hI ⟨y, hy, hrevokes⟩
  have hstep : Otp.step x.env x.op s = (x.reply, s') := Option.some.inj hx
  rcases List.mem_append.mp hy with hold | hnew
  · have hkept := (hI ⟨y, hold, hrevokes⟩).step x.env x.op
    rwa [hstep] at hkept
  · obtain rfl := List.mem_singleton.mp hnew
    have hrevoked := @revoked_of_revokes id s y.env y.op
    rw [hstep] at hrevoked
    exact hrevoked hrevokes

theorem consume_refused {n : Nat} {uses : Int}
    (hrun : (validations L enabled W).run (Config.initial s) as = some c)
    (hfrozen : Tallied tk n (some uses) c.shared.tokens) {w : W} {e : Env} {t : Task} {now : String}
    {k : Reply (.consume tk.entityId tk.tokenHash now) → Prog Op Reply Res}
    {c' : Config W Op Task Res State Reply}
    (hth : c.threads w = some ⟨t, .call (.consume tk.entityId tk.tokenHash now) k⟩)
    (hact : (validations L enabled W).act c (.step w e) = some c') :
    ∃ msg, c'.threads w = some ⟨t, .ret (.validated (.error msg))⟩ := by
  obtain ⟨owing, surplus, lost, hb, -⟩ := (useLedger L enabled W tk.key).balance
    (fun _ _ => trivial) hrun
  have hnot : w ∉ owing := by
    intro hmem
    obtain ⟨t', r, hth', -⟩ := (mem_owing_iff L enabled hb w).mp hmem
    rw [hth] at hth'
    cases hth'
  have hunpaid : Unpaid L tk.key t (.call (.consume tk.entityId tk.tokenHash now) k) :=
    hb.clean w hnot _ hth
  cases (validations L enabled W).acts_of_act hact with
  | finish _ _ t' r hth' =>
    rw [hth] at hth'
    cases hth'
  | call _ _ t' op' k' r s' hth' he =>
    rw [hth] at hth'
    cases hth'
    rw [Config.set_threads_self]
    have hpays : pays tk.key (.consume tk.entityId tk.tokenHash now) r = false := by
      -- a use taken here would show in the table
      have hstep := hfrozen.step e (.consume tk.entityId tk.tokenHash now)
      rw [show Otp.step e (.consume tk.entityId tk.tokenHash now) c.shared = (r, s') from
        Option.some.inj he] at hstep
      obtain ⟨tk₁, -, hused₁, hkept₁⟩ := hfrozen.used
      obtain ⟨tk₂, -, hused₂, hkept₂⟩ := hstep.used
      have huses₁ := hused₁.uses
      have huses₂ := hused₂.uses
      rw [(hkept₁ _ rfl).2] at huses₁
      rw [(hkept₂ _ rfl).2] at huses₂
      by_contra hne
      rw [Bool.not_eq_false] at hne
      rw [if_pos hne] at huses₂
      omega
    obtain ⟨msg, hmsg⟩ := ((hunpaid r).2 hpays).2 _ _ _ rfl rfl
    exact ⟨msg, by rw [hmsg]⟩

/-- **The uses of a token.** For every run of validations and revocations from a table with distinct
    keys:

    * `current_uses` never exceeds `max_uses`, nor does the number of calls that returned `Ok`;
    * `current_uses` has grown by one for each call that returned `Ok` and for each call that is
      about to, if no call was dropped on the way;
    * the token is revoked once the database has carried out a revocation of its id, its uses then
      stay as they are, and a call that runs its consuming `UPDATE` then returns an error. -/
theorem otp_uses_exact (hdistinct : (s.tokens.map OtpToken.key).Nodup)
    (huses : ∀ tk ∈ s.tokens, 0 ≤ tk.currentUses ∧ tk.currentUses ≤ tk.maxUses)
    (hrun : (validations L enabled W).run (Config.initial s) as = some c) (htk : tk ∈ s.tokens) :
    ∃ tk', tokenOf tk.key c.shared.tokens = some tk' ∧ tk'.id = tk.id ∧ tk'.maxUses = tk.maxUses ∧
      tk'.currentUses ≤ tk.maxUses ∧
      grantCount L tk.key c.done ≤ tk.maxUses ∧
      (∃ granting : Finset W, (∀ w, w ∈ granting ↔ Granting L tk.key (c.threads w)) ∧
        tk.currentUses + grantCount L tk.key c.done + granting.card ≤ tk'.currentUses ∧
        ((∀ w, .abandon w ∉ as) →
          tk'.currentUses = tk.currentUses + grantCount L tk.key c.done + granting.card)) ∧
      ((∃ x ∈ (validations L enabled W).history (Config.initial s) as,
        revokes tk.id x.op x.reply = true) → tk'.revoked = true) ∧
      (tk'.revoked = true → ∀ as' d, (validations L enabled W).run c as' = some d →
        (∃ tk'', tokenOf tk.key d.shared.tokens = some tk'' ∧ tk''.revoked = true ∧
          tk''.currentUses = tk'.currentUses) ∧
        ∀ w e t now k d', d.threads w = some ⟨t, .call (.consume tk.entityId tk.tokenHash now) k⟩ →
          (validations L enabled W).act d (.step w e) = some d' →
          ∃ msg, d'.threads w = some ⟨t, .ret (.validated (.error msg))⟩) := by
  have hstart : Tallied tk 0 none s.tokens :=
    ⟨hdistinct, tk, tokenOf_of_mem hdistinct htk, ⟨rfl, rfl, rfl, by simp, (huses tk htk).2⟩,
      fun _ h => by cases h⟩
  have htally := run_tallied L enabled hstart hrun
  obtain ⟨tk', hfind', hused, -⟩ := htally.used
  obtain ⟨owing, surplus, lost, hb, hlost⟩ := (useLedger L enabled W tk.key).balance
    (fun _ _ => trivial) hrun
  have hsum := hb.sum
  have hsurplus := hb.surplus_le
  have hzero : ((validations L enabled W).history (Config.initial s) as).countP
      (useLedger L enabled W tk.key).settles = 0 := List.countP_eq_zero.mpr fun _ _ h => by cases h
  have hnonneg := (huses tk htk).1
  have huse := hused.uses
  have hbound := hused.bounded
  have hmax := hused.maxUses
  have hgrown : (((validations L enabled W).history (Config.initial s) as).countP fun x =>
      pays tk.key x.op x.reply) = grantCount L tk.key c.done + owing.card + lost := by
    rw [hzero] at hsum hsurplus
    have hgains : ((validations L enabled W).history (Config.initial s) as).countP
        (useLedger L enabled W tk.key).gains = ((validations L enabled W).history
          (Config.initial s) as).countP fun x => pays tk.key x.op x.reply := rfl
    have hgoods : (useLedger L enabled W tk.key).goods c.done = grantCount L tk.key c.done := rfl
    omega
  refine ⟨tk', hfind', hused.id, hmax, by omega, by omega, ⟨owing, mem_owing_iff L enabled hb,
    by omega, fun hkept => ?_⟩, fun hcommitted => ?_, ?_⟩
  · have := hlost hkept
    omega
  · exact run_revoked L enabled hrun hcommitted tk' (List.mem_of_find?_eq_some hfind') hused.id
  · intro hrevoked as' d hrest
    -- from here on the token is frozen
    have hlater := run_tallied L enabled (htally.freeze hfind' hrevoked) hrest
    obtain ⟨tk'', hfind'', -, hkept⟩ := hlater.used
    refine ⟨⟨tk'', hfind'', hkept _ rfl⟩, fun w e t now k d' hth hact => ?_⟩
    exact consume_refused L enabled ((validations L enabled W).run_append hrun hrest) hlater hth hact

end

/-! ## A use, and a revocation between the lookup and the update of another -/

def twoUses : OtpToken := { oneUse with maxUses := 2 }

def raceStart : State := ⟨[twoUses], .new ⟨3, fromSecs 60, fromSecs 300⟩ 0, []⟩

def raceActs : List (Act Bool Env Task) :=
  let now : Env := ⟨0, "2026", [twoUses], none⟩
  [.start false (.validate "dev" "p"), .step false now, .step false now, .step false now,
    .step false now, .start false (.validate "dev" "p"), .step false now, .step false now,
    .start true (.revoke .operator "7"), .step true now, .step true now, .step true now,
    .step true now, .step false now, .step false now]

theorem otp_uses_exact_race :
    ∃ c, (validations plainLib true Bool).run (Config.initial raceStart) raceActs = some c ∧
      c.done.map (fun f => grants plainLib twoUses.key f.task f.result) = [true, false, false] ∧
      ∃ tk', tokenOf twoUses.key c.shared.tokens = some tk' ∧ tk'.revoked = true ∧
        1 ≤ tk'.currentUses ∧ tk'.currentUses ≤ 2 := by
  have hrun : ((validations plainLib true Bool).run (Config.initial raceStart) raceActs).map
      (fun c => c.done.map fun f => grants plainLib twoUses.key f.task f.result) =
        some [true, false, false] := by
    decide +kernel
  obtain ⟨c, hc, hgrants⟩ := Option.map_eq_some_iff.mp hrun
  refine ⟨c, hc, hgrants, ?_⟩
  have hmem : twoUses ∈ raceStart.tokens := List.mem_singleton.mpr rfl
  obtain ⟨tk', hfind, -, -, hle, -, ⟨granting, -, hge, -⟩, hrevoked, -⟩ :=
    otp_uses_exact plainLib true (by decide +kernel) (by decide +kernel) hc hmem
  have hone : grantCount plainLib twoUses.key c.done = 1 := by
    have := congrArg (List.countP id) hgrants
    rw [List.countP_map] at this
    exact this
  have hcommitted : (((validations plainLib true Bool).history (Config.initial raceStart)
      raceActs).any fun x => revokes 7 x.op x.reply) = true := by
    decide +kernel
  have hmax : twoUses.maxUses = 2 := rfl
  have hzero : twoUses.currentUses = 0 := rfl
  exact ⟨tk', hfind, hrevoked (List.any_eq_true.mp hcommitted), by omega, by omega⟩

end Kipuka.Auth.Otp
