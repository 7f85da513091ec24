/-
  Histories of a program: the calls it made, each with its answer.
-/
import Kipuka.Generic.Refine

namespace Kipuka.Generic

variable {Op : Type} {Reply : Op → Type} {α β ε : Type}

abbrev Answered (Op : Type) (Reply : Op → Type) : Type := (op : Op) × Reply op

/-- A program with the calls it has made, their answers, and what is left of it. -/
inductive Plays : Prog Op Reply α → List (Answered Op Reply) → Prog Op Reply α → Prop where
  | start (p : Prog Op Reply α) : Plays p [] p
  | call (op : Op) (k : Reply op → Prog Op Reply α) (r : Reply op) {h : List (Answered Op Reply)}
      {q : Prog Op Reply α} (rest : Plays (k r) h q) : Plays (.call op k) (⟨op, r⟩ :: h) q

abbrev Ended (p : Prog Op Reply α) (h : List (Answered Op Reply)) (a : α) : Prop :=
  Plays p h (.ret a)

/-- The history against an environment that answers a call by `answer` or leaves it waiting, and
    what is left then. -/
def Prog.playBy (answer : (op : Op) → Option (Reply op)) :
    Prog Op Reply α → List (Answered Op Reply) × Prog Op Reply α
  | .ret a => ([], .ret a)
  | .call op k =>
    match answer op with
    | none => ([], .call op k)
    | some r => (⟨op, r⟩ :: ((k r).playBy answer).1, ((k r).playBy answer).2)

def Prog.value : Prog Op Reply α → Option α
  | .ret a => some a
  | .call _ _ => none

theorem plays_playBy (answer : (op : Op) → Option (Reply op)) (p : Prog Op Reply α) :
    Plays p (p.playBy answer).1 (p.playBy answer).2 := by
  induction p with
  | ret a => exact .start _
  | call op k ih =>
    rw [Prog.playBy]
    split
    · exact .start _
    · next r _ => exact .call op k r (ih r)

variable {p : Prog Op Reply α} {c : Answered Op Reply} {answer : (op : Op) → Option (Reply op)}

theorem answer_of_mem_playBy (hc : c ∈ (p.playBy answer).1) : answer c.1 = some c.2 := by
  induction p with
  | ret a => cases hc
  | call op k ih =>
    rw [Prog.playBy] at hc
    split at hc
    · cases hc
    · next r hr =>
      rcases List.mem_cons.mp hc with rfl | hc
      · exact hr
      · exact ih r hc

variable {a : α}

variable (answer) in
theorem ended_playBy (h : (p.playBy answer).2.value = some a) : Ended p (p.playBy answer).1 a := by
  have hplay := plays_playBy answer p
  cases hq : (p.playBy answer).2 with
  | ret b =>
    rw [hq] at h hplay
    obtain rfl : b = a := Option.some.inj h
    exact hplay
  | call op k =>
    rw [hq] at h
    cases h

/-! ## Whole runs -/

variable {h : List (Answered Op Reply)}

theorem ended_ret {b : α} : Ended (.ret a : Prog Op Reply α) h b ↔ h = [] ∧ a = b := by
  constructor
  · intro hplay
    cases hplay
    exact ⟨rfl, rfl⟩
  · rintro ⟨rfl, rfl⟩
    exact .start _

variable {o : Op}

theorem ended_op {r : Reply o} : Ended (Prog.op o) h r ↔ h = [⟨o, r⟩] := by
  constructor
  · intro hplay
    cases hplay with
    | call _ _ r' rest =>
      obtain ⟨rfl, rfl⟩ := ended_ret.mp rest
      rfl
  · rintro rfl
    exact .call o _ r (.start _)

variable {f : α → Prog Op Reply β} {b : β}

theorem ended_bind : Ended (p >>= f) h b ↔
      ∃ h₁ h₂ a, h = h₁ ++ h₂ ∧ Ended p h₁ a ∧ Ended (f a) h₂ b := by
  constructor
  · intro hplay
    induction p generalizing h with
    | ret a => exact ⟨[], h, a, rfl, .start _, hplay⟩
    | call op k ih =>
      cases hplay with
      | call _ _ r rest =>
        obtain ⟨h₁, h₂, a, rfl, hp, hf⟩ := ih r rest
        exact ⟨⟨op, r⟩ :: h₁, h₂, a, rfl, .call op k r hp, hf⟩
  · rintro ⟨h₁, h₂, a, rfl, hp, hf⟩
    induction p generalizing h₁ with
    | ret a' =>
      obtain ⟨rfl, rfl⟩ := ended_ret.mp hp
      exact hf
    | call op k ih =>
      cases hp with
      | call _ _ r rest => exact .call op _ r (ih r _ rest)

variable {r : Except ε β}

theorem ended_seq {x : ExceptT ε (Prog Op Reply) α} {f : α → ExceptT ε (Prog Op Reply) β}
    : Ended (x >>= f).run h r ↔
      (∃ h₁ h₂ a, h = h₁ ++ h₂ ∧ Ended x.run h₁ (.ok a) ∧ Ended (f a).run h₂ r) ∨
      ∃ e, r = .error e ∧ Ended x.run h (.error e) := by
  have hbind : Ended (x >>= f).run h r ↔
      ∃ h₁ h₂ a, h = h₁ ++ h₂ ∧ Ended x.run h₁ a ∧ Ended (ExceptT.bindCont f a) h₂ r :=
    ended_bind (p := x.run)
  rw [hbind]
  constructor
  · rintro ⟨h₁, h₂, a | a, rfl, hx, hf⟩
    · obtain ⟨rfl, rfl⟩ := ended_ret.mp hf
      exact .inr ⟨a, rfl, by rwa [List.append_nil]⟩
    · exact .inl ⟨h₁, h₂, a, rfl, hx, hf⟩
  · rintro (⟨h₁, h₂, a, rfl, hx, hf⟩ | ⟨e, rfl, hx⟩)
    · exact ⟨h₁, h₂, .ok a, rfl, hx, hf⟩
    · exact ⟨h, [], .error e, (List.append_nil h).symm, hx, .start _⟩

variable {f : α → ExceptT ε (Prog Op Reply) β} {x : ExceptT ε (Prog Op Reply) α}

theorem ended_seq_ok : Ended (x >>= f).run h (.ok b) ↔
      ∃ h₁ h₂ a, h = h₁ ++ h₂ ∧ Ended x.run h₁ (.ok a) ∧ Ended (f a).run h₂ (.ok b) := by
  rw [ended_seq]
  constructor
  · rintro (hok | ⟨e, he, -⟩)
    · exact hok
    · cases he
  · exact Or.inl

variable {r : Except ε α}

theorem ended_ofExcept {x : Except ε α} :
    Ended (Prog.ofExcept x : ExceptT ε (Prog Op Reply) α).run h r ↔ h = [] ∧ x = r :=
  ended_ret

theorem ended_pure : Ended (pure a : ExceptT ε (Prog Op Reply) α).run h r ↔ h = [] ∧ .ok a = r :=
  ended_ret

theorem ended_throw {e : ε} :
    Ended (throw e : ExceptT ε (Prog Op Reply) α).run h r ↔ h = [] ∧ .error e = r :=
  ended_ret

theorem ended_ofExcept_seq {x : Except ε α} {r : Except ε β} :
    Ended (Prog.ofExcept x >>= f).run h r ↔
      (∃ a, x = .ok a ∧ Ended (f a).run h r) ∨ ∃ e, x = .error e ∧ h = [] ∧ r = .error e := by
  rw [ended_seq]
  constructor
  · rintro (⟨h₁, h₂, a, rfl, hx, hf⟩ | ⟨e, rfl, hx⟩)
    · obtain ⟨rfl, rfl⟩ := ended_ofExcept.mp hx
      exact .inl ⟨a, rfl, hf⟩
    · obtain ⟨rfl, rfl⟩ := ended_ofExcept.mp hx
      exact .inr ⟨e, rfl, rfl, rfl⟩
  · rintro (⟨a, rfl, hf⟩ | ⟨e, rfl, rfl, rfl⟩)
    · exact .inl ⟨[], h, a, rfl, .start _, hf⟩
    · exact .inr ⟨e, rfl, .start _⟩

theorem ended_map {g : α → β} :
    Ended (p >>= fun a => .ret (g a)) h b ↔ ∃ a, Ended p h a ∧ g a = b := by
  rw [ended_bind]
  constructor
  · rintro ⟨h₁, h₂, a, rfl, hp, hret⟩
    obtain ⟨rfl, hb⟩ := ended_ret.mp hret
    exact ⟨a, by rwa [List.append_nil], hb⟩
  · rintro ⟨a, hp, hb⟩
    exact ⟨h, [], a, (List.append_nil h).symm, hp, ended_ret.mpr ⟨rfl, hb⟩⟩

theorem ended_lift :
    Ended (Prog.lift p : ExceptT ε (Prog Op Reply) α).run h r ↔ ∃ a, Ended p h a ∧ .ok a = r :=
  ended_map

variable {ε' : Type} {g : ε' → ε}

theorem ended_mapErr {p : Prog Op Reply (Except ε' α)} :
    Ended (Prog.mapErr g p).run h r ↔ ∃ r', Ended p h r' ∧ r'.mapError g = r :=
  ended_map

theorem ended_lift_seq {r : Except ε β} : Ended (Prog.lift p >>= f).run h r ↔
      ∃ h₁ h₂ a, h = h₁ ++ h₂ ∧ Ended p h₁ a ∧ Ended (f a).run h₂ r := by
  rw [ended_seq]
  constructor
  · rintro (⟨h₁, h₂, a, rfl, hlift, hf⟩ | ⟨e, -, hlift⟩)
    · obtain ⟨a', hp, heq⟩ := ended_lift.mp hlift
      obtain rfl := Except.ok.inj heq
      exact ⟨h₁, h₂, a', rfl, hp, hf⟩
    · obtain ⟨_, -, heq⟩ := ended_lift.mp hlift
      cases heq
  · rintro ⟨h₁, h₂, a, rfl, hp, hf⟩
    exact .inl ⟨h₁, h₂, a, rfl, ended_lift.mpr ⟨a, hp, rfl⟩, hf⟩

theorem ended_mapErr_seq {p : Prog Op Reply (Except ε' α)} {r : Except ε β} :
    Ended (Prog.mapErr g p >>= f).run h r ↔
      (∃ h₁ h₂ a, h = h₁ ++ h₂ ∧ Ended p h₁ (.ok a) ∧ Ended (f a).run h₂ r) ∨
      ∃ e, r = .error (g e) ∧ Ended p h (.error e) := by
  rw [ended_seq]
  constructor
  · rintro (⟨h₁, h₂, a, rfl, hmap, hf⟩ | ⟨e, rfl, hmap⟩)
    · obtain ⟨r', hp, heq⟩ := ended_mapErr.mp hmap
      cases r' with
      | error e => cases heq
      | ok a' =>
        obtain rfl := Except.ok.inj heq
        exact .inl ⟨h₁, h₂, a', rfl, hp, hf⟩
    · obtain ⟨r', hp, heq⟩ := ended_mapErr.mp hmap
      cases r' with
      | error e' =>
        obtain rfl := Except.error.inj heq
        exact .inr ⟨e', rfl, hp⟩
      | ok a => cases heq
  · rintro (⟨h₁, h₂, a, rfl, hp, hf⟩ | ⟨e, rfl, hp⟩)
    · exact .inl ⟨h₁, h₂, a, rfl, ended_mapErr.mpr ⟨.ok a, hp, rfl⟩, hf⟩
    · exact .inr ⟨g e, rfl, ended_mapErr.mpr ⟨.error e, hp, rfl⟩⟩

/-! ## The calls of a program -/

def Only (P : Op → Prop) : Prog Op Reply α → Prop
  | .ret _ => True
  | .call op k => P op ∧ ∀ r, Only P (k r)

section Only

variable {P : Op → Prop}

theorem Only.plays {q : Prog Op Reply α} (hp : Only P p)
    (hplay : Plays p h q) : ∀ c ∈ h, P c.1 := by
  induction hplay with
  | start p => exact List.forall_mem_nil _
  | call op k r rest ih => exact List.forall_mem_cons.mpr ⟨hp.1, ih (hp.2 r)⟩

theorem Only.mono {P' : Op → Prop} (hp : Only P p) (hP : ∀ op, P op → P' op) : Only P' p := by
  induction p with
  | ret a => trivial
  | call op k ih => exact ⟨hP op hp.1, fun r => ih r (hp.2 r)⟩

theorem Only.trace {answer : (op : Op) → Reply op} (hp : Only P p) {op : Op}
    (hop : op ∈ p.trace answer) : P op := by
  induction p with
  | ret a => cases hop
  | call o k ih =>
    rcases List.mem_cons.mp hop with rfl | hop
    · exact hp.1
    · exact ih _ (hp.2 _) hop

theorem only_of_forall (hP : ∀ op, P op) (p : Prog Op Reply α) : Only P p := by
  induction p with
  | ret a => trivial
  | call op k ih => exact ⟨hP op, ih⟩

theorem only_op (ho : P o) : Only P (Prog.op o : Prog Op Reply (Reply o)) :=
  ⟨ho, fun _ => trivial⟩

theorem only_bind {f : α → Prog Op Reply β} (hp : Only P p) (hf : ∀ a, Only P (f a)) :
    Only P (p >>= f) := by
  induction p with
  | ret a => exact hf a
  | call op k ih => exact ⟨hp.1, fun r => ih r (hp.2 r)⟩

theorem only_seq (hx : Only P x.run) (hf : ∀ a, Only P (f a).run) : Only P (x >>= f).run := by
  refine only_bind (p := x.run) hx ?_
  intro r
  cases r with
  | ok a => exact hf a
  | error e => trivial

theorem only_lift (hp : Only P p) : Only P (Prog.lift p : ExceptT ε (Prog Op Reply) α).run :=
  only_bind (p := p) hp fun _ => trivial

theorem only_mapErr {p : Prog Op Reply (Except ε' α)} (hp : Only P p) :
    Only P (Prog.mapErr g p).run :=
  only_bind (p := p) hp fun _ => trivial

theorem only_ask (hp : Only P p) (hf : ∀ a, Only P (f a).run) : Only P (Prog.lift p >>= f).run :=
  only_seq (only_lift hp) hf

theorem only_try {p : Prog Op Reply (Except ε' α)} (hp : Only P p)
    (hf : ∀ a, Only P (f a).run) : Only P (Prog.mapErr g p >>= f).run :=
  only_seq (only_mapErr hp) hf

theorem only_ofExcept {x : Except ε α} (hf : ∀ a, x = .ok a → Only P (f a).run) :
    Only P (Prog.ofExcept x >>= f).run := by
  cases x with
  | ok a => exact hf a rfl
  | error e => trivial

end Only

/-! ## What the operations of a program keep -/

section Steady

variable {E σ : Type} {exec : E → (op : Op) → σ → Option (Reply op × σ)} {R G : σ → σ → Prop}
  {P : Op → Prop} {I : σ → Prop} {s : σ}

/-- The operations in `P` keep `I`, and so do the others meanwhile. -/
structure Steady (exec : E → (op : Op) → σ → Option (Reply op × σ)) (R G : σ → σ → Prop)
    (P : Op → Prop) (I : σ → Prop) : Prop where
  step : ∀ e o s r s', P o → I s → exec e o s = some (r, s') → G s s' ∧ I s'
  rely : ∀ s s', I s → R s s' → I s'

namespace Steady

variable (hI : Steady exec R G P I)

include hI

theorem only (hp : Only P p) (h : I s) : Safe exec R G (fun _ s => I s) p s := by
  induction p generalizing s with
  | ret a => exact h
  | call op k ih =>
    intro e r s' he
    obtain ⟨hg, hkept⟩ := hI.step e op s r s' hp.1 h he
    exact ⟨hg, fun s'' hr => ih r (hp.2 r) (hI.rely s' s'' hkept hr)⟩

theorem bind {f : α → Prog Op Reply β} {Q : β → σ → Prop} (hp : Only P p) (h : I s)
    (hf : ∀ a s, I s → Safe exec R G Q (f a) s) : Safe exec R G Q (p >>= f) s :=
  safe_bind ((hI.only hp h).mono hf)

variable {Q : Except ε β → σ → Prop}

theorem ask (hp : Only P p) (h : I s) (hf : ∀ a s, I s → Safe exec R G Q (f a).run s) :
    Safe exec R G Q (Prog.lift p >>= f).run s :=
  safe_ask ((hI.only hp h).mono hf)

theorem seq (hx : Only P x.run) (h : I s) (hf : ∀ a s, I s → Safe exec R G Q (f a).run s)
    (herror : ∀ e s, I s → Q (.error e) s) : Safe exec R G Q (x >>= f).run s := by
  refine safe_bind ((hI.only hx h).mono ?_)
  intro r s h
  cases r with
  | ok a => exact hf a s h
  | error e => exact herror e s h

theorem attempt {p : Prog Op Reply (Except ε' α)} (hp : Only P p) (h : I s)
    (hf : ∀ a s, I s → Safe exec R G Q (f a).run s) (herror : ∀ e s, I s → Q (.error (g e)) s) :
    Safe exec R G Q (Prog.mapErr g p >>= f).run s := by
  refine safe_try ((hI.only hp h).mono ?_)
  intro r s h
  cases r with
  | ok a => exact hf a s h
  | error e => exact herror e s h

end Steady

end Steady

/-! ## Where a call comes from -/

theorem plays_bind {f : α → Prog Op Reply β} {q : Prog Op Reply β} (hplay : Plays (p >>= f) h q) :
    (∃ p', Plays p h p') ∨
      ∃ h₁ h₂ a, h = h₁ ++ h₂ ∧ Ended p h₁ a ∧ Plays (f a) h₂ q := by
  induction p generalizing h with
  | ret a => exact .inr ⟨[], h, a, rfl, .start _, hplay⟩
  | call op k ih =>
    cases hplay with
    | start => exact .inl ⟨_, .start _⟩
    | call _ _ r rest =>
      rcases ih r rest with ⟨p', hp⟩ | ⟨h₁, h₂, a, rfl, hp, hf⟩
      · exact .inl ⟨p', .call op k r hp⟩
      · exact .inr ⟨⟨op, r⟩ :: h₁, h₂, a, rfl, .call op k r hp, hf⟩

variable {q : Prog Op Reply (Except ε β)}

theorem plays_seq_ok {h₁ h₂ : List (Answered Op Reply)} (hx : Ended x.run h₁ (.ok a))
    (hf : Plays (f a).run h₂ q) : Plays (x >>= f).run (h₁ ++ h₂) q := by
  have hbind : ∀ (p : Prog Op Reply (Except ε α)) (h : List (Answered Op Reply)),
      Ended p h (.ok a) → Plays (p >>= ExceptT.bindCont f) (h ++ h₂) q := by
    intro p
    induction p with
    | ret r =>
      intro h hend
      obtain ⟨rfl, rfl⟩ := ended_ret.mp hend
      exact hf
    | call op k ih =>
      intro h hend
      cases hend with
      | call _ _ r rest => exact .call op _ r (ih r _ rest)
  exact hbind x.run h₁ hx

section Calls

variable {P : Op → Prop}

theorem plays_seq_of_mem (hplay : Plays (x >>= f).run h q)
    (hx : Only (fun op => ¬ P op) x.run) (hc : c ∈ h) (hP : P c.1) :
    ∃ h₁ h₂ a, h = h₁ ++ h₂ ∧ Ended x.run h₁ (.ok a) ∧ Plays (f a).run h₂ q ∧ c ∈ h₂ := by
  rcases plays_bind (p := x.run) hplay with ⟨p', hp⟩ | ⟨h₁, h₂, r, rfl, hp, hf⟩
  · exact absurd hP (hx.plays hp c hc)
  · have hlater : c ∈ h₂ := by
      rcases List.mem_append.mp hc with hmem | hmem
      · exact absurd hP (hx.plays hp c hmem)
      · exact hmem
    cases r with
    | ok a => exact ⟨h₁, h₂, a, rfl, hp, hf, hlater⟩
    | error e =>
      have hf' : Plays (.ret (.error e)) h₂ q := hf
      cases hf'
      cases hlater

theorem plays_seq_of_flag {flag : Op → Bool}
    (hplay : Plays (x >>= f).run h q) (hx : Only (fun op => flag op = false) x.run) (hc : c ∈ h)
    (hflag : flag c.1 = true) :
    ∃ h₁ h₂ a, h = h₁ ++ h₂ ∧ Ended x.run h₁ (.ok a) ∧ Plays (f a).run h₂ q ∧ c ∈ h₂ := by
  refine plays_seq_of_mem (P := fun op => flag op = true) hplay ?_ hc hflag
  exact hx.mono fun op hop => by simp [hop]

theorem plays_ofExcept_of_mem {x : Except ε α}
    (hplay : Plays (Prog.ofExcept x >>= f).run h q) (hc : c ∈ h) :
    ∃ a, x = .ok a ∧ Plays (f a).run h q := by
  cases x with
  | ok a => exact ⟨a, rfl, hplay⟩
  | error e =>
    have hret : Plays (.ret (.error e)) h q := hplay
    cases hret
    cases hc

def Returns (p : Prog Op Reply α) (a : α) : Prop := ∃ h, Ended p h a

section Returns

variable {b : β}

theorem returns_seq : Returns (x >>= f).run (.ok b) ↔
    ∃ a, Returns x.run (.ok a) ∧ Returns (f a).run (.ok b) := by
  constructor
  · rintro ⟨h, hend⟩
    obtain ⟨h₁, h₂, a, -, hx, hf⟩ := ended_seq_ok.mp hend
    exact ⟨a, ⟨h₁, hx⟩, h₂, hf⟩
  · rintro ⟨a, ⟨h₁, hx⟩, h₂, hf⟩
    exact ⟨h₁ ++ h₂, ended_seq_ok.mpr ⟨h₁, h₂, a, rfl, hx, hf⟩⟩

theorem returns_ofExcept_seq {x : Except ε α} :
    Returns (Prog.ofExcept x >>= f).run (.ok b) ↔ ∃ a, x = .ok a ∧ Returns (f a).run (.ok b) := by
  refine returns_seq.trans (exists_congr fun a => and_congr_left fun _ => ?_)
  exact ⟨fun ⟨_, hend⟩ => (ended_ofExcept.mp hend).2, fun hx => ⟨[], ended_ofExcept.mpr ⟨rfl, hx⟩⟩⟩

theorem returns_after {x : ExceptT ε (Prog Op Reply) Unit} {f : Unit → ExceptT ε (Prog Op Reply) β}
    (hx : Returns x.run (.ok ())) : Returns (x >>= f).run (.ok b) ↔ Returns (f ()).run (.ok b) :=
  returns_seq.trans ⟨fun ⟨_, _, hf⟩ => hf, fun hf => ⟨(), hx, hf⟩⟩

theorem returns_check {x : Except ε Unit} {f : Unit → ExceptT ε (Prog Op Reply) β} :
    Returns (Prog.ofExcept x >>= f).run (.ok b) ↔ x = .ok () ∧ Returns (f ()).run (.ok b) :=
  returns_ofExcept_seq.trans ⟨fun ⟨_, h⟩ => h, fun h => ⟨(), h⟩⟩

theorem returns_pure {a a' : α} :
    Returns (pure a : ExceptT ε (Prog Op Reply) α).run (.ok a') ↔ a = a' :=
  ⟨fun ⟨_, hend⟩ => Except.ok.inj (ended_pure.mp hend).2, fun heq => ⟨[], heq ▸ .start _⟩⟩

end Returns

def Makes (P : Op → Prop) (p : Prog Op Reply α) : Prop :=
  ∃ h q, Plays p h q ∧ ∃ c ∈ h, P c.1

theorem makes_call {k : Reply o → Prog Op Reply α} (r : Reply o) (ho : P o) : Makes P (.call o k) :=
  ⟨[⟨o, r⟩], k r, .call o _ r (.start _), ⟨o, r⟩, List.mem_cons_self, ho⟩

theorem makes_seq (hx : Only (fun op => ¬ P op) x.run) : Makes P (x >>= f).run ↔
      ∃ a, Returns x.run (.ok a) ∧ Makes P (f a).run := by
  constructor
  · rintro ⟨h, q, hplay, c, hc, hP⟩
    obtain ⟨h₁, h₂, a, rfl, hend, hf, hmem⟩ := plays_seq_of_mem hplay hx hc hP
    exact ⟨a, ⟨h₁, hend⟩, h₂, q, hf, c, hmem, hP⟩
  · rintro ⟨a, ⟨h₁, hend⟩, h₂, q, hf, c, hc, hP⟩
    exact ⟨h₁ ++ h₂, q, plays_seq_ok hend hf, c, List.mem_append_right _ hc, hP⟩

theorem makes_ofExcept {x : Except ε α} :
    Makes P (Prog.ofExcept x >>= f).run ↔ ∃ a, x = .ok a ∧ Makes P (f a).run := by
  constructor
  · rintro ⟨h, q, hplay, c, hc, hP⟩
    obtain ⟨a, ha, hf⟩ := plays_ofExcept_of_mem hplay hc
    exact ⟨a, ha, h, q, hf, c, hc, hP⟩
  · rintro ⟨a, rfl, hf⟩
    exact hf

theorem plays_bind_left {q : Prog Op Reply α} (hplay : Plays p h q)
    (f : α → Prog Op Reply β) : Plays (p >>= f) h (q >>= f) := by
  induction hplay with
  | start p => exact .start _
  | call op k r rest ih => exact .call op _ r ih

theorem makes_bind_of_quiet {f : α → Prog Op Reply β} (hf : ∀ a, Only (fun op => ¬ P op) (f a)) :
    Makes P (p >>= f) ↔ Makes P p := by
  constructor
  · rintro ⟨h, q, hplay, c, hc, hP⟩
    rcases plays_bind hplay with ⟨p', hp⟩ | ⟨h₁, h₂, a, rfl, hp, hrest⟩
    · exact ⟨h, p', hp, c, hc, hP⟩
    · rcases List.mem_append.mp hc with hmem | hmem
      · exact ⟨h₁, _, hp, c, hmem, hP⟩
      · exact absurd hP ((hf a).plays hrest c hmem)
  · rintro ⟨h, q, hplay, hmade⟩
    exact ⟨h, _, plays_bind_left hplay f, hmade⟩

theorem makes_seq_of_quiet (hf : ∀ a, Only (fun op => ¬ P op) (f a).run) :
    Makes P (x >>= f).run ↔ Makes P x.run := by
  refine makes_bind_of_quiet (p := x.run) ?_
  intro r
  cases r with
  | ok a => exact hf a
  | error e => trivial

theorem makes_lift : Makes P (Prog.lift p : ExceptT ε (Prog Op Reply) α).run ↔ Makes P p :=
  makes_bind_of_quiet (p := p) fun _ => trivial

end Calls

end Kipuka.Generic
