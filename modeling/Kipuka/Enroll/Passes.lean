/-
  Getting to the signer.

  A request passes if, with some answers of the outside, it comes to ask for a signature. What that
  takes is read off the programs of the routes step by step: `passes_seq`, `passes_check` and
  `passes_after` say it for a step in front, `passes_atCa` for the steps that all routes end with,
  `passes_httpRequest` for the extractors in front of an HTTP handler. Each is an equivalence, so the
  conditions that the routes are found to have are exact.
-/
import Kipuka.Enroll.Routine

namespace Kipuka.Enroll

open Generic Auth

variable {α β ε : Type}

/-- With some answers of the outside, a certificate comes to be signed. -/
def Passes (p : Prog Op Reply α) : Prop := Makes (fun op => op.signs = true) p

variable {p : Prog Op Reply α}

theorem SignsNothing.quiet (hp : SignsNothing p) : Only (fun op => ¬ op.signs = true) p :=
  hp.mono fun _ hop => Bool.eq_false_iff.mp hop

theorem not_passes (hp : SignsNothing p) : ¬ Passes p := by
  rintro ⟨h, q, hplay, c, hc, hsigns⟩
  exact hp.quiet.plays hplay c hc hsigns

variable {x : ExceptT ε (Prog Op Reply) α} {f : α → ExceptT ε (Prog Op Reply) β}

theorem passes_seq (hx : SignsNothing x.run) :
    Passes (x >>= f).run ↔ ∃ a, Returns x.run (.ok a) ∧ Passes (f a).run :=
  makes_seq hx.quiet

theorem passes_ofExcept {x : Except ε α} :
    Passes (Prog.ofExcept x >>= f).run ↔ ∃ a, x = .ok a ∧ Passes (f a).run :=
  makes_ofExcept

theorem passes_check {x : Except ε Unit} {f : Unit → ExceptT ε (Prog Op Reply) β} :
    Passes (Prog.ofExcept x >>= f).run ↔ x = .ok () ∧ Passes (f ()).run :=
  passes_ofExcept.trans ⟨fun ⟨_, h⟩ => h, fun h => ⟨(), h⟩⟩

theorem passes_seq_of_quiet (hf : ∀ a, SignsNothing (f a).run) :
    Passes (x >>= f).run ↔ Passes x.run :=
  makes_seq_of_quiet fun a => (hf a).quiet

theorem passes_after {x : ExceptT ε (Prog Op Reply) Unit} {f : Unit → ExceptT ε (Prog Op Reply) β}
    (hx : SignsNothing x.run) (hend : Returns x.run (.ok ())) :
    Passes (x >>= f).run ↔ Passes (f ()).run :=
  (passes_seq hx).trans ⟨fun ⟨_, _, h⟩ => h, fun h => ⟨(), hend, h⟩⟩

variable {h : List (Answered Op Reply)} {a : α}

theorem passes_mapErr_op {ε' : Type} {g : ε' → ε} {p : Prog Op Reply (Except ε' Unit)}
    {f : Unit → ExceptT ε (Prog Op Reply) β} (hp : SignsNothing p) (hend : Ended p h (.ok ())) :
    Passes (Prog.mapErr g p >>= f).run ↔ Passes (f ()).run :=
  passes_after (only_mapErr hp) ⟨h, ended_mapErr.mpr ⟨.ok (), hend, rfl⟩⟩

theorem passes_resolved {g : KipukaError → ε} {caId : String} {ca : CaState}
    {f : Ca.EnrollmentProfile → ExceptT ε (Prog Op Reply) α} {c : Prop}
    (hf : ∀ profile, Passes (f profile).run ↔ c) :
    Passes (do
      Prog.mapErr g (request (.resolveSigningKey caId))
      let profile ← Prog.lift (caProfile ca)
      f profile).run ↔ c := by
  have hkey : Ended (request (.resolveSigningKey caId)) _ (.ok ()) := ended_op.mpr rfl
  have hprofile : Ended (caProfile ca) [⟨.outside .now, (0 : Nat)⟩] _ :=
    ended_bind.mpr ⟨_, [], (0 : Nat), rfl, ended_op.mpr rfl, .start _⟩
  rw [passes_mapErr_op (routine_request rfl).signsNothing hkey]
  rw [passes_seq (only_lift (routine_caProfile ca).signsNothing)]
  constructor
  · rintro ⟨profile, -, hpasses⟩
    exact (hf profile).mp hpasses
  · exact fun hc => ⟨_, ⟨_, ended_lift.mpr ⟨_, hprofile, rfl⟩⟩, (hf _).mpr hc⟩

/-- The CA is loaded and configured. -/
def CaReady (app : AppState) (caId : String) : Prop :=
  (∃ ca, app.getCa caId = some ca) ∧ app.caConfigs.contains caId = true

theorem passes_atCa {app : AppState} {caId : String} {e e' : ε} {g : KipukaError → ε}
    {f : CaState → Ca.EnrollmentProfile → ExceptT ε (Prog Op Reply) α}
    (hf : ∀ ca profile, Passes (f ca profile).run) :
    Passes (do
      let ca ← Prog.ofExcept (okOrElse e (app.getCa caId))
      Prog.ofExcept (refuseIf (!app.caConfigs.contains caId) e')
      Prog.mapErr g (request (.resolveSigningKey caId))
      let profile ← Prog.lift (caProfile ca)
      f ca profile).run ↔ CaReady app caId := by
  rw [passes_ofExcept, CaReady, ← exists_and_right]
  refine exists_congr fun ca => and_congr okOrElse_eq_ok (passes_check.trans ?_)
  rw [refuseIf_eq_ok, Bool.not_eq_false']
  exact and_iff_left ((passes_resolved fun profile => iff_true_intro (hf ca profile)).mpr trivial)

/-- With some choice from its pool, the label under a name is this one. -/
def Resolves (app : AppState) (labelName : Option String) (label : LabelExtractor) : Prop :=
  Returns (resolve app labelName).run (.ok label)

theorem signsNothing_resolve (app : AppState) (labelName : Option String) :
    SignsNothing (resolve app labelName).run :=
  only_resolve (fun _ => rfl) labelName

/-! ## Clients of HTTP -/

/-- The CSR passes the binding to the identity and the name lists of the label. -/
def Authorized (L : EnrollLib) (csrDer : List UInt8) (identity : String)
    (label : LabelExtractor) : Prop :=
  authorizeCsrDer L.toCsrLib csrDer identity label.policy = .ok ()

/-- With some answer to the revocation check, the certificate is taken under the label. -/
def Authenticated (L : EnrollLib) (app : AppState) (label : LabelExtractor)
    (certDer : List UInt8) : Prop :=
  ∃ h auth, Ended (estAuth L app label certDer).run h (.ok auth)

/-- Who is taken by a certificate is named by it. -/
theorem exists_returns_estAuth {L : EnrollLib} {app : AppState} {label : LabelExtractor}
    {certDer : List UInt8} {P : AuthResult → Prop} :
    (∃ auth, Returns (estAuth L app label certDer).run (.ok auth) ∧ P auth) ↔
      Authenticated L app label certDer ∧ P (mtlsClient L certDer) := by
  constructor
  · rintro ⟨auth, ⟨h, hend⟩, hP⟩
    obtain rfl := ended_estAuth hend
    exact ⟨⟨h, _, hend⟩, hP⟩
  · rintro ⟨⟨h, auth, hend⟩, hP⟩
    obtain rfl := ended_estAuth hend
    exact ⟨_, ⟨h, hend⟩, hP⟩

theorem passes_httpRequest {L : EnrollLib} {app : AppState} {labelName : Option String}
    {certDer body : List UInt8} {handler : EstRequest → Fallible Response} :
    Passes (httpRequest L app labelName certDer body handler).run ↔
      ∃ label, Resolves app labelName label ∧ Authenticated L app label certDer ∧
        Passes (handler ⟨mtlsClient L certDer, label, body⟩).run := by
  unfold httpRequest
  refine (passes_seq (signsNothing_resolve _ _)).trans (exists_congr fun label =>
    and_congr_right fun _ => ?_)
  have hauth : SignsNothing (estAuth L app label certDer).run :=
    only_estAuth (fun _ => rfl) label certDer
  exact (passes_seq hauth).trans exists_returns_estAuth

end Kipuka.Enroll
