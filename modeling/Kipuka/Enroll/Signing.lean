/-
  The calls of the routes by which a certificate comes to be signed.
-/
import Kipuka.Enroll.Admission

namespace Kipuka.Enroll

open Generic Auth

variable {α β ε : Type}

/-- The calls by which a certificate comes to be signed, here or by Dogtag. -/
def Op.signs : Op → Bool
  | .sign _ => true
  | .outside o => o.issues
  | _ => false

abbrev SignsNothing (p : Prog Op Reply α) : Prop := Only (fun op => op.signs = false) p

theorem signsNothing_resultOf {f : α → Result} {p : Prog Op Reply α}
    (hp : SignsNothing p) : SignsNothing (resultOf f p) :=
  only_bind hp fun _ => trivial

theorem ended_resultOf {f : α → Result} {p : Prog Op Reply α}
    {h : List (Answered Op Reply)} {r : Result} :
    Ended (resultOf f p) h r ↔ ∃ a, Ended p h a ∧ r = f a := by
  rw [resultOf, ended_bind]
  constructor
  · rintro ⟨h₁, h₂, a, rfl, hp, hret⟩
    obtain ⟨rfl, rfl⟩ := ended_ret.mp hret
    exact ⟨a, by rwa [List.append_nil], rfl⟩
  · rintro ⟨a, hp, rfl⟩
    exact ⟨h, [], a, (List.append_nil h).symm, hp, .start _⟩

/-! ### A server where nothing fails -/

def aliceLib : CmpLib :=
  { plainLib with cms := { plainLib.cms with formatDn := fun _ => "CN=alice" } }

def nothingFails : (o : Op) → Option (Reply o)
  | .recordChecked _ => some (.ok ())
  | .record _ => some ()
  | .sign _ => some (.ok ⟨asBytes "certificate", "01", "CN=alice", 1767225600, 1769817600⟩)
  | .outside .now => some 1767225600
  | .outside (.resolveSigningKey _) => some (.ok ())
  | .outside (.checkRevocation _) => some (.ok ())
  | .outside (.insertPendingCsr _) => some (.ok ())
  | .outside (.insertCertificate _) => some (.ok ())
  | .outside (.generateKeyPair _) => some (.ok ⟨[1], [2]⟩)
  | .outside .currentRuntime => some true
  | _ => none

end Kipuka.Enroll
