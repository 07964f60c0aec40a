/-
Which fields a draft derives when it is built, and which it could.

Turning a correction off always succeeds; turning one on succeeds exactly if it is supported
(`set_eq_error_iff`).
-/
import PacketStack.Fault

namespace PacketStack

structure CorrectionPolicy where
  supported : List Correction := []
  enabled : List Correction := []
  deriving DecidableEq

namespace CorrectionPolicy

def supporting (supported : List Correction) : CorrectionPolicy := { supported }

def supports (p : CorrectionPolicy) (c : Correction) : Bool := p.supported.contains c

/-- Whether the field is derived when the draft is built. -/
def corrects (p : CorrectionPolicy) (c : Correction) : Bool := p.enabled.contains c

def set (p : CorrectionPolicy) (c : Correction) (on : Bool) : Except Fault CorrectionPolicy :=
  if !on then .ok { p with enabled := p.enabled.filter (· != c) }
  else if p.supports c then .ok { p with enabled := c :: p.enabled.filter (· != c) }
  else .error (.uncorrectable c)

def disable (p : CorrectionPolicy) : CorrectionPolicy := { p with enabled := [] }

theorem set_eq_error_iff {p : CorrectionPolicy} {c : Correction} {on : Bool} {f : Fault} :
    p.set c on = .error f ↔ on = true ∧ p.supports c = false ∧ f = .uncorrectable c := by
  unfold set
  cases on <;> cases p.supports c <;> simp [eq_comm]

theorem corrects_set {p q : CorrectionPolicy} {c : Correction} {on : Bool} (h : p.set c on = .ok q) (d : Correction) :
    q.corrects d = if d = c then on else p.corrects d := by
  unfold set at h
  cases on <;> cases hs : p.supports c <;> simp only [hs] at h <;> cases h <;> cases c <;> cases d <;>
    simp [corrects]

end CorrectionPolicy
end PacketStack
