/-!
# Sequences of checks

Whatever can be refused is computed by a sequence of steps, each of which gives a value or ends
the sequence with an error. The first error is the one reported, so the order of the steps is
part of what a sequence means. A sequence succeeds exactly when every step of it does; the lemmas
here say so, one for each way of writing a step.
-/

namespace ScopeMerge

variable {ε α β : Type}

/-- A step that checks a condition and has no value. -/
def refuseUnless (condition : Bool) (error : ε) : Except ε Unit :=
  if condition then .ok () else .error error

namespace Checking

theorem refuseUnless_eq_ok {condition : Bool} {error : ε} {result : Unit} :
    refuseUnless condition error = .ok result ↔ condition = true := by
  cases condition <;> simp [refuseUnless]

theorem bind_eq_ok {step : Except ε α} {next : α → Except ε β} {result : β} :
    (step >>= next) = .ok result ↔ ∃ value, step = .ok value ∧ next value = .ok result := by
  cases step <;> simp [bind, Except.bind]

theorem pure_eq_ok {value result : α} :
    (pure value : Except ε α) = .ok result ↔ value = result := by
  simp [pure, Except.pure]

end Checking

end ScopeMerge
