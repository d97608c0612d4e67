import Mathlib.Data.List.Basic

/-!
# Systems that take turns

A system takes one step for each event.

* `runFrom`, `Throughout` : a run, and a condition that each of its steps meets;
* `Throughout.invariant` : what each step under the condition keeps, the run keeps.
-/

namespace CrumbleCracker

section Runs

variable {σ ε : Type} (step : σ → ε → σ)

def runFrom (s : σ) (es : List ε) : σ := es.foldl step s

/-- `Q` holds of the state and the event at each step of the run. -/
def Throughout (Q : σ → ε → Prop) : σ → List ε → Prop
  | _, [] => True
  | s, e :: es => Q s e ∧ Throughout Q (step s e) es

instance instDecidableThroughout {Q : σ → ε → Prop} [∀ s e, Decidable (Q s e)] :
    ∀ s es, Decidable (Throughout step Q s es)
  | _, [] => isTrue trivial
  | s, e :: es =>
    have : Decidable (Throughout step Q (step s e) es) := instDecidableThroughout (step s e) es
    inferInstanceAs (Decidable (_ ∧ _))

variable {step}

theorem Throughout.mono {Q Q' : σ → ε → Prop} (h : ∀ s e, Q s e → Q' s e) {s : σ} {es : List ε}
    (hQ : Throughout step Q s es) : Throughout step Q' s es := by
  induction es generalizing s with
  | nil => trivial
  | cons e es ih => exact ⟨h s e hQ.1, ih hQ.2⟩

theorem Throughout.invariant {Q : σ → ε → Prop} {I : σ → Prop} (hstep : ∀ s e, I s → Q s e → I (step s e)) {s : σ}
    {es : List ε} (hs : I s) (hQ : Throughout step Q s es) : I (runFrom step s es) := by
  induction es generalizing s with
  | nil => exact hs
  | cons e es ih => exact ih (hstep s e hs hQ.1) hQ.2

end Runs

end CrumbleCracker
