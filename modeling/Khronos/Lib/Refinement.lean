import Khronos.Lib.Runs
import Mathlib.Data.List.Forall2

namespace Khronos.Lib

/-- A machine refines another when, input by input, it stays related to the other and
answers as the other does. -/
structure Refinement (C : Machine σ ι ω) (A : Machine τ ι υ) where
  related : σ → τ → Prop
  agrees : ω → υ → Prop
  start : ∀ {s}, C.initial s → ∃ t, A.initial t ∧ related s t
  step : ∀ {s t i}, related s t → C.admits s i → A.admits t i ∧
    related (C.step s i).2 (A.step t i).2 ∧ agrees (C.step s i).1 (A.step t i).1

namespace Refinement
variable {C : Machine σ ι ω} {A : Machine τ ι υ}

/-- One transition of each machine, on the same input and with answers that agree. -/
def Matches (R : Refinement C A) (x : Transition σ ι ω) (y : Transition τ ι υ) : Prop :=
  x.input = y.input ∧ R.agrees x.output y.output

/-- Every run is matched, transition by transition, by a run of the refined machine. -/
theorem run (R : Refinement C A) {s s' : σ} {t : τ} {xs : List (Transition σ ι ω)}
    (hr : C.Run s xs s') (hs : R.related s t) :
    ∃ ys t', A.Run t ys t' ∧ R.related s' t' ∧ List.Forall₂ R.Matches xs ys := by
  induction hr with
  | start => exact ⟨[], t, .start, hs, .nil⟩
  | @next xs u i hr hi ih =>
    obtain ⟨ys, v, hrun, hrel, hall⟩ := ih
    obtain ⟨hadm, hrel', hout⟩ := R.step hrel hi
    refine ⟨ys ++ [A.transition v i], _, hrun.next hadm, hrel', ?_⟩
    exact List.rel_append hall (.cons ⟨rfl, hout⟩ .nil)

end Refinement

end Khronos.Lib
