import Mathlib.Data.List.Basic

namespace Khronos.Lib

/-- A system that takes one input after another: where it starts, which inputs it may meet
in a state, and what it then answers and becomes. -/
structure Machine (σ ι ω : Type) where
  initial : σ → Prop
  admits : σ → ι → Prop
  step : σ → ι → ω × σ

/-- One step of a run. -/
structure Transition (σ ι ω : Type) where
  before : σ
  input : ι
  output : ω
  after : σ

namespace Machine
variable {M : Machine σ ι ω}

def transition (M : Machine σ ι ω) (s : σ) (i : ι) : Transition σ ι ω :=
  ⟨s, i, (M.step s i).1, (M.step s i).2⟩

/-- The runs from a state, with their transitions in order and the state they end in. -/
inductive Run (M : Machine σ ι ω) (s : σ) : List (Transition σ ι ω) → σ → Prop
  | start : Run M s [] s
  | next {ts : List (Transition σ ι ω)} {t : σ} {i : ι} :
      Run M s ts t → M.admits t i → Run M s (ts ++ [M.transition t i]) (M.step t i).2

def Reachable (M : Machine σ ι ω) (t : σ) : Prop :=
  ∃ s ts, M.initial s ∧ M.Run s ts t

theorem Run.single {s : σ} {i : ι} (hi : M.admits s i) :
    M.Run s [M.transition s i] (M.step s i).2 :=
  Run.next .start hi

theorem Run.append {s t u : σ} {ts us : List (Transition σ ι ω)} (hr : M.Run s ts t)
    (hu : M.Run t us u) : M.Run s (ts ++ us) u := by
  induction hu with
  | start => simpa using hr
  | next _ hi ih =>
    rw [← List.append_assoc]
    exact .next ih hi

/-- A run passes through a state between any two parts of it. -/
theorem Run.split {s u : σ} {us : List (Transition σ ι ω)} (hr : M.Run s us u)
    (ts vs : List (Transition σ ι ω)) (he : us = ts ++ vs) :
    ∃ t, M.Run s ts t ∧ M.Run t vs u := by
  induction hr generalizing vs with
  | start =>
    obtain ⟨rfl, rfl⟩ := List.append_eq_nil_iff.mp he.symm
    exact ⟨s, .start, .start⟩
  | @next us t i hr hi ih =>
    rcases List.eq_nil_or_concat vs with rfl | ⟨vs', τ, rfl⟩
    · rw [List.append_nil] at he
      subst he
      exact ⟨_, .next hr hi, .start⟩
    · rw [List.concat_eq_append, ← List.append_assoc] at he
      obtain ⟨he, hτ⟩ := List.append_inj' he rfl
      obtain ⟨q, hq, hv⟩ := ih vs' he
      rw [List.concat_eq_append, ← List.singleton_inj.mp hτ]
      exact ⟨q, hq, .next hv hi⟩

/-- Each transition starts where the part of the run before it ends. -/
theorem Run.at {s u : σ} {ts vs : List (Transition σ ι ω)} {τ : Transition σ ι ω}
    (hr : M.Run s (ts ++ τ :: vs) u) :
    M.Run s ts τ.before ∧ M.admits τ.before τ.input ∧ τ = M.transition τ.before τ.input ∧
      M.Run τ.after vs u := by
  rw [show ts ++ τ :: vs = (ts ++ [τ]) ++ vs by simp] at hr
  obtain ⟨q, hq, hv⟩ := hr.split (ts ++ [τ]) vs rfl
  generalize hp : ts ++ [τ] = ps at hq
  cases hq with
  | start => simp at hp
  | @next us t i hs hi =>
    obtain ⟨rfl, hτ⟩ := List.append_inj' hp rfl
    obtain rfl := List.singleton_inj.mp hτ
    exact ⟨hs, hi, rfl, hv⟩

theorem Run.nothing {s t : σ} (hr : M.Run s [] t) : t = s := by
  generalize he : ([] : List (Transition σ ι ω)) = ts at hr
  cases hr with
  | start => rfl
  | next _ _ => simp at he

/-- A run begins with the transition of its first input. -/
theorem Run.first {s u : σ} {ts : List (Transition σ ι ω)} {τ : Transition σ ι ω}
    (hr : M.Run s (τ :: ts) u) :
    ∃ i, M.admits s i ∧ τ = M.transition s i ∧ M.Run (M.step s i).2 ts u := by
  have hsplit : M.Run s ([] ++ τ :: ts) u := hr
  obtain ⟨hs, hi, he, hrest⟩ := hsplit.at
  rw [hs.nothing] at hi he
  rw [he] at hrest
  exact ⟨τ.input, hi, he, hrest⟩

/-- What every step keeps, under a condition on the steps, holds where a run ends whose
steps all meet the condition. -/
theorem Run.keeps_when {P : σ → Prop} {C : σ → ι → Prop}
    (hstep : ∀ t i, P t → M.admits t i → C t i → P (M.step t i).2) {s t : σ}
    {ts : List (Transition σ ι ω)} (hr : M.Run s ts t) (hs : P s)
    (hc : ∀ τ ∈ ts, C τ.before τ.input) : P t := by
  induction hr with
  | start => exact hs
  | @next ts t i _ hi ih =>
    have hp := ih (fun τ hτ => hc τ (List.mem_append_left _ hτ))
    exact hstep t i hp hi (hc (M.transition t i) (by simp))

theorem Run.keeps {P : σ → Prop} (hstep : ∀ t i, P t → M.admits t i → P (M.step t i).2)
    {s t : σ} {ts : List (Transition σ ι ω)} (hr : M.Run s ts t) (hs : P s) : P t :=
  hr.keeps_when (C := fun _ _ => True) (fun t i hp hi _ => hstep t i hp hi) hs
    (fun _ _ => trivial)

/-- The same where what is kept also speaks of the steps taken so far. -/
theorem Run.keeps_with_past {P : List (Transition σ ι ω) → σ → Prop}
    {C : List (Transition σ ι ω) → σ → ι → Prop} {s t : σ} {ts : List (Transition σ ι ω)}
    (hstep : ∀ us t i, M.Run s us t → P us t → M.admits t i → C us t i →
      P (us ++ [M.transition t i]) (M.step t i).2)
    (hr : M.Run s ts t) (hs : P [] s)
    (hc : ∀ us τ vs, ts = us ++ τ :: vs → C us τ.before τ.input) : P ts t := by
  induction hr with
  | start => exact hs
  | @next us t i hr hi ih =>
    have hp := ih (fun vs τ ws he => hc vs τ (ws ++ [M.transition t i]) (by simp [he]))
    exact hstep us t i hr hp hi (hc us (M.transition t i) [] rfl)

theorem Reachable.keeps {P : σ → Prop} (h0 : ∀ s, M.initial s → P s)
    (hstep : ∀ t i, P t → M.admits t i → P (M.step t i).2) {t : σ} (ht : M.Reachable t) :
    P t := by
  obtain ⟨s, ts, hs, hr⟩ := ht
  exact hr.keeps hstep (h0 s hs)

/-- A charge on each step: what a run gains is paid for by what it held at the start and
by what its steps cost. -/
theorem Run.charged {P : σ → Prop} {held : σ → Nat} {gain cost : Transition σ ι ω → Bool}
    (hstep : ∀ t i, P t → M.admits t i → P (M.step t i).2)
    (hpay : ∀ t i, P t → M.admits t i →
      held (M.step t i).2 + (if gain (M.transition t i) then 1 else 0) ≤
        held t + (if cost (M.transition t i) then 1 else 0))
    {s t : σ} {ts : List (Transition σ ι ω)} (hr : M.Run s ts t) (hs : P s) :
    held t + ts.countP gain ≤ held s + ts.countP cost := by
  induction hr with
  | start => simp
  | @next ts t i hr hi ih =>
    have h := hpay t i (hr.keeps hstep hs) hi
    simp only [List.countP_append, List.countP_singleton]
    omega

/-- The transitions of a machine fed with a list of inputs. -/
def replay (M : Machine σ ι ω) (s : σ) : List ι → List (Transition σ ι ω)
  | [] => []
  | i :: rest => M.transition s i :: M.replay (M.step s i).2 rest

theorem replay_input {s : σ} {is : List ι} {τ : Transition σ ι ω} (h : τ ∈ M.replay s is) :
    τ.input ∈ is := by
  induction is generalizing s with
  | nil => cases h
  | cons i rest ih =>
    rcases List.mem_cons.mp h with rfl | h
    · exact List.mem_cons_self
    · exact List.mem_cons_of_mem _ (ih h)

/-- The state a machine fed with a list of inputs ends in. -/
def ending (M : Machine σ ι ω) (s : σ) : List ι → σ
  | [] => s
  | i :: rest => M.ending (M.step s i).2 rest

/-- The machine may meet these inputs, one after the other. -/
def Admitted (M : Machine σ ι ω) (s : σ) : List ι → Prop
  | [] => True
  | i :: rest => M.admits s i ∧ M.Admitted (M.step s i).2 rest

instance decidableAdmitted (M : Machine σ ι ω) [h : ∀ s i, Decidable (M.admits s i)] (s : σ) :
    (is : List ι) → Decidable (M.Admitted s is)
  | [] => .isTrue trivial
  | i :: rest =>
    match h s i, decidableAdmitted M (M.step s i).2 rest with
    | .isTrue hi, .isTrue hr => .isTrue ⟨hi, hr⟩
    | .isFalse hi, _ => .isFalse (fun hc => hi hc.1)
    | _, .isFalse hr => .isFalse (fun hc => hr hc.2)

theorem run_replay (s : σ) (is : List ι) (h : M.Admitted s is) :
    M.Run s (M.replay s is) (M.ending s is) := by
  induction is generalizing s with
  | nil => exact .start
  | cons i rest ih => exact (Run.single h.1).append (ih _ h.2)

end Machine

end Khronos.Lib
