import Khronos.Lib.Threads

namespace Khronos.Lib

namespace Prog

/-- Whatever the others do to the store before an action of this number, as long as it lies within
their relation, and if the action then finds what it needs: the program ends as it should. -/
def Assures (R : Nat → σ → σ → Prop) (C : Nat → σ → Prop) (Q : Outcome ε α → σ → Prop) :
    Prog σ ε α → Nat → σ → Prop
  | .done r, n, s => ∀ s', R n s s' → Q r s'
  | .act upd next, n, s => ∀ s', R n s s' → C n s' → (next s').Assures R C Q (n + 1) (upd s')
  | .sql upd next _, n, s => ∀ s', R n s s' → C n s' → (next s').Assures R C Q (n + 1) (upd s')

section Assures
variable {R : Nat → σ → σ → Prop} {C : Nat → σ → Prop} {Q : Outcome ε α → σ → Prop}
  {p : Prog σ ε α} {n : Nat} {s s' : σ}

theorem Assures.advance (h : p.Assures R C Q n s) (hp : p.outcome? = none) (hs : R n s s')
    (hc : C n s') : (p.advance s').1.Assures R C Q (n + 1) (p.advance s').2 := by
  cases p with
  | done r => cases hp
  | act upd next => exact h s' hs hc
  | sql upd next fault => exact h s' hs hc

theorem Assures.of_advance (hp : p.outcome? = none)
    (h : ∀ s', R n s s' → C n s' →
      ∃ q s'', p.advance s' = (q, s'') ∧ q.Assures R C Q (n + 1) s'') :
    p.Assures R C Q n s := by
  have hall : ∀ s', R n s s' → C n s' →
      (p.advance s').1.Assures R C Q (n + 1) (p.advance s').2 := by
    intro s' hs hc
    obtain ⟨q, s'', he, h⟩ := h s' hs hc
    rw [he]
    exact h
  cases p with
  | done r => cases hp
  | act upd next => exact hall
  | sql upd next fault => exact hall

/-- What others do in between makes no difference. -/
theorem Assures.later (trans : ∀ {a b c}, R n a b → R n b c → R n a c)
    (h : p.Assures R C Q n s) (hs : R n s s') : p.Assures R C Q n s' := by
  cases p with
  | done r => exact fun t ht => h t (trans hs ht)
  | act upd next => exact fun t ht => h t (trans hs ht)
  | sql upd next fault => exact fun t ht => h t (trans hs ht)

theorem Assures.outcome (h : p.Assures R C Q n s) (hs : R n s s') (hp : p.outcome? = some r) :
    Q r s' := by
  cases p with
  | done r' =>
    cases hp
    exact h s' hs
  | act upd next => cases hp
  | sql upd next fault => cases hp

end Assures

end Prog

variable {τ σ ε : Type} [DecidableEq τ]

/-- The transitions of a run, each with the number of turns that a thread has had before it. -/
def numbered (t : τ) (n : Nat) : List (Transition (Pool τ σ ε) τ Unit) →
    List (Nat × Transition (Pool τ σ ε) τ Unit)
  | [] => []
  | x :: xs => (n, x) :: numbered t (if x.input = t then n + 1 else n) xs

theorem mem_of_numbered {t : τ} {n : Nat} {ts : List (Transition (Pool τ σ ε) τ Unit)}
    {x : Nat × Transition (Pool τ σ ε) τ Unit} (hx : x ∈ numbered t n ts) : x.2 ∈ ts := by
  induction ts generalizing n with
  | nil => cases hx
  | cons y ts ih =>
    rcases List.mem_cons.mp hx with rfl | hx
    · exact List.mem_cons_self
    · exact List.mem_cons_of_mem _ (ih hx)

/-- A thread keeps its promise in every run in which the others stay within their relation, and
it meets what it needs. -/
theorem weave_assures {R : Nat → σ → σ → Prop} {C : Nat → σ → Prop}
    {Q : Outcome ε Unit → σ → Prop} {c d : Pool τ σ ε} {t : τ} {n : Nat}
    {ts : List (Transition (Pool τ σ ε) τ Unit)} (hr : weave.Run c ts d)
    (refl : ∀ n s, R n s s) (trans : ∀ {n a b c}, R n a b → R n b c → R n a c)
    (h : (c.thread t).Assures R C Q n c.store)
    (hothers : ∀ x ∈ numbered t n ts, x.2.input ≠ t → R x.1 x.2.before.store x.2.after.store)
    (hown : ∀ x ∈ numbered t n ts, x.2.input = t → C x.1 x.2.before.store) :
    ∃ m, (d.thread t).Assures R C Q m d.store := by
  induction ts generalizing c n with
  | nil =>
    rw [hr.nothing]
    exact ⟨n, h⟩
  | cons x ts ih =>
    obtain ⟨i, hi, rfl, hnext⟩ := hr.first
    change weave.Run (c.step i) ts d at hnext
    have hfirst : (n, weave.transition c i) ∈ numbered t n (weave.transition c i :: ts) :=
      List.mem_cons_self
    have hrest : ∀ x ∈ numbered t (if i = t then n + 1 else n) ts,
        x ∈ numbered t n (weave.transition c i :: ts) := fun x hx => List.mem_cons_of_mem _ hx
    refine ih hnext ?_ (fun x hx => hothers x (hrest x hx)) (fun x hx => hown x (hrest x hx))
    by_cases hit : i = t
    · subst hit
      rw [if_pos rfl, Pool.step_self]
      exact h.advance hi (refl n c.store) (hown _ hfirst rfl)
    · rw [if_neg hit, Pool.step_other _ (Ne.symm hit)]
      exact h.later trans (hothers _ hfirst hit)

end Khronos.Lib
