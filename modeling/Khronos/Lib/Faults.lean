import Khronos.Lib.Programs

namespace Khronos.Lib.Prog

/-- A run in which storage refuses the `k`-th statement, counted from 0. -/
def faulted : Prog σ ε α → Nat → σ → Outcome ε α × σ
  | .done r, _, s => (r, s)
  | .act upd next, k, s => (next s).faulted k (upd s)
  | .sql _ _ fault, 0, s => fault.run s
  | .sql upd next _, k + 1, s => (next s).faulted k (upd s)

/-- The store a whole run has when it comes to its `k`-th statement, or to its end. -/
def upto : Prog σ ε α → Nat → σ → σ
  | .done _, _, s => s
  | .act upd next, k, s => (next s).upto k (upd s)
  | .sql _ _ _, 0, s => s
  | .sql upd next _, k + 1, s => (next s).upto k (upd s)

/-- The program is nothing but an error. -/
def Raises (p : Prog σ ε α) : Prop := ∃ e, p = raise e

/-- Each fault ends the program with an error at once. -/
inductive Strict {σ ε α : Type} : Prog σ ε α → Prop
  | done (r : Outcome ε α) : Strict (.done r)
  | act {upd : σ → σ} {next : σ → Prog σ ε α} (h : ∀ s, Strict (next s)) : Strict (.act upd next)
  | sql {upd : σ → σ} {next : σ → Prog σ ε α} {fault : Prog σ ε α} (h : ∀ s, Strict (next s))
      (hf : fault.Raises) : Strict (.sql upd next fault)

/-- On the way of a whole run, each fault ends the program at once, or in no error at all. -/
inductive Orderly {σ ε α : Type} : Prog σ ε α → σ → Prop
  | done (r : Outcome ε α) (s : σ) : Orderly (.done r) s
  | act {upd : σ → σ} {next : σ → Prog σ ε α} {s : σ} (h : Orderly (next s) (upd s)) :
      Orderly (.act upd next) s
  | sql {upd : σ → σ} {next : σ → Prog σ ε α} {fault : Prog σ ε α} {s : σ}
      (h : Orderly (next s) (upd s)) (hf : fault.Raises ∨ ∀ e, (fault.run s).1 ≠ .error e) :
      Orderly (.sql upd next fault) s

/-- A fault with an error leaves what the statements before it have made. -/
theorem Orderly.halts {p : Prog σ ε α} {k : Nat} {s t : σ} (h : p.Orderly s)
    (hf : p.faulted k s = (.error e, t)) : t = p.upto k s := by
  induction h generalizing k with
  | done r s => exact (Prod.mk.inj hf).2.symm
  | act h ih => exact ih hf
  | sql h hfault ih =>
    cases k with
    | zero =>
      rcases hfault with ⟨e', rfl⟩ | hn
      · exact (Prod.mk.inj hf).2.symm
      · exact absurd (congrArg Prod.fst hf) (hn e)
    | succ k => exact ih hf

theorem Strict.orderly {p : Prog σ ε α} (h : p.Strict) (s : σ) : p.Orderly s := by
  induction h generalizing s with
  | done r => exact .done r s
  | act h ih => exact .act (ih s _)
  | sql h hf ih => exact .sql (ih s _) (.inl hf)

theorem Strict.query (refused : ε) (f : σ → Except ε α) : (query refused f).Strict :=
  .sql (fun _ => .done _) ⟨refused, rfl⟩

theorem Strict.execute (refused : ε) (f : σ → Except ε (α × σ)) : (execute refused f).Strict :=
  .sql (fun _ => .done _) ⟨refused, rfl⟩

theorem Strict.modify (f : σ → σ) : (modify f : Prog σ ε Unit).Strict := .act (fun _ => .done _)

theorem Strict.return (a : α) : (pure a : Prog σ ε α).Strict := .done _

theorem Strict.bind {p : Prog σ ε α} {f : α → Prog σ ε β} (hp : p.Strict)
    (hf : ∀ a, (f a).Strict) : (p >>= f).Strict := by
  change (Prog.bind p f).Strict
  induction hp with
  | done r =>
    cases r with
    | ok a => exact hf a
    | error e => exact .done _
    | panicked => exact .done _
  | act h ih => exact .act ih
  | sql h hfault ih =>
    obtain ⟨e, rfl⟩ := hfault
    exact .sql ih ⟨e, rfl⟩

theorem Strict.mapError {p : Prog σ ε α} (h : p.Strict) (f : ε → ε') : (p.mapError f).Strict := by
  induction h with
  | done r => exact .done _
  | act h ih => exact .act ih
  | sql h hfault ih =>
    obtain ⟨e, rfl⟩ := hfault
    exact .sql ih ⟨f e, rfl⟩

theorem Strict.forEach {xs : List α} {body : α → Prog σ ε Unit} (h : ∀ x ∈ xs, (body x).Strict) :
    (forEach xs body).Strict := by
  induction xs with
  | nil => exact .done _
  | cons x xs ih =>
    exact Strict.bind (h x (by simp)) (fun _ => ih (fun y hy => h y (by simp [hy])))

/-- What follows a strict program starts where that program ends. -/
theorem Orderly.bind {p : Prog σ ε α} {f : α → Prog σ ε β} {s : σ} (hp : p.Strict)
    (hf : ∀ a t, p.run s = (.ok a, t) → (f a).Orderly t) : (p >>= f).Orderly s := by
  change (Prog.bind p f).Orderly s
  induction hp generalizing s with
  | done r =>
    cases r with
    | ok a => exact hf a s rfl
    | error e => exact .done _ _
    | panicked => exact .done _ _
  | act h ih => exact .act (ih s hf)
  | sql h hfault ih =>
    obtain ⟨e, rfl⟩ := hfault
    exact .sql (ih s hf) (.inl ⟨e, rfl⟩)

/-- What follows without an error of its own may follow any orderly program. -/
theorem Orderly.bind_calm {p : Prog σ ε α} {f : α → Prog σ ε β} {s : σ} (hp : p.Orderly s)
    (hf : ∀ a t, p.run s = (.ok a, t) → (f a).Orderly t)
    (hn : ∀ a t e, ((f a).run t).1 ≠ .error e) : (p >>= f).Orderly s := by
  change (Prog.bind p f).Orderly s
  induction hp with
  | done r s =>
    cases r with
    | ok a => exact hf a s rfl
    | error e => exact .done _ _
    | panicked => exact .done _ _
  | act h ih => exact .act (ih hf)
  | @sql upd next fault s h hfault ih =>
    refine .sql (ih hf) (hfault.imp ?_ ?_)
    · rintro ⟨e, rfl⟩
      exact ⟨e, rfl⟩
    · intro hcalm e he
      change ((fault >>= f).run s).1 = .error e at he
      rw [run_bind] at he
      cases hr : fault.run s with
      | mk out t =>
        rw [hr] at he
        cases out with
        | ok a => exact hn a t e he
        | error e' => exact hcalm e' (congrArg Prod.fst hr)
        | panicked => cases he

theorem Orderly.return {p : Prog σ ε α} {s : σ} (h : p.Orderly s) (g : α → β) :
    (p >>= fun a => pure (g a)).Orderly s :=
  h.bind_calm (fun _ _ _ => .done _ _) (fun _ _ _ => nofun)

theorem Orderly.mapError {p : Prog σ ε α} {s : σ} (h : p.Orderly s) (f : ε → ε') :
    (p.mapError f).Orderly s := by
  induction h with
  | done r s => exact .done _ _
  | act h ih => exact .act ih
  | @sql upd next fault s h hfault ih =>
    refine .sql ih (hfault.imp ?_ ?_)
    · rintro ⟨e, rfl⟩
      exact ⟨f e, rfl⟩
    · intro hn e he
      rw [run_mapError] at he
      obtain ⟨e', hr⟩ := Outcome.of_mapError_error he
      exact hn e' hr

/-- A query whose failure is a value like any other. -/
theorem Orderly.attempt_query {refused : ε} {f : σ → Except ε α}
    {g : Except ε α → Prog σ ε' β} {s : σ} (hg : (g (f s)).Orderly s)
    (hn : ∀ e, ((g (.error refused)).run s).1 ≠ .error e) :
    ((Prog.query refused f).attempt >>= g).Orderly s := by
  refine .sql ?_ (.inr hn)
  change (Prog.bind (.done (Outcome.ofExcept (f s)).caught) g).Orderly s
  cases hf : f s with
  | ok a =>
    rw [hf] at hg
    exact hg
  | error e =>
    rw [hf] at hg
    exact hg

/-- The first `n` statements of a whole run leave the store as it is. -/
def Idle (n : Nat) (p : Prog σ ε α) (s : σ) : Prop := ∀ k ≤ n, p.upto k s = s

theorem upto_bind_pure (p : Prog σ ε α) (g : α → β) (k : Nat) (s : σ) :
    (p >>= fun a => pure (g a)).upto k s = p.upto k s := by
  change (Prog.bind p fun a => pure (g a)).upto k s = _
  induction p generalizing k s with
  | done r => cases r <;> rfl
  | act upd next ih => exact ih s k (upd s)
  | sql upd next fault ih _ =>
    cases k with
    | zero => rfl
    | succ k => exact ih s k (upd s)

theorem upto_mapError (p : Prog σ ε α) (f : ε → ε') (k : Nat) (s : σ) :
    (p.mapError f).upto k s = p.upto k s := by
  induction p generalizing k s with
  | done r => rfl
  | act upd next ih => exact ih s k (upd s)
  | sql upd next fault ih _ =>
    cases k with
    | zero => rfl
    | succ k => exact ih s k (upd s)

theorem Idle.done (n : Nat) (r : Outcome ε α) (s : σ) : Idle n (.done r) s := fun _ _ => rfl

theorem Idle.first (upd : σ → σ) (next : σ → Prog σ ε α) (fault : Prog σ ε α) (s : σ) :
    Idle 0 (.sql upd next fault) s := by
  intro k hk
  rw [Nat.le_zero.mp hk]
  rfl

/-- A query is one more statement that writes nothing. -/
theorem Idle.read {next : σ → Prog σ ε α} {s : σ} (h : Idle n (next s) s)
    (fault : Prog σ ε α) : Idle (n + 1) (.sql id next fault) s := by
  intro k hk
  cases k with
  | zero => rfl
  | succ k => exact h k (by omega)

theorem Idle.query {refused : ε} {f : σ → Except ε α} {g : α → Prog σ ε β} {s : σ}
    (hg : ∀ a, f s = .ok a → Idle n (g a) s) : Idle (n + 1) (Prog.query refused f >>= g) s := by
  refine .read ?_ _
  change Idle n (Prog.bind (.done (.ofExcept (f s))) g) s
  cases hf : f s with
  | ok a => exact hg a hf
  | error e => exact .done _ _ _

theorem Idle.query_mapError {refused : ε} {f : σ → Except ε α} (h : ε → ε')
    {g : α → Prog σ ε' β} {s : σ} (hg : ∀ a, f s = .ok a → Idle n (g a) s) :
    Idle (n + 1) ((Prog.query refused f).mapError h >>= g) s := by
  refine .read ?_ _
  change Idle n (Prog.bind (.done ((Outcome.ofExcept (f s)).mapError h)) g) s
  cases hf : f s with
  | ok a => exact hg a hf
  | error e => exact .done _ _ _

theorem Idle.query_attempt {refused : ε} {f : σ → Except ε α} {g : Except ε α → Prog σ ε' β}
    {s : σ} (hg : Idle n (g (f s)) s) :
    Idle (n + 1) ((Prog.query refused f).attempt >>= g) s := by
  refine .read ?_ _
  change Idle n (Prog.bind (.done (Outcome.ofExcept (f s)).caught) g) s
  cases hf : f s with
  | ok a =>
    rw [hf] at hg
    exact hg
  | error e =>
    rw [hf] at hg
    exact hg

end Khronos.Lib.Prog
