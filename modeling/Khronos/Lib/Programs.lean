import Mathlib.Order.Basic

namespace Khronos.Lib

/-- How a program ends: a value, an error it reports, or a panic that nothing catches. -/
inductive Outcome (ε α : Type) where
  | ok (a : α)
  | error (e : ε)
  | panicked

/-- A computation that ends well has all its parts end well. -/
theorem bind_eq_ok {x : Except ε α} {f : α → Except ε β} {b : β} :
    (x >>= f) = .ok b ↔ ∃ a, x = .ok a ∧ f a = .ok b := by
  cases x with
  | error e => exact iff_of_false (fun h => by cases h) (fun ⟨_, h, _⟩ => by cases h)
  | ok a => exact ⟨fun h => ⟨a, rfl, h⟩, fun ⟨_, h, hf⟩ => Except.ok.inj h ▸ hf⟩

namespace Outcome

def ofExcept : Except ε α → Outcome ε α
  | .ok a => .ok a
  | .error e => .error e

def map (f : α → β) : Outcome ε α → Outcome ε β
  | .ok a => .ok (f a)
  | .error e => .error e
  | .panicked => .panicked

def mapError (f : ε → ε') : Outcome ε α → Outcome ε' α
  | .ok a => .ok a
  | .error e => .error (f e)
  | .panicked => .panicked

/-- Errors become values; a panic stays a panic. -/
def caught : Outcome ε α → Outcome ε' (Except ε α)
  | .ok a => .ok (.ok a)
  | .error e => .ok (.error e)
  | .panicked => .panicked

def value? : Outcome ε α → Option α
  | .ok a => some a
  | _ => none

theorem ok_of_value {out : Outcome ε α} (h : out.value? = some a) : out = .ok a := by
  unfold value? at h
  split at h
  · rw [Option.some.inj h]
  · cases h

theorem of_map_error {out : Outcome ε α} {f : α → β} (h : out.map f = .error e) :
    out = .error e := by
  cases out with
  | ok a => cases h
  | error e' => exact congrArg Outcome.error (Outcome.error.inj h)
  | panicked => cases h

theorem of_mapError_error {out : Outcome ε α} {f : ε → ε'} (h : out.mapError f = .error e) :
    ∃ e', out = .error e' := by
  cases out with
  | ok a => cases h
  | error e' => exact ⟨e', rfl⟩
  | panicked => cases h

end Outcome

/-- A program over a store: each node is one atomic action, so the same text can be
run as a whole, cut between any two actions, or continued after a failed one. -/
inductive Prog (σ ε α : Type) where
  | done (r : Outcome ε α)
  /-- An action that cannot fail. `next` sees the store before the action. -/
  | act (upd : σ → σ) (next : σ → Prog σ ε α)
  /-- A statement against storage; `fault` is what follows if storage refuses it. -/
  | sql (upd : σ → σ) (next : σ → Prog σ ε α) (fault : Prog σ ε α)

namespace Prog

def bind (p : Prog σ ε α) (f : α → Prog σ ε β) : Prog σ ε β :=
  match p with
  | .done (.ok a) => f a
  | .done (.error e) => .done (.error e)
  | .done .panicked => .done .panicked
  | .act upd next => .act upd (fun s => (next s).bind f)
  | .sql upd next fault => .sql upd (fun s => (next s).bind f) (fault.bind f)

instance : Monad (Prog σ ε) where
  pure a := .done (.ok a)
  bind := bind

def raise (e : ε) : Prog σ ε α := .done (.error e)

def panic : Prog σ ε α := .done .panicked

/-- An infallible change of the store, such as sending on a channel. -/
def modify (f : σ → σ) : Prog σ ε Unit := .act f (fun _ => .done (.ok ()))

/-- A statement that reads: it may find an error of its own, or storage may refuse it. -/
def query (refused : ε) (f : σ → Except ε α) : Prog σ ε α :=
  .sql id (fun s => .done (.ofExcept (f s))) (.done (.error refused))

/-- A statement that writes: its own error leaves the store as it was. -/
def execute (refused : ε) (f : σ → Except ε (α × σ)) : Prog σ ε α :=
  .sql (fun s => match f s with | .ok (_, s') => s' | .error _ => s)
    (fun s => .done (.ofExcept ((f s).map Prod.fst))) (.done (.error refused))

def mapError (f : ε → ε') : Prog σ ε α → Prog σ ε' α
  | .done r => .done (r.mapError f)
  | .act upd next => .act upd (fun s => (next s).mapError f)
  | .sql upd next fault => .sql upd (fun s => (next s).mapError f) (fault.mapError f)

def attempt : Prog σ ε α → Prog σ ε' (Except ε α)
  | .done r => .done r.caught
  | .act upd next => .act upd (fun s => (next s).attempt)
  | .sql upd next fault => .sql upd (fun s => (next s).attempt) fault.attempt

/-- Run the body on each element in turn; the first error ends the loop. -/
def forEach (xs : List α) (body : α → Prog σ ε Unit) : Prog σ ε Unit :=
  match xs with
  | [] => pure ()
  | x :: xs => do
    body x
    forEach xs body

/-- The whole program, uninterrupted and without a storage fault. -/
def run : Prog σ ε α → σ → Outcome ε α × σ
  | .done r, s => (r, s)
  | .act upd next, s => (next s).run (upd s)
  | .sql upd next _, s => (next s).run (upd s)

/-- The store a whole run leaves. -/
abbrev after (p : Prog σ ε α) (s : σ) : σ := (p.run s).2

/-- What a run does with the outcome of its first part. -/
def resume (f : α → Prog σ ε β) : Outcome ε α × σ → Outcome ε β × σ
  | (.ok a, s) => (f a).run s
  | (.error e, s) => (.error e, s)
  | (.panicked, s) => (.panicked, s)

@[simp] theorem resume_ok (f : α → Prog σ ε β) (a : α) (s : σ) :
    resume f (.ok a, s) = (f a).run s := rfl

@[simp] theorem resume_error (f : α → Prog σ ε β) (e : ε) (s : σ) :
    resume f (.error e, s) = (.error e, s) := rfl

@[simp] theorem resume_panicked (f : α → Prog σ ε β) (s : σ) :
    resume f (.panicked, s) = (.panicked, s) := rfl

@[simp] theorem run_pure (a : α) (s : σ) :
    (pure a : Prog σ ε α).run s = (.ok a, s) := rfl

@[simp] theorem run_raise (e : ε) (s : σ) :
    (raise e : Prog σ ε α).run s = (.error e, s) := rfl

@[simp] theorem run_panic (s : σ) : (panic : Prog σ ε α).run s = (.panicked, s) := rfl

@[simp] theorem run_modify (f : σ → σ) (s : σ) :
    (modify f : Prog σ ε Unit).run s = (.ok (), f s) := rfl

@[simp] theorem run_query (refused : ε) (f : σ → Except ε α) (s : σ) :
    (query refused f).run s = (.ofExcept (f s), s) := rfl

theorem run_execute (refused : ε) (f : σ → Except ε (α × σ)) (s : σ) :
    (execute refused f).run s = match f s with
      | .ok (a, s') => (.ok a, s')
      | .error e => (.error e, s) := by
  change (Outcome.ofExcept ((f s).map Prod.fst),
    match f s with | .ok (_, s') => s' | .error _ => s) = _
  cases f s with
  | ok r => rfl
  | error e => rfl

@[simp] theorem run_bind (p : Prog σ ε α) (f : α → Prog σ ε β) (s : σ) :
    (p >>= f).run s = resume f (p.run s) := by
  change (p.bind f).run s = _
  induction p generalizing s with
  | done r => cases r <;> rfl
  | act upd next ih => exact ih s (upd s)
  | sql upd next fault ih _ => exact ih s (upd s)

theorem bind_assoc (p : Prog σ ε α) (f : α → Prog σ ε β) (g : β → Prog σ ε γ) :
    (p >>= f) >>= g = p >>= fun a => f a >>= g := by
  change (p.bind f).bind g = p.bind (fun a => (f a).bind g)
  induction p with
  | done r => cases r <;> rfl
  | act upd next ih => exact congrArg (Prog.act upd) (funext ih)
  | sql upd next fault ih ihf =>
    exact congrArg₂ (Prog.sql upd) (funext ih) ihf

/-- A caught error of the first part is the error of the whole. -/
theorem attempt_bind (p : Prog σ ε α) (f : α → Prog σ ε β) :
    ((p >>= f).attempt : Prog σ ε' (Except ε β)) = p.attempt >>= fun
      | .ok a => (f a).attempt
      | .error e => pure (.error e) := by
  change ((p.bind f).attempt : Prog σ ε' (Except ε β)) = Prog.bind p.attempt _
  induction p with
  | done r => cases r <;> rfl
  | act upd next ih => exact congrArg (Prog.act upd) (funext ih)
  | sql upd next fault ih ihf => exact congrArg₂ (Prog.sql upd) (funext ih) ihf

@[simp] theorem run_mapError (p : Prog σ ε α) (f : ε → ε') (s : σ) :
    (p.mapError f).run s = ((p.run s).1.mapError f, (p.run s).2) := by
  induction p generalizing s with
  | done r => rfl
  | act upd next ih => exact ih s (upd s)
  | sql upd next fault ih _ => exact ih s (upd s)

@[simp] theorem run_attempt (p : Prog σ ε α) (s : σ) :
    (p.attempt : Prog σ ε' (Except ε α)).run s = ((p.run s).1.caught, (p.run s).2) := by
  induction p generalizing s with
  | done r => rfl
  | act upd next ih => exact ih s (upd s)
  | sql upd next fault ih _ => exact ih s (upd s)

theorem run_bind_pure (p : Prog σ ε α) (f : α → β) (s : σ) :
    (p >>= fun a => pure (f a)).run s = ((p.run s).1.map f, (p.run s).2) := by
  rw [run_bind]
  cases p.run s with
  | mk out t => cases out <;> rfl

/-- What is made of the value of a program does not show in the store. -/
theorem after_bind_pure (p : Prog σ ε α) (f : α → β) (s : σ) :
    (p >>= fun a => pure (f a)).after s = p.after s := by
  unfold after
  rw [run_bind_pure]

/-- Every action of the program lies within the relation, whatever the store it meets. -/
def Within (R : σ → σ → Prop) : Prog σ ε α → Prop
  | .done _ => True
  | .act upd next => ∀ s, R s (upd s) ∧ (next s).Within R
  | .sql upd next fault => (∀ s, R s (upd s) ∧ (next s).Within R) ∧ fault.Within R

theorem Within.mono {R S : σ → σ → Prop} (hRS : ∀ {a b}, R a b → S a b) {p : Prog σ ε α}
    (h : p.Within R) : p.Within S := by
  induction p with
  | done r => trivial
  | act upd next ih => exact fun s => ⟨hRS (h s).1, ih s (h s).2⟩
  | sql upd next fault ih ihf => exact ⟨fun s => ⟨hRS (h.1 s).1, ih s (h.1 s).2⟩, ihf h.2⟩

theorem Within.run {R : σ → σ → Prop} (refl : ∀ s, R s s)
    (trans : ∀ {a b c}, R a b → R b c → R a c) {p : Prog σ ε α} (h : p.Within R) (s : σ) :
    R s (p.after s) := by
  induction p generalizing s with
  | done r => exact refl s
  | act upd next ih => exact trans (h s).1 (ih s (h s).2 (upd s))
  | sql upd next fault ih _ => exact trans (h.1 s).1 (ih s (h.1 s).2 (upd s))

theorem Within.bind {R : σ → σ → Prop} {p : Prog σ ε α} {f : α → Prog σ ε β}
    (hp : p.Within R) (hf : ∀ a, (f a).Within R) : (p >>= f).Within R := by
  change (Prog.bind p f).Within R
  induction p with
  | done r =>
    cases r with
    | ok a => exact hf a
    | error e => trivial
    | panicked => trivial
  | act upd next ih => exact fun s => ⟨(hp s).1, ih s (hp s).2⟩
  | sql upd next fault ih ihf => exact ⟨fun s => ⟨(hp.1 s).1, ih s (hp.1 s).2⟩, ihf hp.2⟩

theorem Within.mapError {R : σ → σ → Prop} {p : Prog σ ε α} (h : p.Within R) (f : ε → ε') :
    (p.mapError f).Within R := by
  induction p with
  | done r => trivial
  | act upd next ih => exact fun s => ⟨(h s).1, ih s (h s).2⟩
  | sql upd next fault ih ihf => exact ⟨fun s => ⟨(h.1 s).1, ih s (h.1 s).2⟩, ihf h.2⟩

theorem Within.attempt {R : σ → σ → Prop} {p : Prog σ ε α} (h : p.Within R) :
    (p.attempt : Prog σ ε' (Except ε α)).Within R := by
  induction p with
  | done r => trivial
  | act upd next ih => exact fun s => ⟨(h s).1, ih s (h s).2⟩
  | sql upd next fault ih ihf => exact ⟨fun s => ⟨(h.1 s).1, ih s (h.1 s).2⟩, ihf h.2⟩

theorem Within.query {R : σ → σ → Prop} (refl : ∀ s, R s s) (refused : ε) (f : σ → Except ε α) :
    (query refused f).Within R :=
  ⟨fun s => ⟨refl s, trivial⟩, trivial⟩

theorem Within.execute {R : σ → σ → Prop} (refl : ∀ s, R s s) (refused : ε)
    {f : σ → Except ε (α × σ)} (h : ∀ s a s', f s = .ok (a, s') → R s s') :
    (execute refused f).Within R := by
  refine ⟨fun s => ⟨?_, trivial⟩, trivial⟩
  cases hf : f s with
  | ok r =>
    simp only [hf]
    exact h s r.1 r.2 hf
  | error e =>
    simp only [hf]
    exact refl s

theorem Within.forEach {R : σ → σ → Prop} {xs : List α} {body : α → Prog σ ε Unit}
    (h : ∀ x ∈ xs, (body x).Within R) : (forEach xs body).Within R := by
  induction xs with
  | nil => trivial
  | cons x xs ih =>
    exact Within.bind (h x (by simp)) (fun _ => ih (fun y hy => h y (by simp [hy])))

end Prog

end Khronos.Lib
