import Khronos.Lib.Programs
import Khronos.Lib.Runs
import Mathlib.Data.List.Count
import Mathlib.Logic.Function.Basic

namespace Khronos.Lib

namespace Prog

/-- How a program has ended, if it has. -/
def outcome? : Prog σ ε α → Option (Outcome ε α)
  | .done r => some r
  | _ => none

/-- The next action of a program: what is left of the program, and the store. -/
def advance : Prog σ ε α → σ → Prog σ ε α × σ
  | .done r, s => (.done r, s)
  | .act upd next, s => (next s, upd s)
  | .sql upd next _, s => (next s, upd s)

/-- A task of its own: however it ends, what has started it goes on. -/
def forget : Prog σ ε α → Prog σ ε' Unit
  | .done _ => .done (.ok ())
  | .act upd next => .act upd (fun s => (next s).forget)
  | .sql upd next fault => .sql upd (fun s => (next s).forget) fault.forget

/-- One task after another. -/
def tasks (jobs : List κ) (task : κ → Prog σ ε α) : Prog σ ε' Unit :=
  forEach jobs (fun job => (task job).forget)

theorem advance_execute (refused : ε) (f : σ → Except ε (α × σ)) (s : σ) :
    (execute refused f).advance s = match f s with
      | .ok (a, s') => (.done (.ok a), s')
      | .error e => (.done (.error e), s) := by
  change (Prog.done (Outcome.ofExcept ((f s).map Prod.fst)),
    match f s with | .ok (_, s') => s' | .error _ => s) = _
  cases f s with
  | ok r => rfl
  | error e => rfl

theorem advance_bind {p : Prog σ ε α} (hp : p.outcome? = none) (f : α → Prog σ ε β) (s : σ) :
    (p >>= f).advance s = ((p.advance s).1 >>= f, (p.advance s).2) := by
  cases p with
  | done r => cases hp
  | act upd next => rfl
  | sql upd next fault => rfl

@[simp] theorem advance_mapError (p : Prog σ ε α) (f : ε → ε') (s : σ) :
    (p.mapError f).advance s = ((p.advance s).1.mapError f, (p.advance s).2) := by
  cases p <;> rfl

@[simp] theorem advance_attempt (p : Prog σ ε α) (s : σ) :
    (p.attempt : Prog σ ε' (Except ε α)).advance s = ((p.advance s).1.attempt, (p.advance s).2) := by
  cases p <;> rfl

@[simp] theorem advance_forget (p : Prog σ ε α) (s : σ) :
    (p.forget : Prog σ ε' Unit).advance s = ((p.advance s).1.forget, (p.advance s).2) := by
  cases p <;> rfl

theorem unfinished_bind {p : Prog σ ε α} (hp : p.outcome? = none) (f : α → Prog σ ε β) :
    (p >>= f).outcome? = none := by
  cases p with
  | done r => cases hp
  | act upd next => rfl
  | sql upd next fault => rfl

theorem unfinished_mapError {p : Prog σ ε α} (hp : p.outcome? = none) (f : ε → ε') :
    (p.mapError f).outcome? = none := by
  cases p with
  | done r => cases hp
  | act upd next => rfl
  | sql upd next fault => rfl

theorem unfinished_attempt {p : Prog σ ε α} (hp : p.outcome? = none) :
    (p.attempt : Prog σ ε' (Except ε α)).outcome? = none := by
  cases p with
  | done r => cases hp
  | act upd next => rfl
  | sql upd next fault => rfl

/-- Here a program is a single action, and it succeeds. -/
structure Acts (p : Prog σ ε α) (s : σ) (a : α) (s' : σ) : Prop where
  unfinished : p.outcome? = none
  advance : p.advance s = (.done (.ok a), s')

theorem Acts.query {f : σ → Except ε α} {s : σ} {a : α} (h : f s = .ok a) (refused : ε) :
    (query refused f).Acts s a s :=
  ⟨rfl, by rw [← show Outcome.ofExcept (f s) = .ok a by rw [h]; rfl]; rfl⟩

theorem Acts.execute {f : σ → Except ε (α × σ)} {s s' : σ} {a : α} (h : f s = .ok (a, s'))
    (refused : ε) : (execute refused f).Acts s a s' :=
  ⟨rfl, by rw [advance_execute, h]⟩

theorem Acts.mapError {p : Prog σ ε α} {s s' : σ} {a : α} (h : p.Acts s a s') (f : ε → ε') :
    (p.mapError f).Acts s a s' :=
  ⟨unfinished_mapError h.unfinished f, by rw [advance_mapError, h.advance]; rfl⟩

theorem Acts.attempt {p : Prog σ ε α} {s s' : σ} {a : α} (h : p.Acts s a s') :
    (p.attempt : Prog σ ε' (Except ε α)).Acts s (.ok a) s' :=
  ⟨unfinished_attempt h.unfinished, by rw [advance_attempt, h.advance]; rfl⟩

/-- An attempted query succeeds with what it reads, an error too. -/
theorem Acts.attempt_query (f : σ → Except ε α) (s : σ) (refused : ε) :
    ((Prog.query refused f).attempt : Prog σ ε' (Except ε α)).Acts s (f s) s := by
  refine ⟨rfl, ?_⟩
  rw [advance_attempt]
  change ((Prog.done (Outcome.ofExcept (f s))).attempt, s) = _
  cases f s <;> rfl

theorem Acts.bind {p : Prog σ ε α} {s s' : σ} {a : α} (h : p.Acts s a s') (f : α → Prog σ ε β) :
    (p >>= f).advance s = (f a, s') := by
  rw [advance_bind h.unfinished, h.advance]
  rfl

/-- Nothing is asked of the program. -/
theorem Within.of_all {R : σ → σ → Prop} (h : ∀ s s', R s s') (p : Prog σ ε α) : p.Within R := by
  induction p with
  | done r => trivial
  | act upd next ih => exact fun s => ⟨h s _, ih s⟩
  | sql upd next fault ih ihf => exact ⟨fun s => ⟨h s _, ih s⟩, ihf⟩

theorem Within.forget {R : σ → σ → Prop} {p : Prog σ ε α} (h : p.Within R) :
    (p.forget : Prog σ ε' Unit).Within R := by
  induction p with
  | done r => trivial
  | act upd next ih => exact fun s => ⟨(h s).1, ih s (h s).2⟩
  | sql upd next fault ih ihf => exact ⟨fun s => ⟨(h.1 s).1, ih s (h.1 s).2⟩, ihf h.2⟩

theorem Within.tasks {R : σ → σ → Prop} {jobs : List κ} {task : κ → Prog σ ε α}
    (h : ∀ job ∈ jobs, (task job).Within R) : (tasks jobs task : Prog σ ε' Unit).Within R :=
  Within.forEach (fun job hj => (h job hj).forget)

theorem Within.advance {R : σ → σ → Prop} {p : Prog σ ε α} (h : p.Within R)
    (hp : p.outcome? = none) (s : σ) : R s (p.advance s).2 ∧ (p.advance s).1.Within R := by
  cases p with
  | done r => cases hp
  | act upd next => exact h s
  | sql upd next fault => exact h.1 s

/-- Under an assumption about the stores it meets, a program keeps the assumption, and each of its
actions lies within a relation. -/
def Under (I : σ → Prop) (R : σ → σ → Prop) : Prog σ ε α → Prop
  | .done _ => True
  | .act upd next => ∀ s, I s → I (upd s) ∧ R s (upd s) ∧ (next s).Under I R
  | .sql upd next _ => ∀ s, I s → I (upd s) ∧ R s (upd s) ∧ (next s).Under I R

theorem Under.advance {I : σ → Prop} {R : σ → σ → Prop} {p : Prog σ ε α} (h : p.Under I R)
    (hp : p.outcome? = none) {s : σ} (hs : I s) :
    I (p.advance s).2 ∧ R s (p.advance s).2 ∧ (p.advance s).1.Under I R := by
  cases p with
  | done r => cases hp
  | act upd next => exact h s hs
  | sql upd next fault => exact h s hs

theorem Under.of_advance {I : σ → Prop} {R : σ → σ → Prop} {p : Prog σ ε α}
    (h : ∀ s, I s → ∃ q s', p.advance s = (q, s') ∧ I s' ∧ R s s' ∧ q.Under I R) :
    p.Under I R := by
  have hall : ∀ s, I s → I (p.advance s).2 ∧ R s (p.advance s).2 ∧ (p.advance s).1.Under I R := by
    intro s hs
    obtain ⟨q, s', he, h⟩ := h s hs
    rw [he]
    exact h
  cases p with
  | done r => trivial
  | act upd next => exact hall
  | sql upd next fault => exact hall

theorem Within.under {I : σ → Prop} {R : σ → σ → Prop} {p : Prog σ ε α} (h : p.Within R)
    (hI : ∀ {s s'}, R s s' → I s → I s') : p.Under I R := by
  induction p with
  | done r => trivial
  | act upd next ih => exact fun s hs => ⟨hI (h s).1 hs, (h s).1, ih s (h s).2⟩
  | sql upd next fault ih _ => exact fun s hs => ⟨hI (h.1 s).1 hs, (h.1 s).1, ih s (h.1 s).2⟩

theorem Under.mono {I : σ → Prop} {R S : σ → σ → Prop} (hRS : ∀ {s s'}, R s s' → S s s')
    {p : Prog σ ε α} (h : p.Under I R) : p.Under I S := by
  induction p with
  | done r => trivial
  | act upd next ih =>
    exact fun s hs => ⟨(h s hs).1, hRS (h s hs).2.1, ih s (h s hs).2.2⟩
  | sql upd next fault ih _ =>
    exact fun s hs => ⟨(h s hs).1, hRS (h s hs).2.1, ih s (h s hs).2.2⟩

theorem Under.bind {I : σ → Prop} {R : σ → σ → Prop} {p : Prog σ ε α} {f : α → Prog σ ε β}
    (hp : p.Under I R) (hf : ∀ a, (f a).Under I R) : (p >>= f).Under I R := by
  change (Prog.bind p f).Under I R
  induction p with
  | done r =>
    cases r with
    | ok a => exact hf a
    | error e => trivial
    | panicked => trivial
  | act upd next ih =>
    exact fun s hs => ⟨(hp s hs).1, (hp s hs).2.1, ih s (hp s hs).2.2⟩
  | sql upd next fault ih _ =>
    exact fun s hs => ⟨(hp s hs).1, (hp s hs).2.1, ih s (hp s hs).2.2⟩

theorem Under.attempt {I : σ → Prop} {R : σ → σ → Prop} {p : Prog σ ε α} (h : p.Under I R) :
    (p.attempt : Prog σ ε' (Except ε α)).Under I R := by
  induction p with
  | done r => trivial
  | act upd next ih => exact fun s hs => ⟨(h s hs).1, (h s hs).2.1, ih s (h s hs).2.2⟩
  | sql upd next fault ih _ =>
    exact fun s hs => ⟨(h s hs).1, (h s hs).2.1, ih s (h s hs).2.2⟩

/-- The action of this number, counted from 0, gives a view of the store its value, and no other
action changes the view. -/
def Sets (I : σ → Prop) (view : σ → ν) (v : ν) : Nat → Prog σ ε α → Prop
  | 0, p => p.outcome? = none ∧ ∀ s, I s → I (p.advance s).2 ∧ view (p.advance s).2 = v ∧
      (p.advance s).1.Under I (fun s s' => view s' = view s)
  | n + 1, p => p.outcome? = none ∧ ∀ s, I s → I (p.advance s).2 ∧
      view (p.advance s).2 = view s ∧ Sets I view v n (p.advance s).1

theorem Sets.before {I : σ → Prop} {view : σ → ν} {v : ν} {n : Nat} {p : Prog σ ε α}
    (hp : p.outcome? = none)
    (h : ∀ s, I s → ∃ q s', p.advance s = (q, s') ∧ I s' ∧ view s' = view s ∧ Sets I view v n q) :
    Sets I view v (n + 1) p := by
  refine ⟨hp, fun s hs => ?_⟩
  obtain ⟨q, s', he, h⟩ := h s hs
  rw [he]
  exact h

theorem Sets.now {I : σ → Prop} {view : σ → ν} {v : ν} {p : Prog σ ε α}
    (hp : p.outcome? = none)
    (h : ∀ s, I s → ∃ q s', p.advance s = (q, s') ∧ I s' ∧ view s' = v ∧
      q.Under I (fun s s' => view s' = view s)) : Sets I view v 0 p := by
  refine ⟨hp, fun s hs => ?_⟩
  obtain ⟨q, s', he, h⟩ := h s hs
  rw [he]
  exact h

theorem Sets.bind {I : σ → Prop} {view : σ → ν} {v : ν} {n : Nat} {p : Prog σ ε α}
    {f : α → Prog σ ε β} (hp : Sets I view v n p)
    (hf : ∀ a, (f a).Under I (fun s s' => view s' = view s)) : Sets I view v n (p >>= f) := by
  induction n generalizing p with
  | zero =>
    refine .now (unfinished_bind hp.1 f) (fun s hs => ?_)
    obtain ⟨hi, hv, hrest⟩ := hp.2 s hs
    exact ⟨_, _, advance_bind hp.1 f s, hi, hv, hrest.bind hf⟩
  | succ n ih =>
    refine .before (unfinished_bind hp.1 f) (fun s hs => ?_)
    obtain ⟨hi, hv, hrest⟩ := hp.2 s hs
    exact ⟨_, _, advance_bind hp.1 f s, hi, hv, ih hrest⟩

theorem Sets.attempt {I : σ → Prop} {view : σ → ν} {v : ν} {n : Nat} {p : Prog σ ε α}
    (hp : Sets I view v n p) : Sets I view v n (p.attempt : Prog σ δ (Except ε α)) := by
  induction n generalizing p with
  | zero =>
    refine .now (unfinished_attempt hp.1) (fun s hs => ?_)
    obtain ⟨hi, hv, hrest⟩ := hp.2 s hs
    exact ⟨_, _, advance_attempt p s, hi, hv, hrest.attempt⟩
  | succ n ih =>
    refine .before (unfinished_attempt hp.1) (fun s hs => ?_)
    obtain ⟨hi, hv, hrest⟩ := hp.2 s hs
    exact ⟨_, _, advance_attempt p s, hi, hv, ih hrest⟩

theorem Sets.unfinished {I : σ → Prop} {view : σ → ν} {v : ν} {n : Nat} {p : Prog σ ε α}
    (h : Sets I view v n p) : p.outcome? = none := by
  cases n with
  | zero => exact h.1
  | succ n => exact h.1

theorem Sets.under {I : σ → Prop} {view : σ → ν} {v : ν} {n : Nat} {p : Prog σ ε α}
    (h : Sets I view v n p) : p.Under I (fun _ _ => True) := by
  induction n generalizing p with
  | zero =>
    apply Under.of_advance
    intro s hs
    obtain ⟨hi, _, hrest⟩ := h.2 s hs
    exact ⟨_, _, rfl, hi, trivial, hrest.mono (fun _ => trivial)⟩
  | succ n ih =>
    apply Under.of_advance
    intro s hs
    obtain ⟨hi, _, hrest⟩ := h.2 s hs
    exact ⟨_, _, rfl, hi, trivial, ih hrest⟩

/-- Under an assumption about the stores it meets, a program ends in one of these ways. -/
def Ends (I : σ → Prop) (Q : Outcome ε α → Prop) : Prog σ ε α → Prop
  | .done r => Q r
  | .act _ next => ∀ s, I s → (next s).Ends I Q
  | .sql _ next _ => ∀ s, I s → (next s).Ends I Q

theorem Ends.advance {I : σ → Prop} {Q : Outcome ε α → Prop} {p : Prog σ ε α} (h : p.Ends I Q)
    {s : σ} (hs : I s) : (p.advance s).1.Ends I Q := by
  cases p with
  | done r => exact h
  | act upd next => exact h s hs
  | sql upd next fault => exact h s hs

theorem Ends.of_advance {I : σ → Prop} {Q : Outcome ε α → Prop} {p : Prog σ ε α}
    (hp : p.outcome? = none)
    (h : ∀ s, I s → ∃ q s', p.advance s = (q, s') ∧ q.Ends I Q) : p.Ends I Q := by
  have hall : ∀ s, I s → (p.advance s).1.Ends I Q := by
    intro s hs
    obtain ⟨q, s', he, h⟩ := h s hs
    rw [he]
    exact h
  cases p with
  | done r => cases hp
  | act upd next => exact hall
  | sql upd next fault => exact hall

/-- What follows a program that succeeds. -/
theorem Ends.bind {I : σ → Prop} {Q : Outcome ε β → Prop} {p : Prog σ ε α}
    {f : α → Prog σ ε β} (hp : p.Ends I (fun r => ∃ a, r = .ok a)) (hf : ∀ a, (f a).Ends I Q) :
    (p >>= f).Ends I Q := by
  change (Prog.bind p f).Ends I Q
  induction p with
  | done r =>
    obtain ⟨a, rfl⟩ := hp
    exact hf a
  | act upd next ih => exact fun s hs => ih s (hp s hs)
  | sql upd next fault ih _ => exact fun s hs => ih s (hp s hs)

theorem Ends.outcome {I : σ → Prop} {Q : Outcome ε α → Prop} {p : Prog σ ε α} (h : p.Ends I Q)
    (hp : p.outcome? = some r) : Q r := by
  cases p with
  | done r' =>
    cases hp
    exact h
  | act upd next => cases hp
  | sql upd next fault => cases hp

/-- The actions of a program append these to a view of the store, one after the other, as long as
none of them fails. -/
def Appends (view : σ → List ν) : List ν → Prog σ ε α → Prop
  | _, .done _ => True
  | rest, .act upd next => ∀ s, ∃ new rest', rest = new ++ rest' ∧
      view (upd s) = view s ++ new ∧ Appends view rest' (next s)
  | rest, .sql upd next _ => ∀ s, ∃ new rest', rest = new ++ rest' ∧
      view (upd s) = view s ++ new ∧ Appends view rest' (next s)

theorem Appends.advance {view : σ → List ν} {rest : List ν} {p : Prog σ ε α}
    (h : Appends view rest p) (s : σ) : ∃ new rest', rest = new ++ rest' ∧
      view (p.advance s).2 = view s ++ new ∧ Appends view rest' (p.advance s).1 := by
  cases p with
  | done r => exact ⟨[], rest, rfl, (List.append_nil _).symm, trivial⟩
  | act upd next => exact h s
  | sql upd next fault => exact h s

theorem Appends.of_advance {view : σ → List ν} {rest : List ν} {p : Prog σ ε α}
    (h : ∀ s, ∃ new rest', rest = new ++ rest' ∧
      view (p.advance s).2 = view s ++ new ∧ Appends view rest' (p.advance s).1) :
    Appends view rest p := by
  cases p with
  | done r => trivial
  | act upd next => exact h
  | sql upd next fault => exact h

theorem Appends.of_within {view : σ → List ν} {p : Prog σ ε α}
    (h : p.Within (fun s s' => view s' = view s)) (rest : List ν) : Appends view rest p := by
  induction p with
  | done r => trivial
  | act upd next ih =>
    exact fun s => ⟨[], rest, rfl, by rw [(h s).1, List.append_nil], ih s (h s).2⟩
  | sql upd next fault ih _ =>
    exact fun s => ⟨[], rest, rfl, by rw [(h.1 s).1, List.append_nil], ih s (h.1 s).2⟩

theorem Appends.after {view : σ → List ν} {rest : List ν} {p : Prog σ ε α} {f : α → Prog σ ε β}
    (hp : p.Within (fun s s' => view s' = view s)) (hf : ∀ a, Appends view rest (f a)) :
    Appends view rest (p >>= f) := by
  change Appends view rest (Prog.bind p f)
  induction p with
  | done r =>
    cases r with
    | ok a => exact hf a
    | error e => trivial
    | panicked => trivial
  | act upd next ih =>
    exact fun s => ⟨[], rest, rfl, by rw [(hp s).1, List.append_nil], ih s (hp s).2⟩
  | sql upd next fault ih _ =>
    exact fun s => ⟨[], rest, rfl, by rw [(hp.1 s).1, List.append_nil], ih s (hp.1 s).2⟩

/-- A statement that appends, unless it fails and ends the program. -/
theorem Appends.execute {view : σ → List ν} {x : ν} {rest : List ν} {f : σ → Except ε (α × σ)}
    {refused : ε} {error : ε → ε'} {g : α → Prog σ ε' β}
    (hf : ∀ s a s', f s = .ok (a, s') → view s' = view s ++ [x])
    (hg : ∀ a, Appends view rest (g a)) :
    Appends view (x :: rest) ((execute refused f).mapError error >>= g) := by
  apply Appends.of_advance
  intro s
  rw [advance_bind rfl, advance_mapError, advance_execute]
  cases h : f s with
  | ok r => exact ⟨[x], rest, rfl, hf s r.1 r.2 h, hg r.1⟩
  | error e => exact ⟨[], x :: rest, rfl, (List.append_nil _).symm, trivial⟩

theorem Appends.forEach {view : σ → List ν} {name : κ → ν} {xs : List κ}
    {body : κ → Prog σ ε Unit} {g : Unit → Prog σ ε β} {rest : List ν}
    (h : ∀ x ∈ xs, ∀ (rest : List ν) (g : Unit → Prog σ ε β), Appends view rest (g ()) →
      Appends view (name x :: rest) (body x >>= g))
    (hg : Appends view rest (g ())) : Appends view (xs.map name ++ rest) (forEach xs body >>= g) := by
  induction xs with
  | nil => exact hg
  | cons x xs ih =>
    rw [Prog.forEach, bind_assoc]
    exact h x (by simp) _ _ (ih (fun y hy => h y (by simp [hy])))

/-- Whatever the store, the next action of a program is not one of a kind. -/
def Clears (kind : σ → σ → Prop) (p : Prog σ ε α) : Prop := ∀ s, ¬ kind s (p.advance s).2

/-- An action of a kind comes only right after a read that has found the sign for it. -/
def Heralds (kind : σ → σ → Prop) (sign : σ → Prop) : Prog σ ε α → Prop
  | .done _ => True
  | .act upd next => ∀ s, (¬ (next s).Clears kind → upd s = s ∧ sign s) ∧
      (next s).Heralds kind sign
  | .sql upd next _ => ∀ s, (¬ (next s).Clears kind → upd s = s ∧ sign s) ∧
      (next s).Heralds kind sign

theorem Heralds.advance {kind : σ → σ → Prop} {sign : σ → Prop} {p : Prog σ ε α}
    (h : p.Heralds kind sign) (hp : p.outcome? = none) (s : σ) :
    (¬ (p.advance s).1.Clears kind → (p.advance s).2 = s ∧ sign s) ∧
      (p.advance s).1.Heralds kind sign := by
  cases p with
  | done r => cases hp
  | act upd next => exact h s
  | sql upd next fault => exact h s

/-- A program that does not begin with an action of a kind, and has none without its sign. -/
structure Heeds (kind : σ → σ → Prop) (sign : σ → Prop) (p : Prog σ ε α) : Prop where
  clears : p.Clears kind
  heralds : p.Heralds kind sign

section Heeds
variable {kind : σ → σ → Prop} {sign : σ → Prop}

theorem Clears.bind {p : Prog σ ε α} {f : α → Prog σ ε β} (hp : p.Clears kind)
    (hf : ∀ a, (f a).Clears kind) : (p >>= f).Clears kind := by
  cases p with
  | done r =>
    cases r with
    | ok a => exact hf a
    | error e => exact hp
    | panicked => exact hp
  | act upd next => exact hp
  | sql upd next fault => exact hp

theorem Heralds.bind {p : Prog σ ε α} {f : α → Prog σ ε β} (hp : p.Heralds kind sign)
    (hf : ∀ a, (f a).Heeds kind sign) : (p >>= f).Heralds kind sign := by
  have hclears : ∀ q : Prog σ ε α, ¬ (q >>= f).Clears kind → ¬ q.Clears kind :=
    fun q h hq => h (hq.bind fun a => (hf a).clears)
  change (Prog.bind p f).Heralds kind sign
  induction p with
  | done r =>
    cases r with
    | ok a => exact (hf a).heralds
    | error e => trivial
    | panicked => trivial
  | act upd next ih => exact fun s => ⟨fun h => (hp s).1 (hclears _ h), ih s (hp s).2⟩
  | sql upd next fault ih _ => exact fun s => ⟨fun h => (hp s).1 (hclears _ h), ih s (hp s).2⟩

theorem Heeds.bind {p : Prog σ ε α} {f : α → Prog σ ε β} (hp : p.Heeds kind sign)
    (hf : ∀ a, (f a).Heeds kind sign) : (p >>= f).Heeds kind sign :=
  ⟨hp.clears.bind fun a => (hf a).clears, hp.heralds.bind hf⟩

theorem Heeds.attempt {p : Prog σ ε α} (hp : p.Heeds kind sign) :
    (p.attempt : Prog σ ε' (Except ε α)).Heeds kind sign := by
  have hclears : ∀ q : Prog σ ε α,
      (q.attempt : Prog σ ε' (Except ε α)).Clears kind ↔ q.Clears kind := by
    intro q
    simp [Clears]
  refine ⟨(hclears p).mpr hp.clears, ?_⟩
  have hheralds := hp.heralds
  clear hp
  induction p with
  | done r => trivial
  | act upd next ih =>
    exact fun s => ⟨fun h => (hheralds s).1 (fun hq => h ((hclears _).mpr hq)), ih s (hheralds s).2⟩
  | sql upd next fault ih _ =>
    exact fun s => ⟨fun h => (hheralds s).1 (fun hq => h ((hclears _).mpr hq)), ih s (hheralds s).2⟩

theorem Heeds.forget {p : Prog σ ε α} (hp : p.Heeds kind sign) :
    (p.forget : Prog σ ε' Unit).Heeds kind sign := by
  have hclears : ∀ q : Prog σ ε α, (q.forget : Prog σ ε' Unit).Clears kind ↔ q.Clears kind := by
    intro q
    simp [Clears]
  refine ⟨(hclears p).mpr hp.clears, ?_⟩
  have hheralds := hp.heralds
  clear hp
  induction p with
  | done r => trivial
  | act upd next ih =>
    exact fun s => ⟨fun h => (hheralds s).1 (fun hq => h ((hclears _).mpr hq)), ih s (hheralds s).2⟩
  | sql upd next fault ih _ =>
    exact fun s => ⟨fun h => (hheralds s).1 (fun hq => h ((hclears _).mpr hq)), ih s (hheralds s).2⟩

/-- A program without any action of the kind. -/
theorem Heeds.of_within (hk : ∀ s, ¬ kind s s) {p : Prog σ ε α}
    (h : p.Within (fun s s' => ¬ kind s s')) : p.Heeds kind sign := by
  have hclears : ∀ {q : Prog σ ε α}, q.Within (fun s s' => ¬ kind s s') → q.Clears kind := by
    intro q hq s
    cases q with
    | done r => exact hk s
    | act upd next => exact (hq s).1
    | sql upd next fault => exact (hq.1 s).1
  refine ⟨hclears h, ?_⟩
  induction p with
  | done r => trivial
  | act upd next ih =>
    exact fun s => ⟨fun hn => absurd (hclears (h s).2) hn, ih s (h s).2⟩
  | sql upd next fault ih _ =>
    exact fun s => ⟨fun hn => absurd (hclears (h.1 s).2) hn, ih s (h.1 s).2⟩

/-- After a read, what it has found decides. -/
theorem Heeds.read (hk : ∀ s, ¬ kind s s) {f : σ → Except ε α} {refused : ε}
    {g : α → Prog σ ε β} (hsign : ∀ s a, f s = .ok a → ¬ (g a).Clears kind → sign s)
    (hg : ∀ a, (g a).Heralds kind sign) : (query refused f >>= g).Heeds kind sign := by
  refine ⟨hk, fun s => ?_⟩
  change (¬ (Prog.bind (.done (.ofExcept (f s))) g).Clears kind → s = s ∧ sign s) ∧
    (Prog.bind (.done (.ofExcept (f s))) g).Heralds kind sign
  cases hf : f s with
  | ok a => exact ⟨fun hn => ⟨rfl, hsign s a hf hn⟩, hg a⟩
  | error e => exact ⟨fun hn => absurd hk hn, trivial⟩

/-- A single statement needs no sign of its own. -/
theorem Heralds.execute (hk : ∀ s, ¬ kind s s) (refused : ε) (f : σ → Except ε (α × σ)) :
    (execute refused f).Heralds kind sign :=
  fun _ => ⟨fun hn => absurd hk hn, trivial⟩

theorem Heeds.forEach (hk : ∀ s, ¬ kind s s) {xs : List κ} {body : κ → Prog σ ε Unit}
    (h : ∀ x ∈ xs, (body x).Heeds kind sign) : (forEach xs body).Heeds kind sign := by
  induction xs with
  | nil => exact .of_within hk trivial
  | cons x xs ih => exact (h x (by simp)).bind fun _ => ih (fun y hy => h y (by simp [hy]))

end Heeds

end Prog

/-- Threads that share a store. -/
structure Pool (τ σ ε : Type) where
  store : σ
  thread : τ → Prog σ ε Unit

variable {τ σ ε α β : Type} [DecidableEq τ]

/-- One action of one thread. -/
def Pool.step (c : Pool τ σ ε) (t : τ) : Pool τ σ ε where
  store := ((c.thread t).advance c.store).2
  thread := Function.update c.thread t ((c.thread t).advance c.store).1

@[simp] theorem Pool.step_self (c : Pool τ σ ε) (t : τ) :
    (c.step t).thread t = ((c.thread t).advance c.store).1 := Function.update_self ..

theorem Pool.step_other (c : Pool τ σ ε) {t u : τ} (h : u ≠ t) :
    (c.step t).thread u = c.thread u := Function.update_of_ne h ..

/-- What holds of each thread holds after an action if it does of what is left of the thread that
acted. -/
theorem Pool.step_each {P : τ → Prog σ ε Unit → Prop} {c : Pool τ σ ε} {t : τ}
    (ht : P t ((c.thread t).advance c.store).1) (h : ∀ u, u ≠ t → P u (c.thread u)) (u : τ) :
    P u ((c.step t).thread u) := by
  by_cases hu : u = t
  · subst hu
    exact (c.step_self u).symm ▸ ht
  · exact (c.step_other hu).symm ▸ h u hu

/-- All interleavings of the threads, action by action. -/
def weave : Machine (Pool τ σ ε) τ Unit where
  initial _ := True
  admits c t := (c.thread t).outcome? = none
  step c t := ((), c.step t)

instance (c : Pool τ σ ε) (t : τ) : Decidable (weave.admits c t) :=
  inferInstanceAs (Decidable ((c.thread t).outcome? = none))

section Runs
variable {c d : Pool τ σ ε} {ts : List (Transition (Pool τ σ ε) τ Unit)}

/-- Every action of a run lies within the relation of its thread. -/
theorem weave_within {R : τ → σ → σ → Prop} (hr : weave.Run c ts d)
    (h : ∀ t, (c.thread t).Within (R t)) :
    (∀ t, (d.thread t).Within (R t)) ∧
      ∀ x ∈ ts, R x.input x.before.store x.after.store := by
  induction hr with
  | start => exact ⟨h, by simp⟩
  | @next ts d t hr hi ih =>
    obtain ⟨hd, hts⟩ := ih
    have hstep := (hd t).advance hi d.store
    refine ⟨Pool.step_each (P := fun u p => p.Within (R u)) hstep.2 (fun u _ => hd u),
      fun x hx => ?_⟩
    · rcases List.mem_append.mp hx with hx | hx
      · exact hts x hx
      · rw [List.mem_singleton.mp hx]
        exact hstep.1

end Runs

/-- In an order of turns the turn `m` of a thread, counted from 0, comes after the turn `n` of
another. -/
def After (order : List τ) (t : τ) (m : Nat) (u : τ) (n : Nat) : Prop :=
  ∃ pre post, order = pre ++ t :: post ∧ pre.count t = m ∧ n < pre.count u

theorem After.cons {order : List τ} {t u : τ} {m n : Nat} (h : After order t m u n) (x : τ) :
    After (x :: order) t (m + if x = t then 1 else 0) u (n + if x = u then 1 else 0) := by
  obtain ⟨pre, post, rfl, hm, hn⟩ := h
  refine ⟨x :: pre, post, rfl, ?_, ?_⟩
  · rw [List.count_cons, hm]
    simp
  · rw [List.count_cons]
    simpa using hn

/-- Of two turns only one comes after the other. -/
theorem After.asymm {order : List τ} {t u : τ} {m n : Nat} (h : After order t m u n) :
    ¬ After order u n t m := by
  obtain ⟨pre, post, rfl, hm, hn⟩ := h
  rintro ⟨pre', post', he, hn', hm'⟩
  rcases List.append_eq_append_iff.mp he with ⟨mid, hpre, _⟩ | ⟨mid, hpre, _⟩
  · rw [hpre, List.count_append] at hn'
    omega
  · rw [hpre, List.count_append] at hm
    omega

/-- A thread ends as it does under an assumption that all the threads keep. -/
theorem weave_ends {I : σ → Prop} {R : σ → σ → Prop} {Q : Outcome ε Unit → Prop}
    {c d : Pool τ σ ε} {ts : List (Transition (Pool τ σ ε) τ Unit)} {t : τ}
    (hr : weave.Run c ts d) (h : ∀ x, (c.thread x).Under I R) (hs : I c.store)
    (ht : (c.thread t).Ends I Q) : (d.thread t).Ends I Q := by
  have hall : (∀ x, (d.thread x).Under I R) ∧ I d.store ∧ (d.thread t).Ends I Q := by
    induction hr with
    | start => exact ⟨h, hs, ht⟩
    | @next ts d x hr hi ih =>
      obtain ⟨hd, hid, ht⟩ := ih
      obtain ⟨his, _, hx⟩ := (hd x).advance hi hid
      refine ⟨Pool.step_each (P := fun _ p => p.Under I R) hx (fun y _ => hd y), his, ?_⟩
      by_cases hxt : x = t
      · subst hxt
        exact (d.step_self x).symm ▸ ht.advance hid
      · exact (d.step_other (Ne.symm hxt)).symm ▸ ht
  exact hall.2.2

section LastWrite
variable {ν : Type} {I : σ → Prop} {view : σ → ν} {v w : ν}
  {c d : Pool τ σ ε} {ts : List (Transition (Pool τ σ ε) τ Unit)} {t u : τ}

/-- Threads none of which changes a view leave it as it is. -/
theorem weave_keeps (hr : weave.Run c ts d)
    (h : ∀ x, (c.thread x).Under I (fun s s' => view s' = view s)) (hs : I c.store) :
    view d.store = view c.store := by
  have hall : (∀ x, (d.thread x).Under I (fun s s' => view s' = view s)) ∧ I d.store ∧
      view d.store = view c.store := by
    induction hr with
    | start => exact ⟨h, hs, rfl⟩
    | @next ts d x hr hi ih =>
      obtain ⟨hd, hid, hv⟩ := ih
      obtain ⟨his, hvs, hx⟩ := (hd x).advance hi hid
      exact ⟨Pool.step_each (P := fun _ p => p.Under I _) hx (fun y _ => hd y), his, hvs.trans hv⟩
  exact hall.2.2

/-- Of all threads only one sets a view, and it is run to its end. -/
theorem weave_sets {m : Nat} (hr : weave.Run c ts d)
    (ht : (c.thread t).Sets I view v m)
    (h : ∀ x, x ≠ t → (c.thread x).Under I (fun s s' => view s' = view s)) (hs : I c.store)
    (hd : (d.thread t).outcome? ≠ none) :
    view d.store = v ∧
      ∃ pre post, ts.map (·.input) = pre ++ t :: post ∧ pre.count t = m := by
  induction ts generalizing c m with
  | nil =>
    rw [hr.nothing] at hd
    exact absurd ht.unfinished hd
  | cons x ts ih =>
    obtain ⟨i, hi, rfl, hnext⟩ := hr.first
    change weave.Run (c.step i) ts d at hnext
    by_cases hit : i = t
    · subst hit
      cases m with
      | zero =>
        obtain ⟨his, hv, hrest⟩ := ht.2 c.store hs
        refine ⟨?_, [], ts.map (·.input), rfl, rfl⟩
        exact (weave_keeps hnext (Pool.step_each (P := fun _ p => p.Under I _) hrest h) his).trans hv
      | succ m =>
        obtain ⟨his, _, hrest⟩ := ht.2 c.store hs
        obtain ⟨hv, pre, post, he, hm⟩ := ih hnext ((c.step_self i).symm ▸ hrest)
          (fun x hx => (c.step_other hx).symm ▸ h x hx) his
        refine ⟨hv, i :: pre, post, ?_, ?_⟩
        · rw [List.map_cons, he]
          rfl
        · rw [List.count_cons_self, hm]
    · obtain ⟨his, _, hrest⟩ := (h i hit).advance hi hs
      obtain ⟨hv, pre, post, he, hm⟩ := ih hnext ((c.step_other (Ne.symm hit)).symm ▸ ht)
        (Pool.step_each (P := fun x p => x ≠ t → p.Under I _) (fun _ => hrest)
          (fun x _ => h x)) his
      refine ⟨hv, i :: pre, post, ?_, ?_⟩
      · rw [List.map_cons, he]
        rfl
      · rw [List.count_cons_of_ne hit, hm]

/-- The thread that has set its view comes before one that is still to. -/
theorem After.of_sets {order : List τ} {m : Nat} (htu : u ≠ t)
    (h : ∃ pre post, order = pre ++ t :: post ∧ pre.count t = m) :
    After (u :: order) t m u 0 := by
  obtain ⟨pre, post, rfl, hm⟩ := h
  refine ⟨u :: pre, post, rfl, ?_, ?_⟩
  · rw [List.count_cons_of_ne htu, hm]
  · rw [List.count_cons_self]
    exact Nat.succ_pos _

/-- Of two threads that set a view the last one gives it its value. -/
theorem weave_last {m n : Nat} (hr : weave.Run c ts d) (htu : t ≠ u)
    (ht : (c.thread t).Sets I view v m) (hu : (c.thread u).Sets I view w n)
    (h : ∀ x, x ≠ t → x ≠ u → (c.thread x).Under I (fun s s' => view s' = view s))
    (hs : I c.store) (hdt : (d.thread t).outcome? ≠ none) (hdu : (d.thread u).outcome? ≠ none) :
    (view d.store = v ∧ After (ts.map (·.input)) t m u n) ∨
      (view d.store = w ∧ After (ts.map (·.input)) u n t m) := by
  induction ts generalizing c m n with
  | nil =>
    rw [hr.nothing] at hdt
    exact absurd ht.unfinished hdt
  | cons x ts ih =>
    obtain ⟨i, hi, rfl, hnext⟩ := hr.first
    change weave.Run (c.step i) ts d at hnext
    change (_ ∧ After (i :: ts.map (·.input)) t m u n) ∨
      (_ ∧ After (i :: ts.map (·.input)) u n t m)
    by_cases hit : i = t
    · subst hit
      have hu' : ((c.step i).thread u).Sets I view w n := (c.step_other htu.symm).symm ▸ hu
      cases m with
      | zero =>
        obtain ⟨his, _, hrest⟩ := ht.2 c.store hs
        obtain ⟨hv, hn⟩ := weave_sets hnext hu'
          (Pool.step_each (P := fun x p => x ≠ u → p.Under I _) (fun _ => hrest)
            (fun x hx hxu => h x hx hxu)) his hdu
        exact .inr ⟨hv, .of_sets htu hn⟩
      | succ m =>
        obtain ⟨his, _, hrest⟩ := ht.2 c.store hs
        refine (ih hnext ((c.step_self i).symm ▸ hrest) hu'
          (fun x hx hxu => (c.step_other hx).symm ▸ h x hx hxu) his).imp ?_ ?_
        · rintro ⟨hv, ha⟩
          exact ⟨hv, by simpa [htu] using ha.cons i⟩
        · rintro ⟨hv, ha⟩
          exact ⟨hv, by simpa [htu] using ha.cons i⟩
    · by_cases hiu : i = u
      · subst hiu
        have ht' : ((c.step i).thread t).Sets I view v m := (c.step_other htu).symm ▸ ht
        cases n with
        | zero =>
          obtain ⟨his, _, hrest⟩ := hu.2 c.store hs
          obtain ⟨hv, hm⟩ := weave_sets hnext ht'
            (Pool.step_each (P := fun x p => x ≠ t → p.Under I _) (fun _ => hrest)
              (fun x hx hxt => h x hxt hx)) his hdt
          exact .inl ⟨hv, .of_sets hit hm⟩
        | succ n =>
          obtain ⟨his, _, hrest⟩ := hu.2 c.store hs
          refine (ih hnext ht' ((c.step_self i).symm ▸ hrest)
            (fun x hxt hx => (c.step_other hx).symm ▸ h x hxt hx) his).imp ?_ ?_
          · rintro ⟨hv, ha⟩
            exact ⟨hv, by simpa [hit] using ha.cons i⟩
          · rintro ⟨hv, ha⟩
            exact ⟨hv, by simpa [hit] using ha.cons i⟩
      · obtain ⟨his, _, hrest⟩ := (h i hit hiu).advance hi hs
        refine (ih hnext ((c.step_other (Ne.symm hit)).symm ▸ ht)
          ((c.step_other (Ne.symm hiu)).symm ▸ hu)
          (Pool.step_each (P := fun x p => x ≠ t → x ≠ u → p.Under I _) (fun _ _ => hrest)
            (fun x _ => h x)) his).imp ?_ ?_
        · rintro ⟨hv, ha⟩
          exact ⟨hv, by simpa [hit, hiu] using ha.cons i⟩
        · rintro ⟨hv, ha⟩
          exact ⟨hv, by simpa [hit, hiu] using ha.cons i⟩

end LastWrite

end Khronos.Lib
