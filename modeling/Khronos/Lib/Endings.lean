import Khronos.Lib.Programs

namespace Khronos.Lib.Prog

/-- The ways a program can end when others may change the store before each of its actions, and
storage may refuse any of its statements. -/
inductive MayEnd {σ ε α : Type} : Prog σ ε α → Outcome ε α → Prop
  | done (r : Outcome ε α) : MayEnd (.done r) r
  | act {upd : σ → σ} {next : σ → Prog σ ε α} {r : Outcome ε α} (s : σ) (h : MayEnd (next s) r) :
      MayEnd (.act upd next) r
  | sql {upd : σ → σ} {next : σ → Prog σ ε α} {fault : Prog σ ε α} {r : Outcome ε α} (s : σ)
      (h : MayEnd (next s) r) : MayEnd (.sql upd next fault) r
  | fault {upd : σ → σ} {next : σ → Prog σ ε α} {fault : Prog σ ε α} {r : Outcome ε α}
      (h : MayEnd fault r) : MayEnd (.sql upd next fault) r

/-- An uninterrupted run without a fault ends in one of these ways. -/
theorem MayEnd.run (p : Prog σ ε α) (s : σ) : p.MayEnd (p.run s).1 := by
  induction p generalizing s with
  | done r => exact .done r
  | act upd next ih => exact .act s (ih s (upd s))
  | sql upd next fault ih _ => exact .sql s (ih s (upd s))

theorem MayEnd.of_pure {a : α} {r : Outcome ε α} (h : (pure a : Prog σ ε α).MayEnd r) : r = .ok a := by
  cases h
  rfl

/-- A program ends as its second part does after the first, or as the first does where that fails. -/
theorem MayEnd.of_bind {p : Prog σ ε α} {f : α → Prog σ ε β} {r : Outcome ε β}
    (h : (p >>= f).MayEnd r) :
    (∃ a, p.MayEnd (.ok a) ∧ (f a).MayEnd r) ∨ (∃ e, p.MayEnd (.error e) ∧ r = .error e) ∨
      p.MayEnd .panicked ∧ r = .panicked := by
  change (Prog.bind p f).MayEnd r at h
  induction p with
  | done out =>
    cases out with
    | ok a => exact .inl ⟨a, .done _, h⟩
    | error e =>
      cases h
      exact .inr (.inl ⟨e, .done _, rfl⟩)
    | panicked =>
      cases h
      exact .inr (.inr ⟨.done _, rfl⟩)
  | act upd next ih =>
    cases h with
    | act s h =>
      rcases ih s h with ⟨a, ha, hf⟩ | ⟨e, he, hr⟩ | ⟨hp, hr⟩
      · exact .inl ⟨a, .act s ha, hf⟩
      · exact .inr (.inl ⟨e, .act s he, hr⟩)
      · exact .inr (.inr ⟨.act s hp, hr⟩)
  | sql upd next fault ih ihf =>
    cases h with
    | sql s h =>
      rcases ih s h with ⟨a, ha, hf⟩ | ⟨e, he, hr⟩ | ⟨hp, hr⟩
      · exact .inl ⟨a, .sql s ha, hf⟩
      · exact .inr (.inl ⟨e, .sql s he, hr⟩)
      · exact .inr (.inr ⟨.sql s hp, hr⟩)
    | fault h =>
      rcases ihf h with ⟨a, ha, hf⟩ | ⟨e, he, hr⟩ | ⟨hp, hr⟩
      · exact .inl ⟨a, .fault ha, hf⟩
      · exact .inr (.inl ⟨e, .fault he, hr⟩)
      · exact .inr (.inr ⟨.fault hp, hr⟩)

theorem MayEnd.bind_ok {p : Prog σ ε α} {f : α → Prog σ ε β} {b : β} (h : (p >>= f).MayEnd (.ok b)) :
    ∃ a, p.MayEnd (.ok a) ∧ (f a).MayEnd (.ok b) := by
  rcases h.of_bind with h | ⟨_, _, hr⟩ | ⟨_, hr⟩
  · exact h
  · cases hr
  · cases hr

theorem MayEnd.of_attempt {p : Prog σ ε α} {r : Outcome ε' (Except ε α)}
    (h : (p.attempt : Prog σ ε' (Except ε α)).MayEnd r) : ∃ out, p.MayEnd out ∧ r = out.caught := by
  induction p with
  | done out =>
    cases h
    exact ⟨out, .done out, rfl⟩
  | act upd next ih =>
    cases h with
    | act s h =>
      obtain ⟨out, hout, hr⟩ := ih s h
      exact ⟨out, .act s hout, hr⟩
  | sql upd next fault ih ihf =>
    cases h with
    | sql s h =>
      obtain ⟨out, hout, hr⟩ := ih s h
      exact ⟨out, .sql s hout, hr⟩
    | fault h =>
      obtain ⟨out, hout, hr⟩ := ihf h
      exact ⟨out, .fault hout, hr⟩

theorem MayEnd.of_mapError {p : Prog σ ε α} {f : ε → ε'} {r : Outcome ε' α}
    (h : (p.mapError f).MayEnd r) : ∃ out, p.MayEnd out ∧ r = out.mapError f := by
  induction p with
  | done out =>
    cases h
    exact ⟨out, .done out, rfl⟩
  | act upd next ih =>
    cases h with
    | act s h =>
      obtain ⟨out, hout, hr⟩ := ih s h
      exact ⟨out, .act s hout, hr⟩
  | sql upd next fault ih ihf =>
    cases h with
    | sql s h =>
      obtain ⟨out, hout, hr⟩ := ih s h
      exact ⟨out, .sql s hout, hr⟩
    | fault h =>
      obtain ⟨out, hout, hr⟩ := ihf h
      exact ⟨out, .fault hout, hr⟩

/-- What a caught program gives is its value or its error. -/
theorem MayEnd.attempt_ok {p : Prog σ ε α} {x : Except ε α}
    (h : (p.attempt : Prog σ ε' (Except ε α)).MayEnd (.ok x)) : p.MayEnd (.ofExcept x) := by
  obtain ⟨out, hout, hr⟩ := h.of_attempt
  cases out with
  | ok a =>
    cases hr
    exact hout
  | error e =>
    cases hr
    exact hout
  | panicked => cases hr

/-- However the store changes in between and whatever storage refuses, no panic. -/
def NeverPanics (p : Prog σ ε α) : Prop := ¬ p.MayEnd .panicked

theorem NeverPanics.pure (a : α) : (pure a : Prog σ ε α).NeverPanics := by
  intro h
  cases h.of_pure

theorem NeverPanics.raise (e : ε) : (raise e : Prog σ ε α).NeverPanics := by
  intro h
  cases h

theorem NeverPanics.modify (f : σ → σ) : (modify f : Prog σ ε Unit).NeverPanics := by
  intro h
  cases h with
  | act s h => cases h

theorem NeverPanics.ofExcept (x : Except ε α) :
    (.done (.ofExcept x) : Prog σ ε α).NeverPanics := by
  intro h
  cases x with
  | ok a => cases h
  | error e => cases h

theorem NeverPanics.query (refused : ε) (f : σ → Except ε α) :
    (query refused f).NeverPanics := by
  intro h
  cases h with
  | sql s h => exact NeverPanics.ofExcept (f s) h
  | fault h => cases h

theorem NeverPanics.execute (refused : ε) (f : σ → Except ε (α × σ)) :
    (execute refused f).NeverPanics := by
  intro h
  cases h with
  | sql s h => exact NeverPanics.ofExcept ((f s).map Prod.fst) h
  | fault h => cases h

theorem NeverPanics.bind {p : Prog σ ε α} {f : α → Prog σ ε β} (hp : p.NeverPanics)
    (hf : ∀ a, (f a).NeverPanics) : (p >>= f).NeverPanics := by
  intro h
  rcases h.of_bind with ⟨a, _, h⟩ | ⟨e, _, h⟩ | ⟨h, _⟩
  · exact hf a h
  · cases h
  · exact hp h

theorem NeverPanics.attempt {p : Prog σ ε α} (hp : p.NeverPanics) :
    (p.attempt : Prog σ ε' (Except ε α)).NeverPanics := by
  intro h
  obtain ⟨out, hout, he⟩ := h.of_attempt
  cases out with
  | ok a => cases he
  | error e => cases he
  | panicked => exact hp hout

theorem NeverPanics.mapError {p : Prog σ ε α} (hp : p.NeverPanics) (f : ε → ε') :
    (p.mapError f).NeverPanics := by
  intro h
  obtain ⟨out, hout, he⟩ := h.of_mapError
  cases out with
  | ok a => cases he
  | error e => cases he
  | panicked => exact hp hout

theorem NeverPanics.forEach {xs : List α} {body : α → Prog σ ε Unit}
    (h : ∀ x ∈ xs, (body x).NeverPanics) : (forEach xs body).NeverPanics := by
  induction xs with
  | nil => exact .pure ()
  | cons x xs ih =>
    exact .bind (h x List.mem_cons_self) fun _ => ih fun y hy => h y (List.mem_cons_of_mem _ hy)

/-- What is caught of a program that does not panic ends well. -/
theorem NeverPanics.caught {p : Prog σ ε α} (hp : p.NeverPanics) {r : Outcome ε' (Except ε α)}
    (h : (p.attempt : Prog σ ε' (Except ε α)).MayEnd r) : ∃ x, r = .ok x := by
  obtain ⟨out, hout, rfl⟩ := h.of_attempt
  cases out with
  | ok a => exact ⟨_, rfl⟩
  | error e => exact ⟨_, rfl⟩
  | panicked => exact absurd hout hp

end Khronos.Lib.Prog
