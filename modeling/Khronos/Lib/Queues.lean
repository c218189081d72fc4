import Mathlib.Data.Multiset.Filter

namespace Khronos.Lib

/-- A priority queue: `pop` gives out a greatest of its entries, if there is any. -/
structure MaxQueue (H α : Type) (le : α → α → Prop) where
  entries : H → Multiset α
  push : α → H → H
  pop : H → Option (α × H)
  entries_push : ∀ a h, entries (push a h) = a ::ₘ entries h
  pop_none : ∀ h, pop h = none → entries h = 0
  entries_pop : ∀ h a rest, pop h = some (a, rest) → entries h = a ::ₘ entries rest
  greatest : ∀ h a rest, pop h = some (a, rest) → ∀ b ∈ entries rest, le b a

namespace MaxQueue
variable {H α : Type} {le : α → α → Prop}

theorem card_pop (Q : MaxQueue H α le) {h rest : H} {a : α} (hp : Q.pop h = some (a, rest)) :
    (Q.entries rest).card < (Q.entries h).card := by
  rw [Q.entries_pop h a rest hp, Multiset.card_cons]
  exact Nat.lt_succ_self _

/-- Entries are popped as long as they are due; the first that is not goes back. -/
def drain (Q : MaxQueue H α le) (due : α → Bool) (h : H) : List α × H :=
  match _hp : Q.pop h with
  | none => ([], h)
  | some (a, rest) =>
    if due a then
      let (taken, left) := Q.drain due rest
      (a :: taken, left)
    else ([], Q.push a rest)
termination_by (Q.entries h).card
decreasing_by exact Q.card_pop _hp

variable (Q : MaxQueue H α le) {due : α → Bool} {h rest : H} {a : α}

theorem drain_step (h : H) : Q.drain due h = match Q.pop h with
    | none => ([], h)
    | some (a, rest) =>
      if due a then (a :: (Q.drain due rest).1, (Q.drain due rest).2) else ([], Q.push a rest) := by
  rw [drain]
  split
  · rename_i hp
    rw [hp]
  · rename_i hp
    rw [hp]

theorem drain_none (hp : Q.pop h = none) : Q.drain due h = ([], h) := by
  rw [drain_step, hp]

theorem drain_due (hp : Q.pop h = some (a, rest)) (ha : due a = true) :
    Q.drain due h = (a :: (Q.drain due rest).1, (Q.drain due rest).2) := by
  rw [drain_step, hp]
  exact if_pos ha

theorem drain_later (hp : Q.pop h = some (a, rest)) (ha : ¬ due a = true) :
    Q.drain due h = ([], Q.push a rest) := by
  rw [drain_step, hp]
  exact if_neg ha

/-- What holds of an empty queue, of one with nothing due on top, and of one with something due on
top when it holds of the rest, holds of every queue. -/
theorem drain_induct {P : H → Prop} (due : α → Bool) (empty : ∀ h, Q.pop h = none → P h)
    (later : ∀ h a rest, Q.pop h = some (a, rest) → ¬ due a = true → P h)
    (pops : ∀ h a rest, Q.pop h = some (a, rest) → due a = true → P rest → P h) (h : H) : P h := by
  cases hp : Q.pop h with
  | none => exact empty h hp
  | some top =>
    by_cases ha : due top.1 = true
    · exact pops h top.1 top.2 hp ha (drain_induct due empty later pops top.2)
    · exact later h top.1 top.2 hp ha
termination_by (Q.entries h).card
decreasing_by exact Q.card_pop hp

/-- No entry is lost and none is made. -/
theorem drain_entries (due : α → Bool) (h : H) :
    Q.entries h = (Q.drain due h).1 + Q.entries (Q.drain due h).2 := by
  induction h using Q.drain_induct due with
  | empty h hp =>
    rw [Q.drain_none hp]
    exact (Multiset.zero_add _).symm
  | later h a rest hp ha =>
    rw [Q.drain_later hp ha, Q.entries_push, Q.entries_pop h a rest hp]
    exact (Multiset.zero_add _).symm
  | pops h a rest hp ha ih =>
    rw [Q.drain_due hp ha, Q.entries_pop h a rest hp, ← Multiset.cons_coe, Multiset.cons_add, ← ih]

theorem drain_taken (due : α → Bool) (h : H) : ∀ a ∈ (Q.drain due h).1, due a = true := by
  induction h using Q.drain_induct due with
  | empty h hp => simp [Q.drain_none hp]
  | later h a rest hp ha => simp [Q.drain_later hp ha]
  | pops h a rest hp ha ih =>
    rw [Q.drain_due hp ha]
    exact List.forall_mem_cons.mpr ⟨ha, ih⟩

/-- Nothing is taken before something greater. -/
theorem drain_sorted (due : α → Bool) (h : H) :
    (Q.drain due h).1.Pairwise (fun a b => le b a) := by
  induction h using Q.drain_induct due with
  | empty h hp => simp [Q.drain_none hp]
  | later h a rest hp ha => simp [Q.drain_later hp ha]
  | pops h a rest hp ha ih =>
    rw [Q.drain_due hp ha]
    refine List.pairwise_cons.mpr ⟨fun b hb => Q.greatest h a rest hp b ?_, ih⟩
    rw [Q.drain_entries due rest]
    exact Multiset.mem_add.mpr (.inl (Multiset.mem_coe.mpr hb))

/-- Where no entry is due before a greater one, none that stays is due. -/
theorem drain_left (due : α → Bool) (hup : ∀ a b, le b a → due b = true → due a = true) (h : H) :
    ∀ a ∈ Q.entries (Q.drain due h).2, ¬ due a = true := by
  induction h using Q.drain_induct due with
  | empty h hp => simp [Q.drain_none hp, Q.pop_none h hp]
  | later h a rest hp ha =>
    rw [Q.drain_later hp ha, Q.entries_push]
    intro b hb
    rcases Multiset.mem_cons.mp hb with rfl | hb
    · exact ha
    · exact fun hdue => ha (hup a b (Q.greatest h a rest hp b hb) hdue)
  | pops h a rest hp ha ih =>
    rw [Q.drain_due hp ha]
    exact ih

variable (hup : ∀ a b, le b a → due b = true → due a = true)
include hup

/-- A drain takes out exactly what is due. -/
theorem drain_filter (h : H) :
    ((Q.drain due h).1 : Multiset α) = (Q.entries h).filter (fun a => due a = true) := by
  rw [Q.drain_entries due h, Multiset.filter_add,
    Multiset.filter_eq_self.mpr fun a ha => Q.drain_taken due h a (Multiset.mem_coe.mp ha),
    Multiset.filter_eq_nil.mpr (Q.drain_left due hup h), Multiset.add_zero]

theorem left_filter (h : H) :
    Q.entries (Q.drain due h).2 = (Q.entries h).filter (fun a => ¬ due a = true) := by
  have hnone : ((Q.drain due h).1 : Multiset α).filter (fun a => ¬ due a = true) = 0 :=
    Multiset.filter_eq_nil.mpr fun a ha => by simpa using Q.drain_taken due h a (by simpa using ha)
  rw [Q.drain_entries due h, Multiset.filter_add, hnone,
    Multiset.filter_eq_self.mpr (Q.drain_left due hup h), Multiset.zero_add]

end MaxQueue

end Khronos.Lib
