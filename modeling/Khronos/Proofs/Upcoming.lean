import Khronos.Proofs.Waking
import Khronos.Server.Texts

namespace Khronos.Proofs
open Time Lib Db.Schedules Server Server.Scheduler

/-- A search of a numbered list stops at the first place where it finds something. -/
theorem findSome_zipIdx {f : α × Nat → Option β} {xs : List α} {n : Nat} {b : β} :
    (xs.zipIdx n).findSome? f = some b ↔ ∃ i a, xs[i]? = some a ∧ f (a, n + i) = some b ∧
      ∀ j < i, ∀ a', xs[j]? = some a' → f (a', n + j) = none := by
  induction xs generalizing n with
  | nil => simp
  | cons x xs ih =>
    rw [List.zipIdx_cons, List.findSome?_cons]
    cases hx : f (x, n) with
    | some c =>
      constructor
      · rintro ⟨⟩
        exact ⟨0, x, rfl, hx, fun j hj => absurd hj (by omega)⟩
      · rintro ⟨i, a, ha, hf, hfirst⟩
        cases i with
        | zero =>
          cases ha
          rw [Nat.add_zero, hx] at hf
          exact hf
        | succ i =>
          have hnone := hfirst 0 (by omega) x rfl
          rw [Nat.add_zero, hx] at hnone
          cases hnone
    | none =>
      dsimp only
      rw [ih]
      constructor
      · rintro ⟨i, a, ha, hf, hfirst⟩
        refine ⟨i + 1, a, ha, by rwa [Nat.add_right_comm] at hf, ?_⟩
        intro j hj a' ha'
        cases j with
        | zero =>
          cases ha'
          exact hx
        | succ j =>
          have := hfirst j (by omega) a' ha'
          rwa [Nat.add_right_comm] at this
      · rintro ⟨i, a, ha, hf, hfirst⟩
        cases i with
        | zero =>
          cases ha
          rw [Nat.add_zero, hx] at hf
          cases hf
        | succ i =>
          refine ⟨i, a, ha, by rwa [Nat.add_right_comm], ?_⟩
          intro j hj a' ha'
          rw [Nat.add_right_comm]
          exact hfirst (j + 1) (by omega) a' ha'

/-- It finds nothing exactly when there is nothing at any place. -/
theorem findSome_zipIdx_none {f : α × Nat → Option β} {xs : List α} :
    xs.zipIdx.findSome? f = none ↔ ∀ i a, xs[i]? = some a → f (a, i) = none := by
  rw [List.findSome?_eq_none_iff]
  constructor
  · intro h i a ha
    exact h (a, i) (List.mk_mem_zipIdx_iff_getElem?.mpr ha)
  · rintro h ⟨a, i⟩ hx
    exact h i a (List.mk_mem_zipIdx_iff_getElem?.mp hx)

/-- The crate reads expressions: it refuses those that have no meaning, at every time, and gives the
next of the occurrences of the others. -/
def ReadsCron (crates : Crates) (occ : String → Option (Set DateTime)) : Prop :=
  ∀ expr, match occ expr with
    | none => ∀ t, crates.cronUpcoming expr t = none
    | some s => Occurrences crates expr s

/-- The next occurrence of the expression at a place of a list, if it parses; each expression is
asked at a reading of the clock of its own. -/
def NextAt (occ : String → Option (Set DateTime)) (env : Env) (exprs : List String) (i : Nat)
    (o : DateTime) : Prop :=
  ∃ expr s, exprs[i]? = some expr ∧ occ expr = some s ∧ Next s (env.now i).time o

theorem nextAt_iff (h : ReadsCron crates occ) (he : exprs[i]? = some expr) (env : Env) :
    NextAt occ env exprs i o ↔ (crates.cronUpcoming expr (env.now i).time).join = some o := by
  have hexpr := h expr
  unfold NextAt
  cases ho : occ expr with
  | none =>
    simp only [ho] at hexpr
    simp [he, ho, hexpr]
  | some s =>
    simp only [ho] at hexpr
    simp [he, ho, Option.join_eq_some_iff, hexpr.upcoming]

/-- A result is the earliest of the next occurrences; there is none only where there are none. -/
structure GivesEarliest (occ : String → Option (Set DateTime)) (env : Env) (exprs : List String)
    (result : Option DateTime) : Prop where
  earliest : ∀ T, result = some T → (∃ i, NextAt occ env exprs i T) ∧
    ∀ j o, NextAt occ env exprs j o → T.nanos ≤ o.nanos
  nothing : result = none → ∀ j o, ¬ NextAt occ env exprs j o

theorem calculateNextCronFire_some (h : ReadsCron crates occ) {info : ScheduleRow}
    (hexpr : info.cronExpressions.bind crates.stringsFromStr = some exprs) (env : Env) :
    calculateNextCronFire crates env info = some T ↔
      ∃ i, NextAt occ env exprs i T ∧ ∀ j < i, ∀ o, ¬ NextAt occ env exprs j o := by
  unfold calculateNextCronFire
  rw [hexpr, Option.bind_some, findSome_zipIdx]
  constructor
  · rintro ⟨i, expr, he, hT, hfirst⟩
    rw [Nat.zero_add] at hT
    refine ⟨i, (nextAt_iff h he env).mpr hT, fun j hj o ho => ?_⟩
    obtain ⟨expr', s, he', hs, hnext⟩ := ho
    have hnone := hfirst j hj expr' he'
    rw [Nat.zero_add] at hnone
    have hsome := (nextAt_iff h he' env).mp ⟨expr', s, he', hs, hnext⟩
    cases hsome.symm.trans hnone
  · rintro ⟨i, hi, hfirst⟩
    obtain ⟨expr, s, he, hs, hnext⟩ := hi
    refine ⟨i, expr, he, ?_, fun j hj expr' he' => ?_⟩
    · rw [Nat.zero_add]
      exact (nextAt_iff h he env).mp ⟨expr, s, he, hs, hnext⟩
    · rw [Nat.zero_add, Option.eq_none_iff_forall_not_mem]
      intro o ho
      exact hfirst j hj o ((nextAt_iff h he' env).mpr ho)

theorem calculateNextCronFire_none (h : ReadsCron crates occ) {info : ScheduleRow}
    (hexpr : info.cronExpressions.bind crates.stringsFromStr = some exprs) (env : Env) :
    calculateNextCronFire crates env info = none ↔ ∀ j o, ¬ NextAt occ env exprs j o := by
  unfold calculateNextCronFire
  rw [hexpr, Option.bind_some, findSome_zipIdx_none]
  constructor
  · rintro hnone j o ⟨expr, s, he, hs, hnext⟩
    have hsome := (nextAt_iff h he env).mp ⟨expr, s, he, hs, hnext⟩
    cases hsome.symm.trans (hnone j expr he)
  · intro hnone i expr he
    rw [Option.eq_none_iff_forall_not_mem]
    intro o ho
    exact hnone i o ((nextAt_iff h he env).mpr ho)

/-- The next fire time of a list of cron expressions is the earliest of their next occurrences
exactly when no expression has an earlier one than the first of them that has any. -/
theorem cron_earliest_iff (h : ReadsCron crates occ) {info : ScheduleRow}
    (hexpr : info.cronExpressions.bind crates.stringsFromStr = some exprs) (env : Env) :
    GivesEarliest occ env exprs (calculateNextCronFire crates env info) ↔
      ∀ i j o o', NextAt occ env exprs i o → (∀ l < i, ∀ p, ¬ NextAt occ env exprs l p) →
        i < j → NextAt occ env exprs j o' → o.nanos ≤ o'.nanos := by
  constructor
  · intro hgives i j o o' ho hfirst _ ho'
    have hresult := (calculateNextCronFire_some h hexpr env).mpr ⟨i, ho, hfirst⟩
    exact (hgives.earliest o hresult).2 j o' ho'
  · intro hordered
    refine ⟨fun T hT => ?_, fun hnone => (calculateNextCronFire_none h hexpr env).mp hnone⟩
    obtain ⟨i, hi, hfirst⟩ := (calculateNextCronFire_some h hexpr env).mp hT
    refine ⟨⟨i, hi⟩, fun j o hj => ?_⟩
    rcases Nat.lt_trichotomy i j with hlt | rfl | hgt
    · exact hordered i j T o hi hfirst hlt hj
    · have ⟨expr, s, he, _, _⟩ := hi
      have hT' := (nextAt_iff h he env).mp hi
      have ho' := (nextAt_iff h he env).mp hj
      rw [hT'] at ho'
      cases ho'
      exact Int.le_refl _
    · exact absurd hj (hfirst j hgt o)

def secondFirst : List String := ["* * * * * *", "0 0 * * * *"]

def hourFirst : List String := ["0 0 * * * *", "* * * * * *"]

/-- Crates that know two expressions, of every hour and of every second, and the texts of the two
lists of them. -/
def hourAndSecond : Crates :=
  { plainCrates with
    stringsFromStr := fun text =>
      if text = "[\"* * * * * *\",\"0 0 * * * *\"]" then some secondFirst
      else if text = "[\"0 0 * * * *\",\"* * * * * *\"]" then some hourFirst
      else none
    cronUpcoming := fun expr t =>
      if expr = "0 0 * * * *" then (periodicCrates 3600).cronUpcoming expr t
      else if expr = "* * * * * *" then (periodicCrates 1).cronUpcoming expr t
      else none }

def hourOrSecond (expr : String) : Option (Set DateTime) :=
  if expr = "0 0 * * * *" then some (multiples 3600)
  else if expr = "* * * * * *" then some (multiples 1) else none

theorem hourAndSecond_reads : ReadsCron hourAndSecond hourOrSecond := by
  intro expr
  unfold hourOrSecond
  by_cases hhour : expr = "0 0 * * * *"
  · rw [if_pos hhour]
    intro t
    have ht := periodic_occurrences (show (0 : Int) < 3600 by decide) expr t
    simpa [hourAndSecond, hhour] using ht
  · rw [if_neg hhour]
    by_cases hsecond : expr = "* * * * * *"
    · rw [if_pos hsecond]
      intro t
      have ht := periodic_occurrences (show (0 : Int) < 1 by decide) expr t
      simpa [hourAndSecond, hhour, hsecond] using ht
    · rw [if_neg hsecond]
      intro t
      simp [hourAndSecond, hhour, hsecond]

/-- Every hour begins with a second. -/
theorem multiples_hour (h : o ∈ multiples 3600) : o ∈ multiples 1 := by
  obtain ⟨n, hn⟩ := h
  refine ⟨n * 3600, ?_⟩
  rw [hn]
  unfold second
  omega

theorem second_first_earliest :
    GivesEarliest hourOrSecond (turn 1) secondFirst (calculateNextCronFire hourAndSecond (turn 1)
      (cronSchedule "[\"* * * * * *\",\"0 0 * * * *\"]")) := by
  refine (cron_earliest_iff hourAndSecond_reads rfl (turn 1)).mpr ?_
  rintro i j o o' ⟨expr, s, he, hs, ho⟩ - hlt ⟨expr', s', he', hs', ho'⟩
  -- The first expression is that of every second, and every other occurrence is of one too.
  have hi : i = 0 := by
    have hj := (List.getElem?_eq_some_iff.mp he').1
    have hlen : secondFirst.length = 2 := rfl
    omega
  subst hi
  cases he
  obtain rfl : multiples 1 = s := Option.some.inj hs
  have hmem : o' ∈ multiples 1 := by
    unfold hourOrSecond at hs'
    split at hs'
    · cases hs'
      exact multiples_hour ho'.mem
    · split at hs'
      · cases hs'
        exact ho'.mem
      · cases hs'
  exact ho.least o' hmem ho'.after

/-- An hourly expression stands before one of every second. -/
theorem hour_first_not_earliest :
    ¬ ∀ (crates : Crates) (occ : String → Option (Set DateTime)) (info : ScheduleRow)
      (exprs : List String) (env : Env), ReadsCron crates occ →
        info.cronExpressions.bind crates.stringsFromStr = some exprs →
        GivesEarliest occ env exprs (calculateNextCronFire crates env info) := by
  intro h
  have hgives := h hourAndSecond hourOrSecond
    (cronSchedule "[\"0 0 * * * *\",\"* * * * * *\"]") hourFirst (turn 1) hourAndSecond_reads rfl
  have hsecond : NextAt hourOrSecond (turn 1) hourFirst 1 ⟨61 * second⟩ := by
    refine (nextAt_iff hourAndSecond_reads rfl (turn 1)).mpr ?_
    decide +kernel
  have hresult : calculateNextCronFire hourAndSecond (turn 1)
      (cronSchedule "[\"0 0 * * * *\",\"* * * * * *\"]") = some ⟨3600 * second⟩ := by
    decide +kernel
  exact absurd ((hgives.earliest _ hresult).2 1 _ hsecond) (by decide)

end Khronos.Proofs
