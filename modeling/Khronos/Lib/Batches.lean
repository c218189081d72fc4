import Khronos.Lib.Programs
import Mathlib.Data.List.Forall2

namespace Khronos.Lib

section
variable {P : ρ → α → Prop} {rows : List ρ} {as : List α} {a : α}

theorem forall₂_column {key : ρ → κ} {column : α → κ} (hk : ∀ r a, P r a → column a = key r)
    (h : List.Forall₂ P rows as) : as.map column = rows.map key := by
  induction h with
  | nil => rfl
  | cons hp _ ih => rw [List.map_cons, List.map_cons, hk _ _ hp, ih]

theorem forall₂_origin (h : List.Forall₂ P rows as) (ha : a ∈ as) : ∃ r ∈ rows, P r a := by
  induction h with
  | nil => cases ha
  | cons hp _ ih =>
    rcases List.mem_cons.mp ha with rfl | ha
    · exact ⟨_, by simp, hp⟩
    · obtain ⟨r, hr, hp⟩ := ih ha
      exact ⟨r, by simp [hr], hp⟩

/-- Tests that agree on related elements stop two searches at related elements. -/
theorem forall₂_find {p : α → Bool} {q : ρ → Bool} (hpq : ∀ r a, P r a → p a = q r)
    (h : List.Forall₂ P rows as) : Option.Rel P (rows.find? q) (as.find? p) := by
  induction h with
  | nil => exact .none
  | @cons r a _ _ hp _ ih =>
    rw [List.find?_cons, List.find?_cons, hpq r a hp]
    cases q r with
    | true => exact .some hp
    | false => exact ih

end

section
variable {f : ρ → Except ε α} {rows : List ρ} {as : List α} {a : α}

/-- A list all of whose rows are decoded, and only such a list. -/
theorem mapM_eq_ok : rows.mapM f = .ok as ↔ List.Forall₂ (fun r a => f r = .ok a) rows as := by
  induction rows generalizing as with
  | nil =>
    rw [List.mapM_nil, List.forall₂_nil_left_iff]
    exact ⟨fun h => (Except.ok.inj h).symm, fun h => h ▸ rfl⟩
  | cons r rows ih =>
    rw [List.mapM_cons, bind_eq_ok, List.forall₂_cons_left_iff]
    refine exists_congr (fun a => ?_)
    simp only [bind_eq_ok, ih]
    constructor
    · rintro ⟨ha, tail, htail, he⟩
      exact ⟨tail, ha, htail, (Except.ok.inj he).symm⟩
    · rintro ⟨tail, ha, htail, rfl⟩
      exact ⟨ha, tail, htail, rfl⟩

/-- A list all of whose rows are decoded is decoded, row by row. -/
theorem mapM_ok {P : ρ → α → Prop} (h : ∀ r ∈ rows, ∃ a, f r = .ok a ∧ P r a) :
    ∃ as, rows.mapM f = .ok as ∧ List.Forall₂ P rows as := by
  induction rows with
  | nil => exact ⟨[], rfl, .nil⟩
  | cons r rows ih =>
    obtain ⟨a, ha, hp⟩ := h r (by simp)
    obtain ⟨as, has, hall⟩ := ih (fun q hq => h q (by simp [hq]))
    refine ⟨a :: as, ?_, .cons hp hall⟩
    rw [List.mapM_cons, ha, has]
    rfl

/-- What a decoded list holds comes from its rows. -/
theorem mapM_mem (h : rows.mapM f = .ok as) (ha : a ∈ as) : ∃ r ∈ rows, f r = .ok a := by
  have hall := mapM_eq_ok.mp h
  obtain ⟨r, hr, hd⟩ := forall₂_origin hall ha
  exact ⟨r, hr, hd⟩

section
variable {p : α → Bool} {q : ρ → Bool} (hf : ∀ r a, f r = .ok a → p a = q r)
include hf

/-- A search among decoded rows finds the row a search among the rows themselves finds. -/
theorem find_mapM (hm : rows.mapM f = .ok as) (ha : as.find? p = some a) :
    ∃ r, rows.find? q = some r ∧ f r = .ok a := by
  have hrel := forall₂_find hf (mapM_eq_ok.mp hm)
  rw [ha] at hrel
  cases hr : rows.find? q with
  | none =>
    rw [hr] at hrel
    cases hrel
  | some r =>
    rw [hr] at hrel
    cases hrel with
    | some hd => exact ⟨r, rfl, hd⟩

/-- And it finds one where the search among the rows does. -/
theorem find_mapM_some (hm : rows.mapM f = .ok as) (hr : rows.find? q = some r) :
    ∃ a, as.find? p = some a ∧ f r = .ok a := by
  have hrel := forall₂_find hf (mapM_eq_ok.mp hm)
  rw [hr] at hrel
  cases ha : as.find? p with
  | none =>
    rw [ha] at hrel
    cases hrel
  | some a =>
    rw [ha] at hrel
    cases hrel with
    | some hd => exact ⟨a, rfl, hd⟩

/-- A search among decoded rows finds none where the search among the rows finds none. -/
theorem find_mapM_none (hm : rows.mapM f = .ok as) (hr : rows.find? q = none) :
    as.find? p = none := by
  have hrel := forall₂_find hf (mapM_eq_ok.mp hm)
  rw [hr] at hrel
  cases ha : as.find? p with
  | none => rfl
  | some a =>
    rw [ha] at hrel
    cases hrel

end

end

end Khronos.Lib
