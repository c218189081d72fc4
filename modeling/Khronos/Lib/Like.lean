import Mathlib.Data.List.Infix

namespace Khronos.Lib.Like

/-- A piece of a pattern: any text, any one letter, or a letter. -/
inductive Token (α : Type) where
  | any
  | one
  | letter (a : α)

/-- The texts of a pattern, where a letter stands for all that are the same. -/
inductive Matches (same : α → α → Prop) : List (Token α) → List α → Prop
  | nil : Matches same [] []
  | any (u : List α) (h : Matches same p t) : Matches same (.any :: p) (u ++ t)
  | one (a : α) (h : Matches same p t) : Matches same (.one :: p) (a :: t)
  | letter (hs : same a b) (h : Matches same p t) : Matches same (.letter a :: p) (b :: t)

variable {same : α → α → Prop}

theorem nil_iff {t : List α} : Matches same [] t ↔ t = [] := by
  constructor
  · intro h
    cases h
    rfl
  · rintro rfl
    exact .nil

theorem any_iff {p : List (Token α)} {t : List α} :
    Matches same (.any :: p) t ↔ ∃ v, v <:+ t ∧ Matches same p v := by
  constructor
  · intro h
    cases h with
    | any u h => exact ⟨_, List.suffix_append _ _, h⟩
  · rintro ⟨v, ⟨u, rfl⟩, h⟩
    exact .any u h

theorem one_iff {p : List (Token α)} {t : List α} :
    Matches same (.one :: p) t ↔ ∃ b v, t = b :: v ∧ Matches same p v := by
  constructor
  · intro h
    cases h with
    | one b h => exact ⟨b, _, rfl, h⟩
  · rintro ⟨b, v, rfl, h⟩
    exact .one b h

theorem letter_iff {a : α} {p : List (Token α)} {t : List α} :
    Matches same (.letter a :: p) t ↔ ∃ b v, t = b :: v ∧ same a b ∧ Matches same p v := by
  constructor
  · intro h
    cases h with
    | letter hs h => exact ⟨_, _, rfl, hs, h⟩
  · rintro ⟨b, v, rfl, hs, h⟩
    exact .letter hs h

theorem Matches.append {p q : List (Token α)} {u v : List α} (hp : Matches same p u)
    (hq : Matches same q v) : Matches same (p ++ q) (u ++ v) := by
  induction hp with
  | nil => exact hq
  | any w _ ih =>
    rw [List.append_assoc]
    exact .any w ih
  | one a _ ih => exact .one a ih
  | letter hs _ ih => exact .letter hs ih

/-- A text of a pattern of two parts has two parts. -/
theorem Matches.split {p q : List (Token α)} {t : List α} (h : Matches same (p ++ q) t) :
    ∃ u v, t = u ++ v ∧ Matches same p u ∧ Matches same q v := by
  induction p generalizing t with
  | nil => exact ⟨[], t, rfl, .nil, h⟩
  | cons x p ih =>
    cases h with
    | any w h =>
      obtain ⟨u, v, rfl, hp, hq⟩ := ih h
      exact ⟨w ++ u, v, (List.append_assoc _ _ _).symm, .any w hp, hq⟩
    | one a h =>
      obtain ⟨u, v, rfl, hp, hq⟩ := ih h
      exact ⟨a :: u, v, rfl, .one a hp, hq⟩
    | letter hs h =>
      obtain ⟨u, v, rfl, hp, hq⟩ := ih h
      exact ⟨_ :: u, v, rfl, .letter hs hp, hq⟩

theorem any_matches (t : List α) : Matches same [.any] t := by
  have h : Matches same [.any] (t ++ []) := .any t .nil
  rwa [List.append_nil] at h

/-- A text read as a pattern has itself among its texts. -/
theorem matches_self {read : α → Token α} (hread : ∀ a b, read a = .letter b → same b a)
    (t : List α) : Matches same (t.map read) t := by
  induction t with
  | nil => exact .nil
  | cons a t ih =>
    rw [List.map_cons]
    cases ha : read a with
    | any => exact .any [a] ih
    | one => exact .one a ih
    | letter b => exact .letter (hread a b ha) ih

end Khronos.Lib.Like
