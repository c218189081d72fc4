import Mathlib.Algebra.GroupWithZero.Nat
import Mathlib.Data.List.Basic
import Mathlib.Logic.Function.Basic

namespace Khronos.Lib.Printing

def quote : Char := Char.ofNat 34

def backslash : Char := Char.ofNat 92

def openBrace : Char := Char.ofNat 123

def closeBrace : Char := Char.ofNat 125

/-- What a JSON string shows of a character that is no control character. -/
def escape (c : Char) : List Char := if c = quote ∨ c = backslash then [backslash, c] else [c]

/-- The literal of a JSON string. -/
def quoted (s : String) : List Char := quote :: (s.toList.flatMap escape ++ [quote])

theorem escaped_prefix {xs ys r s : List Char}
    (h : xs.flatMap escape ++ quote :: r = ys.flatMap escape ++ quote :: s) : xs = ys ∧ r = s := by
  have hne : quote ≠ backslash := by decide
  induction xs generalizing ys with
  | nil =>
    cases ys with
    | nil => exact ⟨rfl, (List.cons.inj h).2⟩
    | cons y ys =>
      simp only [List.flatMap_nil, List.nil_append, List.flatMap_cons, escape] at h
      split_ifs at h with hy
      · exact absurd (List.cons.inj h).1 hne
      · exact absurd (.inl (List.cons.inj h).1.symm) hy
  | cons x xs ih =>
    cases ys with
    | nil =>
      simp only [List.flatMap_nil, List.nil_append, List.flatMap_cons, escape] at h
      split_ifs at h with hx
      · exact absurd (List.cons.inj h).1.symm hne
      · exact absurd (.inl (List.cons.inj h).1) hx
    | cons y ys =>
      simp only [List.flatMap_cons, escape, List.append_assoc] at h
      split_ifs at h with hx hy hy
      · obtain ⟨rfl, hrest⟩ := List.cons.inj (List.cons.inj h).2
        obtain ⟨rfl, he⟩ := ih hrest
        exact ⟨rfl, he⟩
      · exact absurd (.inr (List.cons.inj h).1.symm) hy
      · exact absurd (.inr (List.cons.inj h).1) hx
      · obtain ⟨rfl, hrest⟩ := List.cons.inj h
        obtain ⟨rfl, he⟩ := ih hrest
        exact ⟨rfl, he⟩

/-- A string literal can be told from what follows it. -/
theorem quoted_prefix {a b : String} {r s : List Char} (h : quoted a ++ r = quoted b ++ s) :
    a = b ∧ r = s := by
  simp only [quoted, List.cons_append, List.append_assoc, List.nil_append] at h
  obtain ⟨he, hr⟩ := escaped_prefix (List.cons.inj h).2
  exact ⟨String.toList_injective he, hr⟩

/-- The characters that can follow a value within a larger one. -/
def ends : List Char := [',', ']', closeBrace]

/-- What follows a value, or nothing. -/
def Ends (r : List Char) : Prop := ∀ c ∈ r.head?, c ∈ ends

/-- The printed values that come after a first one, up to the closing bracket. -/
def following (close : Char) : List (List Char) → List Char
  | [] => [close]
  | item :: items => ',' :: (item ++ following close items)

/-- The printed values of an array or of an object. -/
def bracketed (start close : Char) : List (List Char) → List Char
  | [] => [start, close]
  | item :: items => start :: (item ++ following close items)

theorem following_ends {close : Char} (hc : close ∈ ends) (items : List (List Char))
    (r : List Char) : Ends (following close items ++ r) := by
  cases items with
  | nil => simpa [following, Ends] using hc
  | cons item items => simp [following, Ends, ends]

theorem quoted_length (s : String) : s.length + 2 ≤ (quoted s).length := by
  have hle : ∀ l : List Char, l.length ≤ (l.flatMap escape).length := by
    intro l
    induction l with
    | nil => exact Nat.le_refl _
    | cons c l ih =>
      have hescape : 1 ≤ (escape c).length := by
        unfold escape
        split <;> simp
      rw [List.flatMap_cons, List.length_append, List.length_cons]
      omega
  have hs := hle s.toList
  rw [String.length_toList] at hs
  simp only [quoted, List.length_cons, List.length_append, List.length_nil]
  omega

theorem following_length (close : Char) (items : List (List Char)) :
    (following close items).length = (items.map fun item => item.length + 1).sum + 1 := by
  induction items with
  | nil => rfl
  | cons item items ih =>
    simp only [following, List.length_cons, List.length_append, ih, List.map_cons, List.sum_cons]
    omega

/-- An array of items takes a separator for each, and one bracket more at least. -/
theorem bracketed_length (start close : Char) (items : List (List Char)) :
    (items.map fun item => item.length + 1).sum + 1 ≤ (bracketed start close items).length := by
  cases items with
  | nil => simp [bracketed]
  | cons item items =>
    simp only [bracketed, List.length_cons, List.length_append, following_length, List.map_cons,
      List.sum_cons]
    omega

section
variable {α : Type} {print : α → List Char} {close : Char} {r s : List Char}

/-- A value whose text can be told from what follows it. -/
def Legible (print : α → List Char) (a : α) : Prop :=
  ∀ b r s, Ends r → Ends s → print a ++ r = print b ++ s → a = b ∧ r = s

theorem following_prefix (hc : close ∈ ends) (hcomma : close ≠ ',') {xs ys : List α}
    (hx : ∀ a ∈ xs, Legible print a)
    (h : following close (xs.map print) ++ r = following close (ys.map print) ++ s) :
    xs = ys ∧ r = s := by
  induction xs generalizing ys with
  | nil =>
    cases ys with
    | nil => exact ⟨rfl, (List.cons.inj h).2⟩
    | cons y ys => exact absurd (List.cons.inj h).1 hcomma
  | cons x xs ih =>
    cases ys with
    | nil => exact absurd (List.cons.inj h).1.symm hcomma
    | cons y ys =>
      simp only [List.map_cons, following, List.cons_append, List.append_assoc] at h
      obtain ⟨rfl, hrest⟩ := hx x (by simp) y _ _ (following_ends hc _ _)
        (following_ends hc _ _) (List.cons.inj h).2
      obtain ⟨rfl, he⟩ := ih (fun a ha => hx a (by simp [ha])) hrest
      exact ⟨rfl, he⟩

/-- An array of values that can be told from what follows them is such a value, unless one
of them begins like the end of an array. -/
theorem bracketed_prefix (hc : close ∈ ends) (hcomma : close ≠ ',') {start : Char}
    (hstart : ∀ (a : α) (t u : List Char), print a ++ t ≠ close :: u)
    {xs ys : List α} (hx : ∀ a ∈ xs, Legible print a)
    (h : bracketed start close (xs.map print) ++ r = bracketed start close (ys.map print) ++ s) :
    xs = ys ∧ r = s := by
  cases xs with
  | nil =>
    cases ys with
    | nil => exact ⟨rfl, (List.cons.inj (List.cons.inj h).2).2⟩
    | cons y ys =>
      simp only [List.map_cons, List.map_nil, bracketed, List.cons_append, List.append_assoc] at h
      exact absurd (List.cons.inj h).2.symm (hstart y _ _)
  | cons x xs =>
    cases ys with
    | nil =>
      simp only [List.map_cons, List.map_nil, bracketed, List.cons_append, List.append_assoc] at h
      exact absurd (List.cons.inj h).2 (hstart x _ _)
    | cons y ys =>
      simp only [List.map_cons, bracketed, List.cons_append, List.append_assoc] at h
      obtain ⟨rfl, hrest⟩ := hx x (by simp) y _ _ (following_ends hc _ _)
        (following_ends hc _ _) (List.cons.inj h).2
      obtain ⟨rfl, he⟩ := following_prefix hc hcomma (fun a ha => hx a (by simp [ha])) hrest
      exact ⟨rfl, he⟩

end

/-- A printer of legible values gives each its own text. -/
theorem injective_of_legible {α : Type} {print : α → List Char} (h : ∀ a, Legible print a) :
    Function.Injective (fun a => String.ofList (print a)) := by
  intro a b he
  have hl : print a ++ [] = print b ++ [] := by simpa using String.ofList_injective he
  exact (h a b [] [] (by simp [Ends]) (by simp [Ends]) hl).1

end Khronos.Lib.Printing
