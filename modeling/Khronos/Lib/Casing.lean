import Mathlib

namespace Khronos.Lib

/-- What the Unicode tables say of a character: `char::is_uppercase`, and the characters that
`char::to_lowercase` gives. -/
structure CharTables where
  isUppercase : Char → Bool
  toLowercase : Char → List Char

namespace CharTables

/-- ASCII letters have their ASCII cases. Past them only the uppercase U+0130 and U+212A lower to
text that starts with an ASCII character, which is `i` for the one and `k` for the other. -/
structure Unicode (u : CharTables) : Prop where
  ascii : ∀ c : Char, c.val < 128 → u.isUppercase c = c.isUpper ∧ u.toLowercase c = [c.toLower]
  beyond : ∀ c d : Char, 128 ≤ c.val → (u.toLowercase c).head? = some d → d.val < 128 →
    u.isUppercase c = true ∧ (d = 'i' ∨ d = 'k')

/-- The tables that leave all but ASCII letters alone. -/
def onlyAscii : CharTables := ⟨Char.isUpper, fun c => [c.toLower]⟩

/-- `c.to_lowercase().next().unwrap_or(c)`. -/
def lower (u : CharTables) (c : Char) : Char := (u.toLowercase c).head?.getD c

/-- Lowercase, with an underscore before each capital. -/
def snake (u : CharTables) (cs : List Char) : List Char :=
  cs.flatMap fun c => (if u.isUppercase c then ['_'] else []) ++ [u.lower c]

theorem snake_cons (u : CharTables) (c : Char) (cs : List Char) :
    u.snake (c :: cs) =
      if u.isUppercase c then '_' :: u.lower c :: u.snake cs else u.lower c :: u.snake cs := by
  cases h : u.isUppercase c <;> simp [snake, h]

theorem snake_eq_nil (u : CharTables) (cs : List Char) : u.snake cs = [] ↔ cs = [] := by
  cases cs with
  | nil => simp [snake]
  | cons c cs =>
    rw [snake_cons]
    split <;> simp

/-- The first character of a text is one that is kept, or a capital with its underscore. -/
theorem snake_cons_iff (u : CharTables) (c : Char) (cs : List Char) (a : Char) (t : List Char) :
    u.snake (c :: cs) = a :: t ↔
      ((u.isUppercase c = false ∧ u.lower c = a) ∧ u.snake cs = t) ∨
        (a = '_' ∧ u.isUppercase c = true ∧ u.lower c :: u.snake cs = t) := by
  rw [snake_cons]
  cases u.isUppercase c <;> simp [eq_comm]

end CharTables

/-- The ASCII spellings whose snake case is this text: a letter after an underscore may also
stand as a capital without it. -/
def spellings : List Char → List (List Char)
  | [] => [[]]
  | [a] => if a.isUpper then [] else [[a]]
  | a :: b :: rest =>
    (if a.isUpper then [] else (spellings (b :: rest)).map (a :: ·)) ++
      (if a = '_' && b.isLower then (spellings rest).map (b.toUpper :: ·) else [])

theorem mem_spellings {a b c : Char} {rest cs : List Char} :
    c :: cs ∈ spellings (a :: b :: rest) ↔
      ((a.isUpper = false ∧ c = a) ∧ cs ∈ spellings (b :: rest)) ∨
        (a = '_' ∧ (b.isLower = true ∧ c = b.toUpper) ∧ cs ∈ spellings rest) := by
  rw [spellings, List.mem_append]
  refine or_congr ?_ ?_
  · cases a.isUpper <;> simp [and_comm, eq_comm]
  · cases b.isLower <;> by_cases ha : a = '_' <;> simp [ha, and_comm, eq_comm]

/-- ASCII text that no capital past ASCII lowers into. -/
structure AsciiTarget (t : List Char) : Prop where
  ascii : t.all (fun a => a.val < 128) = true
  noI : ¬ ['_', 'i'] <:+: t
  noK : ¬ ['_', 'k'] <:+: t

theorem AsciiTarget.head (h : AsciiTarget (a :: t)) : a.val < 128 := by
  have h := h.ascii
  rw [List.all_cons, Bool.and_eq_true] at h
  exact of_decide_eq_true h.1

theorem AsciiTarget.tail (h : AsciiTarget (a :: t)) : AsciiTarget t where
  ascii := by
    have h := h.ascii
    rw [List.all_cons, Bool.and_eq_true] at h
    exact h.2
  noI := fun hi => h.noI (hi.trans (List.suffix_cons a t).isInfix)
  noK := fun hi => h.noK (hi.trans (List.suffix_cons a t).isInfix)

/-- After an underscore stands neither `i` nor `k`. -/
theorem AsciiTarget.second (h : AsciiTarget ('_' :: b :: t)) : b ≠ 'i' ∧ b ≠ 'k' := by
  refine ⟨?_, ?_⟩
  · rintro rfl
    exact h.noI ⟨[], t, rfl⟩
  · rintro rfl
    exact h.noK ⟨[], t, rfl⟩

theorem ascii_of_isUpper {c : Char} (h : c.isUpper = true) : c.val < 128 := by
  simp only [Char.isUpper, decide_eq_true_eq] at h
  exact UInt32.lt_of_le_of_lt h.2 (by decide)

theorem CharTables.onlyAscii_unicode : onlyAscii.Unicode where
  ascii := fun _ _ => ⟨rfl, rfl⟩
  beyond := by
    intro c d hc hd hlt
    -- A character past ASCII is left as it is.
    have hup : ¬ c.isUpper = true := fun h => absurd (ascii_of_isUpper h) (UInt32.not_lt.mpr hc)
    rw [← Option.some.inj hd, Char.toLower_eq_of_not_isUpper hup] at hlt
    exact absurd hlt (UInt32.not_lt.mpr hc)

namespace CharTables.Unicode

variable {u : CharTables} (hu : u.Unicode)
include hu

theorem lower_ascii (hc : c.val < 128) : u.lower c = c.toLower := by
  rw [lower, (hu.ascii c hc).2]
  rfl

/-- A character past ASCII whose lowercase starts in ASCII is a capital for `i` or `k`. -/
theorem lower_beyond (hc : 128 ≤ c.val) (hd : (u.lower c).val < 128) :
    u.isUppercase c = true ∧ (u.lower c = 'i' ∨ u.lower c = 'k') := by
  cases h : (u.toLowercase c).head? with
  | none =>
    rw [lower, h, Option.getD_none] at hd
    exact absurd hd (UInt32.not_lt.mpr hc)
  | some d =>
    rw [lower, h, Option.getD_some] at hd ⊢
    exact hu.beyond c d hc h hd

/-- A letter that is not a capital stands for itself alone. -/
theorem kept_iff (ha : a.val < 128) :
    u.isUppercase c = false ∧ u.lower c = a ↔ a.isUpper = false ∧ c = a := by
  constructor
  · rintro ⟨hup, rfl⟩
    rcases UInt32.lt_or_le c.val 128 with hc | hc
    · rw [(hu.ascii c hc).1] at hup
      rw [hu.lower_ascii hc, Char.toLower_eq_of_not_isUpper (Bool.eq_false_iff.mp hup)]
      exact ⟨hup, rfl⟩
    · rw [(hu.lower_beyond hc ha).1] at hup
      cases hup
  · rintro ⟨hup, rfl⟩
    rw [(hu.ascii c ha).1, hu.lower_ascii ha]
    exact ⟨hup, Char.toLower_eq_of_not_isUpper (Bool.eq_false_iff.mp hup)⟩

/-- A capital stands for its lowercase letter, unless that is `i` or `k`. -/
theorem raised_iff (hb : b.val < 128) (hi : b ≠ 'i') (hk : b ≠ 'k') :
    u.isUppercase c = true ∧ u.lower c = b ↔ b.isLower = true ∧ c = b.toUpper := by
  constructor
  · rintro ⟨hup, rfl⟩
    rcases UInt32.lt_or_le c.val 128 with hc | hc
    · rw [(hu.ascii c hc).1] at hup
      rw [hu.lower_ascii hc]
      have hupper := Char.toUpper_eq_of_not_isLower (Char.not_isLower_of_isUpper hup)
      exact ⟨by simp [Char.isAlpha, hup], by rw [Char.toUpper_toLower_eq_toUpper, hupper]⟩
    · rcases (hu.lower_beyond hc hb).2 with he | he
      · exact absurd he hi
      · exact absurd he hk
  · rintro ⟨hl, rfl⟩
    have hup : b.toUpper.isUpper = true := by simp [Char.isAlpha, hl]
    have hlower := Char.toLower_eq_of_not_isUpper (Char.not_isUpper_of_isLower hl)
    have hc := ascii_of_isUpper hup
    rw [(hu.ascii _ hc).1, hu.lower_ascii hc, Char.toLower_toUpper_eq_toLower]
    exact ⟨hup, hlower⟩

/-- At the start of a text a capital brings no underscore. -/
theorem lower_iff (ha : a.val < 128) (hi : a ≠ 'i') (hk : a ≠ 'k') :
    u.lower c = a ↔ (a.isUpper = false ∧ c = a) ∨ (a.isLower = true ∧ c = a.toUpper) := by
  rw [← hu.kept_iff ha, ← hu.raised_iff ha hi hk]
  cases u.isUppercase c <;> simp

/-- What lowers to a target is found among its spellings: by induction on the target, one
character or an underscore with its letter at a time. -/
theorem snake_iff (ht : AsciiTarget t) : u.snake cs = t ↔ cs ∈ spellings t := by
  induction t using List.twoStepInduction generalizing cs with
  | nil => simp [snake_eq_nil, spellings]
  | singleton a =>
    cases cs with
    | nil => cases h : a.isUpper <;> simp [snake, spellings, h]
    | cons c cs =>
      rw [snake_cons_iff, hu.kept_iff ht.head, snake_eq_nil]
      cases h : a.isUpper <;> simp [spellings, h]
  | cons_cons a b rest ih₁ ih₂ =>
    cases cs with
    | nil => cases h : a.isUpper <;> simp [snake, spellings, h]
    | cons c cs =>
      rw [snake_cons_iff, mem_spellings, hu.kept_iff ht.head, ih₂ b ht.tail]
      refine or_congr_right (and_congr_right fun ha => ?_)
      subst ha
      obtain ⟨hi, hk⟩ := ht.second
      rw [List.cons.injEq, ih₁ ht.tail.tail, ← and_assoc, hu.raised_iff ht.tail.head hi hk]

end CharTables.Unicode

end Khronos.Lib
