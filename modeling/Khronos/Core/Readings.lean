import Khronos.Core.Time
import Mathlib.Data.List.TakeWhile

namespace Khronos.Time

/-- What is read as digits stands at the front of the text. -/
theorem digits_consumed (width acc count : Nat) (s : List Char) :
    ∃ pre, s = pre ++ (digits width acc count s).2.2 ∧ (∀ c ∈ pre, c.isDigit = true) ∧
      (digits width acc count s).2.1 = count + pre.length := by
  induction width generalizing acc count s with
  | zero => exact ⟨[], by cases s <;> rfl, by simp, by cases s <;> rfl⟩
  | succ width ih =>
    cases s with
    | nil => exact ⟨[], rfl, by simp, rfl⟩
    | cons c rest =>
      rw [digits]
      split
      · rename_i hc
        obtain ⟨pre, hs, hdigits, hcount⟩ := ih (acc * 10 + (c.toNat - 48)) (count + 1) rest
        refine ⟨c :: pre, ?_, ?_, ?_⟩
        · rw [List.cons_append, ← hs]
        · intro d hd
          rcases List.mem_cons.mp hd with rfl | hd
          · exact hc
          · exact hdigits d hd
        · rw [hcount, List.length_cons]
          omega
      · exact ⟨[], rfl, by simp, rfl⟩

theorem number_consumed (h : number width s = some (n, rest)) :
    ∃ pre, s = pre ++ rest ∧ pre ≠ [] ∧ ∀ c ∈ pre, c.isDigit = true := by
  obtain ⟨pre, hs, hdigits, hcount⟩ := digits_consumed width 0 0 s
  unfold number at h
  generalize digits width 0 0 s = out at h hs hcount
  obtain ⟨value, count, left⟩ := out
  cases count with
  | zero => cases h
  | succ count =>
    cases h
    refine ⟨pre, hs, ?_, hdigits⟩
    rintro rfl
    cases hcount

theorem number_suffix (h : number width s = some (n, rest)) : rest <:+ s := by
  obtain ⟨pre, rfl, _⟩ := number_consumed h
  exact List.suffix_append pre rest

/-- A number that `f` puts into the record. -/
theorem field_suffix {f : Nat × List Char → Parsed × List Char} (hf : ∀ x, (f x).2 = x.2)
    (h : (number width s).map f = some (p', rest)) : rest <:+ s := by
  obtain ⟨⟨n, left⟩, hn, he⟩ := Option.map_eq_some_iff.mp h
  obtain rfl : left = rest := (hf (n, left)).symm.trans (congrArg Prod.snd he)
  exact number_suffix hn

theorem trimStart_suffix (s : List Char) : trimStart s <:+ s := List.dropWhile_suffix _

theorem year_suffix (h : parseItem .year p s = some (p', rest)) : rest <:+ s := by
  refine List.IsSuffix.trans ?_ (trimStart_suffix s)
  unfold parseItem at h
  dsimp only at h
  split at h
  · rename_i he
    rw [he]
    exact (field_suffix (fun _ => rfl) h).trans (List.suffix_cons _ _)
  · rename_i he
    rw [he]
    exact (field_suffix (fun _ => rfl) h).trans (List.suffix_cons _ _)
  · exact field_suffix (fun _ => rfl) h

/-- The last character of a text is a digit. -/
def EndsInDigit (s : List Char) : Prop := ∃ c, s.getLast? = some c ∧ c.isDigit = true

theorem getLast?_suffix {s t : List Char} (h : t <:+ s) (hc : t.getLast? = some c) :
    s.getLast? = some c := by
  obtain ⟨pre, rfl⟩ := h
  rw [List.getLast?_append, hc]
  rfl

theorem EndsInDigit.of_suffix (ht : EndsInDigit t) (h : t <:+ s) : EndsInDigit s := by
  obtain ⟨c, hc, hdigit⟩ := ht
  exact ⟨c, getLast?_suffix h hc, hdigit⟩

theorem EndsInDigit.of_all (hne : pre ≠ []) (hall : ∀ c ∈ pre, c.isDigit = true) :
    EndsInDigit pre :=
  ⟨pre.getLast hne, List.getLast?_eq_some_getLast hne, hall _ (List.getLast_mem hne)⟩

/-- A fraction is nothing, or a point with a digit after it and perhaps more. -/
theorem fraction_consumed (h : parseItem .fraction p s = some (p', rest)) :
    ∃ pre, s = pre ++ rest ∧ (pre = [] ∨ EndsInDigit pre) := by
  unfold parseItem at h
  dsimp only at h
  split at h
  · rename_i after
    obtain ⟨pre, hs, hdigits, hcount⟩ := digits_consumed 9 0 0 after
    generalize digits 9 0 0 after = out at h hs hcount
    obtain ⟨value, count, left⟩ := out
    cases count with
    | zero => cases h
    | succ count =>
      cases h
      have hpre : pre ≠ [] := by
        rintro rfl
        cases hcount
      -- The digits that count, and those past the ninth.
      have hall : ∀ c ∈ pre ++ left.takeWhile Char.isDigit, c.isDigit = true := by
        intro c hc
        rcases List.mem_append.mp hc with hc | hc
        · exact hdigits c hc
        · exact List.mem_takeWhile_imp hc
      refine ⟨'.' :: (pre ++ left.takeWhile Char.isDigit), ?_, .inr ?_⟩
      · rw [List.cons_append, List.append_assoc, List.takeWhile_append_dropWhile, ← hs]
      · exact (EndsInDigit.of_all (by simp [hpre]) hall).of_suffix (List.suffix_cons _ _)
  · cases h
    exact ⟨[], rfl, .inl rfl⟩

theorem digits_suffix (h : digits width 0 0 s = (n, count, rest)) : rest <:+ s := by
  obtain ⟨pre, hs, _⟩ := digits_consumed width 0 0 s
  rw [h] at hs
  exact ⟨pre, hs.symm⟩

theorem timezoneOffset_suffix (h : timezoneOffset s = some (n, rest)) : rest <:+ s := by
  unfold timezoneOffset at h
  cases hsign : s.head?.bind offsetSign with
  | none =>
    rw [hsign] at h
    cases h
  | some negative =>
    simp only [hsign, Option.bind_eq_bind, Option.bind_some] at h
    split at h
    · rename_i hours left hhours
      split at h
      · rename_i minutes last hminutes
        split at h
        · cases h
          have hleft : left <:+ s := (digits_suffix hhours).trans (List.tail_suffix s)
          exact ((digits_suffix hminutes).trans (List.dropWhile_suffix _)).trans hleft
        · cases h
      · cases h
    · cases h

/-- What is left of a text after an item of the format is an end of it. -/
theorem parseItem_suffix (h : parseItem item p s = some (p', rest)) : rest <:+ s := by
  cases item with
  | year => exact year_suffix h
  | month => exact (field_suffix (fun _ => rfl) h).trans (trimStart_suffix s)
  | day => exact (field_suffix (fun _ => rfl) h).trans (trimStart_suffix s)
  | hour => exact (field_suffix (fun _ => rfl) h).trans (trimStart_suffix s)
  | minute => exact (field_suffix (fun _ => rfl) h).trans (trimStart_suffix s)
  | second => exact (field_suffix (fun _ => rfl) h).trans (trimStart_suffix s)
  | fraction =>
    obtain ⟨pre, rfl, _⟩ := fraction_consumed h
    exact List.suffix_append pre rest
  | offset =>
    obtain ⟨⟨n, left⟩, hoffset, he⟩ := Option.map_eq_some_iff.mp h
    cases he
    exact (timezoneOffset_suffix hoffset).trans (trimStart_suffix s)
  | literal c =>
    cases s with
    | nil => cases h
    | cons d s =>
      rw [parseItem] at h
      split at h
      · cases h
        exact List.suffix_cons d rest
      · cases h
  | space =>
    cases h
    exact List.dropWhile_suffix _

theorem parseItems_cons (h : parseItems (item :: items) p s = some q) :
    ∃ p' t, parseItem item p s = some (p', t) ∧ parseItems items p' t = some q := by
  unfold parseItems at h
  split at h
  · exact ⟨_, _, ‹_›, h⟩
  · cases h

theorem parseItems_nil (h : parseItems [] p s = some q) : s = [] := by
  unfold parseItems at h
  split at h
  · exact List.isEmpty_iff.mp ‹_›
  · cases h

/-- The end of a format is left with an end of the text. -/
theorem parseItems_end (xs ys : List Item) (h : parseItems (xs ++ ys) p s = some q) :
    ∃ p' t, t <:+ s ∧ parseItems ys p' t = some q := by
  induction xs generalizing p s with
  | nil => exact ⟨p, s, List.suffix_refl s, h⟩
  | cons item xs ih =>
    obtain ⟨p', t, hitem, hrest⟩ := parseItems_cons h
    obtain ⟨p'', u, hu, hend⟩ := ih hrest
    exact ⟨p'', u, hu.trans (parseItem_suffix hitem), hend⟩

/-- Only the item of an offset reads one. -/
theorem parseItem_offset (hne : item ≠ .offset) (h : parseItem item p s = some (p', rest)) :
    p'.offset = p.offset := by
  -- A number goes into its own field.
  have hfield {width : Nat} {s : List Char} {f : Nat × List Char → Parsed × List Char}
      (hf : ∀ x, (f x).1.offset = p.offset) (h : (number width s).map f = some (p', rest)) :
      p'.offset = p.offset := by
    obtain ⟨x, _, he⟩ := Option.map_eq_some_iff.mp h
    rw [← hf x, he]
  unfold parseItem at h
  cases item with
  | year =>
    dsimp only at h
    split at h
    · exact hfield (fun _ => rfl) h
    · exact hfield (fun _ => rfl) h
    · exact hfield (fun _ => rfl) h
  | month => exact hfield (fun _ => rfl) h
  | day => exact hfield (fun _ => rfl) h
  | hour => exact hfield (fun _ => rfl) h
  | minute => exact hfield (fun _ => rfl) h
  | second => exact hfield (fun _ => rfl) h
  | fraction =>
    dsimp only at h
    split at h
    · split at h
      · cases h
      · cases h
        rfl
    · cases h
      rfl
  | offset => exact absurd rfl hne
  | literal c =>
    dsimp only at h
    split at h
    · split at h
      · cases h
        rfl
      · cases h
    · cases h
  | space =>
    cases h
    rfl

theorem parseItems_offset (hmem : .offset ∉ items) (h : parseItems items p s = some q) :
    q.offset = p.offset := by
  induction items generalizing p s with
  | nil =>
    unfold parseItems at h
    split at h
    · cases h
      rfl
    · cases h
  | cons item items ih =>
    obtain ⟨p', t, hitem, hrest⟩ := parseItems_cons h
    have hne : item ≠ .offset := fun he => hmem (he ▸ List.mem_cons_self)
    rw [ih (fun hm => hmem (List.mem_cons_of_mem _ hm)) hrest, parseItem_offset hne hitem]

/-- A format without an item for the offset names no instant, whatever the text. -/
theorem parse_without_offset (h : .offset ∉ strftime fmt.toList) :
    DateTime.parseFromStr s fmt = none := by
  unfold DateTime.parseFromStr
  cases hitems : parseItems (strftime fmt.toList) {} s.toList with
  | none => rfl
  | some p =>
    have hoffset : p.offset = none := parseItems_offset h hitems
    simp only [Option.bind_eq_bind, Option.bind_some, hoffset, Option.bind_none]

theorem findSome?_without_offset {fmts : List String}
    (h : ∀ fmt ∈ fmts, .offset ∉ strftime fmt.toList) (s : String) :
    fmts.findSome? (DateTime.parseFromStr s) = none :=
  List.findSome?_eq_none_iff.mpr fun fmt hfmt => parse_without_offset (h fmt hfmt)

theorem second_consumed (h : parseItem .second p s = some (p', rest)) :
    ∃ pre, pre ++ rest <:+ s ∧ EndsInDigit pre := by
  obtain ⟨⟨n, left⟩, hn, he⟩ := Option.map_eq_some_iff.mp h
  obtain ⟨pre, hs, hne, hall⟩ := number_consumed hn
  cases he
  exact ⟨pre, hs ▸ trimStart_suffix s, .of_all hne hall⟩

/-- A format that ends in a character is one for texts that do. -/
theorem ends_literal (xs : List Item) (h : parseItems (xs ++ [.literal c]) p s = some q) :
    s.getLast? = some c := by
  obtain ⟨p', t, ht, hrest⟩ := parseItems_end xs _ h
  obtain ⟨p'', u, hitem, hend⟩ := parseItems_cons hrest
  refine getLast?_suffix ht ?_
  cases t with
  | nil => cases hitem
  | cons d t =>
    unfold parseItem at hitem
    dsimp only at hitem
    split at hitem
    · cases hitem
      rw [parseItems_nil hend, ‹c = d›]
      rfl
    · cases hitem

/-- A format that ends in the seconds is one for texts that end in a digit. -/
theorem ends_second (xs : List Item) (h : parseItems (xs ++ [.second]) p s = some q) :
    EndsInDigit s := by
  obtain ⟨p', t, ht, hrest⟩ := parseItems_end xs _ h
  obtain ⟨p'', u, hitem, hend⟩ := parseItems_cons hrest
  obtain ⟨pre, hpre, hdigit⟩ := second_consumed hitem
  rw [parseItems_nil hend, List.append_nil] at hpre
  exact hdigit.of_suffix (hpre.trans ht)

/-- So is one that ends in a fraction of the seconds. -/
theorem ends_fraction (xs : List Item) (h : parseItems (xs ++ [.second, .fraction]) p s = some q) :
    EndsInDigit s := by
  obtain ⟨p', t, ht, hrest⟩ := parseItems_end xs _ h
  obtain ⟨p'', u, hitem, hfraction⟩ := parseItems_cons hrest
  obtain ⟨p₃, v, hitem', hend⟩ := parseItems_cons hfraction
  obtain ⟨pre, hpre, hdigit⟩ := second_consumed hitem
  obtain ⟨pre', rfl, hcases⟩ := fraction_consumed hitem'
  rw [parseItems_nil hend, List.append_nil] at hpre
  rcases hcases with rfl | hdigit'
  · rw [List.append_nil] at hpre
    exact hdigit.of_suffix (hpre.trans ht)
  · exact hdigit'.of_suffix ((List.suffix_append pre pre').trans (hpre.trans ht))

end Khronos.Time
