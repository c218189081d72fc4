import Khronos.Core.Calendar
import Mathlib.Data.List.Lex

namespace Khronos.Time

theorem digit_lt (h : m % 10 < n % 10) : digit m < digit n := by
  have hall : ∀ j < 10, ∀ i < j, Char.ofNat (48 + i) < Char.ofNat (48 + j) := by decide
  exact hall _ (Nat.mod_lt n (by omega)) _ h

theorem digit_congr (h : m % 10 = n % 10) : digit m = digit n := by
  unfold digit
  rw [h]

theorem digit_isDigit (n : Nat) : (digit n).isDigit = true := by
  have hall : ∀ i < 10, (Char.ofNat (48 + i)).isDigit = true := by decide
  exact hall _ (Nat.mod_lt n (by omega))

theorem digit_value (n : Nat) : (digit n).toNat - 48 = n % 10 := by
  have hall : ∀ i < 10, (Char.ofNat (48 + i)).toNat - 48 = i := by decide
  exact hall _ (Nat.mod_lt n (by omega))

theorem lt_append {xs ys : List Char} (h : xs < ys) (hl : xs.length = ys.length)
    (us vs : List Char) : xs ++ us < ys ++ vs := by
  induction xs generalizing ys with
  | nil =>
    rw [List.eq_nil_of_length_eq_zero hl.symm] at h
    exact absurd h (List.not_lt_nil [])
  | cons x xs ih =>
    cases ys with
    | nil => cases hl
    | cons y ys =>
      rw [List.cons_append, List.cons_append, List.cons_lt_cons_iff]
      rcases List.cons_lt_cons_iff.mp h with hlt | ⟨rfl, hlt⟩
      · exact .inl hlt
      · exact .inr ⟨rfl, ih hlt (by simpa using hl)⟩

theorem cons_lt (c : Char) {xs ys : List Char} (h : xs < ys) : c :: xs < c :: ys :=
  List.cons_lt_cons_iff.mpr (.inr ⟨rfl, h⟩)

theorem two_lt (h : m < n) (hn : n < 100) : two m < two n := by
  unfold two
  rw [List.cons_lt_cons_iff, List.cons_lt_cons_iff]
  rcases Nat.lt_or_ge (m / 10) (n / 10) with hd | hd
  · exact .inl (digit_lt (by omega))
  · exact .inr ⟨digit_congr (by omega), .inl (digit_lt (by omega))⟩

theorem two_mod (n : Nat) : two n = two (n % 100) := by
  have htens : digit (n / 10) = digit (n % 100 / 10) := digit_congr (by omega)
  have hones : digit n = digit (n % 100) := digit_congr (by omega)
  rw [two, two, htens, hones]

theorem four_eq (n : Nat) : four n = two (n / 100) ++ two n := by
  have hhundreds : digit (n / 100 / 10) = digit (n / 1000) := digit_congr (by omega)
  simp only [four, two, List.cons_append, List.nil_append, hhundreds]

theorem four_lt (h : m < n) (hn : n < 10000) : four m < four n := by
  rw [four_eq, four_eq]
  rcases Nat.lt_or_ge (m / 100) (n / 100) with hd | hd
  · exact lt_append (two_lt hd (by omega)) rfl _ _
  · have hsame : m / 100 = n / 100 := by omega
    rw [hsame]
    apply List.append_left_lt
    rw [two_mod m, two_mod n]
    exact two_lt (by omega) (by omega)

/-- The instants whose year is written with four digits. -/
def DateTime.Plain (d : DateTime) : Prop :=
  0 ≤ (civil (d.secs / 86400)).year ∧ (civil (d.secs / 86400)).year ≤ 9999

instance (d : DateTime) : Decidable d.Plain := inferInstanceAs (Decidable (_ ∧ _))

/-- A clock shows no other ones. -/
theorem Clock.plain (c : Clock) : c.time.Plain := by
  have hsince := c.since
  have hbefore := c.before
  have hsecs : 0 ≤ c.time.secs ∧ c.time.secs < 253402300800 :=
    ⟨Int.ediv_nonneg hsince (by decide), Int.ediv_lt_of_lt_mul (by decide) hbefore⟩
  have hdays : 0 ≤ c.time.secs / 86400 ∧ c.time.secs / 86400 < 2932897 := by omega
  have hfirst : (civil 0).year = 1970 := by decide
  have hlast : (civil 2932896).year = 9999 := by decide
  have hyears : ∀ {m n : Int}, m ≤ n → (civil m).year ≤ (civil n).year := by
    intro m n hmn
    rcases Int.lt_or_eq_of_le hmn with hlt | rfl
    · rcases civil_before hlt with h | ⟨h, _⟩
      · exact Int.le_of_lt h
      · exact Int.le_of_eq h
    · exact Int.le_refl _
  have hlow := hyears hdays.1
  have hhigh := hyears (show c.time.secs / 86400 ≤ 2932896 by omega)
  unfold DateTime.Plain
  omega

/-- The text of a date and a time of the day. -/
def stampText (date : Date) (sod : Nat) : List Char :=
  yearText date.year ++ ('-' :: two date.month ++ ('-' :: two date.day ++
    (' ' :: two (sod / 3600) ++ (':' :: two (sod / 60 % 60) ++ ':' :: two (sod % 60)))))

theorem format_toList (d : DateTime) :
    d.format.toList = stampText (civil (d.secs / 86400)) (d.secs % 86400).toNat := by
  simp [DateTime.format, stampText]

theorem sod_lt (h : i < j) (hj : j < 86400) :
    ' ' :: two (i / 3600) ++ (':' :: two (i / 60 % 60) ++ ':' :: two (i % 60)) <
      ' ' :: two (j / 3600) ++ (':' :: two (j / 60 % 60) ++ ':' :: two (j % 60)) := by
  simp only [List.cons_append]
  apply cons_lt
  rcases Nat.lt_or_ge (i / 3600) (j / 3600) with hh | hh
  · exact lt_append (two_lt hh (by omega)) rfl _ _
  rw [show i / 3600 = j / 3600 by omega]
  apply List.append_left_lt
  apply cons_lt
  rcases Nat.lt_or_ge (i / 60 % 60) (j / 60 % 60) with hm | hm
  · exact lt_append (two_lt hm (by omega)) rfl _ _
  rw [show i / 60 % 60 = j / 60 % 60 by omega]
  apply List.append_left_lt
  apply cons_lt
  exact two_lt (by omega) (by omega)

theorem yearText_plain (h : 0 ≤ y) (h' : y ≤ 9999) : yearText y = four y.toNat := by
  rw [yearText, if_pos ⟨h, h'⟩]

theorem date_lt (h : d.Before e) (hd : 0 ≤ d.year) (he : e.year ≤ 9999) (hm : e.month ≤ 12)
    (hday : e.day ≤ 31) (i j : Nat) : stampText d i < stampText e j := by
  unfold stampText
  rcases h with hy | ⟨hy, hlt⟩
  · have hdy : d.year ≤ 9999 := by omega
    have hey : 0 ≤ e.year := by omega
    have hlt : d.year.toNat < e.year.toNat := by omega
    rw [yearText_plain hd hdy, yearText_plain hey he]
    exact lt_append (four_lt hlt (by omega)) rfl _ _
  rw [hy]
  apply List.append_left_lt
  simp only [List.cons_append]
  apply cons_lt
  rcases hlt with hm' | ⟨hm', hlt⟩
  · exact lt_append (two_lt hm' (by omega)) rfl _ _
  rw [hm']
  apply List.append_left_lt
  apply cons_lt
  exact lt_append (two_lt hlt (by omega)) rfl _ _

/-- Later seconds have larger texts. -/
theorem format_lt {d e : DateTime} (h : d.secs < e.secs) (hd : d.Plain) (he : e.Plain) :
    d.format < e.format := by
  rw [String.lt_iff, format_toList, format_toList]
  obtain ⟨_, hm, _, hday⟩ := civil_range (e.secs / 86400)
  rcases Int.lt_or_le (d.secs / 86400) (e.secs / 86400) with hdate | hdate
  · exact date_lt (civil_before hdate) hd.1 he.2 hm hday _ _
  · rw [show d.secs / 86400 = e.secs / 86400 by omega]
    unfold stampText
    iterate 3 apply List.append_left_lt
    exact sod_lt (by omega) (by omega)

theorem textLe_iff {a b : String} : textLe a b = true ↔ a ≤ b := by
  simp only [textLe, Bool.not_eq_true', decide_eq_false_iff_not, String.not_lt]

/-- What SQLite compares as texts are the seconds. -/
theorem secs_le_of_textLe {d e : DateTime} (h : textLe d.format e.format = true) (hd : d.Plain)
    (he : e.Plain) : d.secs ≤ e.secs := by
  by_contra hlt
  have hgt := format_lt (Int.not_le.mp hlt) he hd
  simp [textLe, hgt] at h

/-- The texts of two instants stand in the order of their seconds. -/
theorem textLe_format {d e : DateTime} (hd : d.Plain) (he : e.Plain) :
    textLe d.format e.format = true ↔ d.secs ≤ e.secs := by
  refine ⟨fun h => secs_le_of_textLe h hd he, fun h => ?_⟩
  rcases Int.lt_or_eq_of_le h with hlt | heq
  · exact textLe_iff.mpr (String.not_lt.mp (String.lt_asymm (format_lt hlt hd he)))
  · have hsame : d.format = e.format := by
      unfold DateTime.format
      rw [heq]
    exact textLe_iff.mpr (hsame ▸ String.le_refl _)

theorem digits_digit (width acc count n : Nat) (rest : List Char) :
    digits (width + 1) acc count (digit n :: rest) =
      digits width (acc * 10 + n % 10) (count + 1) rest := by
  rw [digits, if_pos (digit_isDigit n), digit_value]

theorem digits_full (acc count : Nat) (s : List Char) : digits 0 acc count s = (acc, count, s) := by
  cases s <;> rfl

theorem number_two (h : n < 100) (rest : List Char) : number 2 (two n ++ rest) = some (n, rest) := by
  have hn : (0 * 10 + n / 10 % 10) * 10 + n % 10 = n := by omega
  simp only [number, two, List.cons_append, List.nil_append, digits_digit, digits_full, hn]

theorem number_four (h : n < 10000) (rest : List Char) :
    number 4 (four n ++ rest) = some (n, rest) := by
  have hn : (((0 * 10 + n / 1000 % 10) * 10 + n / 100 % 10) * 10 + n / 10 % 10) * 10 + n % 10 = n := by
    omega
  simp only [number, four, List.cons_append, List.nil_append, digits_digit, digits_full, hn]

theorem trimStart_digit (n : Nat) (rest : List Char) :
    trimStart (digit n :: rest) = digit n :: rest := by
  have hall : ∀ i < 10, whiteSpace (Char.ofNat (48 + i)) = false := by decide
  have hspace : whiteSpace (digit n) = false := hall _ (Nat.mod_lt n (by omega))
  rw [trimStart, List.dropWhile_cons_of_neg (by simp [hspace])]

theorem parse_year (h : n < 10000) (p : Parsed) (rest : List Char) :
    parseItem .year p (four n ++ rest) = some ({ p with year := some n }, rest) := by
  have hall : ∀ i < 10, Char.ofNat (48 + i) ≠ '-' ∧ Char.ofNat (48 + i) ≠ '+' := by decide
  obtain ⟨hminus, hplus⟩ := hall _ (Nat.mod_lt (n / 1000) (by omega))
  have hnum := number_four h rest
  simp only [four, List.cons_append, List.nil_append] at hnum ⊢
  rw [parseItem, trimStart_digit]
  split
  · rename_i he
    exact absurd (List.cons_eq_cons.mp he).1 hminus
  · rename_i he
    exact absurd (List.cons_eq_cons.mp he).1 hplus
  · rw [hnum]
    rfl

theorem digits_all {cs : List Char} (hcs : ∀ c ∈ cs, c.isDigit) (hd : d.isDigit = false)
    (hw : cs.length ≤ width) (acc count : Nat) (rest : List Char) :
    digits width acc count (cs ++ d :: rest) =
      (Nat.ofDigitChars 10 cs acc, count + cs.length, d :: rest) := by
  induction cs generalizing width acc count with
  | nil =>
    cases width with
    | zero => rfl
    | succ width => simp [digits, hd]
  | cons c cs ih =>
    cases width with
    | zero => simp at hw
    | succ width =>
      have hc : c.isDigit = true := hcs c (by simp)
      rw [List.cons_append, digits, if_pos hc,
        ih (fun e he => hcs e (by simp [he])) (by simpa using hw), Nat.ofDigitChars_cons]
      simp [Nat.mul_comm, Nat.add_comm, Nat.add_left_comm]

/-- A number that is read as far as its digits go. -/
theorem number_all {cs : List Char} (hcs : ∀ c ∈ cs, c.isDigit) (hd : d.isDigit = false)
    (hn : cs ≠ []) (rest : List Char) :
    number (cs ++ d :: rest).length (cs ++ d :: rest) =
      some (Nat.ofDigitChars 10 cs 0, d :: rest) := by
  rw [number, digits_all hcs hd (by simp)]
  cases cs with
  | nil => exact absurd rfl hn
  | cons c cs => rfl

theorem four_value (h : n < 10000) : Nat.ofDigitChars 10 (four n) 0 = n := by
  simp only [four, Nat.ofDigitChars_cons, Nat.ofDigitChars_nil]
  have hval : ∀ m, (digit m).toNat - '0'.toNat = m % 10 := digit_value
  rw [hval, hval, hval, hval]
  omega

theorem four_digits {n : Nat} : ∀ c ∈ four n, c.isDigit := by
  simp [four, digit_isDigit]

theorem trimStart_sign (h : whiteSpace c = false) (rest : List Char) :
    trimStart (c :: rest) = c :: rest :=
  List.dropWhile_cons_of_neg (by simp [h])

theorem parse_after_plus (h : number rest.length rest = some (n, s)) (p : Parsed) :
    parseItem .year p ('+' :: rest) = some ({ p with year := some (n : Int) }, s) := by
  rw [parseItem, trimStart_sign (by decide)]
  change (number rest.length rest).map _ = _
  rw [h]
  rfl

theorem parse_after_minus (h : number rest.length rest = some (n, s)) (p : Parsed) :
    parseItem .year p ('-' :: rest) = some ({ p with year := some (-(n : Int)) }, s) := by
  rw [parseItem, trimStart_sign (by decide)]
  change (number rest.length rest).map _ = _
  rw [h]
  rfl

theorem number_repr (hd : d.isDigit = false) (n : Nat) (rest : List Char) :
    number ((Nat.repr n).toList ++ d :: rest).length ((Nat.repr n).toList ++ d :: rest) =
      some (n, d :: rest) := by
  have hdigits : ∀ c ∈ Nat.toDigits 10 n, c.isDigit :=
    fun c hc => Nat.isDigit_of_mem_toDigits (by omega) le_rfl hc
  rw [Nat.toList_repr, number_all hdigits hd Nat.toDigits_ne_nil, Nat.ofDigitChars_ten_toDigits]

/-- A year of any size is read back. -/
theorem parse_yearText (y : Int) (p : Parsed) (rest : List Char) :
    parseItem .year p (yearText y ++ '-' :: rest) =
      some ({ p with year := some y }, '-' :: rest) := by
  have hdash : '-'.isDigit = false := by decide
  unfold yearText
  split
  · rename_i h
    have hy : (y.toNat : Int) = y := Int.toNat_of_nonneg h.1
    rw [parse_year (by omega), hy]
  · split
    · rename_i h
      rw [List.cons_append, parse_after_plus (number_repr hdash _ _), Int.toNat_of_nonneg h]
    · have hy : -((-y).toNat : Int) = y := by omega
      rw [List.cons_append]
      split
      · have hnum := number_all (four_digits (n := (-y).toNat)) hdash (by simp [four]) rest
        rw [four_value (by omega)] at hnum
        rw [parse_after_minus hnum, hy]
      · rw [parse_after_minus (number_repr hdash _ _), hy]

/-- The two-digit items. -/
theorem parse_two (h : n < 100) (p : Parsed) (rest : List Char) :
    parseItem .month p (two n ++ rest) = some ({ p with month := some n }, rest) ∧
    parseItem .day p (two n ++ rest) = some ({ p with day := some n }, rest) ∧
    parseItem .hour p (two n ++ rest) = some ({ p with hour := some n }, rest) ∧
    parseItem .minute p (two n ++ rest) = some ({ p with minute := some n }, rest) ∧
    parseItem .second p (two n ++ rest) = some ({ p with second := some n }, rest) := by
  have htrim : trimStart (two n ++ rest) = two n ++ rest := trimStart_digit _ _
  simp only [parseItem, htrim, number_two h, Option.map_some, and_self]

theorem parse_literal (c : Char) (p : Parsed) (rest : List Char) :
    parseItem (.literal c) p (c :: rest) = some (p, rest) := by
  rw [parseItem, if_pos rfl]

theorem parse_space (p : Parsed) (n : Nat) (rest : List Char) :
    parseItem .space p (' ' :: (two n ++ rest)) = some (p, two n ++ rest) := by
  have htrim : trimStart (two n ++ rest) = two n ++ rest := trimStart_digit _ _
  have hspace : trimStart (' ' :: (two n ++ rest)) = trimStart (two n ++ rest) :=
    List.dropWhile_cons_of_pos (by decide)
  rw [parseItem, hspace, htrim]

theorem parseItems_next (h : parseItem item p s = some (p', s')) (items : List Item) :
    parseItems (item :: items) p s = parseItems items p' s' := by
  rw [parseItems, h]

/-- The fields a text of this form has. -/
theorem parse_fields (year : Int) {month day hour minute second : Nat}
    (hmonth : month < 100) (hday : day < 100) (hh : hour < 100) (hminute : minute < 100)
    (hs : second < 100) :
    parseItems (strftime "%Y-%m-%d %H:%M:%S%.f".toList) {}
      (yearText year ++ ('-' :: (two month ++ '-' :: (two day ++ ' ' :: (two hour ++
        ':' :: (two minute ++ ':' :: (two second ++ []))))))) =
      some ⟨some year, some month, some day, some hour, some minute, some second, 0, none⟩ := by
  have hitems : strftime "%Y-%m-%d %H:%M:%S%.f".toList =
      [.year, .literal '-', .month, .literal '-', .day, .space, .hour, .literal ':', .minute,
        .literal ':', .second, .fraction] := by decide
  rw [hitems, parseItems_next (parse_yearText _ _ _), parseItems_next (parse_literal _ _ _),
    parseItems_next (parse_two hmonth _ _).1, parseItems_next (parse_literal _ _ _),
    parseItems_next (parse_two hday _ _).2.1, parseItems_next (parse_space _ _ _),
    parseItems_next (parse_two hh _ _).2.2.1, parseItems_next (parse_literal _ _ _),
    parseItems_next (parse_two hminute _ _).2.2.2.1, parseItems_next (parse_literal _ _ _),
    parseItems_next (parse_two hs _ _).2.2.2.2]
  rfl

theorem year_le (h : m ≤ n) : (civil m).year ≤ (civil n).year := by
  rcases Int.lt_or_eq_of_le h with hlt | rfl
  · rcases civil_before hlt with hy | hy <;> omega
  · exact le_rfl

/-- The years chrono has dates in. -/
theorem representable_year {d : DateTime} (hd : d.Representable) :
    -262143 ≤ (civil (d.secs / 86400)).year ∧ (civil (d.secs / 86400)).year ≤ 262142 := by
  obtain ⟨hlow, hhigh⟩ := hd
  have hfirst : firstSecs ≤ d.secs := by
    unfold DateTime.secs second at *
    omega
  have hlast : d.secs ≤ lastSecs := by
    unfold DateTime.secs second at *
    omega
  constructor
  · have hstart : (civil (firstSecs / 86400)).year = -262143 := by decide +kernel
    rw [← hstart]
    exact year_le (by omega)
  · have hend : (civil (lastSecs / 86400)).year = 262142 := by decide +kernel
    rw [← hend]
    exact year_le (by omega)

/-- What `format` writes, this format reads back up to the second. -/
theorem parse_format {d : DateTime} (hd : d.Representable) :
    NaiveDateTime.parseFromStr d.format "%Y-%m-%d %H:%M:%S%.f" = some d.trunc := by
  obtain ⟨hlow, hhigh⟩ := representable_year hd
  obtain ⟨hm1, hm, hday1, hday⟩ := civil_range (d.secs / 86400)
  have hlen := civil_monthLength (d.secs / 86400)
  have hnum := dayNumber_civil (d.secs / 86400)
  have hhour : (d.secs % 86400).toNat / 3600 < 100 := by omega
  have hminute : (d.secs % 86400).toNat / 60 % 60 < 100 := by omega
  have hsecond : (d.secs % 86400).toNat % 60 < 100 := by omega
  have hfields := parse_fields (civil (d.secs / 86400)).year
    (show (civil (d.secs / 86400)).month < 100 by omega)
    (show (civil (d.secs / 86400)).day < 100 by omega) hhour hminute hsecond
  rw [List.append_nil] at hfields
  rw [NaiveDateTime.parseFromStr, format_toList, stampText]
  simp only [List.cons_append]
  rw [hfields, Option.bind_some]
  simp only [Parsed.toDateTime, Option.bind_eq_bind, Option.bind_some]
  have hsecs : d.secs / 86400 * 86400 + ((d.secs % 86400).toNat / 3600 * 3600 +
      (d.secs % 86400).toNat / 60 % 60 * 60 + (d.secs % 86400).toNat % 60 : Nat) = d.secs := by omega
  rw [if_pos (by omega), hnum, hsecs, DateTime.trunc, Nat.cast_zero, add_zero]

end Khronos.Time
