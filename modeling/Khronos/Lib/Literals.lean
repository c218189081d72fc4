import Mathlib.Algebra.GroupWithZero.Nat
import Mathlib.Data.List.Basic

namespace Khronos.Lib.Literals

def nul : Char := Char.ofNat 0

def quote : Char := Char.ofNat 39

def doubleQuote : Char := Char.ofNat 34

def backtick : Char := Char.ofNat 96

/-- What the text of an SQL statement consists of, as far as the literals in it go. -/
inductive Token where
  /-- A string literal, with the text that it stands for. -/
  | text (s : List Char)
  /-- A quoted identifier. -/
  | name (s : List Char)
  | code (c : Char)

/-- How many characters of the statement a token takes at least. -/
def Token.width : Token → Nat
  | .text s => s.length + s.count quote + 2
  | .name _ | .code _ => 1

/-- The text up to the closing quote, where a quote within it is doubled, and what comes after. -/
def closeQuote (q : Char) : List Char → Option (List Char × List Char)
  | [] => none
  | [c] => if c = q then some ([], []) else none
  | c :: d :: rest =>
    if c = nul then none
    else if c = q then
      if d = q then (closeQuote q rest).map fun r => (q :: r.1, r.2) else some ([], d :: rest)
    else (closeQuote q (d :: rest)).map fun r => (c :: r.1, r.2)

def closeBracket : List Char → Option (List Char × List Char)
  | [] => none
  | c :: rest =>
    if c = nul then none
    else if c = ']' then some ([], rest)
    else (closeBracket rest).map fun r => (c :: r.1, r.2)

def afterLine (cs : List Char) : List Char := cs.dropWhile (fun c => c ≠ '\n' && c ≠ nul)

def afterBlock : List Char → List Char
  | c :: d :: rest =>
    if c = '*' ∧ d = '/' then rest else if c = nul then [] else afterBlock (d :: rest)
  | _ => []

/-- The token that a character begins, and what comes after; none if SQLite does not recognize
one. A comment counts as a blank. -/
def nextToken (c : Char) (cs : List Char) : Option (Token × List Char) :=
  if c = quote then (closeQuote quote cs).map fun r => (.text r.1, r.2)
  else if c = doubleQuote ∨ c = backtick then (closeQuote c cs).map fun r => (.name r.1, r.2)
  else if c = '[' then (closeBracket cs).map fun r => (.name r.1, r.2)
  else if c = '-' ∧ cs.head? = some '-' then some (.code ' ', afterLine cs)
  else if c = '/' ∧ cs.head? = some '*' ∧ cs.tail.head?.any (· ≠ nul) then
    some (.code ' ', afterBlock cs.tail)
  else some (.code c, cs)

/-- A literal stands for as many characters as it takes, less its quotes and one of each doubled
pair. -/
theorem closeQuote_length {q : Char} {cs s rest : List Char}
    (h : closeQuote q cs = some (s, rest)) :
    s.length + s.count q + 1 + rest.length = cs.length := by
  fun_induction closeQuote q cs generalizing s rest with
  | case1 => cases h
  | case2 => 
    cases h
    rfl
  | case3 => cases h
  | case4 => cases h
  | case5 rest' _ ih =>
    obtain ⟨⟨s', r⟩, hs, he⟩ := Option.map_eq_some_iff.mp h
    cases he
    have hlen := ih hs
    simp only [List.length_cons, List.count_cons_self]
    omega
  | case6 => 
    cases h
    simp
    omega
  | case7 c d rest' hn hq ih =>
    obtain ⟨⟨s', r⟩, hs, he⟩ := Option.map_eq_some_iff.mp h
    cases he
    have hlen := ih hs
    simp only [List.length_cons, List.count_cons_of_ne hq] at hlen ⊢
    omega

theorem closeQuote_noNul {q : Char} (hq : q ≠ nul) {cs s rest : List Char}
    (h : closeQuote q cs = some (s, rest)) : nul ∉ s := by
  fun_induction closeQuote q cs generalizing s rest with
  | case1 => cases h
  | case2 => 
    cases h
    simp
  | case3 => cases h
  | case4 => cases h
  | case5 rest' _ ih =>
    obtain ⟨⟨s', r⟩, hs, he⟩ := Option.map_eq_some_iff.mp h
    cases he
    simp [hq.symm, ih hs]
  | case6 => 
    cases h
    simp
  | case7 c d rest' hn hc ih =>
    obtain ⟨⟨s', r⟩, hs, he⟩ := Option.map_eq_some_iff.mp h
    cases he
    simp [Ne.symm hn, ih hs]

theorem closeBracket_length {cs s rest : List Char} (h : closeBracket cs = some (s, rest)) :
    rest.length < cs.length := by
  fun_induction closeBracket cs generalizing s rest with
  | case1 => cases h
  | case2 => cases h
  | case3 rest' _ => 
    cases h
    exact Nat.lt_succ_self _
  | case4 c rest' _ _ ih =>
    obtain ⟨⟨s', r⟩, hs, he⟩ := Option.map_eq_some_iff.mp h
    cases he
    exact Nat.lt_succ_of_lt (ih hs)

theorem afterBlock_length (cs : List Char) : (afterBlock cs).length ≤ cs.length := by
  fun_induction afterBlock cs with
  | case1 => simp; omega
  | case2 => simp
  | case3 c d rest _ _ ih => 
    simp only [List.length_cons] at ih ⊢
    omega
  | case4 => simp

/-- A token does not take more than there is. -/
theorem nextToken_width {c : Char} {cs rest : List Char} {t : Token}
    (h : nextToken c cs = some (t, rest)) : t.width + rest.length ≤ cs.length + 1 := by
  unfold nextToken at h
  split_ifs at h with hq hname hbracket hline hblock
  · obtain ⟨⟨s, r⟩, hs, he⟩ := Option.map_eq_some_iff.mp h
    cases he
    have hlen := closeQuote_length hs
    simp only [Token.width]
    omega
  · obtain ⟨⟨s, r⟩, hs, he⟩ := Option.map_eq_some_iff.mp h
    cases he
    have hlen := closeQuote_length hs
    simp only [Token.width]
    omega
  · obtain ⟨⟨s, r⟩, hs, he⟩ := Option.map_eq_some_iff.mp h
    cases he
    have hlen := closeBracket_length hs
    simp only [Token.width]
    omega
  · cases h
    have hlen := (cs.dropWhile_suffix (fun c => c ≠ '\n' && c ≠ nul)).length_le
    simp only [Token.width, afterLine]
    omega
  · cases h
    have hlen := afterBlock_length cs.tail
    have htail := List.length_tail (l := cs)
    simp only [Token.width]
    omega
  · cases h
    simp only [Token.width]
    omega

/-- No literal stands for a text with a NUL in it. -/
theorem nextToken_noNul {c : Char} {cs rest s : List Char}
    (h : nextToken c cs = some (.text s, rest)) : nul ∉ s := by
  unfold nextToken at h
  split_ifs at h with hq hname hbracket hline hblock
  · obtain ⟨⟨s', r⟩, hs, he⟩ := Option.map_eq_some_iff.mp h
    cases he
    exact closeQuote_noNul (by decide) hs
  · obtain ⟨r, _, he⟩ := Option.map_eq_some_iff.mp h
    cases he
  · obtain ⟨r, _, he⟩ := Option.map_eq_some_iff.mp h
    cases he
  · cases h
  · cases h
  · cases h

/-- The tokens of a statement. A NUL ends it. -/
def lex : List Char → Option (List Token)
  | [] => some []
  | c :: cs =>
    if c = nul then some []
    else match _h : nextToken c cs with
      | none => none
      | some (t, rest) => (lex rest).map (t :: ·)
termination_by cs => cs.length
decreasing_by
  have hlen := nextToken_width _h
  have hwidth : 1 ≤ t.width := by cases t <;> simp [Token.width]
  simp only [List.length_cons]
  omega

theorem lex_cons (c : Char) (cs : List Char) : lex (c :: cs) =
    if c = nul then some []
    else (nextToken c cs).bind fun r => (lex r.2).map (r.1 :: ·) := by
  rw [lex]
  split
  · rfl
  · split
    · rename_i h
      rw [h]
      rfl
    · rename_i h
      rw [h]
      rfl

/-- The tokens of a statement take no more than there is of it, and none is a text with a NUL. -/
theorem lex_bounds {cs : List Char} {ts : List Token} (h : lex cs = some ts) :
    (ts.map Token.width).sum ≤ cs.length ∧ ∀ s, .text s ∈ ts → nul ∉ s := by
  induction hn : cs.length using Nat.strongRecOn generalizing cs ts with
  | ind n ih =>
    subst hn
    cases cs with
    | nil =>
      rw [lex] at h
      cases h
      simp
    | cons c cs =>
      rw [lex_cons] at h
      split at h
      · cases h
        simp
      · obtain ⟨⟨t, rest⟩, ht, h⟩ := Option.bind_eq_some_iff.mp h
        obtain ⟨ts', hts, he⟩ := Option.map_eq_some_iff.mp h
        cases he
        have hlen := nextToken_width ht
        have hwidth : 1 ≤ t.width := by cases t <;> simp [Token.width]
        obtain ⟨hsum, hnul⟩ := ih rest.length (by simp only [List.length_cons]; omega) hts rfl
        constructor
        · simp only [List.map_cons, List.sum_cons, List.length_cons]
          omega
        · intro s hs
          rcases List.mem_cons.mp hs with rfl | hs
          · exact nextToken_noNul ht
          · exact hnul s hs

/-- A piece of a statement that is put together: a part of its own, or a text between quotes. -/
inductive Piece where
  | code (s : List Char)
  | text (s : List Char)

def Piece.render : Piece → List Char
  | .code s => s
  | .text s => quote :: (s ++ [quote])

def Piece.tokens : Piece → List Token
  | .code s => s.map .code
  | .text s => [.text s]

def render (ps : List Piece) : List Char := ps.flatMap Piece.render

theorem render_append (ps qs : List Piece) : render (ps ++ qs) = render ps ++ render qs :=
  List.flatMap_append

theorem render_code_head {s : List Char} {c d : Char} (h : s.head? = some c) (hne : c ≠ d)
    (ps : List Piece) : (render (.code s :: ps)).head? ≠ some d := by
  change (s ++ render ps).head? ≠ some d
  rw [List.head?_append, h]
  exact fun he => hne (Option.some.inj he)

/-- The tokens that the statement is meant to have. -/
def meant (ps : List Piece) : List Token := ps.flatMap Piece.tokens

/-- What a literal or a comment may begin with, and what ends a statement. -/
def special : List Char := [nul, quote, doubleQuote, backtick, '[', '/']

/-- A character of code, with what comes after it, that begins no literal and no comment. -/
def Calm (c : Char) (next : Option Char) : Prop :=
  c ∉ special ∧ (c = '-' → next ≠ some '-')

/-- All characters of a part of a statement are calm. -/
def AllCalm : List Char → Option Char → Prop
  | [], _ => True
  | c :: s, next => Calm c (s.head?.or next) ∧ AllCalm s next

theorem AllCalm.append {s t : List Char} {next : Option Char} (hs : AllCalm s (t.head?.or next))
    (ht : AllCalm t next) : AllCalm (s ++ t) next := by
  induction s with
  | nil => exact ht
  | cons c s ih =>
    refine ⟨?_, ih hs.2⟩
    have hnext : (s ++ t).head?.or next = s.head?.or (t.head?.or next) := by
      rw [List.head?_append, Option.or_assoc]
    exact hnext ▸ hs.1

/-- A character that is calm whatever comes after it. -/
def quiet (c : Char) : Bool := !special.contains c && c != '-'

theorem allCalm_of_quiet {s : List Char} (h : s.all quiet = true) (next : Option Char) :
    AllCalm s next := by
  induction s with
  | nil => trivial
  | cons c s ih =>
    rw [List.all_cons, Bool.and_eq_true] at h
    have hc : c ∉ special ∧ c ≠ '-' := by simpa [quiet] using h.1
    exact ⟨⟨hc.1, fun hdash => absurd hdash hc.2⟩, ih h.2⟩

theorem digit_quiet {c : Char} (h : c.isDigit = true) : quiet c = true := by
  have hspecial : special.all (fun d => !d.isDigit) = true := by decide
  have hnot : c ∉ special := by
    intro hmem
    have hc := List.all_eq_true.mp hspecial c hmem
    rw [h] at hc
    cases hc
  have hdash : c ≠ '-' := by
    rintro rfl
    exact absurd h (by decide)
  simp [quiet, hnot, hdash]

/-- The parts of a statement are code, and no text is followed by a quote at once. -/
def Laid : List Piece → Prop
  | [] => True
  | .code s :: ps => AllCalm s (render ps).head? ∧ Laid ps
  | .text _ :: ps => (render ps).head? ≠ some quote ∧ Laid ps

/-- A text that can stand between quotes as it is. -/
def Plain (s : List Char) : Prop := quote ∉ s ∧ nul ∉ s

theorem lex_code {s rest : List Char} (h : AllCalm s rest.head?) :
    lex (s ++ rest) = (lex rest).map (s.map Token.code ++ ·) := by
  induction s with
  | nil => simp
  | cons c s ih =>
    obtain ⟨⟨hc, hdash⟩, hs⟩ := h
    simp only [special, List.mem_cons, List.not_mem_nil, or_false, not_or] at hc
    obtain ⟨hnul, hquote, hdouble, htick, hbracket, hslash⟩ := hc
    have hnext : nextToken c (s ++ rest) = some (.code c, s ++ rest) := by
      unfold nextToken
      rw [if_neg hquote, if_neg (by simp [hdouble, htick]), if_neg hbracket, if_neg, if_neg]
      · exact fun h => hslash h.1
      · rintro ⟨hc, hh⟩
        refine hdash hc ?_
        rwa [List.head?_append] at hh
    rw [List.cons_append, lex_cons, if_neg hnul, hnext, Option.bind_some, ih hs, Option.map_map]
    rfl

theorem closeQuote_plain {s rest : List Char} (h : Plain s) (hrest : rest.head? ≠ some quote) :
    closeQuote quote (s ++ quote :: rest) = some (s, rest) := by
  induction s with
  | nil =>
    cases rest with
    | nil => simp [closeQuote]
    | cons d rest =>
      have hd : d ≠ quote := by simpa using hrest
      rw [List.nil_append, closeQuote, if_neg (by decide), if_pos rfl, if_neg hd]
  | cons c s ih =>
    obtain ⟨hq, hn⟩ := h
    simp only [List.mem_cons, not_or] at hq hn
    obtain ⟨d, t, ht⟩ : ∃ d t, s ++ quote :: rest = d :: t := by
      cases s with
      | nil => exact ⟨_, _, rfl⟩
      | cons d t => exact ⟨_, _, rfl⟩
    have hs := ih ⟨hq.2, hn.2⟩
    rw [ht] at hs
    rw [List.cons_append, ht, closeQuote, if_neg (Ne.symm hn.1), if_neg (Ne.symm hq.1), hs]
    rfl

theorem lex_text {s rest : List Char} (h : Plain s) (hrest : rest.head? ≠ some quote) :
    lex (quote :: (s ++ quote :: rest)) = (lex rest).map (.text s :: ·) := by
  have hnext : nextToken quote (s ++ quote :: rest) = some (.text s, rest) := by
    rw [nextToken, if_pos rfl, closeQuote_plain h hrest]
    rfl
  rw [lex_cons, if_neg (by decide), hnext]
  rfl

/-- A literal that nothing closes is not recognized. -/
theorem closeQuote_open {s : List Char} (h : quote ∉ s) : closeQuote quote s = none := by
  fun_induction closeQuote quote s with
  | case1 => rfl
  | case2 => simp at h
  | case3 => rfl
  | case4 => rfl
  | case5 => simp at h
  | case6 => simp at h
  | case7 c d rest _ _ ih =>
    simp only [List.mem_cons, not_or] at h ih
    rw [ih ⟨h.2.1, h.2.2⟩]
    rfl

theorem lex_render {ps : List Piece} (hl : Laid ps) (h : ∀ s, .text s ∈ ps → Plain s) :
    lex (render ps) = some (meant ps) := by
  induction ps with
  | nil => rw [render, List.flatMap_nil, lex]; rfl
  | cons p ps ih =>
    have hps := ih (by cases p <;> exact hl.2) fun s hs => h s (List.mem_cons_of_mem _ hs)
    cases p with
    | code s =>
      change lex (s ++ render ps) = _
      rw [lex_code hl.1, hps]
      rfl
    | text s =>
      have happ : render (.text s :: ps) = quote :: (s ++ quote :: render ps) := by
        simp [render, Piece.render]
      rw [happ, lex_text (h s List.mem_cons_self) hl.1, hps]
      rfl

def Piece.quotes : Piece → Nat
  | .code _ => 0
  | .text s => s.count quote

theorem width_meant (ps : List Piece) : ((meant ps).map Token.width).sum =
    (render ps).length + (ps.map Piece.quotes).sum := by
  induction ps with
  | nil => rfl
  | cons p ps ih =>
    have hm : meant (p :: ps) = p.tokens ++ meant ps := rfl
    have hr : render (p :: ps) = p.render ++ render ps := rfl
    rw [hm, hr, List.map_append, List.sum_append, ih]
    cases p with
    | code s =>
      have hs : ((s.map Token.code).map Token.width).sum = s.length := by
        simp [Function.comp_def, Token.width]
      simp only [Piece.tokens, Piece.render, Piece.quotes, hs, List.length_append, List.map_cons,
        List.sum_cons]
      omega
    | text s =>
      simp only [Piece.tokens, Piece.render, Piece.quotes, Token.width, List.length_append,
        List.map_cons, List.sum_cons, List.map_nil, List.sum_nil, List.length_cons, List.length_nil]
      omega

/-- A statement put together of code and texts between quotes is read as it is meant exactly when
no text has a quote or a NUL in it. -/
theorem lex_render_iff {ps : List Piece} (hl : Laid ps) :
    lex (render ps) = some (meant ps) ↔ ∀ s, .text s ∈ ps → Plain s := by
  refine ⟨fun h s hs => ?_, lex_render hl⟩
  obtain ⟨hsum, hnul⟩ := lex_bounds h
  constructor
  · -- A literal with a quote in it would take more than the statement has.
    rw [width_meant] at hsum
    have hzero : (ps.map Piece.quotes).sum = 0 := by omega
    have hcount := List.sum_eq_zero_iff_forall_eq_nat.mp hzero _ (List.mem_map.mpr ⟨_, hs, rfl⟩)
    exact List.count_eq_zero.mp hcount
  · exact hnul s (List.mem_flatMap.mpr ⟨_, hs, List.mem_cons_self⟩)

end Khronos.Lib.Literals
