import Khronos.Lib.Printing
import Khronos.Db.Columns
import Khronos.Server.Replays

namespace Khronos
open Lib.Printing

theorem sizeOf_entry {entries : List (String × Json)} (he : e ∈ entries) :
    sizeOf e.2 < 1 + sizeOf entries := by
  have h := List.sizeOf_lt_of_mem he
  obtain ⟨k, v⟩ := e
  rw [Prod.mk.sizeOf_spec] at h
  dsimp only
  omega

/-- The compact text of a value. A number's literal is quoted, so that any literal can be told
from what follows it. -/
def Json.print : Json → List Char
  | .null => ['n', 'u', 'l', 'l']
  | .bool true => ['t', 'r', 'u', 'e']
  | .bool false => ['f', 'a', 'l', 's', 'e']
  | .number literal => '#' :: quoted literal
  | .string s => quoted s
  | .array items => bracketed '[' ']' (items.map Json.print)
  | .object entries => bracketed openBrace closeBrace
      (entries.map fun e => quoted e.1 ++ ':' :: Json.print e.2)
decreasing_by
  · rename_i h
    have := List.sizeOf_lt_of_mem h
    simp
    omega
  · rename_i h
    have := sizeOf_entry h
    simp
    omega

/-- The character a value begins with. -/
def Json.first : Json → Char
  | .null => 'n'
  | .bool true => 't'
  | .bool false => 'f'
  | .number _ => '#'
  | .string _ => quote
  | .array _ => '['
  | .object _ => openBrace

theorem Json.print_first (v : Json) : ∃ t, v.print = v.first :: t := by
  cases v with
  | null => exact ⟨_, by rw [Json.print, Json.first]⟩
  | bool b => cases b <;> exact ⟨_, by rw [Json.print, Json.first]⟩
  | number l => exact ⟨_, by rw [Json.print, Json.first]⟩
  | string s => exact ⟨_, by rw [Json.print, Json.first, quoted]⟩
  | array items => cases items <;> exact ⟨_, by rw [Json.print]; rfl⟩
  | object entries => cases entries <;> exact ⟨_, by rw [Json.print]; rfl⟩

theorem Json.first_eq {a b : Json} {r s : List Char} (h : a.print ++ r = b.print ++ s) :
    a.first = b.first := by
  obtain ⟨t, ha⟩ := a.print_first
  obtain ⟨u, hb⟩ := b.print_first
  rw [ha, hb] at h
  exact (List.cons.inj h).1

theorem Json.no_end (v : Json) (t u : List Char) : v.print ++ t ≠ ']' :: u := by
  intro h
  obtain ⟨w, hv⟩ := v.print_first
  rw [hv] at h
  have hf : v.first = ']' := (List.cons.inj h).1
  cases v with
  | bool b => cases b <;> simp [Json.first] at hf
  | _ => simp [Json.first, quote, openBrace] at hf

theorem Json.print_legible (a : Json) : Legible Json.print a := by
  intro b r s hr hs h
  have hf := Json.first_eq h
  cases a with
  | null =>
    cases b with
    | null => exact ⟨rfl, List.append_cancel_left h⟩
    | bool c => cases c <;> simp [Json.first] at hf
    | _ => simp [Json.first, quote, openBrace] at hf
  | bool c =>
    cases b with
    | bool d =>
      obtain rfl : c = d := by cases c <;> cases d <;> first | rfl | simp [Json.first] at hf
      exact ⟨rfl, List.append_cancel_left h⟩
    | _ => cases c <;> simp [Json.first, quote, openBrace] at hf
  | number l =>
    cases b with
    | number l' =>
      rw [Json.print, Json.print] at h
      obtain ⟨rfl, he⟩ := quoted_prefix (List.cons.inj h).2
      exact ⟨rfl, he⟩
    | bool c => cases c <;> simp [Json.first] at hf
    | _ => simp [Json.first, quote, openBrace] at hf
  | string t =>
    cases b with
    | string t' =>
      rw [Json.print, Json.print] at h
      obtain ⟨rfl, he⟩ := quoted_prefix h
      exact ⟨rfl, he⟩
    | bool c => cases c <;> simp [Json.first, quote] at hf
    | _ => simp [Json.first, quote, openBrace] at hf
  | array items =>
    cases b with
    | array others =>
      rw [Json.print, Json.print] at h
      obtain ⟨rfl, he⟩ := bracketed_prefix (by decide) (by decide) Json.no_end
        (fun x hx => Json.print_legible x) h
      exact ⟨rfl, he⟩
    | bool c => cases c <;> simp [Json.first] at hf
    | _ => simp [Json.first, quote, openBrace] at hf
  | object entries =>
    cases b with
    | object others =>
      rw [Json.print, Json.print] at h
      have hno : ∀ (e : String × Json) (t u : List Char),
          (quoted e.1 ++ ':' :: e.2.print) ++ t ≠ closeBrace :: u := by
        intro e t u he
        exact absurd (List.cons.inj he).1 (by decide)
      have hentry : ∀ e ∈ entries, Legible (fun e => quoted e.1 ++ ':' :: e.2.print) e := by
        intro e he e' r s hr hs heq
        simp only [List.append_assoc, List.cons_append] at heq
        obtain ⟨hk, hrest⟩ := quoted_prefix heq
        obtain ⟨hv, hrs⟩ := Json.print_legible e.2 e'.2 r s hr hs (List.cons.inj hrest).2
        exact ⟨Prod.ext hk hv, hrs⟩
      obtain ⟨rfl, he⟩ := bracketed_prefix (by decide) (by decide) hno hentry h
      exact ⟨rfl, he⟩
    | bool c => cases c <;> simp [Json.first, openBrace] at hf
    | _ => simp [Json.first, quote, openBrace] at hf
termination_by sizeOf a
decreasing_by
  all_goals subst_vars
  · have := List.sizeOf_lt_of_mem hx
    simp
    omega
  · have := sizeOf_entry he
    simp
    omega

theorem Json.print_injective : Function.Injective (fun v : Json => String.ofList v.print) :=
  injective_of_legible Json.print_legible

end Khronos

namespace Khronos.Server
open Db

def stringsText (l : List String) : String := String.ofList (Json.array (l.map .string)).print

def mapText (m : StringMap) : String :=
  String.ofList (Json.object (m.map fun e => (e.1, .string e.2))).print

/-- `Some` of a number, or `null`. -/
def secondsJson : Option UInt64 → Json
  | some secs => .number (Nat.repr secs.toNat)
  | none => .null

def timeoutsText (t : Timeouts) : String :=
  String.ofList (Json.object [("execution_timeout_secs", secondsJson t.executionTimeoutSecs),
    ("run_timeout_secs", secondsJson t.runTimeoutSecs),
    ("task_timeout_secs", secondsJson t.taskTimeoutSecs)]).print

theorem stringsText_injective : Function.Injective stringsText := by
  intro l l' h
  have hl := Json.array.inj (Json.print_injective h)
  exact List.map_injective_iff.mpr (fun _ _ => Json.string.inj) hl

theorem mapText_injective : Function.Injective mapText := by
  intro m m' h
  have hm := Json.object.inj (Json.print_injective h)
  refine List.map_injective_iff.mpr (fun e e' he => ?_) hm
  obtain ⟨hk, hv⟩ := Prod.mk.inj he
  exact Prod.ext hk (Json.string.inj hv)

theorem repr_injective : Function.Injective Nat.repr := by
  intro m n h
  have hd : Nat.toDigits 10 m = Nat.toDigits 10 n := by
    rw [← Nat.toList_repr, ← Nat.toList_repr, h]
  rw [← Nat.ofDigitChars_ten_toDigits (n := m), hd, Nat.ofDigitChars_ten_toDigits]

theorem secondsJson_injective : Function.Injective secondsJson := by
  intro a b h
  cases a with
  | none =>
    cases b with
    | none => rfl
    | some n => cases h
  | some m =>
    cases b with
    | none => cases h
    | some n => rw [UInt64.toNat_inj.mp (repr_injective (Json.number.inj h))]

theorem timeoutsText_injective : Function.Injective timeoutsText := by
  intro t t' h
  have ht := Json.object.inj (Json.print_injective h)
  simp only [List.cons.injEq, Prod.mk.injEq, true_and, and_true] at ht
  obtain ⟨he, hr, hk⟩ := ht
  cases t
  cases t'
  simp only [Timeouts.mk.injEq]
  exact ⟨secondsJson_injective he, secondsJson_injective hr, secondsJson_injective hk⟩

/-- The text of an empty object, which every timeout may be absent from. -/
def emptyText : String := String.ofList (Json.object []).print

theorem timeoutsText_ne (t : Timeouts) : timeoutsText t ≠ emptyText := by
  intro h
  have ht := Json.object.inj (Json.print_injective h)
  cases ht

/-- Crates that read back what they write and little else. -/
noncomputable def readingCrates : Crates :=
  { plainCrates with
    jsonToString := fun v => String.ofList v.print
    jsonFromStr := Function.partialInv (fun v : Json => String.ofList v.print)
    stringsFromStr := Function.partialInv stringsText
    timeoutsFromStr := fun s =>
      if s = emptyText then some .default else Function.partialInv timeoutsText s }

noncomputable def readingSerde : Db.Schedules.Serde where
  stringsToString := stringsText
  mapToString := mapText
  mapFromStr := Function.partialInv mapText
  timeoutsToString := timeoutsText

theorem readingSerde_readsBack : readingSerde.ReadsBack readingCrates where
  strings := Function.partialInv_left stringsText_injective
  map m _ := Function.partialInv_left mapText_injective m
  timeouts := by
    intro t
    change (if timeoutsText t = emptyText then _ else _) = _
    rw [if_neg (timeoutsText_ne t)]
    exact Function.partialInv_left timeoutsText_injective t

/-- The text of a policy whose interval is a whole number of seconds. -/
def policyText (p : RetryPolicy) : String :=
  s!"\x7b\"maximum_attempts\":{p.maximumAttempts},\"initial_interval_secs\":{p.initialIntervalSecs.num}.0\x7d"

def readingCodec : Codec where
  parseStr s := some ⟨s⟩
  policyToString := policyText
  policyFromStr s := builtInPolicies.find? (fun p => policyText p = s)

theorem reading : readingCodec.ReadsBack readingCrates builtInPolicies where
  json := Function.partialInv_left Json.print_injective
  uuid _ := rfl
  policy := by decide +kernel

end Khronos.Server
