import Mathlib.Algebra.Order.Field.Rat
import Mathlib.Algebra.Order.Floor.Ring
import Mathlib.Data.Rat.Floor

namespace Khronos.Time

/-- A `DateTime<Utc>`: nanoseconds since 1970-01-01T00:00:00Z. -/
structure DateTime where
  nanos : Int
deriving DecidableEq, Repr

/-- A `chrono::Duration`. -/
structure Duration where
  nanos : Int
deriving DecidableEq, Repr

def second : Int := 1000000000

/-- The whole seconds since the epoch, rounded down. -/
def DateTime.secs (d : DateTime) : Int := d.nanos / second

def DateTime.trunc (d : DateTime) : DateTime := ⟨d.secs * second⟩

/-- A proleptic Gregorian date. -/
structure Date where
  year : Int
  month : Nat
  day : Nat
deriving DecidableEq, Repr

/-- Days are counted from 0000-03-01, so that a leap day ends its year. -/
def epochDays : Int := 719468

/-- The date of a day number counted from the epoch. -/
def civil (days : Int) : Date :=
  let z := days + epochDays
  let era := z / 146097
  let doe := (z % 146097).toNat
  let yoe := (doe - doe / 1460 + doe / 36524 - doe / 146096) / 365
  let doy := doe - (365 * yoe + yoe / 4 - yoe / 100)
  let mp := (5 * doy + 2) / 153
  let day := doy - (153 * mp + 2) / 5 + 1
  let month := if mp < 10 then mp + 3 else mp - 9
  { year := era * 400 + yoe + (if month ≤ 2 then 1 else 0), month, day }

/-- The day number of a date, with the same start of the year as `civil`. -/
def dayNumber (d : Date) : Int :=
  let y := if d.month ≤ 2 then d.year - 1 else d.year
  let era := y / 400
  let yoe := (y % 400).toNat
  let mp := if d.month > 2 then d.month - 3 else d.month + 9
  let doy := (153 * mp + 2) / 5 + d.day - 1
  era * 146097 + (yoe * 365 + yoe / 4 - yoe / 100 + doy : Nat) - epochDays

def leap (year : Int) : Bool := year % 4 = 0 && (year % 100 ≠ 0 || year % 400 = 0)

def monthLength (year : Int) (month : Nat) : Nat :=
  if month = 2 then (if leap year then 29 else 28)
  else if month = 4 ∨ month = 6 ∨ month = 9 ∨ month = 11 then 30 else 31

def digit (n : Nat) : Char := Char.ofNat (48 + n % 10)

def two (n : Nat) : List Char := [digit (n / 10), digit n]

def four (n : Nat) : List Char := [digit (n / 1000), digit (n / 100), digit (n / 10), digit n]

/-- `%Y`: four digits, and a sign outside the years 0 to 9999. -/
def yearText (y : Int) : List Char :=
  if 0 ≤ y ∧ y ≤ 9999 then four y.toNat
  else if 0 ≤ y then '+' :: (Nat.repr y.toNat).toList
  else '-' :: (if -9999 ≤ y then four (-y).toNat else (Nat.repr (-y).toNat).toList)

/-- `format("%Y-%m-%d %H:%M:%S")`, which is also what SQLite's `datetime('now')` writes. -/
def DateTime.format (d : DateTime) : String :=
  let date := civil (d.secs / 86400)
  let sod := (d.secs % 86400).toNat
  String.ofList (yearText date.year ++ '-' :: two date.month ++ '-' :: two date.day ++
    ' ' :: two (sod / 3600) ++ ':' :: two (sod / 60 % 60) ++ ':' :: two (sod % 60))

/-- `text <= text` under SQLite's BINARY collation. -/
def textLe (a b : String) : Bool := !decide (b < a)

/-- A reading of the system clock. chrono refuses a clock before 1970, and SQLite writes
no date after the year 9999. -/
structure Clock where
  time : DateTime
  since : 0 ≤ time.nanos
  before : time.nanos < 253402300800 * second
deriving DecidableEq

instance : Coe Clock DateTime := ⟨Clock.time⟩

/-- SQLite's `datetime('now')`. -/
def Clock.datetime (c : Clock) : String := c.time.format

/-- The clock in whole seconds since 1970. -/
def Clock.ofSecs (n : Nat) (h : n < 253402300800) : Clock where
  time := ⟨n * second⟩
  since := Int.mul_nonneg (by omega) (by decide)
  before := Int.mul_lt_mul_of_pos_right (by omega) (by decide)

/-- `i64::MAX`. -/
def i64Max : Int := 9223372036854775807

/-- `f as i64`: truncation towards zero, saturating. -/
def truncI64 (q : ℚ) : Int :=
  max (-i64Max - 1) (min i64Max (if 0 ≤ q then ⌊q⌋ else ⌈q⌉))

/-- `chrono::Duration::seconds`, which panics beyond `i64::MAX` milliseconds. -/
def Duration.seconds (n : Int) : Option Duration :=
  if -(i64Max / 1000) ≤ n ∧ n ≤ i64Max / 1000 then some ⟨n * second⟩ else none

/-- The last instant chrono can represent, in seconds: the end of the year 262142. -/
def lastSecs : Int := 8210266876799

/-- The first instant chrono can represent, in seconds: the start of the year -262143. -/
def firstSecs : Int := -8334601228800

/-- An instant within chrono's date range. -/
def DateTime.Representable (d : DateTime) : Prop :=
  firstSecs * second ≤ d.nanos ∧ d.nanos < (lastSecs + 1) * second

/-- `DateTime + Duration`, which panics outside chrono's date range. -/
def DateTime.add (d : DateTime) (t : Duration) : Option DateTime :=
  if firstSecs * second ≤ d.nanos + t.nanos ∧ d.nanos + t.nanos < (lastSecs + 1) * second
  then some ⟨d.nanos + t.nanos⟩ else none

theorem DateTime.add_representable {d e : DateTime} {t : Duration} (h : d.add t = some e) :
    e.Representable := by
  unfold DateTime.add at h
  split at h
  · cases h
    assumption
  · cases h

theorem Clock.representable (c : Clock) : c.time.Representable := by
  have hsince := c.since
  have hbefore := c.before
  unfold DateTime.Representable firstSecs lastSecs second at *
  omega

/-- `signed_duration_since`. -/
def DateTime.since (d t : DateTime) : Duration := ⟨d.nanos - t.nanos⟩

/-- `num_seconds`, which rounds towards zero. -/
def Duration.numSeconds (t : Duration) : Int := t.nanos.tdiv second

theorem Duration.numSeconds_eq (t : Duration) :
    t.numSeconds = if 0 ≤ t.nanos then t.nanos / second else -(-t.nanos / second) := by
  unfold Duration.numSeconds
  split
  · exact Int.tdiv_eq_ediv_of_nonneg ‹_›
  · rw [← Int.tdiv_eq_ediv_of_nonneg (by omega), Int.neg_tdiv, neg_neg]

/-- The items of a chrono format string that the sources use, and that of a UTC offset. -/
inductive Item where
  | year | month | day | hour | minute | second | fraction
  | offset
  | literal (c : Char)
  | space
deriving DecidableEq, Repr

/-- A chrono format string, item by item. -/
def strftime (fmt : List Char) : List Item :=
  match fmt with
  | '%' :: 'Y' :: rest => .year :: strftime rest
  | '%' :: 'm' :: rest => .month :: strftime rest
  | '%' :: 'd' :: rest => .day :: strftime rest
  | '%' :: 'H' :: rest => .hour :: strftime rest
  | '%' :: 'M' :: rest => .minute :: strftime rest
  | '%' :: 'S' :: rest => .second :: strftime rest
  | '%' :: '.' :: 'f' :: rest => .fraction :: strftime rest
  | '%' :: 'z' :: rest => .offset :: strftime rest
  | c :: rest => (if c = ' ' then .space else .literal c) :: strftime rest
  | [] => []

/-- What a parse has read so far. -/
structure Parsed where
  year : Option Int := none
  month : Option Nat := none
  day : Option Nat := none
  hour : Option Nat := none
  minute : Option Nat := none
  second : Option Nat := none
  nanosecond : Nat := 0
  offset : Option Int := none

/-- Up to `width` decimal digits, with their value and their number. -/
def digits (width : Nat) (acc count : Nat) (s : List Char) : Nat × Nat × List Char :=
  match width, s with
  | width + 1, c :: rest =>
    if c.isDigit then digits width (acc * 10 + (c.toNat - 48)) (count + 1) rest
    else (acc, count, s)
  | _, s => (acc, count, s)

/-- The characters with the Unicode property `White_Space`. -/
def whiteSpace (c : Char) : Bool :=
  (9 ≤ c.val && c.val ≤ 13) || (0x2000 ≤ c.val && c.val ≤ 0x200A) ||
    [0x20, 0x85, 0xA0, 0x1680, 0x2028, 0x2029, 0x202F, 0x205F, 0x3000].contains c.val

/-- `str::trim_start`. -/
def trimStart (s : List Char) : List Char := s.dropWhile whiteSpace

/-- A number of at least one and at most `width` digits. -/
def number (width : Nat) (s : List Char) : Option (Nat × List Char) :=
  match digits width 0 0 s with
  | (_, 0, _) => none
  | (n, _, rest) => some (n, rest)

/-- Whether the sign of an offset is a minus: a hyphen or U+2212. -/
def offsetSign (c : Char) : Option Bool :=
  if c = '+' then some false else if c = '-' ∨ c = Char.ofNat 0x2212 then some true else none

/-- An offset from UTC in seconds: a sign, two digits of hours and, after any colons and white
space, two of minutes. -/
def timezoneOffset (s : List Char) : Option (Int × List Char) := do
  let negative ← s.head?.bind offsetSign
  match digits 2 0 0 s.tail with
  | (hours, 2, rest) => match digits 2 0 0 (rest.dropWhile fun c => c = ':' || whiteSpace c) with
    | (minutes, 2, rest) =>
      if minutes < 60 then
        let secs : Int := (hours * 3600 + minutes * 60 : Nat)
        some (if negative then -secs else secs, rest)
      else none
    | _ => none
  | _ => none

def parseItem (item : Item) (p : Parsed) (s : List Char) : Option (Parsed × List Char) :=
  match item with
  | .year => match trimStart s with
    | '-' :: rest => (number rest.length rest).map fun (n, s) => ({ p with year := some (-n) }, s)
    | '+' :: rest => (number rest.length rest).map fun (n, s) => ({ p with year := some n }, s)
    | rest => (number 4 rest).map fun (n, s) => ({ p with year := some n }, s)
  | .month => (number 2 (trimStart s)).map fun (n, s) => ({ p with month := some n }, s)
  | .day => (number 2 (trimStart s)).map fun (n, s) => ({ p with day := some n }, s)
  | .hour => (number 2 (trimStart s)).map fun (n, s) => ({ p with hour := some n }, s)
  | .minute => (number 2 (trimStart s)).map fun (n, s) => ({ p with minute := some n }, s)
  | .second => (number 2 (trimStart s)).map fun (n, s) => ({ p with second := some n }, s)
  | .fraction => match s with
    | '.' :: rest => match digits 9 0 0 rest with
      | (_, 0, _) => none
      | (n, count, rest) =>
        -- Digits past the ninth are read and dropped.
        some ({ p with nanosecond := n * 10 ^ (9 - count) }, rest.dropWhile Char.isDigit)
    | s => some (p, s)
  | .offset => (timezoneOffset (trimStart s)).map fun (n, s) => ({ p with offset := some n }, s)
  | .literal c => match s with
    | d :: rest => if c = d then some (p, rest) else none
    | [] => none
  | .space => some (p, trimStart s)

def parseItems (items : List Item) (p : Parsed) (s : List Char) : Option Parsed :=
  match items with
  | [] => if s.isEmpty then some p else none
  | item :: items => match parseItem item p s with
    | some (p, s) => parseItems items p s
    | none => none

/-- The instant the fields name, if they name one; a sixtieth second is a leap second. -/
def Parsed.toDateTime (p : Parsed) : Option DateTime := do
  let year ← p.year
  let month ← p.month
  let day ← p.day
  let hour ← p.hour
  let minute ← p.minute
  let sec ← p.second
  if 1 ≤ month ∧ month ≤ 12 ∧ 1 ≤ day ∧ day ≤ monthLength year month ∧
      hour < 24 ∧ minute < 60 ∧ sec ≤ 60 ∧ -262143 ≤ year ∧ year ≤ 262142 then
    let secs := dayNumber ⟨year, month, day⟩ * 86400 + (hour * 3600 + minute * 60 + sec : Nat)
    some ⟨secs * Time.second + p.nanosecond⟩
  else none

/-- `NaiveDateTime::parse_from_str(s, fmt)` followed by `and_utc`. -/
def NaiveDateTime.parseFromStr (s fmt : String) : Option DateTime :=
  (parseItems (strftime fmt.toList) {} s.toList).bind Parsed.toDateTime

/-- `DateTime::parse_from_str`: an instant needs an offset from UTC, of less than a day. -/
def DateTime.parseFromStr (s fmt : String) : Option DateTime := do
  let p ← parseItems (strftime fmt.toList) {} s.toList
  let offset ← p.offset
  let d ← p.toDateTime
  if -86400 < offset ∧ offset < 86400 then d.add ⟨-offset * Time.second⟩ else none

end Khronos.Time
