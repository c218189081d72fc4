import Khronos.Proofs.Backoff
import Khronos.Proofs.Reload
import Khronos.Server.Registry

namespace Khronos.Proofs
open Time Lib Db.Schedules Server Server.Scheduler

/-- An instant some seconds later; nothing where chrono panics. -/
def later? (t : DateTime) (secs : Int) : Option DateTime := (Duration.seconds secs).bind t.add

theorem run_plusSeconds (t : DateTime) (secs : UInt64) (w : World) :
    (plusSeconds t secs).run w = match later? t secs.toInt64.toInt with
      | some next => (.ok next, w)
      | none => (.panicked, w) := by
  unfold plusSeconds later?
  cases (Duration.seconds secs.toInt64.toInt).bind t.add <;> rfl

/-- What is later by some seconds, and when that is an instant. -/
theorem later?_eq_some {t next : DateTime} {secs : Int} :
    later? t secs = some next ↔ next.nanos = t.nanos + secs * second ∧
      -(i64Max / 1000) ≤ secs ∧ secs ≤ i64Max / 1000 ∧
      firstSecs * second ≤ next.nanos ∧ next.nanos < (lastSecs + 1) * second := by
  unfold later? Duration.seconds DateTime.add
  cases next with
  | mk nanos =>
    split
    · rename_i hsecs
      rw [Option.bind_some]
      split
      · rename_i hrange
        dsimp only at hrange
        simp only [Option.some.injEq, DateTime.mk.injEq]
        omega
      · rename_i hrange
        dsimp only at hrange
        simp only [reduceCtorEq, false_iff]
        omega
    · rename_i hsecs
      simp only [Option.bind_none, reduceCtorEq, false_iff]
      omega

/-- From an instant of the years that a clock shows, any is reached that chrono knows. -/
theorem later?_iff {t next : DateTime} {secs : Int} (hlow : 0 ≤ t.nanos)
    (hhigh : t.nanos < 253402300800 * second) :
    later? t secs = some next ↔ next = ⟨t.nanos + secs * second⟩ ∧
      firstSecs ≤ t.secs + secs ∧ t.secs + secs ≤ lastSecs := by
  rw [later?_eq_some]
  cases next with
  | mk nanos =>
    rw [DateTime.mk.injEq]
    unfold DateTime.secs second lastSecs firstSecs i64Max at *
    dsimp only
    omega

/-- What `calculate_next_interval_fire` makes of its value, the last start and its readings. -/
def intervalFire (k : Int) (last : Option DateTime) (now reading : DateTime) :
    Outcome DbError (Option DateTime) :=
  if k = 0 then .ok none
  else match last with
    | none => .ok (some reading)
    | some last => match later? last k with
      | none => .panicked
      | some next =>
        if now.nanos < next.nanos then .ok (some next)
        else match later? now k with
          | none => .panicked
          | some next => .ok (some next)

/-- What is computed once a run has started: the last start and the interval or, where that has
passed, now and the interval. -/
theorem intervalFire_ran {k : Int} (hk : k ≠ 0) {last now reading T : DateTime} :
    intervalFire k (some last) now reading = .ok (some T) ↔ ∃ next, later? last k = some next ∧
      ((now.nanos < next.nanos ∧ T = next) ∨
        (next.nanos ≤ now.nanos ∧ later? now k = some T)) := by
  unfold intervalFire
  rw [if_neg hk]
  dsimp only
  cases later? last k with
  | none => simp
  | some next =>
    simp only [Option.some.injEq, exists_eq_left']
    split
    · rename_i hlt
      simp [hlt, eq_comm]
    · rename_i hpassed
      rw [not_lt] at hpassed
      cases later? now k <;> simp [hpassed]

/-- The last start is that of some run of the schedule. -/
theorem lastStarted_mem (h : lastStarted scheduleId db = some t) :
    ∃ r ∈ db.workflows, ofSchedule scheduleId r = true ∧ r.startedAt = some t := by
  obtain ⟨r, hr, hstart⟩ := List.mem_map.mp (maxText_mem h)
  obtain ⟨hr, hof⟩ := List.mem_filter.mp hr
  exact ⟨r, hr, hof, hstart⟩

/-- The starts that a schedule takes for those of its runs are written of clock readings. -/
def StartsStamped (scheduleId : String) (db : Db) : Prop :=
  ∀ t, lastStarted scheduleId db = some t → ∃ c : Clock, t = c.datetime

theorem Stamped.starts (h : Stamped db) (scheduleId : String) : StartsStamped scheduleId db := by
  intro t ht
  obtain ⟨r, hr, -, hstart⟩ := lastStarted_mem ht
  exact h r hr t hstart

theorem run_getLastStarted {w : World} {c : Clock}
    (hlast : selectLastStarted scheduleId w.db = .ok (some c.datetime)) :
    (getLastStarted scheduleId).run w = (.ok (some c.time.trunc), w) := by
  unfold getLastStarted
  rw [Prog.run_bind, run_query]
  simp only [hlast, Outcome.ofExcept, Prog.resume_ok, parseDatetime_clock]
  rfl

theorem run_getLastStarted_none {w : World} (hlast : selectLastStarted scheduleId w.db = .ok none) :
    (getLastStarted scheduleId).run w = (.ok none, w) := by
  unfold getLastStarted
  rw [Prog.run_bind, run_query, hlast]
  rfl

theorem run_getLastStarted_error {w : World} (he : selectLastStarted scheduleId w.db = .error e) :
    (getLastStarted scheduleId).run w = (.error e, w) := by
  unfold getLastStarted
  rw [Prog.run_bind, run_query, he]
  rfl

theorem toUInt64_eq_zero {k : Int64} : k.toUInt64 = 0 ↔ k.toInt = 0 := by
  constructor
  · intro h
    have hk : k = 0 := by
      have := congrArg UInt64.toInt64 h
      simpa using this
    simp [hk]
  · intro h
    have hk : k = 0 := Int64.toInt_inj.mp (by simpa using h)
    rw [hk]
    rfl

/-- An interval of 0 is answered before anything is read. -/
theorem run_calculateNextIntervalFire_zero {info : ScheduleRow} {k : Int64}
    (hsecs : info.intervalSeconds = some k) (hk : k.toInt = 0) (env : Env) (now : Clock)
    (w : World) : (calculateNextIntervalFire env info now).run w = (.ok none, w) := by
  unfold calculateNextIntervalFire
  simp only [hsecs, Option.map_some, Option.getD_some, toUInt64_eq_zero.mpr hk, if_true]
  rfl

theorem run_calculateNextIntervalFire_error {info : ScheduleRow} {k : Int64}
    (hsecs : info.intervalSeconds = some k) (hk : k.toInt ≠ 0) {w : World}
    (he : selectLastStarted info.scheduleId w.db = .error e) (env : Env) (now : Clock) :
    (calculateNextIntervalFire env info now).run w = (.error e, w) := by
  unfold calculateNextIntervalFire
  simp only [hsecs, Option.map_some, Option.getD_some, if_neg (toUInt64_eq_zero.not.mpr hk),
    Prog.run_bind, run_getLastStarted_error he]
  rfl

theorem run_calculateNextIntervalFire {info : ScheduleRow} {k : Int64}
    (hsecs : info.intervalSeconds = some k) {w : World} {last : Option DateTime}
    (hlast : (getLastStarted info.scheduleId).run w = (.ok last, w)) (env : Env) (now : Clock) :
    (calculateNextIntervalFire env info now).run w =
      (intervalFire k.toInt last now.time (env.now 0).time, w) := by
  unfold calculateNextIntervalFire intervalFire
  simp only [hsecs, Option.map_some, Option.getD_some, toUInt64_eq_zero]
  split
  · rfl
  · rw [Prog.run_bind, hlast]
    cases last with
    | none => rfl
    | some last =>
      simp only [Prog.resume_ok, Prog.run_bind, run_plusSeconds, Int64.toInt64_toUInt64]
      cases later? last k.toInt with
      | none => rfl
      | some next =>
        simp only [Prog.resume_ok]
        split
        · rfl
        · rw [Prog.run_bind, run_plusSeconds, Int64.toInt64_toUInt64]
          cases later? now.time k.toInt <;> rfl

/-- A create request with an interval has been accepted: natively, or through the Temporal API. The
row it stores holds its value as a signed number. -/
inductive CreatedInterval (crates : Crates) (serde : Serde) : ScheduleRow → Int64 → Prop
  | native (req : CreateScheduleRequest) (schedule : Core.Schedule) (secs : UInt64)
      (hreq : requestedSchedule req = .ok schedule)
      (hspec : schedule.spec = .interval (.fromSecs secs)) :
      CreatedInterval crates serde (scheduleRow serde schedule) secs.toInt64
  | temporal (req : Temporal.CreateScheduleRequest) (schedule : Temporal.Schedule)
      (spec : Temporal.ScheduleSpec) (row : ScheduleRow)
      (hreq : Temporal.requestedRow crates req = .ok row) (hschedule : req.schedule = some schedule)
      (hspec : schedule.spec = some spec) (hcron : spec.cronString = []) :
      CreatedInterval crates serde row (Temporal.firstSeconds spec.interval)

/-- What a Temporal request without cron strings stores of its spec. -/
theorem requestedRow_interval {req : Temporal.CreateScheduleRequest}
    (hreq : Temporal.requestedRow crates req = .ok row) (hschedule : req.schedule = some schedule)
    (hspec : schedule.spec = some spec) (hcron : spec.cronString = []) :
    row.specType = .interval ∧
      row.intervalSeconds = some (Temporal.firstSeconds spec.interval) := by
  obtain ⟨schedule', spec', action, columns, sw, hs, hspec', -, hcolumns, -, rfl⟩ :=
    Temporal.requestedRow_ok hreq
  rw [hschedule] at hs
  cases hs
  rw [hspec] at hspec'
  cases hspec'
  unfold Temporal.specColumns at hcolumns
  simp only [hcron, List.isEmpty_nil, Bool.not_true, Bool.false_eq_true, if_false] at hcolumns
  split at hcolumns
  · cases hcolumns
    exact ⟨rfl, rfl⟩
  · cases hcolumns

theorem CreatedInterval.stored (h : CreatedInterval crates serde info k) :
    info.specType = .interval ∧ info.intervalSeconds = some k := by
  cases h with
  | native req schedule secs hreq hspec =>
    unfold scheduleRow
    simp only [hspec]
    exact ⟨rfl, rfl⟩
  | temporal req schedule spec row hreq hschedule hspec hcron =>
    exact requestedRow_interval hreq hschedule hspec hcron

/-- What the next fire time of an interval of `k` seconds should come to: nothing for 0, and
otherwise a time after now if a run has started before, and not before now if none has. -/
def Timely (k : Int) (ran : Bool) (now : DateTime) (out : Outcome DbError (Option DateTime)) :
    Prop :=
  (k = 0 ∧ out = .ok none) ∨ (k ≠ 0 ∧ ∃ T, out = .ok (some T) ∧
    if ran then now.nanos < T.nanos else now.nanos ≤ T.nanos)

/-- An interval counted from an earlier run: it must end within chrono's range if it is positive,
and after now if it is negative. -/
def Reaches (k : Int) (last : DateTime) (now : DateTime) : Prop :=
  (0 < k ∧ last.secs + k ≤ lastSecs) ∨ (k < 0 ∧ now.nanos < last.nanos + k * second)

theorem timely_ran {k : Int} (hk : k ≠ 0) (now : DateTime)
    (out : Outcome DbError (Option DateTime)) :
    Timely k true now out ↔ ∃ T, out = .ok (some T) ∧ now.nanos < T.nanos := by
  simp [Timely, hk]

/-- An instant of a whole second in the years that a clock shows. -/
structure Shown (t : DateTime) : Prop where
  low : 0 ≤ t.nanos
  high : t.nanos < 253402300800 * second
  whole : t.nanos = t.secs * second

theorem clock_shown (c : Clock) : Shown c.time.trunc := by
  have hsince := c.since
  have hbefore := c.before
  constructor <;> unfold DateTime.trunc DateTime.secs second at * <;> dsimp only <;> omega

/-- A positive interval: it is counted from the earlier run, or from now. -/
theorem timely_positive {k : Int} (hk : 0 < k) {last : DateTime} (hlast : Shown last) (now : Clock)
    (reading : DateTime) :
    Timely k true now.time (intervalFire k (some last) now.time reading) ↔
      last.secs + k ≤ lastSecs := by
  have hne : k ≠ 0 := by omega
  have hlow := hlast.low
  rw [timely_ran hne]
  simp only [intervalFire_ran hne, later?_iff hlow hlast.high, later?_iff now.since now.before]
  constructor
  · rintro ⟨T, ⟨next, ⟨-, -, hle⟩, -⟩, -⟩
    exact hle
  · intro hle
    have hsince := now.since
    have hbefore := now.before
    by_cases hlt : now.time.nanos < last.nanos + k * second
    · refine ⟨_, ⟨_, ⟨rfl, ?_, hle⟩, .inl ⟨hlt, rfl⟩⟩, hlt⟩
      simp only [DateTime.secs, second, firstSecs] at *
      omega
    · refine ⟨_, ⟨_, ⟨rfl, ?_, hle⟩, .inr ⟨not_lt.mp hlt, rfl, ?_, ?_⟩⟩, ?_⟩
      all_goals
        simp only [DateTime.secs, second, firstSecs, lastSecs] at *
        omega

/-- A negative interval leads back, and so can only follow a run that starts later than now. -/
theorem timely_negative {k : Int} (hk : k < 0) {last : DateTime} (hlast : Shown last) (now : Clock)
    (reading : DateTime) :
    Timely k true now.time (intervalFire k (some last) now.time reading) ↔
      now.time.nanos < last.nanos + k * second := by
  have hne : k ≠ 0 := by omega
  rw [timely_ran hne]
  simp only [intervalFire_ran hne, later?_iff hlast.low hlast.high,
    later?_iff now.since now.before]
  constructor
  · rintro ⟨T, ⟨next, ⟨rfl, -⟩, hfire⟩, hafter⟩
    rcases hfire with ⟨hlt, rfl⟩ | ⟨-, rfl, -⟩
    · exact hlt
    · unfold second at hafter
      dsimp only at hafter
      omega
  · intro hlt
    have hhigh := hlast.high
    have hsince := now.since
    refine ⟨_, ⟨_, ⟨rfl, ?_, ?_⟩, .inl ⟨hlt, rfl⟩⟩, hlt⟩
    all_goals
      simp only [DateTime.secs, second, firstSecs, lastSecs] at *
      omega

/-- Clocks of one text show one second. -/
theorem trunc_of_datetime {c c' : Clock} (h : c.datetime = c'.datetime) :
    c.time.trunc = c'.time.trunc :=
  Except.ok.inj ((parseDatetime_clock c).symm.trans
    ((congrArg Scheduler.parseDatetime h).trans (parseDatetime_clock c')))

/-- The next fire time of an interval that has been read once a run has started. -/
theorem timely_reaches {k : Int} (hk : k ≠ 0) (c now : Clock) (reading : DateTime) :
    Timely k true now.time (intervalFire k (some c.time.trunc) now.time reading) ↔
      Reaches k c.time.trunc now.time := by
  unfold Reaches
  rcases Int.lt_or_gt_of_ne hk with hneg | hpos
  · rw [timely_negative hneg (clock_shown c)]
    simp [hneg, hneg.not_gt]
  · rw [timely_positive hpos (clock_shown c)]
    simp [hpos, hpos.not_gt]

/-- What becomes of an interval other than 0: its last start is refused, or its next fire time is
counted from the last start, or from the clock where there is none. -/
theorem interval_outcome {info : ScheduleRow} {k : Int64} (hsecs : info.intervalSeconds = some k)
    (hk : k.toInt ≠ 0) {w : World} (hstamped : StartsStamped info.scheduleId w.db) (env : Env)
    (now : Clock) :
    (¬ Searchable info.scheduleId w.db ∧
      ∃ e, ((calculateNextIntervalFire env info now).run w).1 = .error e) ∨
    (Searchable info.scheduleId w.db ∧ lastStarted info.scheduleId w.db = none ∧
      ((calculateNextIntervalFire env info now).run w).1 =
        intervalFire k.toInt none now.time (env.now 0).time) ∨
    (Searchable info.scheduleId w.db ∧
      ∃ c : Clock, lastStarted info.scheduleId w.db = some c.datetime ∧
        ((calculateNextIntervalFire env info now).run w).1 =
          intervalFire k.toInt (some c.time.trunc) now.time (env.now 0).time) := by
  cases hread : selectLastStarted info.scheduleId w.db with
  | error e =>
    refine .inl ⟨fun hsearch => ?_, e, ?_⟩
    · rw [selectLastStarted_eq_ok.mpr ⟨hsearch, rfl⟩] at hread
      cases hread
    · rw [run_calculateNextIntervalFire_error hsecs hk hread]
  | ok last =>
    obtain ⟨hsearch, hlast⟩ := selectLastStarted_eq_ok.mp hread
    cases last with
    | none =>
      refine .inr (.inl ⟨hsearch, hlast, ?_⟩)
      rw [run_calculateNextIntervalFire hsecs (run_getLastStarted_none hread)]
    | some t =>
      obtain ⟨c, rfl⟩ := hstamped t hlast
      refine .inr (.inr ⟨hsearch, c, hlast, ?_⟩)
      rw [run_calculateNextIntervalFire hsecs (run_getLastStarted hread)]

/-- The next fire time of an accepted interval is timely exactly when its value as a signed number
is 0, or the last start can be read, and no run of the schedule has started and the clock is not
set back between its two readings, or the interval reaches from the last start. -/
theorem created_interval_timely_iff (hc : CreatedInterval crates serde info k)
    (hstamped : StartsStamped info.scheduleId w.db) (env : Env) (now : Clock) :
    Timely k.toInt (lastStarted info.scheduleId w.db).isSome now.time
        ((calculateNextIntervalFire env info now).run w).1 ↔
      k.toInt = 0 ∨ (Searchable info.scheduleId w.db ∧
        ((lastStarted info.scheduleId w.db = none ∧ now.time.nanos ≤ (env.now 0).time.nanos) ∨
        ∃ c : Clock, lastStarted info.scheduleId w.db = some c.datetime ∧
          Reaches k.toInt c.time.trunc now.time)) := by
  have hsecs := hc.stored.2
  by_cases hzero : k.toInt = 0
  · refine iff_of_true (.inl ⟨hzero, ?_⟩) (.inl hzero)
    rw [run_calculateNextIntervalFire_zero hsecs hzero]
  rw [or_iff_right hzero]
  rcases interval_outcome hsecs hzero hstamped env now with
    ⟨hrefused, e, hout⟩ | ⟨hsearch, hnone, hout⟩ | ⟨hsearch, c, hlast, hout⟩
  · rw [hout]
    refine iff_of_false ?_ fun h => hrefused h.1
    simp [Timely, hzero]
  · rw [hout, hnone, and_iff_right hsearch]
    simp [Timely, intervalFire, hzero]
  · rw [hout, hlast, and_iff_right hsearch, Option.isSome_some, timely_reaches hzero]
    constructor
    · intro h
      exact .inr ⟨c, rfl, h⟩
    · rintro (⟨h, -⟩ | ⟨c', he, h⟩)
      · cases h
      · rwa [trunc_of_datetime (Option.some.inj he)]

/-- A native request for an interval schedule. -/
def everySeconds (secs : UInt64) : CreateScheduleRequest :=
  ⟨"s", "", some ⟨"interval", [], some secs⟩, some ⟨"x", [], "", "", none⟩, none⟩

/-- The row that it stores. -/
def everySecondsRow (secs : UInt64) : ScheduleRow :=
  scheduleRow plainSerde ⟨"s", "", .interval (.fromSecs secs), ⟨"x", [], "", "", .default⟩, .skip⟩

theorem everySeconds_created (secs : UInt64) :
    CreatedInterval plainCrates plainSerde (everySecondsRow secs) secs.toInt64 :=
  .native (everySeconds secs) _ secs rfl rfl

theorem fireOne_run : (server plainCrates).Run .empty
    ((server plainCrates).replay .empty (script [.writeSchedules [halfMinute] true]) ++ [fireOne])
    fireOne.after := by
  have hstored := script_run [.writeSchedules [halfMinute] true] (by decide +kernel)
  have hi : (server plainCrates).admits fireOne.before fireOne.input := by decide +kernel
  exact hstored.append (Machine.Run.single hi)

/-- The schedule has fired a minute ago, and is looked at again. -/
theorem half_minute_timely :
    Timely (30 : UInt64).toInt64.toInt (lastStarted "s" fireOne.after.db).isSome
      ((turn 2).now 0).time
      ((calculateNextIntervalFire (turn 2) (everySecondsRow 30) ((turn 2).now 0)).run
        fireOne.after).1 := by
  have hlast : lastStarted "s" fireOne.after.db = some ((turn 1).now 0).datetime := by
    decide +kernel
  have hstamped : StartsStamped (everySecondsRow 30).scheduleId fireOne.after.db :=
    (run_stamped fireOne_run).2.starts _
  refine (created_interval_timely_iff (everySeconds_created 30) hstamped (turn 2)
    ((turn 2).now 0)).mpr (.inr ⟨searchable_of_fits (by decide) _,
      .inr ⟨(turn 1).now 0, hlast, .inl ?_⟩⟩)
  decide +kernel

/-- An interval that ends beyond chrono's range is accepted, and the loader panics over it once the
schedule has run. -/
theorem endless_interval_not_timely :
    ¬ ∀ (crates : Crates) (serde : Serde) (info : ScheduleRow) (k : Int64) (w : World) (env : Env)
      (now : Clock), CreatedInterval crates serde info k → StartsStamped info.scheduleId w.db →
        now.time.nanos ≤ (env.now 0).time.nanos →
        Timely k.toInt (lastStarted info.scheduleId w.db).isSome now.time
          ((calculateNextIntervalFire env info now).run w).1 := by
  intro h
  have htimely := h plainCrates plainSerde _ _ fireOne.after (turn 2) ((turn 2).now 0)
    (everySeconds_created 10000000000000)
    ((run_stamped fireOne_run).2.starts _) (Int.le_refl _)
  have hpanic : ((calculateNextIntervalFire (turn 2) (everySecondsRow 10000000000000)
      ((turn 2).now 0)).run fireOne.after).1.value? = none := by decide +kernel
  rcases htimely with ⟨-, hout⟩ | ⟨-, T, hout, -⟩
  · rw [hout] at hpanic
    cases hpanic
  · rw [hout] at hpanic
    cases hpanic

/-- A run that a schedule takes for its own is put into the table. -/
def Inserts (scheduleId : String) (db db' : Db) : Prop :=
  ∃ r ∈ db'.workflows, ofSchedule scheduleId r = true ∧ ∀ q ∈ db.workflows, q.runId ≠ r.runId

/-- A run that a schedule takes for its own, and that stands in the table, is given its start. -/
def Begins (scheduleId : String) (db db' : Db) : Prop :=
  ∃ q ∈ db.workflows, ∃ r ∈ db'.workflows, r.runId = q.runId ∧
    ofSchedule scheduleId r = true ∧ q.startedAt = none ∧ r.startedAt ≠ none

/-- Every start of a run of a schedule is one that there was before. -/
def StartsWithin (scheduleId : String) (db db' : Db) : Prop :=
  ∀ r ∈ db'.workflows, ofSchedule scheduleId r = true → ∀ t, r.startedAt = some t →
    ∃ q ∈ db.workflows, ofSchedule scheduleId q = true ∧ q.startedAt = some t

theorem step_startsWithin (hw : WellFormed w.db) {call : Call} (hc : (server crates).admits w call)
    (hi : ¬ Inserts scheduleId w.db ((server crates).step w call).2.db)
    (hb : ¬ Begins scheduleId w.db ((server crates).step w call).2.db) :
    StartsWithin scheduleId w.db ((server crates).step w call).2.db := by
  intro r hr hof t ht
  obtain ⟨q, hq, hid⟩ : ∃ q ∈ w.db.workflows, q.runId = r.runId := by
    by_contra hnone
    push Not at hnone
    exact hi ⟨r, hr, hof, hnone⟩
  obtain ⟨r', hr', hl⟩ := step_lasting hw hc hq
  obtain rfl : r = r' := (step_wellFormed crates call hw).runs.unique hr hr'
    (key_iff.mpr (hid.symm.trans hl.id.symm))
  refine ⟨q, hq, ?_, ?_⟩
  · rw [ofSchedule, hl.workflowId] at hof
    exact hof
  · cases hs : q.startedAt with
    | none => exact absurd ⟨q, hq, r, hr, hid.symm, hof, hs, by simp [ht]⟩ hb
    | some u => rw [← hl.started u hs, ht]

theorem run_startsWithin {ts : List ServerStep} (hr : (server crates).Run w₀ ts w)
    (hw : WellFormed w₀.db)
    (hquiet : ∀ τ ∈ ts, ¬ Inserts scheduleId τ.before.db τ.after.db ∧
      ¬ Begins scheduleId τ.before.db τ.after.db) :
    WellFormed w.db ∧ StartsWithin scheduleId w₀.db w.db := by
  refine hr.keeps_when (P := fun v => WellFormed v.db ∧ StartsWithin scheduleId w₀.db v.db)
    (C := fun v call => ¬ Inserts scheduleId v.db ((server crates).step v call).2.db ∧
      ¬ Begins scheduleId v.db ((server crates).step v call).2.db) ?_
    ⟨hw, fun r hr hof t ht => ⟨r, hr, hof, ht⟩⟩ ?_
  · intro v call h hc hn
    refine ⟨step_wellFormed crates call h.1, fun r hr hof t ht => ?_⟩
    obtain ⟨q, hq, hqof, hqt⟩ := step_startsWithin h.1 hc hn.1 hn.2 r hr hof t ht
    exact h.2 q hq hqof t hqt
  · intro τ hτ
    obtain ⟨us, vs, rfl⟩ := List.append_of_mem hτ
    obtain ⟨-, -, he, -⟩ := hr.at
    have hsame : ((server crates).step τ.before τ.input).2 = τ.after := by
      rw [he]
      rfl
    rw [hsame]
    exact hquiet τ hτ

/-- A start among earlier ones is not after the last of them. -/
theorem StartsWithin.last (h : StartsWithin scheduleId db db')
    (hl : lastStarted scheduleId db' = some t) :
    ∃ u, lastStarted scheduleId db = some u ∧ t ≤ u := by
  obtain ⟨r, hr, hof, ht⟩ := lastStarted_mem hl
  obtain ⟨q, hq, hqof, hqt⟩ := h r hr hof t ht
  have hmem : some t ∈ (db.workflows.filter (ofSchedule scheduleId)).map (·.startedAt) :=
    List.mem_map.mpr ⟨q, List.mem_filter.mpr ⟨hq, hqof⟩, hqt⟩
  obtain ⟨u, hu, hle, -⟩ := maxText_le hmem
  exact ⟨u, hu, hle⟩

/-- Seconds that have gone by are counted. -/
theorem le_numSeconds {t : Duration} {k : Int} (h : k * second ≤ t.nanos) : k ≤ t.numSeconds := by
  rw [Duration.numSeconds_eq]
  unfold second at *
  split
  · omega
  · omega

/-- A fire time that has come lies an interval after the last start, however it was computed. -/
theorem intervalFire_due {k : Int} {last now₀ now T reading : DateTime}
    (hT : intervalFire k (some last) now₀ reading = .ok (some T)) (hle : now₀.nanos ≤ now.nanos)
    (hdue : T.nanos ≤ now.nanos) : last.nanos + k * second ≤ now.nanos := by
  have hk : k ≠ 0 := by
    rintro rfl
    cases hT
  obtain ⟨next, hnext, hfire⟩ := (intervalFire_ran hk).mp hT
  have he := (later?_eq_some.mp hnext).1
  rcases hfire with ⟨-, rfl⟩ | ⟨hpassed, -⟩
  · omega
  · omega

/-- What has been computed for an interval has been computed of a last start that could be read. -/
theorem searchable_of_fire {info : ScheduleRow} {k : Int64} (hsecs : info.intervalSeconds = some k)
    {w : World} (hT : ((calculateNextIntervalFire env info now).run w).1 = .ok (some T)) :
    Searchable info.scheduleId w.db := by
  cases hread : selectLastStarted info.scheduleId w.db with
  | ok last => exact (selectLastStarted_eq_ok.mp hread).1
  | error e =>
    by_cases hzero : k.toInt = 0
    · rw [run_calculateNextIntervalFire_zero hsecs hzero] at hT
      cases hT
    · rw [run_calculateNextIntervalFire_error hsecs hzero hread] at hT
      cases hT

/-- An interval entry that is due passes the check, if in between no run of the schedule is inserted
and none that stands in the table is given its start. -/
theorem due_interval_passes (hw : (server crates).Reachable w₀) {ts : List ServerStep}
    (hr : (server crates).Run w₀ ts w) {info : ScheduleRow} {k : Int64}
    (hsecs : info.intervalSeconds = some k)
    (hquiet : ∀ τ ∈ ts, ¬ Inserts info.scheduleId τ.before.db τ.after.db ∧
      ¬ Begins info.scheduleId τ.before.db τ.after.db) {env : Env} {now₀ now : Clock}
    (hT : ((calculateNextIntervalFire env info now₀).run w₀).1 = .ok (some T))
    (hle : now₀.time.nanos ≤ now.time.nanos) (hdue : T.nanos ≤ now.time.nanos) :
    ((checkInterval info.scheduleId k.toUInt64 now).run w).1 = .ok true := by
  obtain ⟨v, us, rfl, hu⟩ := hw
  obtain ⟨hwf, hst₀⟩ := run_stamped hu
  have hst := (run_stamped (hu.append hr)).2
  obtain ⟨-, hwithin⟩ := run_startsWithin hr hwf hquiet
  rw [run_checkInterval]
  dsimp only
  cases hread : selectLastStarted info.scheduleId w.db with
  | error e => rfl
  | ok last =>
    cases last with
    | none => rfl
    | some t =>
      have hl := (selectLastStarted_eq_ok.mp hread).2
      obtain ⟨r, hmem, -, hstart⟩ := lastStarted_mem hl
      obtain ⟨c, rfl⟩ := hst r hmem t hstart
      obtain ⟨u, hlast, hbefore⟩ := hwithin.last hl
      obtain ⟨r₀, hmem₀, -, hstart₀⟩ := lastStarted_mem hlast
      obtain ⟨c₀, rfl⟩ := hst₀ r₀ hmem₀ u hstart₀
      have hread₀ : selectLastStarted info.scheduleId w₀.db = .ok (some c₀.datetime) :=
        selectLastStarted_eq_ok.mpr ⟨searchable_of_fire hsecs hT, hlast⟩
      rw [run_calculateNextIntervalFire hsecs (run_getLastStarted hread₀)] at hT
      dsimp only at hT
      have hgone := intervalFire_due hT hle hdue
      have hle₀ : c.time.secs ≤ c₀.time.secs :=
        secs_le_of_textLe (textLe_iff.mpr hbefore) c.plain c₀.plain
      have hpassed : k.toInt ≤ (now.time.since c.time.trunc).numSeconds := by
        apply le_numSeconds
        unfold DateTime.since DateTime.trunc at *
        unfold second at *
        dsimp only at *
        omega
      simp only [unwrapOr_ok, intervalPassed, parseDatetime_clock, Int64.toInt64_toUInt64,
        decide_eq_true hpassed]

instance (scheduleId : String) (db db' : Db) : Decidable (Inserts scheduleId db db') :=
  inferInstanceAs (Decidable (∃ r ∈ _, _ ∧ ∀ q ∈ _, _))

instance (scheduleId : String) (db db' : Db) : Decidable (Begins scheduleId db db') :=
  inferInstanceAs (Decidable (∃ q ∈ _, ∃ r ∈ _, _))

/-- A worker polls between two looks at a schedule that has fired. -/
def pollBetween : ServerStep :=
  (server plainCrates).transition fireOne.after ⟨turn 2, .pollActivity ⟨"", ["execute_cron_job"]⟩⟩

theorem half_minute_passes :
    ((calculateNextIntervalFire (turn 1) halfMinute ((turn 1).now 0)).run fireOne.after).1 =
        .ok (some ⟨90 * second⟩) ∧
      ((checkInterval halfMinute.scheduleId (30 : Int64).toUInt64 ((turn 3).now 0)).run
        pollBetween.after).1 = .ok true := by
  have hnext : ((calculateNextIntervalFire (turn 1) halfMinute ((turn 1).now 0)).run
      fireOne.after).1 = .ok (some ⟨90 * second⟩) :=
    Outcome.ok_of_value (by decide +kernel)
  have hw : (server plainCrates).Reachable fireOne.after := ⟨_, _, rfl, fireOne_run⟩
  have hr : (server plainCrates).Run fireOne.after [pollBetween] pollBetween.after := by
    have hi : (server plainCrates).admits pollBetween.before pollBetween.input := by
      decide +kernel
    exact Machine.Run.single hi
  have hsecs : halfMinute.intervalSeconds = some 30 := rfl
  have hquiet : ∀ τ ∈ [pollBetween], ¬ Inserts halfMinute.scheduleId τ.before.db τ.after.db ∧
      ¬ Begins halfMinute.scheduleId τ.before.db τ.after.db := by
    intro τ hτ
    obtain rfl := List.mem_singleton.mp hτ
    constructor <;> decide +kernel
  exact ⟨hnext, due_interval_passes hw hr hsecs hquiet hnext (by decide) (by decide)⟩

/-- A run is started under an id of the kind that schedules give, and the engine looks at it after
the schedule's next fire time has been computed. -/
def lookedAt : ServerStep :=
  (server plainCrates).transition
    (worldAfter [.startWorkflow ⟨"x", [], "schedule:s-x", "", none, ""⟩])
    ⟨turn 1, .handle (.workflowCreated "id-0")⟩

theorem begun_run_not_passed :
    ¬ ∀ (crates : Crates) (w₀ w : World) (ts : List ServerStep) (info : ScheduleRow) (k : Int64)
      (env : Env) (now₀ now : Clock) (T : DateTime), (server crates).Reachable w₀ →
        (server crates).Run w₀ ts w → info.specType = .interval → info.intervalSeconds = some k →
        1 ≤ k.toInt → (∀ τ ∈ ts, ¬ Inserts info.scheduleId τ.before.db τ.after.db) →
        ((calculateNextIntervalFire env info now₀).run w₀).1 = .ok (some T) →
        now₀.time.nanos ≤ now.time.nanos → T.nanos ≤ now.time.nanos →
        ((checkInterval info.scheduleId k.toUInt64 now).run w).1 = .ok true := by
  intro h
  have hw : (server plainCrates).Reachable
      (worldAfter [.startWorkflow ⟨"x", [], "schedule:s-x", "", none, ""⟩]) :=
    ⟨_, _, rfl, script_run _ (by decide +kernel)⟩
  have hi : (server plainCrates).admits lookedAt.before lookedAt.input := by decide +kernel
  have hnext : ((calculateNextIntervalFire (turn 1) halfMinute ((turn 1).now 0)).run
      lookedAt.before).1 = .ok (some ⟨60 * second⟩) := Outcome.ok_of_value (by decide +kernel)
  have hpasses := h plainCrates _ _ [lookedAt] halfMinute 30 (turn 1) ((turn 1).now 0)
    ((turn 1).now 0) ⟨60 * second⟩ hw (Machine.Run.single hi) rfl rfl (by decide) ?_ hnext
    (Int.le_refl _) (by decide)
  · have hrefused : ((checkInterval "s" (30 : Int64).toUInt64 ((turn 1).now 0)).run
        lookedAt.after).1 = .ok false := Outcome.ok_of_value (by decide +kernel)
    exact absurd (hrefused.symm.trans hpasses) (by simp)
  · intro τ hτ
    obtain rfl := List.mem_singleton.mp hτ
    decide +kernel

end Khronos.Proofs
