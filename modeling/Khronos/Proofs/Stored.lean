import Khronos.Proofs.Isolation
import Khronos.Proofs.Upcoming

namespace Khronos.Proofs
open Time Lib Db.Schedules Server Server.Scheduler

/-- What an accepted request to update has found, and what it leaves of the table. -/
theorem updateSchedule_ok {req : UpdateScheduleRequest} {out : Bool}
    (h : (updateSchedule crates serde req).run w = (.ok out, w')) :
    ∃ (spec : ProtoScheduleSpec) (newSpec : Core.ScheduleSpec) (existing : Core.Schedule)
      (r : ScheduleRow), req.spec = some spec ∧ coreSpec spec = .ok newSpec ∧
      (r ∈ w.db.schedules ∧ r.scheduleId = req.scheduleId ∧
        rowToSchedule crates serde r = .ok existing) ∧
      w'.db.schedules = Table.update (named req.scheduleId req.nameSpace)
        (setSchedule serde { existing with spec := newSpec }) w.db.schedules := by
  unfold updateSchedule at h
  cases hspec : req.spec with
  | none =>
    simp only [hspec, required] at h
    cases h
  | some spec =>
    simp only [hspec, required, Prog.run_bind, Prog.run_mapError, getSchedule, run_query] at h
    cases hf : w.db.schedules.filter (fun r => r.scheduleId = req.scheduleId) with
    | nil =>
      rw [hf] at h
      cases h
    | cons r rest =>
      cases hs : rowToSchedule crates serde r with
      | error e =>
        simp only [hf, hs] at h
        cases h
      | ok existing =>
        cases hcore : coreSpec spec with
        | error status =>
          simp only [hf, hs, hcore] at h
          cases h
        | ok newSpec =>
          simp only [hf, hs, hcore] at h
          cases h
          have hr : r ∈ w.db.schedules.filter (fun r => r.scheduleId = req.scheduleId) := by
            rw [hf]
            exact List.mem_cons_self
          obtain ⟨hmem, hid⟩ := List.mem_filter.mp hr
          exact ⟨spec, newSpec, existing, r, rfl, hcore,
            ⟨hmem, of_decide_eq_true hid, hs⟩, rfl⟩

/-- A native request has been accepted that asks for a spec, and stores it in a row. -/
inductive Accepts (crates : Crates) (serde : Serde) (w w' : World) :
    ScheduleRow → Core.ScheduleSpec → Prop
  | create (req : CreateScheduleRequest) (schedule : Core.Schedule) (scheduleId : String)
      (hreq : requestedSchedule req = .ok schedule)
      (hrun : (createSchedule serde req).run w = (.ok scheduleId, w')) (info : ScheduleRow)
      (hinfo : info ∈ w'.db.schedules) (hid : info.scheduleId = req.scheduleId) :
      Accepts crates serde w w' info schedule.spec
  | update (req : UpdateScheduleRequest) (spec : ProtoScheduleSpec) (newSpec : Core.ScheduleSpec)
      (hspec : req.spec = some spec) (hcore : coreSpec spec = .ok newSpec)
      (hrun : (updateSchedule crates serde req).run w = (.ok true, w')) (info : ScheduleRow)
      (hinfo : info ∈ w'.db.schedules) (hnamed : named req.scheduleId req.nameSpace info = true) :
      Accepts crates serde w w' info newSpec

theorem createSchedule_ok {req : CreateScheduleRequest} {schedule : Core.Schedule}
    (hreq : requestedSchedule req = .ok schedule) {out : String}
    (h : (createSchedule serde req).run w = (.ok out, w')) :
    (¬ ∃ r ∈ w.db.schedules, r.scheduleId = schedule.scheduleId) ∧
      w'.db.schedules = w.db.schedules ++ [scheduleRow serde schedule] := by
  unfold createSchedule insertSchedule at h
  simp only [hreq, Prog.run_bind, Prog.run_mapError, run_execute] at h
  by_cases hex : ∃ r ∈ w.db.schedules, r.scheduleId = schedule.scheduleId
  · rw [if_pos hex] at h
    cases h
  · rw [if_neg hex] at h
    cases h
    exact ⟨hex, rfl⟩

/-- The columns of the row are those of the spec. -/
theorem Accepts.columns (h : Accepts crates serde w w' info spec) :
    info.specType = (specColumns serde spec).specType ∧
      info.cronExpressions = (specColumns serde spec).cronExpressions ∧
      info.intervalSeconds = (specColumns serde spec).intervalSeconds := by
  cases h with
  | create req schedule scheduleId hreq hrun _ hinfo hid =>
    obtain ⟨hnew, hrows⟩ := createSchedule_ok hreq hrun
    rw [hrows] at hinfo
    rcases List.mem_append.mp hinfo with hold | hmem
    · exact absurd ⟨info, hold, hid.trans (requestedSchedule_key hreq).1.symm⟩ hnew
    · rw [List.mem_singleton.mp hmem]
      exact ⟨rfl, rfl, rfl⟩
  | update req pspec _ hspec hcore hrun _ hinfo hnamed =>
    obtain ⟨pspec', newSpec, existing, _, hspec', hcore', -, hrows⟩ := updateSchedule_ok hrun
    rw [hspec] at hspec'
    cases hspec'
    rw [hcore] at hcore'
    cases hcore'
    rw [hrows] at hinfo
    obtain ⟨r, hr, rfl⟩ := Table.mem_update.mp hinfo
    split at hnamed
    · rename_i hn
      rw [if_pos hn]
      exact ⟨rfl, rfl, rfl⟩
    · exact absurd hnamed ‹_›

/-- An interval can be added to the last start and, if that has passed by then, to now. -/
def Adds (k : Int) (last now : DateTime) : Prop :=
  firstSecs ≤ last.secs + k ∧ last.secs + k ≤ lastSecs ∧
    (now.nanos < last.nanos + k * second ∨ firstSecs * second ≤ now.nanos + k * second)

/-- The reload gets past a row: if that is an interval other than 0, its last start can be read and
the interval added to it. -/
def Passes (now : Clock) (db : Db) (row : ScheduleRow) : Prop :=
  row.specType = .interval → ∀ k, row.intervalSeconds = some k → k.toInt ≠ 0 →
    Searchable row.scheduleId db ∧
      ∀ c : Clock, lastStarted row.scheduleId db = some c.datetime →
        Adds k.toInt c.time.trunc now.time

/-- A spec has come to its end: it is of cron expressions, at least one, that are all valid and
have no occurrence left. -/
def RunOut (crates : Crates) (env : Env) : Core.ScheduleSpec → Prop
  | .cron exprs => exprs ≠ [] ∧ ∀ (j : Nat) (expr : String), exprs[j]? = some expr →
      crates.cronUpcoming expr (env.now j).time = some none
  | .interval _ => False

/-- A spec can fire: some cron expression has an occurrence left, or the interval is not 0. -/
def Fireable (crates : Crates) (env : Env) : Core.ScheduleSpec → Prop
  | .cron exprs => ∃ (j : Nat) (expr : String) (T : DateTime), exprs[j]? = some expr ∧
      crates.cronUpcoming expr (env.now j).time = some (some T)
  | .interval duration => duration.asSecs ≠ 0

/-- A reload schedules a numbered row: it comes to its end with an entry for it in the heap, unless
the row's spec has run out. -/
def Reloaded (crates : Crates) (env : Env) (v : World) (x : ScheduleRow × Nat)
    (spec : Core.ScheduleSpec) : Prop :=
  (∃ heap e, ((reloadAllSchedules crates env).run v).1 = .ok heap ∧ e ∈ heap.entries ∧
    e.scheduleId = x.1.scheduleId) ∨ RunOut crates ((env.part 1).part x.2) spec

theorem intervalFire_some_iff {k : Int} (hk : k ≠ 0) {last : DateTime} (hlast : Shown last)
    (now : Clock) (reading : DateTime) :
    (∃ T, intervalFire k (some last) now.time reading = .ok (some T)) ↔ Adds k last now.time := by
  have hlow := hlast.low
  have hsince := now.since
  have hbefore := now.before
  simp only [intervalFire_ran hk, later?_iff hlast.low hlast.high, later?_iff now.since now.before]
  unfold Adds
  constructor
  · rintro ⟨T, next, ⟨rfl, hge, hle⟩, hfire⟩
    refine ⟨hge, hle, ?_⟩
    rcases hfire with ⟨hlt, -⟩ | ⟨-, -, hagain, -⟩
    · exact .inl hlt
    · right
      unfold DateTime.secs second firstSecs at *
      omega
  · rintro ⟨hge, hle, hnow⟩
    by_cases hlt : now.time.nanos < last.nanos + k * second
    · exact ⟨_, _, ⟨rfl, hge, hle⟩, .inl ⟨hlt, rfl⟩⟩
    · refine ⟨_, _, ⟨rfl, hge, hle⟩, .inr ⟨not_lt.mp hlt, rfl, ?_, ?_⟩⟩
      all_goals
        simp only [DateTime.secs, second, firstSecs, lastSecs] at *
        omega

theorem timeAt_interval {info : ScheduleRow} (htype : info.specType = .interval) (env : Env)
    (now : Clock) (v : World) (i : Nat) :
    timeAt crates env now v (info, i) =
      ((calculateNextIntervalFire (env.part i) info now).run v).1 := by
  unfold timeAt nextFireTime
  simp only [htype]

theorem intervalFire_ne_none {k : Int} (hk : k ≠ 0) (last : Option DateTime)
    (now reading : DateTime) : intervalFire k last now reading ≠ .ok none := by
  unfold intervalFire
  rw [if_neg hk]
  cases last with
  | none => simp
  | some last =>
    dsimp only
    cases later? last k with
    | none => simp
    | some next =>
      dsimp only
      split
      · simp
      · cases later? now k <;> simp

/-- Where an interval other than 0 does not stop the reload, it has a next fire time. -/
theorem interval_ne_none {info : ScheduleRow} {k : Int64} (hsecs : info.intervalSeconds = some k)
    (hk : k.toInt ≠ 0) (hstamped : StartsStamped info.scheduleId v.db) (env : Env) (now : Clock) :
    ((calculateNextIntervalFire env info now).run v).1 ≠ .ok none := by
  rcases interval_outcome hsecs hk hstamped env now with
    ⟨-, e, hout⟩ | ⟨-, -, hout⟩ | ⟨-, c, -, hout⟩
  · simp [hout]
  · rw [hout]
    exact intervalFire_ne_none hk none now.time (env.now 0).time
  · rw [hout]
    exact intervalFire_ne_none hk (some c.time.trunc) now.time (env.now 0).time

theorem interval_time_iff {info : ScheduleRow} {k : Int64} (hsecs : info.intervalSeconds = some k)
    (hk : k.toInt ≠ 0) (hstamped : StartsStamped info.scheduleId v.db) (env : Env) (now : Clock) :
    (∃ T, ((calculateNextIntervalFire env info now).run v).1 = .ok (some T)) ↔
      Searchable info.scheduleId v.db ∧ ∀ c : Clock,
        lastStarted info.scheduleId v.db = some c.datetime → Adds k.toInt c.time.trunc now.time := by
  rcases interval_outcome hsecs hk hstamped env now with
    ⟨hrefused, e, hout⟩ | ⟨hsearch, hnone, hout⟩ | ⟨hsearch, c, hlast, hout⟩
  · exact iff_of_false (by simp [hout]) fun h => hrefused h.1
  · rw [hout, hnone, and_iff_right hsearch, intervalFire, if_neg hk]
    simp
  · rw [hout, hlast, and_iff_right hsearch]
    refine (intervalFire_some_iff hk (clock_shown c) now (env.now 0).time).trans ?_
    constructor
    · intro h c' he
      rwa [← trunc_of_datetime (Option.some.inj he)]
    · intro h
      exact h c rfl

theorem timeAt_cron {info : ScheduleRow} (htype : info.specType = .cron) (env : Env) (now : Clock)
    (v : World) (i : Nat) :
    timeAt crates env now v (info, i) = .ok (calculateNextCronFire crates (env.part i) info) := by
  unfold timeAt nextFireTime
  simp only [htype]
  rfl

/-- A next fire time can be computed of a row, or none, exactly when the reload gets past it. -/
theorem passes_iff (hstamped : Stamped v.db) (crates : Crates) (env : Env) (now : Clock)
    (info : ScheduleRow) (i : Nat) :
    (∃ o, timeAt crates env now v (info, i) = .ok o) ↔ Passes now v.db info := by
  have hst := hstamped.starts info.scheduleId
  cases htype : info.specType with
  | cron =>
    rw [timeAt_cron htype]
    refine iff_of_true ⟨_, rfl⟩ fun h => ?_
    rw [htype] at h
    cases h
  | interval =>
    rw [timeAt_interval htype]
    cases hsecs : info.intervalSeconds with
    | none =>
      refine iff_of_true ⟨none, ?_⟩ fun _ k hk => ?_
      · unfold calculateNextIntervalFire
        rw [hsecs]
        rfl
      · rw [hsecs] at hk
        cases hk
    | some k =>
      by_cases hzero : k.toInt = 0
      · rw [run_calculateNextIntervalFire_zero hsecs hzero]
        refine iff_of_true ⟨_, rfl⟩ fun _ k' hk' hne => ?_
        rw [hsecs] at hk'
        cases hk'
        exact absurd hzero hne
      · have htime := interval_time_iff hsecs hzero hst (env.part i) now
        have hne := interval_ne_none hsecs hzero hst (env.part i) now
        constructor
        · rintro ⟨o, ho⟩ - k' hk' -
          rw [hsecs] at hk'
          cases hk'
          cases o with
          | none => exact absurd ho hne
          | some T => exact htime.mp ⟨T, ho⟩
        · intro h
          obtain ⟨T, hT⟩ := htime.mpr (h htype k hsecs hzero)
          exact ⟨_, hT⟩

theorem toInt64_eq_zero {secs : UInt64} : secs.toInt64.toInt = 0 ↔ secs = 0 := by
  constructor
  · intro h
    have hk : secs.toInt64 = 0 := Int64.toInt_inj.mp (by simpa using h)
    have hback := congrArg Int64.toUInt64 hk
    rw [UInt64.toUInt64_toInt64] at hback
    exact hback
  · rintro rfl
    rfl

/-- A row that the reload gets past has a next fire time exactly when its spec can fire. -/
theorem fireable_iff {crates : Crates} {serde : Serde} (hback : serde.ReadsBack crates)
    (ha : Accepts crates serde w w' info spec) (hstamped : Stamped v.db) {env : Env} {now : Clock}
    {i : Nat} (hpass : Passes now v.db info) :
    (∃ T, timeAt crates env now v (info, i) = .ok (some T)) ↔ Fireable crates (env.part i) spec := by
  obtain ⟨htype, hexprs, hsecs⟩ := ha.columns
  cases spec with
  | cron exprs =>
    have hread : info.cronExpressions.bind crates.stringsFromStr = some exprs := by
      rw [hexprs]
      exact hback.strings exprs
    rw [timeAt_cron htype]
    simp only [Outcome.ok.injEq]
    rw [← Option.isSome_iff_exists, Option.isSome_iff_ne_none, calculateNextCronFire, hread,
      Option.bind_some, ne_eq, findSome_zipIdx_none]
    push Not
    constructor
    · rintro ⟨j, expr, he, hsome⟩
      obtain ⟨T, hT⟩ := Option.ne_none_iff_exists'.mp hsome
      exact ⟨j, expr, T, he, Option.join_eq_some_iff.mp hT⟩
    · rintro ⟨j, expr, T, he, hT⟩
      refine ⟨j, expr, he, ?_⟩
      rw [hT]
      simp
  | interval duration =>
    change info.intervalSeconds = some duration.asSecs.toInt64 at hsecs
    rw [timeAt_interval htype]
    refine Iff.trans ?_ toInt64_eq_zero.not
    constructor
    · rintro ⟨T, hT⟩ hzero
      rw [run_calculateNextIntervalFire_zero hsecs hzero] at hT
      cases hT
    · intro hne
      exact (interval_time_iff hsecs hne (hstamped.starts _) (env.part i) now).mpr
        (hpass htype _ hsecs hne)

/-- Rows of one id are one row, in one place. -/
theorem keyed_place {rows : List ScheduleRow} (hkeyed : Table.Keyed ScheduleRow.scheduleId rows)
    (hx : (x, i) ∈ rows.zipIdx) (hy : (y, j) ∈ rows.zipIdx) (hid : x.scheduleId = y.scheduleId) :
    x = y ∧ i = j := by
  rw [List.mk_mem_zipIdx_iff_getElem?] at hx hy
  have hi : (rows.map ScheduleRow.scheduleId)[i]? = some x.scheduleId := by simp [hx]
  have hj : (rows.map ScheduleRow.scheduleId)[j]? = some x.scheduleId := by simp [hy, hid]
  obtain ⟨hlt, _⟩ := List.getElem?_eq_some_iff.mp hi
  have hij : i = j := (List.getElem?_inj hlt hkeyed).mp (hi.trans hj.symm)
  subst hij
  exact ⟨Option.some.inj (hx.symm.trans hy), rfl⟩

/-- The reload has an entry for a row exactly when it comes to a time for it, and to one or none
for each other row. -/
theorem reloaded_iff (hkeyed : Table.Keyed ScheduleRow.scheduleId v.db.schedules)
    (hx : (info, i) ∈ v.db.schedules.zipIdx) (crates : Crates) (env : Env) :
    (∃ heap e, ((reloadAllSchedules crates env).run v).1 = .ok heap ∧ e ∈ heap.entries ∧
      e.scheduleId = info.scheduleId) ↔
    (∃ T, timeAt crates (env.part 1) (env.now 0) v (info, i) = .ok (some T)) ∧
      ∀ y ∈ v.db.schedules.zipIdx, ∃ o, timeAt crates (env.part 1) (env.now 0) v y = .ok o := by
  constructor
  · rintro ⟨heap, e, hheap, he, hid⟩
    refine ⟨?_, ((reload_ok_iff crates env v heap).mp hheap).1⟩
    obtain ⟨⟨row, j⟩, hy, hentry⟩ := List.mem_filterMap.mp ((mem_reload hheap).mp he).mem
    unfold entryAt at hentry
    split at hentry
    · rename_i T hT
      cases hentry
      obtain ⟨rfl, rfl⟩ := keyed_place hkeyed hy hx hid
      exact ⟨T, hT⟩
    · cases hentry
  · rintro ⟨⟨T, hT⟩, hall⟩
    have hheap := (reload_ok_iff crates env v _).mpr ⟨hall, rfl⟩
    have hentry : (⟨T, info.scheduleId⟩ : ScheduleEntry) ∈
        v.db.schedules.zipIdx.filterMap (entryAt crates (env.part 1) (env.now 0) v) := by
      refine List.mem_filterMap.mpr ⟨(info, i), hx, ?_⟩
      rw [entryAt, hT]
    obtain ⟨f, hf, hid⟩ := (kept_all _).ids _ hentry
    exact ⟨_, f, hheap, (mem_reload hheap).mpr (((kept_all _).mem f).mp hf), hid⟩

/-- The row of an accepted native request is scheduled by a reload, at whatever time and in whatever
state that stores it, exactly when its spec has run out, or can fire and the reload gets past every
row of the table. -/
theorem accepted_scheduled_iff {crates : Crates} {serde : Serde} (hback : serde.ReadsBack crates)
    (ha : Accepts crates serde w w' info spec) (hx : (info, i) ∈ v.db.schedules.zipIdx)
    (hkeyed : Table.Keyed ScheduleRow.scheduleId v.db.schedules) (hstamped : Stamped v.db)
    (env : Env) :
    Reloaded crates env v (info, i) spec ↔ RunOut crates ((env.part 1).part i) spec ∨
      (Fireable crates ((env.part 1).part i) spec ∧
        ∀ row ∈ v.db.schedules, Passes (env.now 0) v.db row) := by
  unfold Reloaded
  rw [or_comm, reloaded_iff hkeyed hx]
  refine or_congr_right ?_
  have hrows : (∀ y ∈ v.db.schedules.zipIdx, ∃ o,
      timeAt crates (env.part 1) (env.now 0) v y = .ok o) ↔
        ∀ row ∈ v.db.schedules, Passes (env.now 0) v.db row := by
    constructor
    · intro h row hrow
      obtain ⟨j, hj⟩ := List.mem_iff_getElem?.mp hrow
      exact (passes_iff hstamped crates (env.part 1) (env.now 0) row j).mp
        (h _ (List.mk_mem_zipIdx_iff_getElem?.mpr hj))
    · rintro h ⟨row, j⟩ hy
      exact (passes_iff hstamped crates (env.part 1) (env.now 0) row j).mpr
        (h row (List.fst_mem_of_mem_zipIdx hy))
  rw [hrows]
  refine and_congr_left fun hall => ?_
  exact fireable_iff hback ha hstamped (hall info (List.fst_mem_of_mem_zipIdx hx))

/-- The server after a first request for a schedule. -/
def firstStored (serde : Serde) (schedule : Core.Schedule) : World where
  db := { Db.empty with schedules := [scheduleRow serde schedule] }
  queue := enqueue [] .scheduleChange
  timers := []

theorem firstStored_run {req : CreateScheduleRequest} {schedule : Core.Schedule}
    (hreq : requestedSchedule req = .ok schedule) (serde : Serde) :
    (createSchedule serde req).run .empty = (.ok req.scheduleId, firstStored serde schedule) := by
  unfold createSchedule
  rw [hreq]
  simp only [Prog.run_bind, Prog.run_mapError, insertSchedule, run_execute]
  rfl

theorem firstStored_accepted {req : CreateScheduleRequest} {schedule : Core.Schedule}
    (hreq : requestedSchedule req = .ok schedule) (crates : Crates) (serde : Serde) :
    Accepts crates serde .empty (firstStored serde schedule) (scheduleRow serde schedule)
      schedule.spec :=
  .create req schedule req.scheduleId hreq (firstStored_run hreq serde) _ List.mem_cons_self
    (requestedSchedule_key hreq).1

/-- An interval of half a minute, as the first schedule of all. -/
def firstHalfMinute : Core.Schedule :=
  ⟨"s", "", .interval (.fromSecs 30), ⟨"x", [], "", "", .default⟩, .skip⟩

theorem firstStored_stamped (serde : Serde) (schedule : Core.Schedule) :
    Stamped (firstStored serde schedule).db := by
  intro r hr
  cases hr

theorem first_half_minute_scheduled :
    Reloaded readingCrates (turn 1) (firstStored readingSerde firstHalfMinute)
      (scheduleRow readingSerde firstHalfMinute, 0) (.interval (.fromSecs 30)) := by
  have hreq : requestedSchedule (everySeconds 30) = .ok firstHalfMinute := rfl
  have ha := firstStored_accepted hreq readingCrates readingSerde
  have hkeyed : Table.Keyed ScheduleRow.scheduleId
      (firstStored readingSerde firstHalfMinute).db.schedules := List.nodup_singleton _
  have hne : (Core.Duration.fromSecs 30).asSecs ≠ 0 := by decide
  refine (accepted_scheduled_iff readingSerde_readsBack ha List.mem_cons_self hkeyed
    (firstStored_stamped _ _) (turn 1)).mpr (.inr ⟨hne, ?_⟩)
  intro row _ _ k _ _
  refine ⟨fun _ => rfl, fun c hc => ?_⟩
  have hnone : lastStarted row.scheduleId (firstStored readingSerde firstHalfMinute).db = none := rfl
  cases hnone.symm.trans hc

/-- The expression of the README's example: five fields, where the crate needs six or seven. -/
def fiveFields : Core.Schedule :=
  ⟨"s", "", .cron ["0 */6 * * *"], ⟨"x", [], "", "", .default⟩, .skip⟩

/-- The request for it. -/
def asksFiveFields : CreateScheduleRequest :=
  ⟨"s", "", some ⟨"cron", ["0 */6 * * *"], none⟩, some ⟨"x", [], "", "", none⟩, none⟩

theorem five_fields_not_scheduled :
    ¬ ∀ (crates : Crates) (serde : Serde) (w w' v : World) (info : ScheduleRow)
      (spec : Core.ScheduleSpec) (i : Nat) (env : Env), serde.ReadsBack crates →
        Accepts crates serde w w' info spec → (info, i) ∈ v.db.schedules.zipIdx →
        Table.Keyed ScheduleRow.scheduleId v.db.schedules → Stamped v.db →
        Reloaded crates env v (info, i) spec := by
  intro h
  have hreq : requestedSchedule asksFiveFields = .ok fiveFields := rfl
  have ha := firstStored_accepted hreq readingCrates readingSerde
  have hkeyed : Table.Keyed ScheduleRow.scheduleId
      (firstStored readingSerde fiveFields).db.schedules := List.nodup_singleton _
  have hstamped := firstStored_stamped readingSerde fiveFields
  have hscheduled := h readingCrates readingSerde .empty _ (firstStored readingSerde fiveFields) _ _
    0 (turn 1) readingSerde_readsBack ha List.mem_cons_self hkeyed hstamped
  have hplace : (scheduleRow readingSerde fiveFields, 0) ∈
      (firstStored readingSerde fiveFields).db.schedules.zipIdx := List.mem_cons_self
  -- The crate takes no such text, so no expression has an occurrence and not all are valid.
  have hnone : ∀ (expr : String) (t : DateTime), readingCrates.cronUpcoming expr t = none :=
    fun _ _ => rfl
  rcases hscheduled with hheap | ⟨-, hall⟩
  · obtain ⟨⟨T, hT⟩, hrows⟩ := (reloaded_iff hkeyed hplace _ _).mp hheap
    have hpass := (passes_iff hstamped readingCrates _ _ _ _).mp ⟨_, hT⟩
    obtain ⟨j, expr, T', -, hT'⟩ :=
      (fireable_iff readingSerde_readsBack ha hstamped hpass).mp ⟨T, hT⟩
    rw [hnone] at hT'
    cases hT'
  · have hfirst := hall 0 "0 */6 * * *" rfl
    rw [hnone] at hfirst
    cases hfirst

end Khronos.Proofs
