import Khronos.Proofs.Intervals
import Khronos.Server.Heap

namespace Khronos.Proofs
open Time Lib Db.Activities Db.Workflows Server

/-- The least of some occurrences strictly after an instant. -/
structure Next (occ : Set DateTime) (t o : DateTime) : Prop where
  mem : o ∈ occ
  after : t.nanos < o.nanos
  least : ∀ o' ∈ occ, t.nanos < o'.nanos → o.nanos ≤ o'.nanos

/-- An expression is valid, and the crate gives its next occurrence at every clock time. -/
def Occurrences (crates : Crates) (expr : String) (occ : Set DateTime) : Prop :=
  ∀ t, match crates.cronUpcoming expr t with
    | some (some o) => Next occ t o
    | some none => ∀ o ∈ occ, o.nanos ≤ t.nanos
    | none => False

theorem Next.unique (h : Next occ t o) (h' : Next occ t o') : o = o' := by
  have hle := h.least o' h'.mem h'.after
  have hge := h'.least o h.mem h.after
  cases o
  cases o'
  simp only [DateTime.mk.injEq] at *
  omega

theorem Occurrences.upcoming (h : Occurrences crates expr occ) :
    crates.cronUpcoming expr t = some (some o) ↔ Next occ t o := by
  have ht := h t
  constructor
  · intro he
    rw [he] at ht
    exact ht
  · intro hn
    split at ht
    · rename_i o' he
      rw [he, ht.unique hn]
    · exact absurd (ht o hn.mem) (not_le.mpr hn.after)
    · exact ht.elim

/-- A difference of less than a second counts as none. -/
theorem numSeconds_soon {t : Duration} :
    (0 ≤ t.numSeconds ∧ t.numSeconds ≤ 1) ↔ -second < t.nanos ∧ t.nanos < 2 * second := by
  rw [Duration.numSeconds_eq]
  unfold second
  split
  · omega
  · omega

theorem shouldFire_cron (hcron : info.specType = .cron)
    (hexpr : info.cronExpressions.bind crates.stringsFromStr = some [expr]) (env : Env) :
    Scheduler.shouldFire crates env info =
      pure (Scheduler.cronMatches crates (env.now 0) ((env.part 1).now 0) expr) := by
  unfold Scheduler.shouldFire
  rw [hcron]
  simp only [hexpr]
  simp [Scheduler.checkCronMatch]

/-- The check looks for an occurrence after its own reading of the clock. -/
theorem cronMatches_iff (hocc : Occurrences crates expr occ) {now reading : Clock} :
    Scheduler.cronMatches crates now reading expr = true ↔
      ∃ o, Next occ reading.time o ∧ now.time.nanos - second < o.nanos ∧
        o.nanos < now.time.nanos + 2 * second := by
  unfold Scheduler.cronMatches
  split
  · rename_i o he
    have hn := hocc.upcoming.mp he
    rw [decide_eq_true_eq, numSeconds_soon]
    simp only [DateTime.since]
    constructor
    · intro h
      exact ⟨o, hn, by omega, by omega⟩
    · rintro ⟨o', hn', hlo, hhi⟩
      rw [hn.unique hn']
      exact ⟨by omega, by omega⟩
  · rename_i hnone
    refine iff_of_false (by simp) ?_
    rintro ⟨o, hn, _⟩
    exact hnone o (hocc.upcoming.mpr hn)

/-- A schedule that is due and has no active run starts one, whatever its policy, if the active
runs can be counted. -/
theorem processSchedule_idle (hf : Fresh w.db env)
    (hstored : Scheduler.scheduleInfo scheduleId w.db = .ok info)
    (hdue : ((Scheduler.shouldFire crates (env.part 0) info).run w).1 = .ok true)
    (hidle : Scheduler.activeOf scheduleId w.db = []) (hcount : Countable scheduleId w.db) :
    (Scheduler.processSchedule crates env scheduleId).after w =
      firedWorld crates env info w.db.workflows w := by
  have hread : Scheduler.selectActive scheduleId (fun runs => decide (0 < runs.length)) w.db =
      .ok false :=
    selectActive_eq_ok.mpr ⟨hcount, by rw [hidle]; rfl⟩
  have hstill : Terminated crates env scheduleId w w.db.workflows := .inl rfl
  have hstart := run_startFired hf hstill info
  have hrun : (Scheduler.shouldFire crates (env.part 0) info).run w = (.ok true, w) :=
    Prod.ext hdue (run_shouldFire_world crates (env.part 0) info w)
  unfold Prog.after Scheduler.processSchedule
  rw [Prog.run_bind, Prog.run_attempt, run_query, hstored]
  simp only [Outcome.ofExcept, Outcome.caught, Prog.resume_ok, Prog.run_bind, hrun, if_true,
    Scheduler.checkRunningWorkflow, run_query, hread]
  cases info.overlapPolicy with
  | skip => exact hstart
  | buffer => exact hstart
  | terminate => exact hstart

/-- A wake-up for a schedule keeps its promise: the schedule fires, and starts a run if it has
no active one. -/
def FiresDue (crates : Crates) (env : Env) (scheduleId : String) (info : ScheduleRow)
    (w : World) : Prop :=
  ((Scheduler.shouldFire crates (env.part 0) info).run w).1 = .ok true ∧
    (Scheduler.activeOf scheduleId w.db = [] →
      ∃ r ∈ ((Scheduler.processSchedule crates env scheduleId).after w).db.workflows,
        r.runId = env.uuid 0 ∧ Scheduler.ofSchedule scheduleId r = true ∧ active r = true)

/-- A schedule that is due starts nothing where the active runs cannot be counted. -/
theorem processSchedule_uncounted (hstored : Scheduler.scheduleInfo scheduleId w.db = .ok info)
    (hdue : ((Scheduler.shouldFire crates (env.part 0) info).run w).1 = .ok true)
    (hcount : ¬ Countable scheduleId w.db) :
    (Scheduler.processSchedule crates env scheduleId).after w = w := by
  have hrun : (Scheduler.shouldFire crates (env.part 0) info).run w = (.ok true, w) :=
    Prod.ext hdue (run_shouldFire_world crates (env.part 0) info w)
  unfold Prog.after Scheduler.processSchedule
  rw [Prog.run_bind, Prog.run_attempt, run_query, hstored]
  simp only [Outcome.ofExcept, Outcome.caught, Prog.resume_ok, Prog.run_bind, hrun, if_true,
    Scheduler.checkRunningWorkflow, run_query]
  cases hread : Scheduler.selectActive scheduleId (fun runs => decide (0 < runs.length)) w.db with
  | error e => rfl
  | ok running => exact absurd (selectActive_eq_ok.mp hread).1 hcount

theorem firesDue_iff (hf : Fresh w.db env)
    (hstored : Scheduler.scheduleInfo scheduleId w.db = .ok info) :
    FiresDue crates env scheduleId info w ↔
      ((Scheduler.shouldFire crates (env.part 0) info).run w).1 = .ok true ∧
        (Scheduler.activeOf scheduleId w.db = [] → Countable scheduleId w.db) := by
  constructor
  · rintro ⟨hdue, hstarts⟩
    refine ⟨hdue, fun hidle => ?_⟩
    obtain ⟨r, hr, hid, -⟩ := hstarts hidle
    by_contra hcount
    rw [processSchedule_uncounted hstored hdue hcount] at hr
    exact (fresh_unused hf (by omega)).1 ⟨r, hr, hid⟩
  · rintro ⟨hdue, hcount⟩
    refine ⟨hdue, fun hidle => ?_⟩
    exact ⟨firedRow crates env info,
      firedRow_mem (processSchedule_idle hf hstored hdue hidle (hcount hidle)), rfl,
      firedRow_own hstored crates env, rfl⟩

/-- A stored cron schedule with one valid expression fires at a wake-up, whenever that is,
exactly when the next occurrence after the check's own reading of the clock is less than two
seconds after the wake-up (and not a second before it), and the count finds out that the schedule
has no active run where it has none. The occurrence that the wake-up was for plays no part. -/
theorem cron_fires_iff (hf : Fresh w.db env) (hocc : Occurrences crates expr occ)
    (hstored : Scheduler.scheduleInfo scheduleId w.db = .ok info) (hcron : info.specType = .cron)
    (hexpr : info.cronExpressions.bind crates.stringsFromStr = some [expr]) {computing : Env}
    (hentry : Scheduler.calculateNextCronFire crates computing info = some T) :
    T ∈ occ ∧ (FiresDue crates env scheduleId info w ↔
      (∃ o, Next occ (((env.part 0).part 1).now 0).time o ∧
        ((env.part 0).now 0).time.nanos - second < o.nanos ∧
          o.nanos < ((env.part 0).now 0).time.nanos + 2 * second) ∧
      (Scheduler.activeOf scheduleId w.db = [] → Countable scheduleId w.db)) := by
  constructor
  · unfold Scheduler.calculateNextCronFire at hentry
    rw [hexpr] at hentry
    have hT : crates.cronUpcoming expr (computing.now 0).time = some (some T) := by
      simpa [Option.join_eq_some_iff] using hentry
    exact (hocc.upcoming.mp hT).mem
  · rw [firesDue_iff hf hstored, shouldFire_cron hcron hexpr, ← cronMatches_iff hocc]
    simp

/-- Crates that read every text of expressions as one whose occurrences are the multiples of a
number of seconds. -/
def periodicCrates (secs : Int) : Crates :=
  { plainCrates with
    stringsFromStr := fun text => some [text]
    cronUpcoming := fun _ t => some (some ⟨(t.nanos / (secs * second) + 1) * (secs * second)⟩) }

def multiples (secs : Int) : Set DateTime := {d | ∃ n, d.nanos = n * (secs * second)}

theorem periodic_occurrences (hsecs : 0 < secs) (expr : String) :
    Occurrences (periodicCrates secs) expr (multiples secs) := by
  have hpos : 0 < secs * second := Int.mul_pos hsecs (by decide)
  intro t
  refine ⟨⟨_, rfl⟩, ?_, ?_⟩
  · exact Int.lt_ediv_add_one_mul_self _ hpos
  · rintro o ⟨n, hn⟩ hlt
    rw [hn] at hlt ⊢
    have hless : t.nanos / (secs * second) < n := (Int.ediv_lt_iff_lt_mul hpos).mpr hlt
    exact Int.mul_le_mul_of_nonneg_right (by omega) hpos.le

/-- A schedule with one cron expression, stored under its id. -/
def cronSchedule (expr : String) : ScheduleRow :=
  { halfMinute with specType := .cron, cronExpressions := some expr, intervalSeconds := none }

def storing (info : ScheduleRow) : World := .ofDb { Db.empty with schedules := [info] }

theorem every_second_fires :
    (⟨60 * second⟩ : DateTime) ∈ multiples 1 ∧
    FiresDue (periodicCrates 1) (turn 1) "s" (cronSchedule "* * * * * *")
      (storing (cronSchedule "* * * * * *")) := by
  have hocc : Occurrences (periodicCrates 1) "* * * * * *" (multiples 1) :=
    periodic_occurrences (by decide) _
  have hentry : Scheduler.calculateNextCronFire (periodicCrates 1)
      (fixedEnv (Clock.ofSecs 59 (by omega)) 0) (cronSchedule "* * * * * *") =
        some ⟨60 * second⟩ := rfl
  have hfresh : Fresh (storing (cronSchedule "* * * * * *")).db (turn 1) := by decide +kernel
  have hstored : Scheduler.scheduleInfo "s" (storing (cronSchedule "* * * * * *")).db =
      .ok (cronSchedule "* * * * * *") := rfl
  have hfires := cron_fires_iff hfresh hocc hstored rfl rfl hentry
  have hnext : Next (multiples 1) ((((turn 1).part 0).part 1).now 0).time ⟨61 * second⟩ :=
    hocc.upcoming.mp rfl
  exact ⟨hfires.1, hfires.2.mpr ⟨⟨_, hnext, by decide, by decide⟩,
    fun _ => countable_of_fits (by decide) _⟩⟩

/-- An hourly schedule whose entry is due just as the loop wakes up. -/
theorem hourly_not_fired :
    ¬ ∀ (crates : Crates) (w : World) (env computing : Env) (scheduleId expr : String)
      (info : ScheduleRow) (occ : Set DateTime) (T : DateTime), Fresh w.db env →
        Occurrences crates expr occ → Scheduler.scheduleInfo scheduleId w.db = .ok info →
        info.specType = .cron → info.cronExpressions.bind crates.stringsFromStr = some [expr] →
        Scheduler.calculateNextCronFire crates computing info = some T →
        T.nanos ≤ ((env.part 0).now 0).time.nanos →
        ((env.part 0).now 0).time.nanos < T.nanos + second →
        FiresDue crates env scheduleId info w := by
  intro h
  have hfires := h (periodicCrates 3600) (storing (cronSchedule "0 0 * * * *")) (turn 60)
    (turn 59) "s" "0 0 * * * *" (cronSchedule "0 0 * * * *") (multiples 3600) ⟨3600 * second⟩
    (by decide +kernel) (periodic_occurrences (by decide) _) rfl rfl rfl (by rfl) (by decide)
    (by decide)
  have hnot : ((Scheduler.shouldFire (periodicCrates 3600) ((turn 60).part 0)
      (cronSchedule "0 0 * * * *")).run (storing (cronSchedule "0 0 * * * *"))).1 = .ok false := rfl
  exact absurd (hnot.symm.trans hfires.1) (by simp)

end Khronos.Proofs
