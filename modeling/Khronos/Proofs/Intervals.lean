import Khronos.Core.Stamps
import Khronos.Proofs.Lasting
import Khronos.Server.Replays

namespace Khronos.Proofs
open Time Lib Db.Activities Db.Workflows Server

/-- The larger of two texts, where NULL does not count. -/
def larger : Option String → Option String → Option String
  | some b, some t => some (if textLe b t then t else b)
  | some b, none => some b
  | none, t => t

theorem maxText_eq (texts : List (Option String)) :
    Scheduler.maxText texts = texts.foldl larger none := rfl

theorem larger_le (best t : Option String) (h : best = some b ∨ t = some b) :
    ∃ m, larger best t = some m ∧ b ≤ m := by
  cases best with
  | none =>
    cases t with
    | none => simp at h
    | some t => exact ⟨t, rfl, by simp_all⟩
  | some a =>
    cases t with
    | none => exact ⟨a, rfl, by simp_all⟩
    | some t =>
      simp only [Option.some.injEq] at h
      by_cases hle : textLe a t = true
      · refine ⟨t, by simp [larger, hle], ?_⟩
        rcases h with rfl | rfl
        · exact textLe_iff.mp hle
        · exact String.le_refl _
      · refine ⟨a, by simp [larger, hle], ?_⟩
        rcases h with rfl | rfl
        · exact String.le_refl _
        · exact (String.le_total _ _).resolve_left (fun h => hle (textLe_iff.mpr h))

theorem larger_mem (h : larger best t = some m) : best = some m ∨ t = some m := by
  cases best with
  | none => exact .inr h
  | some a =>
    cases t with
    | none => exact .inl h
    | some t =>
      simp only [larger] at h
      split_ifs at h
      · exact .inr h
      · exact .inl h

theorem foldl_larger (texts : List (Option String)) (best : Option String)
    (h : best = some b ∨ some b ∈ texts) :
    ∃ m, texts.foldl larger best = some m ∧ b ≤ m ∧ (best = some m ∨ some m ∈ texts) := by
  induction texts generalizing best b with
  | nil =>
    have hb : best = some b := by simpa using h
    exact ⟨b, hb, String.le_refl _, .inl hb⟩
  | cons t texts ih =>
    rw [List.foldl_cons]
    have hnext : ∃ c, b ≤ c ∧ (larger best t = some c ∨ some c ∈ texts) := by
      rcases h with hb | hb
      · obtain ⟨m, hm, hle⟩ := larger_le best t (.inl hb)
        exact ⟨m, hle, .inl hm⟩
      · rcases List.mem_cons.mp hb with hb | hb
        · obtain ⟨m, hm, hle⟩ := larger_le best t (.inr hb.symm)
          exact ⟨m, hle, .inl hm⟩
        · exact ⟨b, String.le_refl _, .inr hb⟩
    obtain ⟨c, hbc, hc⟩ := hnext
    obtain ⟨m, hm, hle, hfrom⟩ := ih _ hc
    refine ⟨m, hm, String.le_trans hbc hle, ?_⟩
    rcases hfrom with hm' | hm'
    · exact (larger_mem hm').imp id (fun h => by simp [h])
    · exact .inr (List.mem_cons_of_mem _ hm')

/-- The maximum of a column is in it, and no text of the column is larger. -/
theorem maxText_le {texts : List (Option String)} (h : some t ∈ texts) :
    ∃ m, Scheduler.maxText texts = some m ∧ t ≤ m ∧ some m ∈ texts := by
  obtain ⟨m, hm, hle, hfrom⟩ := foldl_larger texts none (.inr h)
  exact ⟨m, (maxText_eq texts).trans hm, hle, hfrom.resolve_left (by simp)⟩

theorem maxText_mem {texts : List (Option String)} (h : Scheduler.maxText texts = some m) :
    some m ∈ texts := by
  by_cases hex : ∃ t, some t ∈ texts
  · obtain ⟨t, ht⟩ := hex
    obtain ⟨m', hm, -, hfrom⟩ := maxText_le ht
    rw [← h.symm.trans hm] at hfrom
    exact hfrom
  · -- A column of NULLs has no maximum.
    have hnone : ∀ l : List (Option String), (∀ t, some t ∉ l) → l.foldl larger none = none := by
      intro l hl
      induction l with
      | nil => rfl
      | cons o l ih =>
        cases o with
        | none => exact ih fun t ht => hl t (List.mem_cons_of_mem _ ht)
        | some t => exact absurd List.mem_cons_self (hl t)
    have hmax := (maxText_eq texts).trans (hnone texts fun t ht => hex ⟨t, ht⟩)
    cases hmax.symm.trans h

/-- Clock readings of an earlier part of an operation are not later than those of its later parts. -/
def Steady (env : Env) : Prop :=
  ∀ i j, i < j → ∀ a b, ((env.part i).now a).time.nanos ≤ ((env.part j).now b).time.nanos

/-- When a run has started, as the scheduler reads it. -/
def storedStart (r : WorkflowRow) : Option DateTime :=
  r.startedAt.bind fun t => (Scheduler.parseDatetime t).toOption

theorem parseDatetime_clock (c : Clock) : Scheduler.parseDatetime c.datetime = .ok c.time.trunc := by
  have hp := parse_format c.representable
  unfold Scheduler.parseDatetime Clock.datetime
  simp only [List.findSome?_cons, hp]
  rfl

theorem storedStart_clock {c : Clock} (h : r.startedAt = some c.datetime) :
    storedStart r = some c.time.trunc := by
  rw [storedStart, h, Option.bind_some, parseDatetime_clock]
  rfl

/-- Whole seconds counted towards zero are gone by. -/
theorem numSeconds_le {t : Duration} {k : ℤ} (hk : 1 ≤ k) (h : k ≤ t.numSeconds) :
    k * second ≤ t.nanos := by
  rw [Duration.numSeconds_eq] at h
  unfold second at *
  split at h
  · omega
  · omega

/-- When the check lets an interval schedule fire, the interval has gone by since every start
of a run that the schedule takes for its own. -/
theorem checkInterval_passed {w : World} (hst : Stamped w.db) {k : Int64} (hk : 1 ≤ k.toInt)
    (hread : Scheduler.selectLastStarted scheduleId w.db = .ok last)
    (h : ((Scheduler.checkInterval scheduleId k.toUInt64 now).run w).1 = .ok true)
    (hr : r ∈ w.db.workflows) (hof : Scheduler.ofSchedule scheduleId r = true) {c : Clock}
    (hc : r.startedAt = some c.datetime) :
    (c.time.secs + k.toInt) * second ≤ now.time.nanos := by
  have hmem : some c.datetime ∈
      (w.db.workflows.filter (Scheduler.ofSchedule scheduleId)).map (·.startedAt) :=
    List.mem_map.mpr ⟨r, List.mem_filter.mpr ⟨hr, hof⟩, hc⟩
  obtain ⟨m, hmax, hle, hfrom⟩ := maxText_le hmem
  obtain ⟨q, hq, hm⟩ := List.mem_map.mp hfrom
  obtain ⟨c', rfl⟩ := hst q (List.mem_filter.mp hq).1 m hm
  have hsecs : c.time.secs ≤ c'.time.secs :=
    secs_le_of_textLe (textLe_iff.mpr hle) c.plain c'.plain
  have hlast : some c'.datetime = last := hmax.symm.trans (selectLastStarted_eq_ok.mp hread).2
  rw [run_checkInterval, hread, unwrapOr_ok, ← hlast] at h
  simp only [intervalPassed, parseDatetime_clock, Int64.toInt64_toUInt64] at h
  have hpassed : k.toInt ≤ (now.time.since c'.time.trunc).numSeconds := by
    simpa using h
  have hnanos := numSeconds_le hk hpassed
  simp only [DateTime.since, DateTime.trunc] at hnanos
  unfold second at *
  omega

theorem shouldFire_interval (hinterval : info.specType = .interval)
    (hsecs : info.intervalSeconds = some k) (crates : Crates) (env : Env) :
    Scheduler.shouldFire crates env info =
      Scheduler.checkInterval info.scheduleId k.toUInt64 (env.now 0) := by
  unfold Scheduler.shouldFire
  rw [hinterval, hsecs]

/-- In every run: a run that a schedule starts while its stored spec is an interval of `k`
seconds has a stored start at least `k` seconds after that of every run it has started before, if
the last start could be read. -/
theorem run_interval_kept {us mid vs : List ServerStep} {τ σ : ServerStep}
    (hr : (server crates).Run .empty (us ++ τ :: (mid ++ σ :: vs)) w)
    (hτ : StartsRun scheduleId u τ) (hσ : StartsRun scheduleId v σ)
    (hstored : Scheduler.scheduleInfo scheduleId σ.before.db = .ok info)
    (hinterval : info.specType = .interval) (hsecs : info.intervalSeconds = some k)
    (hk : 1 ≤ k.toInt) (hclock : Steady σ.input.env)
    (hread : Scheduler.selectLastStarted scheduleId σ.before.db = .ok last) :
    ∀ r ∈ σ.after.db.workflows, ∀ r' ∈ σ.after.db.workflows, r.runId = u → r'.runId = v →
      ∃ d e, storedStart r = some d ∧ storedStart r' = some e ∧
        d.nanos + k.toInt * second ≤ e.nanos := by
  obtain ⟨hu, hi, he, hrest⟩ := hr.at
  have hw := (run_stamped hu).1
  rw [he] at hτ hrest
  obtain ⟨info₀, t₀, hfires₀, hstep₀⟩ := startsRun_fired hw hi hτ
  obtain ⟨hmid, hi', he', _⟩ := hrest.at
  obtain ⟨hw', q, hq, hl⟩ := run_lasting hmid (step_wellFormed crates _ hw) (firedRow_mem hstep₀)
  have hst := (run_stamped ((hu.append (Machine.Run.single hi)).append hmid)).2
  rw [he'] at hσ
  obtain ⟨info', t, hfires, hstep⟩ := startsRun_fired hw' hi' hσ
  obtain rfl : info' = info := Except.ok.inj (hfires.stored.symm.trans hstored)
  have hdue := hfires.due
  rw [shouldFire_interval hinterval hsecs, (scheduleInfo_id hstored).2] at hdue
  -- The interval has gone by since the start of the earlier run.
  have hstart : q.startedAt = some ((τ.input.env.part 2).now 0).datetime := hl.started _ rfl
  have hown : Scheduler.ofSchedule scheduleId q = true := by
    rw [Scheduler.ofSchedule, hl.workflowId]
    exact firedRow_own hfires₀.stored crates τ.input.env
  have hpassed := checkInterval_passed hst hk hread hdue hq hown hstart
  have hsteady := hclock 0 2 (by omega) 0 0
  intro r hr r' hr' hru hrv
  rw [he'] at hr hr'
  have hafter := step_wellFormed crates σ.input hw'
  have hold : r.startedAt = some ((τ.input.env.part 2).now 0).datetime := by
    obtain ⟨p, hp, hlp⟩ := step_lasting hw' hi' hq
    have hid : p.runId = u := (hlp.id.trans hl.id).trans hτ.2.1
    rw [hafter.runs.unique hr hp (key_iff.mpr (hru.trans hid.symm))]
    exact hlp.started _ hstart
  have hnew : r' = firedRow crates σ.input.env info' :=
    hafter.runs.unique hr' (firedRow_mem hstep) (key_iff.mpr (hrv.trans hσ.2.1.symm))
  refine ⟨_, _, storedStart_clock hold, storedStart_clock (by rw [hnew]; rfl), ?_⟩
  simp only [DateTime.trunc, DateTime.secs] at hpassed ⊢
  unfold second at *
  omega

/-- A schedule that is due every half minute and lets its runs overlap. -/
def halfMinute : ScheduleRow where
  scheduleId := "s"
  nameSpace := "default"
  specType := .interval
  cronExpressions := none
  intervalSeconds := some 30
  overlapPolicy := .buffer
  actionWorkflowName := "x"
  actionTaskQueue := "default"
  actionArgsJson := ""
  actionId := none
  timeoutsJson := ""

/-- The first fire, and the second a minute after it. -/
def fireOne : ServerStep :=
  (server plainCrates).transition
    ((server plainCrates).ending .empty (script [.writeSchedules [halfMinute] true]))
    ⟨turn 1, .scheduleFire "s"⟩

def fireTwo : ServerStep :=
  (server plainCrates).transition fireOne.after ⟨turn 2, .scheduleFire "s"⟩

theorem half_minute_kept :
    StartsRun "s" ⟨"id-10"⟩ fireOne ∧ StartsRun "s" ⟨"id-20"⟩ fireTwo ∧
    ∀ r ∈ fireTwo.after.db.workflows, ∀ r' ∈ fireTwo.after.db.workflows,
      r.runId = ⟨"id-10"⟩ → r'.runId = ⟨"id-20"⟩ →
        ∃ d e, storedStart r = some d ∧ storedStart r' = some e ∧
          d.nanos + (30 : Int64).toInt * second ≤ e.nanos := by
  have hone : StartsRun "s" ⟨"id-10"⟩ fireOne := ⟨rfl, rfl, by decide +kernel⟩
  have htwo : StartsRun "s" ⟨"id-20"⟩ fireTwo := ⟨rfl, rfl, by decide +kernel⟩
  have hr : (server plainCrates).Run .empty
      ((server plainCrates).replay .empty (script [.writeSchedules [halfMinute] true]) ++
        fireOne :: ([] ++ fireTwo :: [])) fireTwo.after := by
    have hi : (server plainCrates).admits fireOne.before fireOne.input := by decide +kernel
    have hi' : (server plainCrates).admits fireTwo.before fireTwo.input := by decide +kernel
    have hstored := script_run [.writeSchedules [halfMinute] true] (by decide +kernel)
    have hboth := (hstored.append (Machine.Run.single hi)).append (Machine.Run.single hi')
    rw [List.append_assoc] at hboth
    exact hboth
  have hrow : Scheduler.scheduleInfo "s" fireTwo.before.db = .ok halfMinute := by
    have hrows : fireTwo.before.db.schedules = [halfMinute] := rfl
    rw [Scheduler.scheduleInfo, hrows]
    rfl
  exact ⟨hone, htwo, run_interval_kept hr hone htwo hrow rfl rfl (by decide)
    (fun _ _ _ _ _ => Int.le_refl _) (Scheduler.compared_fits (by decide) _ _)⟩

end Khronos.Proofs
