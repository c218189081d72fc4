import Khronos.Proofs.Intervals
import Khronos.Proofs.Turns

namespace Khronos.Proofs
open Time Lib Db.Activities Db.Workflows Server Engine

/-- A schedule has started the run of an id in these steps. -/
def Started (scheduleId : String) (ts : List ServerStep) (u : Uuid) : Prop :=
  ∃ τ ∈ ts, StartsRun scheduleId u τ

theorem started_concat :
    Started scheduleId (ts ++ [τ]) u ↔ Started scheduleId ts u ∨ StartsRun scheduleId u τ := by
  simp [Started, or_and_right, exists_or]

/-- The schedule takes the runs it has started for its own. -/
theorem started_row {v w : World} {ts : List ServerStep} (hr : (server crates).Run v ts w)
    (hv : WellFormed v.db) (hu : Started scheduleId ts u) :
    ∃ r ∈ w.db.workflows, r.runId = u ∧ Scheduler.ofSchedule scheduleId r = true := by
  obtain ⟨τ, hτ, hstart⟩ := hu
  obtain ⟨us, vs, rfl⟩ := List.append_of_mem hτ
  obtain ⟨hu, hi, he, hrest⟩ := hr.at
  have hw := run_wellFormed hu hv
  rw [he] at hstart hrest
  obtain ⟨info, t, hfires, hstep⟩ := startsRun_fired hw hi hstart
  obtain ⟨_, q, hq, hl⟩ :=
    run_lasting hrest (step_wellFormed crates _ hw) (firedRow_mem hstep)
  refine ⟨q, hq, hl.id.trans hstart.2.1, ?_⟩
  rw [Scheduler.ofSchedule, hl.workflowId]
  exact firedRow_own hfires.stored crates τ.input.env

/-- The runs started by a schedule that are pending or running. -/
def activeOwn (scheduleId : String) (ts : List ServerStep) (db : Db) : Set Uuid :=
  {u | Started scheduleId ts u ∧ ∃ r ∈ db.workflows, r.runId = u ∧ active r = true}

/-- The runs started by a schedule that are running. -/
def runningOwn (scheduleId : String) (ts : List ServerStep) (db : Db) : Set Uuid :=
  {u | Started scheduleId ts u ∧ ∃ r ∈ db.workflows, r.runId = u ∧ r.state = .running}

/-- A poll's oldest offered step is of a run that the schedule has started and that has ended. -/
def Revives (scheduleId : String) (ts : List ServerStep) (env : Env) (op : Op) (db : Db) : Prop :=
  ∃ s, Foremost env op db s ∧ Started scheduleId ts s.workflowRunId ∧
    ∃ r ∈ db.workflows, r.runId = s.workflowRunId ∧ active r = false

theorem active_iff : active r = true ↔ r.state = .pending ∨ r.state = .running := by
  simp [active]

theorem advancedState_lives (h : advancedState db r = state)
    (ha : state = .pending ∨ state = .running) : active r = true ∧ decided (runKey r) db = none := by
  unfold advancedState at h
  cases hd : decided (runKey r) db with
  | some state' =>
    have hc := decided_iff.mp hd
    rw [hd, Option.getD_some] at h
    subst h
    rcases ha with rfl | rfl
    · exact hc.elim
    · exact hc.elim
  | none =>
    rw [hd, Option.getD_none] at h
    refine ⟨active_iff.mpr ?_, rfl⟩
    split at h
    · exact .inl ‹_›
    · exact h ▸ ha

theorem Turned.lives (h : Turned env op db r state) (ha : state = .pending ∨ state = .running) :
    active r = true := by
  cases h with
  | same hop => exact active_iff.mpr ha
  | cancelled hc => exact hc
  | looked hop => exact (advancedState_lives rfl ha).1
  | expired id hop a s hact hs hrun => exact (advancedState_lives rfl ha).1
  | swept hop =>
    by_contra hn
    rw [if_neg hn] at ha
    exact hn (active_iff.mpr ha)

/-- Where an active run of a schedule comes from: it was active before, it has just been
started, or a step of it has been handed out. -/
theorem activeOwn_step {us : List ServerStep} {v : World} (hr : (server crates).Run v us w)
    (hv : WellFormed v.db) {call : Call} (hc : (server crates).admits w call)
    (hu : u ∈ activeOwn scheduleId (us ++ [(server crates).transition w call])
      ((server crates).step w call).2.db) :
    StartsRun scheduleId u ((server crates).transition w call) ∨
    u ∈ activeOwn scheduleId us w.db ∨
    ∃ s, chosen call.env call.op w.db = some s ∧ s.workflowRunId = u ∧
      Started scheduleId us u := by
  have hw := run_wellFormed hr hv
  obtain ⟨hstarted, r', hr', rfl, ha⟩ := hu
  rcases started_concat.mp hstarted with hold | hnew
  · refine .inr ?_
    change r' ∈ ((exec crates call.env call.op).after w).db.workflows at hr'
    rcases exec_turns hw hc crates call.op with ⟨s, hs, he⟩ | h
    · rw [he] at hr'
      obtain ⟨r, hmem, hid, ⟨hrun, _⟩ | ⟨_, rfl⟩⟩ := dispatched_run hr'
      · exact .inr ⟨s, hs, hrun.symm.trans hid.symm, hold⟩
      · exact .inl ⟨hold, r', hmem, rfl, ha⟩
    · rcases h.runs r' hr' with ⟨hfresh, _⟩ | ⟨r, hmem, hid, hturn⟩
      · obtain ⟨q, hq, hqr, _⟩ := started_row hr hv hold
        exact absurd ⟨q, hq, hqr.trans hfresh⟩ (fresh_unused hc (by omega)).1
      · exact .inl ⟨hold, r, hmem, hid.symm, hturn.lives (active_iff.mp ha)⟩
  · exact .inl hnew

/-- A run that an operation makes active was started or revived by it. -/
theorem activeOwn_new {us : List ServerStep} {v : World} (hr : (server crates).Run v us w)
    (hv : WellFormed v.db) {call : Call} (hc : (server crates).admits w call)
    (hu : u ∈ activeOwn scheduleId (us ++ [(server crates).transition w call])
      ((server crates).step w call).2.db) (hn : u ∉ activeOwn scheduleId us w.db) :
    StartsRun scheduleId u ((server crates).transition w call) ∨
      (∃ s, chosen call.env call.op w.db = some s ∧ s.workflowRunId = u) ∧
        Revives scheduleId us call.env call.op w.db := by
  rcases activeOwn_step hr hv hc hu with h | h | ⟨s, hs, hrun, hstarted⟩
  · exact .inl h
  · exact absurd h hn
  · refine .inr ⟨⟨s, hs, hrun⟩, ?_⟩
    obtain ⟨r, hmem, hid, _⟩ := started_row hr hv hstarted
    refine ⟨s, chosen_foremost hs, hrun ▸ hstarted, r, hmem, hid.trans hrun.symm, ?_⟩
    by_contra ha
    exact hn ⟨hstarted, r, hmem, hid, by simpa using ha⟩

/-- An operation makes one run of a schedule active at most. -/
theorem activeOwn_grows {us : List ServerStep} {v : World} (hr : (server crates).Run v us w)
    (hv : WellFormed v.db) {call : Call} (hc : (server crates).admits w call)
    (hu : u ∈ activeOwn scheduleId (us ++ [(server crates).transition w call])
      ((server crates).step w call).2.db) (hn : u ∉ activeOwn scheduleId us w.db) :
    activeOwn scheduleId (us ++ [(server crates).transition w call])
      ((server crates).step w call).2.db ⊆ insert u (activeOwn scheduleId us w.db) := by
  have hpoll : ∀ {s x}, chosen call.env call.op w.db = some s →
      ¬ StartsRun scheduleId x ((server crates).transition w call) :=
    fun hs hstart => asks_not_fire (chosen_mem hs).2.2 scheduleId hstart.1
  intro x hx
  by_cases hold : x ∈ activeOwn scheduleId us w.db
  · exact .inr hold
  · refine .inl ?_
    rcases activeOwn_new hr hv hc hu hn with hstart | ⟨⟨s, hs, rfl⟩, _⟩
    · rcases activeOwn_new hr hv hc hx hold with hstart' | ⟨⟨s, hs, _⟩, _⟩
      · exact hstart'.2.1.symm.trans hstart.2.1
      · exact absurd hstart (hpoll hs)
    · rcases activeOwn_new hr hv hc hx hold with hstart' | ⟨⟨s', hs', rfl⟩, _⟩
      · exact absurd hstart' (hpoll hs)
      · rw [Option.some.inj (hs.symm.trans hs')]

/-- When a schedule starts a run under `skip` or `terminate`, none of its runs is active still. -/
theorem Fires.alone (h : Fires crates env scheduleId w info t)
    (hp : info.overlapPolicy = .skip ∨ info.overlapPolicy = .terminate) :
    ∀ r ∈ t, Scheduler.ofSchedule scheduleId r = true → active r = false := by
  rcases hp with hp | hp
  · intro r hr hof
    by_contra ha
    rw [Bool.not_eq_false] at ha
    have hmem : r ∈ Scheduler.activeOf scheduleId w.db :=
      List.mem_filter.mpr ⟨h.runs.origin hr ha, by simp [hof, ha]⟩
    rw [h.skip hp] at hmem
    cases hmem
  · exact h.terminate hp

/-- The run that a schedule has just started is its only active one. -/
theorem activeOwn_started {us : List ServerStep} {v : World} (hr : (server crates).Run v us w)
    (hv : WellFormed v.db) {call : Call} (hc : (server crates).admits w call)
    (hstart : StartsRun scheduleId u ((server crates).transition w call))
    (hp : ∀ info, Scheduler.scheduleInfo scheduleId w.db = .ok info →
      info.overlapPolicy = .skip ∨ info.overlapPolicy = .terminate)
    (hx : x ∈ activeOwn scheduleId (us ++ [(server crates).transition w call])
      ((server crates).step w call).2.db) : x = u := by
  have hw := run_wellFormed hr hv
  obtain ⟨info, t, hfires, hstep⟩ := startsRun_fired hw hc hstart
  obtain ⟨hstarted, r, hmem, rfl, ha⟩ := hx
  obtain ⟨q, hq, hqr, hof⟩ := started_row (hr.append (Machine.Run.single hc)) hv hstarted
  obtain rfl := (step_wellFormed crates call hw).runs.unique hq hmem (key_iff.mpr hqr)
  rw [hstep, firedWorld_runs] at hmem
  rcases List.mem_append.mp hmem with hmem | hmem
  · rw [hfires.alone (hp info hfires.stored) q hmem hof] at ha
    cases ha
  · rw [List.mem_singleton.mp hmem]
    exact hstart.2.1

/-- In every run: a schedule whose stored policy is `skip` throughout, or `terminate`, has at
most one active run, if no poll revives an ended run of it while another one is active. -/
theorem run_alone {us ts : List ServerStep} (hr : (server crates).Run .empty (us ++ ts) w)
    (hp : policy = .skip ∨ policy = .terminate)
    (hstored : ∀ τ ∈ ts, ∀ info, Scheduler.scheduleInfo scheduleId τ.before.db = .ok info →
      info.overlapPolicy = policy)
    (hn : ∀ pre τ post, ts = pre ++ τ :: post → (activeOwn scheduleId pre τ.before.db).Nonempty →
      ¬ Revives scheduleId pre τ.input.env τ.input.op τ.before.db) :
    (activeOwn scheduleId ts w.db).Subsingleton := by
  obtain ⟨v, hu, hts⟩ := hr.split us ts rfl
  have hv := run_wellFormed hu .empty
  refine hts.keeps_with_past (P := fun ts w => (activeOwn scheduleId ts w.db).Subsingleton)
    (C := fun pre w call => (∀ info, Scheduler.scheduleInfo scheduleId w.db = .ok info →
      info.overlapPolicy = policy) ∧ ((activeOwn scheduleId pre w.db).Nonempty →
        ¬ Revives scheduleId pre call.env call.op w.db)) ?_ ?_ ?_
  · intro pre w call hr ih hc ⟨hpolicy, hrevives⟩ x hx y hy
    by_cases hstart : ∃ u, StartsRun scheduleId u ((server crates).transition w call)
    · obtain ⟨u, hstart⟩ := hstart
      have hpolicy' : ∀ info, Scheduler.scheduleInfo scheduleId w.db = .ok info →
          info.overlapPolicy = .skip ∨ info.overlapPolicy = .terminate :=
        fun info hinfo => hp.imp (hpolicy info hinfo).trans (hpolicy info hinfo).trans
      rw [activeOwn_started hr hv hc hstart hpolicy' hx,
        activeOwn_started hr hv hc hstart hpolicy' hy]
    · have hold : (activeOwn scheduleId pre w.db).Nonempty →
          ∀ z ∈ activeOwn scheduleId (pre ++ [(server crates).transition w call])
            ((server crates).step w call).2.db, z ∈ activeOwn scheduleId pre w.db := by
        intro hsome z hz
        by_contra hnew
        rcases activeOwn_new hr hv hc hz hnew with h | ⟨_, h⟩
        · exact hstart ⟨z, h⟩
        · exact hrevives hsome h
      by_cases hsome : (activeOwn scheduleId pre w.db).Nonempty
      · exact ih (hold hsome x hx) (hold hsome y hy)
      · have hnone := Set.not_nonempty_iff_eq_empty.mp hsome
        have hgrows := activeOwn_grows hr hv hc hx (by simp [hnone])
        rw [hnone] at hgrows
        exact (hgrows hy).elim Eq.symm False.elim
  · rintro x ⟨⟨τ, hτ, _⟩, _⟩
    cases hτ
  · rintro pre τ post rfl
    exact ⟨hstored τ (by simp), hn pre τ post rfl⟩

/-- The half-minute schedule without overlap. -/
def halfMinuteAlone : ScheduleRow := { halfMinute with overlapPolicy := .skip }

/-- It fires twice before its first run has ended. -/
def overlapSkipped : List Op :=
  [.writeSchedules [halfMinuteAlone] true, .scheduleFire "s", .scheduleFire "s",
    .pollActivity ⟨"", ["execute_cron_job"]⟩]

/-- Whether an operation is the fire of a schedule. -/
def fire (scheduleId : String) : Op → Bool
  | .scheduleFire id => id = scheduleId
  | _ => false

theorem started_replay {ts : List ServerStep}
    (h : ∃ τ ∈ ts, fire scheduleId τ.input.op = true ∧ τ.input.env.uuid 0 = u ∧
      ∃ r ∈ τ.after.db.workflows, r.runId = u) : Started scheduleId ts u := by
  obtain ⟨τ, hτ, hop, hu, hr⟩ := h
  refine ⟨τ, hτ, ?_, hu, hr⟩
  unfold fire at hop
  split at hop
  · rename_i id hid
    rw [hid, of_decide_eq_true hop]
  · cases hop

theorem overlap_skipped_alone :
    ⟨"id-10"⟩ ∈ activeOwn "s" ((server plainCrates).replay .empty (script overlapSkipped))
      ((server plainCrates).ending .empty (script overlapSkipped)).db ∧
    (activeOwn "s" ((server plainCrates).replay .empty (script overlapSkipped))
      ((server plainCrates).ending .empty (script overlapSkipped)).db).Subsingleton := by
  have hpolicy : ∀ τ ∈ (server plainCrates).replay .empty (script overlapSkipped),
      ∀ r ∈ τ.before.db.schedules, r.overlapPolicy = .skip := by decide +kernel
  have hactive : ∀ τ ∈ (server plainCrates).replay .empty (script overlapSkipped),
      ∀ r ∈ τ.before.db.workflows, active r = true := by decide +kernel
  have hrun : (server plainCrates).Run .empty
      ([] ++ (server plainCrates).replay .empty (script overlapSkipped))
      ((server plainCrates).ending .empty (script overlapSkipped)) :=
    script_run overlapSkipped (by decide +kernel)
  refine ⟨⟨started_replay (by decide +kernel), by decide +kernel⟩, run_alone hrun (.inl rfl)
    (fun τ hτ info hinfo => hpolicy τ hτ info (scheduleInfo_id hinfo).1) ?_⟩
  rintro pre τ post hts _ ⟨s, _, _, r, hr, _, hidle⟩
  rw [hactive τ (by rw [hts]; simp) r hr] at hidle
  cases hidle

/-- The first run of a schedule is cancelled while its step waits, and the second one is
started; then a worker polls. -/
def cancelledThenPolled : List Op :=
  [.writeSchedules [halfMinuteAlone] true, .scheduleFire "s", .cancelWorkflow ⟨"id-10", ""⟩,
    .scheduleFire "s", .pollActivity ⟨"", ["execute_cron_job"]⟩]

/-- Both runs are active. -/
theorem cancelled_then_polled_overlap :
    ¬ ∀ (crates : Crates) (us ts : List ServerStep) (w : World) (scheduleId : String)
      (policy : OverlapPolicy), (server crates).Run .empty (us ++ ts) w →
        policy = .skip ∨ policy = .terminate →
        (∀ τ ∈ ts, ∀ info, Scheduler.scheduleInfo scheduleId τ.before.db = .ok info →
          info.overlapPolicy = policy) → (activeOwn scheduleId ts w.db).Subsingleton := by
  intro h
  have hpolicy : ∀ τ ∈ (server plainCrates).replay .empty (script cancelledThenPolled),
      ∀ r ∈ τ.before.db.schedules, r.overlapPolicy = .skip := by decide +kernel
  have hboth := h plainCrates [] _ _ "s" .skip
    (script_run cancelledThenPolled (by decide +kernel)) (.inl rfl)
    (fun τ hτ info hinfo => hpolicy τ hτ info (scheduleInfo_id hinfo).1)
  have hsame : (⟨"id-10"⟩ : Uuid) = ⟨"id-30"⟩ :=
    hboth ⟨started_replay (by decide +kernel), by decide +kernel⟩
      ⟨started_replay (by decide +kernel), by decide +kernel⟩
  exact absurd hsame (by decide)

end Khronos.Proofs
