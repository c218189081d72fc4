import Mathlib.Data.Set.Card
import Khronos.Db.Schedules
import Khronos.Proofs.Overlap

namespace Khronos.Proofs
open Time Lib Db.Activities Db.Workflows Db.Schedules Server Engine

theorem foremost_unique (hs : Foremost env op db s) (ht : Foremost env op db t) : s = t := by
  obtain ⟨hos, pre, post, he, hpre, hpost⟩ := hs
  obtain ⟨hot, pre', post', he', hpre', hpost'⟩ := ht
  rw [he] at he'
  rcases List.append_eq_append_iff.mp he' with ⟨mid, hmid, hrest⟩ | ⟨mid, hmid, hrest⟩
  · cases mid with
    | nil => exact (List.cons_eq_cons.mp hrest).1
    | cons x mid =>
      -- `s` stands before `t`, so it is not later, and yet `t` is the earlier of the two.
      obtain ⟨rfl, rfl⟩ := List.cons_eq_cons.mp hrest
      have hle := hpost t (by simp) hot
      rw [hpre' s (by simp [hmid]) hos] at hle
      cases hle
  · cases mid with
    | nil => exact (List.cons_eq_cons.mp hrest).1.symm
    | cons x mid =>
      obtain ⟨rfl, rfl⟩ := List.cons_eq_cons.mp hrest
      have hle := hpost' s (by simp) hos
      rw [hpre t (by simp [hmid]) hot] at hle
      cases hle

/-- What makes a run running: a poll hands out a step of it, or the engine looks at it while it
is pending and its steps decide nothing. -/
inductive Wakes (env : Env) (op : Op) (db : Db) (r : WorkflowRow) : Prop
  | polled (s : WorkflowStepRow) (hs : Foremost env op db s) (hrun : s.workflowRunId = r.runId)
  | looked (hop : op = .handle (.workflowCreated r.runId.text) ∨
      op = .handle (.stepCompleted r.runId.text)) (hp : r.state = .pending)
      (hn : ∀ state, ¬ Concluded db r.runId state)

/-- An operation wakes one run at most. -/
theorem Wakes.unique (hr : Wakes env op db r) (hq : Wakes env op db q) : r.runId = q.runId := by
  have hpoll : ∀ {s p : _}, Foremost env op db s → ¬ (op = .handle (.workflowCreated p) ∨
      op = .handle (.stepCompleted p)) :=
    fun hs hop => hop.elim (foremost_not_handle hs _) (foremost_not_handle hs _)
  cases hr with
  | polled s hs hrun =>
    cases hq with
    | polled t ht hrun' => rw [← hrun, ← hrun', foremost_unique hs ht]
    | looked hop => exact absurd hop (hpoll hs)
  | looked hop =>
    cases hq with
    | polled t ht hrun' => exact absurd hop (hpoll ht)
    | looked hop' =>
      rcases hop with rfl | rfl
      · exact key_iff.mp (by simpa using hop')
      · exact key_iff.mp (by simpa using hop')

/-- The steps of a run decide nothing. -/
def Undecided (db : Db) (u : Uuid) : Prop := ∀ state, ¬ Concluded db u state

theorem advancedState_runs (h : advancedState db r = .running) :
    Undecided db r.runId ∧ (r.state = .pending ∨ r.state = .running) := by
  obtain ⟨ha, hd⟩ := advancedState_lives h (.inr rfl)
  refine ⟨fun state hc => ?_, active_iff.mp ha⟩
  rw [show decided (runKey r) db = some state from decided_iff.mpr hc] at hd
  cases hd

/-- Which runs are running after an operation that hands out nothing. -/
theorem Turned.runs (hb : Begun db) (hr : r ∈ db.workflows) (h : Turned env op db r state)
    (hs : state = .running) :
    (op = .handle .scheduleChange ∧ active r = true ∧ Undecided db r.runId) ∨
      op ≠ .handle .scheduleChange ∧ (r.state = .running ∨ Wakes env op db r) := by
  cases h with
  | same hop => exact .inr ⟨hop, .inl hs⟩
  | cancelled ha => cases hs
  | looked hop =>
    obtain ⟨hn, hp | hrun⟩ := advancedState_runs hs
    · refine .inr ⟨?_, .inr (.looked hop hp hn)⟩
      rcases hop with rfl | rfl <;> simp
    · refine .inr ⟨?_, .inl hrun⟩
      rcases hop with rfl | rfl <;> simp
  | expired id hop a s ha hstep hrun =>
    obtain ⟨_, hp | hrunning⟩ := advancedState_runs hs
    · exact absurd hp (hb a (activityOf_mem ha).1 s (stepOf_mem hstep).1 (stepOf_mem hstep).2 r hr
        hrun.symm)
    · exact .inr ⟨by rw [hop]; simp, .inl hrunning⟩
  | swept hop =>
    by_cases ha : active r = true
    · rw [if_pos ha] at hs
      exact .inl ⟨hop, ha, (advancedState_runs hs).1⟩
    · rw [if_neg ha] at hs
      exact absurd (active_iff.mpr (.inr hs)) ha

/-- Where a running run of a schedule comes from: it was running before or has just been woken,
or the engine has gone through all active runs and its steps decide nothing. -/
theorem runningOwn_step {us : List ServerStep} {v : World} (hr : (server crates).Run v us w)
    (hv : WellFormed v.db) (hb : Begun w.db) {call : Call} (hc : (server crates).admits w call)
    (hu : u ∈ runningOwn scheduleId (us ++ [(server crates).transition w call])
      ((server crates).step w call).2.db) :
    Started scheduleId us u ∧ ∃ r ∈ w.db.workflows, r.runId = u ∧
      ((call.op = .handle .scheduleChange ∧ active r = true ∧ Undecided w.db r.runId) ∨
        call.op ≠ .handle .scheduleChange ∧
          (r.state = .running ∨ Wakes call.env call.op w.db r)) := by
  have hw := run_wellFormed hr hv
  obtain ⟨hstarted, r', hr', rfl, hstate⟩ := hu
  have hold : Started scheduleId us r'.runId := by
    refine (started_concat.mp hstarted).resolve_right (fun hnew => ?_)
    obtain ⟨info, t, hfires, hstep⟩ := startsRun_fired hw hc hnew
    have hafter := step_wellFormed crates call hw
    rw [hafter.runs.unique hr' (firedRow_mem hstep) (key_iff.mpr hnew.2.1.symm)] at hstate
    cases hstate
  refine ⟨hold, ?_⟩
  change r' ∈ ((exec crates call.env call.op).after w).db.workflows at hr'
  rcases exec_turns hw hc crates call.op with ⟨s, hs, he⟩ | h
  · have hop := asks_not_handle (chosen_mem hs).2.2 .scheduleChange
    rw [he] at hr'
    obtain ⟨r, hmem, hid, ⟨hrun, _⟩ | ⟨_, rfl⟩⟩ := dispatched_run hr'
    · exact ⟨r, hmem, hid.symm, .inr ⟨hop, .inr (.polled s (chosen_foremost hs) hrun.symm)⟩⟩
    · exact ⟨r', hmem, rfl, .inr ⟨hop, .inl hstate⟩⟩
  · rcases h.runs r' hr' with ⟨_, hp⟩ | ⟨r, hmem, hid, hturn⟩
    · rw [hp] at hstate
      cases hstate
    · exact ⟨r, hmem, hid.symm, hturn.runs hb hmem hstate⟩

/-- An operation that takes a schedule past its buffer of `n` runs, or lets two of its runs
execute at once. -/
inductive Overfills (crates : Crates) (info : ScheduleRow) (n : Nat) (ts : List ServerStep)
    (env : Env) (op : Op) (w : World) : Prop
  /-- The schedule is due while its buffer is full. -/
  | fired (hop : op = .scheduleFire info.scheduleId)
      (hdue : ((Scheduler.shouldFire crates (env.part 0) info).run w).1 = .ok true)
      (hfull : n + 1 ≤ (activeOwn info.scheduleId ts w.db).encard)
  | revived (h : Revives info.scheduleId ts env op w.db)
      (hfull : n + 1 ≤ (activeOwn info.scheduleId ts w.db).encard)
  | woken (r : WorkflowRow) (hr : r ∈ w.db.workflows) (hown : Started info.scheduleId ts r.runId)
      (hwake : Wakes env op w.db r) (hn : r.state ≠ .running)
      (hbusy : (runningOwn info.scheduleId ts w.db).Nonempty)
  /-- The engine goes through all runs, and finds two of the schedule's to execute. -/
  | swept (hop : op = .handle .scheduleChange) (r q : WorkflowRow) (hr : r ∈ w.db.workflows)
      (hq : q ∈ w.db.workflows) (hne : r.runId ≠ q.runId)
      (hr_own : Started info.scheduleId ts r.runId) (hq_own : Started info.scheduleId ts q.runId)
      (hr_active : active r = true) (hq_active : active q = true)
      (hr_open : Undecided w.db r.runId) (hq_open : Undecided w.db q.runId)

theorem runningOwn_kept {us : List ServerStep} {v : World} (hr : (server crates).Run v us w)
    (hv : WellFormed v.db) (hb : Begun w.db) {call : Call} (hc : (server crates).admits w call)
    (ih : (runningOwn info.scheduleId us w.db).Subsingleton)
    (hn : ¬ Overfills crates info n us call.env call.op w) :
    (runningOwn info.scheduleId (us ++ [(server crates).transition w call])
      ((server crates).step w call).2.db).Subsingleton := by
  intro x hx y hy
  obtain ⟨hsx, r, hrm, rfl, hrx⟩ := runningOwn_step hr hv hb hc hx
  obtain ⟨hsy, q, hqm, rfl, hqy⟩ := runningOwn_step hr hv hb hc hy
  have hwoken : ∀ {p q : WorkflowRow}, p ∈ w.db.workflows → q ∈ w.db.workflows →
      Started info.scheduleId us p.runId → Started info.scheduleId us q.runId →
      Wakes call.env call.op w.db p → q.state = .running → p.runId = q.runId := by
    intro p q hp hq hsp hsq hwake hrun
    by_cases hidle : p.state = .running
    · exact ih ⟨hsp, p, hp, rfl, hidle⟩ ⟨hsq, q, hq, rfl, hrun⟩
    · exact absurd (.woken p hp hsp hwake hidle ⟨_, hsq, q, hq, rfl, hrun⟩) hn
  rcases hrx with ⟨hop, har, hor⟩ | ⟨hop, hrx⟩
  · rcases hqy with ⟨_, haq, hoq⟩ | ⟨hne, _⟩
    · by_contra hne
      exact hn (.swept hop r q hrm hqm hne hsx hsy har haq hor hoq)
    · exact absurd hop hne
  · rcases hqy with ⟨hsweep, _⟩ | ⟨_, hqy⟩
    · exact absurd hsweep hop
    · rcases hrx with hrx | hrx
      · rcases hqy with hqy | hqy
        · exact ih ⟨hsx, r, hrm, rfl, hrx⟩ ⟨hsy, q, hqm, rfl, hqy⟩
        · exact (hwoken hqm hrm hsy hsx hqy hrx).symm
      · rcases hqy with hqy | hqy
        · exact hwoken hrm hqm hsx hsy hrx hqy
        · exact hrx.unique hqy

theorem encard_le_succ {A B : Set Uuid} (h : B ⊆ insert u A) (hA : ¬ (n : ℕ∞) + 1 ≤ A.encard) :
    B.encard ≤ n + 1 := by
  have hlt : A.encard + 1 ≤ n + 1 := Order.add_one_le_of_lt (not_le.mp hA)
  exact (Set.encard_le_encard h).trans ((Set.encard_insert_le A u).trans hlt)

theorem activeOwn_kept {us : List ServerStep} {v : World} (hr : (server crates).Run v us w)
    (hv : WellFormed v.db) {call : Call} (hc : (server crates).admits w call)
    (ih : (activeOwn info.scheduleId us w.db).encard ≤ (n : ℕ) + 1)
    (hstored : ∀ row, Scheduler.scheduleInfo info.scheduleId w.db = .ok row → row = info)
    (hn : ¬ Overfills crates info n us call.env call.op w) :
    (activeOwn info.scheduleId (us ++ [(server crates).transition w call])
      ((server crates).step w call).2.db).encard ≤ n + 1 := by
  by_cases hnew : ∃ u ∈ activeOwn info.scheduleId (us ++ [(server crates).transition w call])
      ((server crates).step w call).2.db, u ∉ activeOwn info.scheduleId us w.db
  · obtain ⟨u, hu, hu'⟩ := hnew
    refine encard_le_succ (activeOwn_grows hr hv hc hu hu') (fun hfull => hn ?_)
    rcases activeOwn_new hr hv hc hu hu' with hstart | ⟨_, hrevives⟩
    · obtain ⟨row, t, hfires, _⟩ := startsRun_fired (run_wellFormed hr hv) hc hstart
      have hdue := hfires.due
      rw [hstored row hfires.stored] at hdue
      exact .fired hstart.1 hdue hfull
    · exact .revived hrevives hfull
  · refine (Set.encard_le_encard (fun u hu => ?_)).trans ih
    by_contra hu'
    exact hnew ⟨u, hu, hu'⟩

/-- The schedule with a buffer of another size. -/
abbrev buffering (schedule : Core.Schedule) (n : Nat) : Core.Schedule :=
  { schedule with policy := .buffer n }

/-- In every run: a schedule that is stored with the policy `Buffer(n)` and not changed never
has two running runs, nor more than `n + 1` active ones, if no step overfills it. -/
theorem run_buffered {serde : Serde} {us ts : List ServerStep}
    (hr : (server crates).Run .empty (us ++ ts) w)
    (hstored : ∀ τ ∈ ts, ∀ info,
      Scheduler.scheduleInfo schedule.scheduleId τ.before.db = .ok info →
        info = scheduleRow serde (buffering schedule n))
    (hn : ∀ pre τ post, ts = pre ++ τ :: post →
      ¬ Overfills crates (scheduleRow serde (buffering schedule n)) n pre τ.input.env τ.input.op
        τ.before) :
    (runningOwn schedule.scheduleId ts w.db).Subsingleton ∧
      (activeOwn schedule.scheduleId ts w.db).encard ≤ n + 1 := by
  obtain ⟨v, hu, hts⟩ := hr.split us ts rfl
  obtain ⟨hv, hbv⟩ := run_begun hu
  have hnone : ∀ u, ¬ Started schedule.scheduleId [] u := by
    rintro u ⟨τ, hτ, _⟩
    cases hτ
  refine (hts.keeps_with_past
    (P := fun ts w => Begun w.db ∧ (runningOwn schedule.scheduleId ts w.db).Subsingleton ∧
      (activeOwn schedule.scheduleId ts w.db).encard ≤ n + 1)
    (C := fun pre w call => (∀ info, Scheduler.scheduleInfo schedule.scheduleId w.db = .ok info →
      info = scheduleRow serde (buffering schedule n)) ∧
        ¬ Overfills crates (scheduleRow serde (buffering schedule n)) n pre call.env call.op w)
    ?_ ?_ ?_).2
  · rintro pre w call hr ⟨hb, hrunning, hactive⟩ hc ⟨hrow, hfit⟩
    exact ⟨step_begun (run_wellFormed hr hv) hc hb, runningOwn_kept hr hv hb hc hrunning hfit,
      activeOwn_kept hr hv hc hactive hrow hfit⟩
  · refine ⟨hbv, fun u hu => absurd hu.1 (hnone u), ?_⟩
    rw [Set.encard_eq_zero.mpr (Set.eq_empty_of_forall_notMem fun u hu => hnone u hu.1)]
    exact zero_le
  · rintro pre τ post rfl
    exact ⟨hstored τ (by simp), hn pre τ post rfl⟩

/-- Every half minute, with a buffer of one run. -/
def halfMinuteBuffered : Core.Schedule where
  scheduleId := "s"
  nameSpace := "default"
  spec := .interval (.fromSecs 30)
  action := ⟨"x", [], "default", "", .default⟩
  policy := .buffer 1

/-- It fires twice, and the engine hears of its first run only. -/
def oneExecutes : List Op :=
  [.writeSchedules [scheduleRow plainSerde halfMinuteBuffered] true, .scheduleFire "s",
    .handle (.workflowCreated "id-10"), .scheduleFire "s"]

theorem activeOwn_le (scheduleId : String) (ts : List ServerStep) (db : Db) :
    (activeOwn scheduleId ts db).encard ≤ db.workflows.length := by
  have hsub : activeOwn scheduleId ts db ⊆ (db.workflows.map (·.runId)).toFinset := by
    rintro u ⟨_, r, hr, rfl, _⟩
    simpa using ⟨r, hr, rfl⟩
  refine (Set.encard_le_encard hsub).trans ?_
  rw [Set.encard_coe_eq_coe_finsetCard, Nat.cast_le]
  simpa using List.toFinset_card_le (db.workflows.map (·.runId))

theorem one_executes_buffered :
    ⟨"id-10"⟩ ∈ runningOwn "s" ((server plainCrates).replay .empty (script oneExecutes))
      ((server plainCrates).ending .empty (script oneExecutes)).db ∧
    ⟨"id-30"⟩ ∈ activeOwn "s" ((server plainCrates).replay .empty (script oneExecutes))
      ((server plainCrates).ending .empty (script oneExecutes)).db ∧
    (runningOwn "s" ((server plainCrates).replay .empty (script oneExecutes))
      ((server plainCrates).ending .empty (script oneExecutes)).db).Subsingleton ∧
    (activeOwn "s" ((server plainCrates).replay .empty (script oneExecutes))
      ((server plainCrates).ending .empty (script oneExecutes)).db).encard ≤ (1 : ℕ) + 1 := by
  have hrow : ∀ τ ∈ (server plainCrates).replay .empty (script oneExecutes),
      ∀ r ∈ τ.before.db.schedules, r = scheduleRow plainSerde halfMinuteBuffered := by
    decide +kernel
  have hroom : ∀ τ ∈ (server plainCrates).replay .empty (script oneExecutes),
      τ.before.db.workflows.length ≤ 1 := by decide +kernel
  have hquiet : ∀ τ ∈ (server plainCrates).replay .empty (script oneExecutes),
      ((∃ r ∈ τ.before.db.workflows, r.state = .running) → fire "s" τ.input.op = true) ∧
        ∀ s ∈ τ.before.db.workflowSteps,
          offered τ.input.env τ.input.op τ.before.db s = false := by decide +kernel
  have hstored : ∀ τ ∈ (server plainCrates).replay .empty (script oneExecutes), ∀ info,
      Scheduler.scheduleInfo halfMinuteBuffered.scheduleId τ.before.db = .ok info →
        info = scheduleRow plainSerde (buffering halfMinuteBuffered 1) :=
    fun τ hτ info hinfo => hrow τ hτ info (scheduleInfo_id hinfo).1
  have hrun : (server plainCrates).Run .empty
      ([] ++ (server plainCrates).replay .empty (script oneExecutes))
      ((server plainCrates).ending .empty (script oneExecutes)) :=
    script_run oneExecutes (by decide +kernel)
  refine ⟨⟨started_replay (by decide +kernel), by decide +kernel⟩,
    ⟨started_replay (by decide +kernel), by decide +kernel⟩, run_buffered hrun hstored ?_⟩
  rintro pre τ post hts h
  have hτ : τ ∈ (server plainCrates).replay .empty (script oneExecutes) := by
    rw [hts]
    simp
  have hoffered : ∀ s, ¬ Foremost τ.input.env τ.input.op τ.before.db s := by
    rintro s ⟨hoff, before, after, he, _⟩
    rw [(hquiet τ hτ).2 s (by rw [he]; simp)] at hoff
    cases hoff
  have hfull : ¬ ((1 : ℕ) : ℕ∞) + 1 ≤ (activeOwn "s" pre τ.before.db).encard := by
    intro hfull
    have hle : ((1 + 1 : ℕ) : ℕ∞) ≤ (1 : ℕ) :=
      (hfull.trans (activeOwn_le _ _ _)).trans (Nat.cast_le.mpr (hroom τ hτ))
    exact absurd (Nat.cast_le.mp hle) (by decide)
  cases h with
  | fired hop hdue hmany => exact hfull hmany
  | revived hrev hmany => exact hfull hmany
  | woken r hr hown hwake hn hbusy =>
    obtain ⟨u, _, q, hq, _, hrun⟩ := hbusy
    have hfire := (hquiet τ hτ).1 ⟨q, hq, hrun⟩
    cases hwake with
    | polled s hs => exact hoffered s hs
    | looked hop =>
      rcases hop with hop | hop
      · rw [hop] at hfire
        cases hfire
      · rw [hop] at hfire
        cases hfire
  | swept hop r q hr hq hne =>
    have hone := hroom τ hτ
    obtain ⟨i, hi, rfl⟩ := List.mem_iff_getElem.mp hr
    obtain ⟨j, hj, rfl⟩ := List.mem_iff_getElem.mp hq
    obtain rfl : i = j := by omega
    exact hne rfl

/-- The engine hears of both runs. -/
def bothExecute : List Op := oneExecutes ++ [.handle (.workflowCreated "id-30")]

/-- Both are running. -/
theorem both_execute_overfill :
    ¬ ∀ (crates : Crates) (serde : Serde) (us ts : List ServerStep) (w : World)
      (schedule : Core.Schedule) (n : Nat), (server crates).Run .empty (us ++ ts) w →
        (∀ τ ∈ ts, ∀ info, Scheduler.scheduleInfo schedule.scheduleId τ.before.db = .ok info →
          info = scheduleRow serde (buffering schedule n)) →
        (runningOwn schedule.scheduleId ts w.db).Subsingleton ∧
          (activeOwn schedule.scheduleId ts w.db).encard ≤ n + 1 := by
  intro h
  have hrow : ∀ τ ∈ (server plainCrates).replay .empty (script bothExecute),
      ∀ r ∈ τ.before.db.schedules, r = scheduleRow plainSerde halfMinuteBuffered := by
    decide +kernel
  have hone := (h plainCrates plainSerde [] _ _ halfMinuteBuffered 1
    (script_run bothExecute (by decide +kernel))
    (fun τ hτ info hinfo => hrow τ hτ info (scheduleInfo_id hinfo).1)).1
  have hsame : (⟨"id-10"⟩ : Uuid) = ⟨"id-30"⟩ :=
    hone ⟨started_replay (by decide +kernel), by decide +kernel⟩
      ⟨started_replay (by decide +kernel), by decide +kernel⟩
  exact absurd hsame (by decide)

end Khronos.Proofs
