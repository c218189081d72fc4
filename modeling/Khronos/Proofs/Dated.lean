import Khronos.Proofs.Decoding
import Khronos.Proofs.Lasting
import Khronos.Proofs.Timeouts
import Khronos.Proofs.Turns

namespace Khronos.Proofs
open Time Lib Db.Activities Db.Workflows Server Engine

/-- What no operation but a poll takes from a run: every write of the others keeps it, and it
holds of a run that has just been put into the table. -/
structure Carried (P : WorkflowRow → Prop) : Prop where
  set : ∀ {r state} (done : Clock), state.terminal = true → P r →
    P (setRun state none (some done.datetime) r)
  cancel : ∀ {r} (now : Clock), P r → P (Db.Workflows.cancelRun now r)
  start : ∀ {r} (now : Clock), r.state = .pending → P r → P (startRun now r)
  new : ∀ {r}, r.state = .pending → r.completedAt = none → P r

theorem Carried.amend {P : WorkflowRow → Prop} (hP : Carried P)
    (h : Amend (fun state => state.terminal = true) db db')
    (hd : ∀ r ∈ db.workflows, P r) : ∀ r ∈ db'.workflows, P r := by
  cases h with
  | still => exact hd
  | updateRun runId state hstate done =>
    exact Table.forall_update (fun r _ h => hP.set done hstate h) hd
  | cancelRun runId now => exact Table.forall_update (fun r _ h => hP.cancel now h) hd
  | startRun runId now =>
    refine Table.forall_update (fun r hr h => ?_) hd
    unfold startable at hr
    exact hP.start now (by simpa using (Bool.and_eq_true_iff.mp hr).2) h
  | updateStep stepId state attempt result retryAt hstate hretry => exact hd
  | resetStep stepId => exact hd
  | insertActivity a hid hstep => exact hd
  | updateActivity id state now result message => exact hd
  | heartbeat id now => exact hd

theorem Carried.cancels {P : WorkflowRow → Prop} (hP : Carried P) (h : Cancels p t t')
    (hd : ∀ r ∈ t, P r) :
    ∀ r ∈ t', P r := by
  obtain ⟨f, rfl, hf⟩ := h
  intro r' hr'
  obtain ⟨r, hr, rfl⟩ := List.mem_map.mp hr'
  rcases hf r hr with he | ⟨_, _, now, he⟩
  · rw [he]
    exact hd r hr
  · rw [he]
    exact hP.cancel now (hd r hr)

theorem Carried.append {P : WorkflowRow → Prop} (hP : Carried P) (hd : ∀ r ∈ t, P r)
    {q : WorkflowRow} (hs : q.state = .pending) (hc : q.completedAt = none) :
    ∀ r ∈ t ++ [q], P r := by
  intro r hr
  rcases List.mem_append.mp hr with hr | hr
  · exact hd r hr
  · rw [List.mem_singleton.mp hr]
    exact hP.new hs hc

def polling : Op → Bool
  | .pollActivity _ | .pollActivityTaskQueue _ => true
  | _ => false

theorem Carried.exec {P : WorkflowRow → Prop} (hP : Carried P) (hw : WellFormed w.db)
    (hf : Fresh w.db env)
    (crates : Crates) (hop : polling op = false) (hd : ∀ r ∈ w.db.workflows, P r) :
    ∀ r ∈ ((exec crates env op).after w).db.workflows, P r := by
  have hamends : Op.amending (fun state => state.terminal = true) op →
      ∀ r ∈ ((Server.exec crates env op).after w).db.workflows, P r := by
    intro h
    have hwithin := (exec_amends crates env h).within
    have hall := hwithin.mono (fun hamend (hd : ∀ r ∈ _, P r) => hP.amend hamend hd)
    exact hall.run (fun _ h => h) (fun hab hbc h => hbc (hab h)) w hd
  cases op with
  | startWorkflow req =>
    unfold Server.exec
    rw [Prog.after_bind_pure, Prog.after, run_startWorkflow hf]
    exact hP.append hd rfl rfl
  | startWorkflowExecution req =>
    unfold Server.exec
    rw [Prog.after_bind_pure, Prog.after, run_startWorkflowExecution hf]
    exact hP.append hd rfl rfl
  | scheduleFire scheduleId =>
    rw [after_scheduleFire]
    have hcut : ∀ t, Terminated crates env scheduleId w t → ∀ r ∈ t, P r := by
      rintro t (rfl | ⟨_, _, _, _, hc⟩)
      · exact hd
      · exact hP.cancels hc hd
    rcases processSchedule_cases hw hf crates scheduleId with ⟨t, ht, he⟩ | ⟨info, t, h, he⟩
    · rw [he]
      exact hcut t ht
    · rw [he]
      exact hP.append (hcut t h.runs) rfl rfl
  | pollActivity req => cases hop
  | pollActivityTaskQueue req => cases hop
  | reportActivityResult req => exact hamends trivial
  | reportActivityFailure req => exact hamends trivial
  | respondActivityTaskCompleted req => exact hamends trivial
  | respondActivityTaskFailed req => exact hamends trivial
  | heartbeat req => exact hamends trivial
  | cancelWorkflow req => exact hamends trivial
  | handle event => exact hamends ⟨rfl, rfl⟩
  | writeSchedules rows notify =>
    unfold Server.exec
    rw [Prog.after_bind_pure]
    cases notify <;> exact hd

/-- A run that is over has the time it ended, and no other run has one. -/
def EndDated (r : WorkflowRow) : Prop := r.completedAt ≠ none ↔ r.state.terminal = true

/-- A running run has the time it started. -/
def StartDated (r : WorkflowRow) : Prop := r.state = .running → r.startedAt ≠ none

theorem endDated_carried : Carried EndDated where
  set done ht _ := by simp [EndDated, setRun, ht]
  cancel now _ := by simp [EndDated, Db.Workflows.cancelRun, WorkflowState.terminal]
  start now hs h := by
    rw [EndDated, hs] at h
    exact h
  new hs hc := by simp [EndDated, hs, hc, WorkflowState.terminal]

theorem startRun_startedAt (now : Clock) (r : WorkflowRow) : (startRun now r).startedAt ≠ none := by
  unfold startRun
  cases r.startedAt <;> simp

theorem startDated_carried : Carried StartDated where
  set done ht _ hr := by
    have hstate := congrArg WorkflowState.terminal hr
    rw [show WorkflowState.terminal (setRun _ none _ _).state = _ from ht] at hstate
    cases hstate
  cancel now _ hr := by cases hr
  start now _ _ _ := startRun_startedAt now _
  new hs _ hr := by
    rw [hs] at hr
    cases hr

theorem chosen_none_iff {env : Env} {op : Op} {db : Db} :
    chosen env op db = none ↔ ∀ s ∈ db.workflowSteps, offered env op db s = false := by
  unfold chosen byCreation
  rw [List.find?_eq_none]
  simp only [List.mem_insertionSort, List.mem_filter, offered, Bool.and_eq_false_iff]
  grind

/-- In tables that can be read a poll hands out the step that is chosen. -/
theorem chosen_handed (hd : Readable w.db) (hw : WellFormed w.db) (hf : Fresh w.db env)
    (crates : Crates) (hc : chosen env op w.db = some s) :
    ((exec crates env op).after w).db = dispatched env s w.db := by
  obtain ⟨steps, hp⟩ := pendingSteps_read (env.now 0) hd hw
  have hasks := (chosen_mem hc).2.2
  cases op with
  | pollActivity req =>
    obtain ⟨x, hx, hdx⟩ := find_mapM_some (p := asksFor req)
      (fun r y hy => by simp [asksFor, asks, (rowToStep_decodes hy).name]) hp hc
    unfold Prog.after
    simp only [exec, pollActivity, getPendingSteps, Prog.run_bind, Prog.run_mapError, run_query, hp,
      Outcome.ofExcept, Outcome.mapError, Prog.resume_ok, hx,
      run_handOut hf (chosen_mem hc).1 (rowToStep_decodes hdx)]
    rfl
  | pollActivityTaskQueue req =>
    obtain ⟨x, hx, hdx⟩ := find_mapM_some (p := fun x => decide (unwrapOr ""
        (runTaskQueue x.workflowRunId.text w.db) = req.taskQueue.getD ""))
      (fun r y hy => by simp [asks, (rowToStep_decodes hy).run]) hp hc
    unfold Prog.after
    simp only [exec, pollActivityTaskQueue, getPendingSteps, Prog.run_bind, Prog.run_mapError,
      run_query, hp, Outcome.ofExcept, Outcome.mapError, Prog.resume_ok, run_scanQueue, hx,
      run_handOut hf (chosen_mem hc).1 (rowToStep_decodes hdx), Prog.run_attempt]
    cases runNamespace x.workflowRunId.text (dispatched env s w.db) <;> rfl
  | startWorkflow req => cases hasks
  | startWorkflowExecution req => cases hasks
  | scheduleFire scheduleId => cases hasks
  | reportActivityResult req => cases hasks
  | reportActivityFailure req => cases hasks
  | respondActivityTaskCompleted req => cases hasks
  | respondActivityTaskFailed req => cases hasks
  | heartbeat req => cases hasks
  | cancelWorkflow req => cases hasks
  | handle event => cases hasks
  | writeSchedules rows notify => cases hasks

/-- A poll that is offered nothing leaves everything as it was. -/
theorem unoffered_still (hf : Fresh w.db env) (crates : Crates) (hop : polling op = true)
    (hc : chosen env op w.db = none) : (exec crates env op).after w = w := by
  have hpolled : Polled crates env op w ((exec crates env op).run w) := by
    cases op with
    | pollActivity req => exact pollActivity_polled hf crates req
    | pollActivityTaskQueue req => exact pollActivityTaskQueue_polled hf crates req
    | _ => cases hop
  unfold Prog.after
  generalize (exec crates env op).run w = r at hpolled ⊢
  cases hpolled with
  | idle out hn => rfl
  | task reply s hs hr =>
    rw [hc] at hs
    cases hs

/-- The row of the run of a step that has been handed out. -/
theorem dispatched_row (hr : r ∈ db.workflows) (hrun : r.runId = s.workflowRunId) (env : Env) :
    setRun .running none (some (env.now 2).time.format) r ∈ (dispatched env s db).workflows := by
  have hrow := Table.update_mem (p := fun q => runKey q = s.workflowRunId.text)
    (f := setRun .running none (some (env.now 2).time.format)) hr
  rw [if_pos (decide_eq_true (show runKey r = _ from congrArg Uuid.text hrun))] at hrow
  exact hrow

/-- The state of the server before a step of a run. -/
theorem run_before {ts : List ServerStep} (hr : (server crates).Run .empty ts w) {τ : ServerStep}
    (hτ : τ ∈ ts) : ∃ us vs, ts = us ++ τ :: vs ∧ (server crates).Run .empty us τ.before ∧
      (server crates).admits τ.before τ.input ∧
      τ = (server crates).transition τ.before τ.input := by
  obtain ⟨us, vs, rfl⟩ := List.append_of_mem hτ
  obtain ⟨hu, hi, he, _⟩ := hr.at
  exact ⟨us, vs, rfl, hu, hi, he⟩

/-- What a step of a run writes if its poll is offered a step. -/
theorem run_handed {ts : List ServerStep} (hr : (server crates).Run .empty ts w) {τ : ServerStep}
    (hτ : τ ∈ ts) (hc : chosen τ.input.env τ.input.op τ.before.db = some s) :
    WellFormed τ.before.db ∧ τ.after.db = dispatched τ.input.env s τ.before.db := by
  obtain ⟨us, vs, -, hu, hi, he⟩ := run_before hr hτ
  obtain ⟨hd, hw⟩ := reachable_readable ⟨_, us, rfl, hu⟩
  refine ⟨hw, ?_⟩
  rw [he]
  exact chosen_handed hd hw hi crates hc

/-- What every run of the server carries whose polls are offered nothing. -/
theorem Carried.run {P : WorkflowRow → Prop} (hP : Carried P) {ts : List ServerStep}
    (hr : (server crates).Run .empty ts w)
    (hn : ∀ τ ∈ ts, chosen τ.input.env τ.input.op τ.before.db = none) :
    ∀ r ∈ w.db.workflows, P r := by
  have hstep : ∀ v call, (WellFormed v.db ∧ ∀ r ∈ v.db.workflows, P r) →
      (server crates).admits v call → chosen call.env call.op v.db = none →
      WellFormed ((server crates).step v call).2.db ∧
        ∀ r ∈ ((server crates).step v call).2.db.workflows, P r := by
    rintro v call ⟨hw, hd⟩ hf hc
    refine ⟨step_wellFormed crates call hw, ?_⟩
    cases hop : polling call.op with
    | true =>
      rw [show ((server crates).step v call).2 = v from unoffered_still hf crates hop hc]
      exact hd
    | false => exact hP.exec hw hf crates hop hd
  exact (hr.keeps_when (P := fun v => WellFormed v.db ∧ ∀ r ∈ v.db.workflows, P r)
    (C := fun v call => chosen call.env call.op v.db = none) hstep
    ⟨.empty, by intro r hr; cases hr⟩ hn).2

/-- In a run the ends of the runs are dated after every step exactly when no poll is offered a
step: a poll writes the time as the end of a run that it sets to running. -/
theorem run_endDated_iff {ts : List ServerStep} (hr : (server crates).Run .empty ts w) :
    (∀ τ ∈ ts, ∀ r ∈ τ.after.db.workflows, EndDated r) ↔
      ∀ τ ∈ ts, chosen τ.input.env τ.input.op τ.before.db = none := by
  constructor
  · intro h τ hτ
    by_contra hc
    obtain ⟨s, hs⟩ := Option.ne_none_iff_exists'.mp hc
    obtain ⟨hw, hafter⟩ := run_handed hr hτ hs
    obtain ⟨r, hmem, hrun⟩ := hw.ofRun s (chosen_mem hs).1
    have hrow := dispatched_row hmem hrun τ.input.env
    rw [← hafter] at hrow
    have hterminal := (h τ hτ _ hrow).mp (by simp [setRun])
    cases hterminal
  · intro hn τ hτ
    obtain ⟨us, vs, rfl, hu, hi, he⟩ := run_before hr hτ
    have hstep : (server crates).Run .empty (us ++ [τ]) τ.after := by
      rw [he]
      exact .next hu hi
    exact endDated_carried.run hstep (fun σ hσ => hn σ (by
      rcases List.mem_append.mp hσ with hσ | hσ
      · exact List.mem_append_left _ hσ
      · exact List.mem_append_right _ (by simp [List.mem_singleton.mp hσ])))

/-- The starts of the runs are dated: of those that run, of those that are completed, and of those
that a worker has been handed a step of. -/
structure Entered (db : Db) : Prop where
  running : ∀ r ∈ db.workflows, StartDated r
  completed : ∀ r ∈ db.workflows, r.state = .completed → r.startedAt ≠ none
  worked : ∀ a ∈ db.activities, ∀ s ∈ db.workflowSteps, s.id = a.stepId →
    ∀ r ∈ db.workflows, r.runId = s.workflowRunId → r.startedAt ≠ none

theorem Entered.empty : Entered .empty := by
  constructor <;> intro _ h <;> cases h

/-- A run all whose steps are completed has been worked on. -/
theorem Entered.concluded (h : Entered db) (hb : Backed db) (hr : r ∈ db.workflows)
    (hc : Concluded db r.runId .completed) : r.startedAt ≠ none := by
  obtain ⟨⟨s, hs, hrun⟩, hall⟩ := hc
  rcases hb s hs with ⟨hpending, _⟩ | ⟨a, ha, hid, _⟩
  · rw [hall s hs hrun] at hpending
    cases hpending
  · exact h.worked a ha s hs hid.symm r hr hrun.symm

theorem Entered.advanced (h : Entered db) (hb : Backed db) (hr : r ∈ db.workflows)
    (hstate : advancedState db r = .completed) : r.startedAt ≠ none := by
  unfold advancedState at hstate
  cases hd : decided (runKey r) db with
  | some state =>
    rw [hd] at hstate
    rw [show state = .completed from hstate] at hd
    exact h.concluded hb hr (decided_iff.mp hd)
  | none =>
    rw [hd, Option.getD_none] at hstate
    split at hstate
    · cases hstate
    · exact h.completed r hr hstate

/-- A run is completed after an operation only if its start is dated before it. -/
theorem Entered.turned (h : Entered db) (hb : Backed db) (hr : r ∈ db.workflows)
    (ht : Turned env op db r state) (hc : state = .completed) : r.startedAt ≠ none := by
  cases ht with
  | same hop => exact h.completed r hr hc
  | cancelled ha => cases hc
  | looked hop => exact h.advanced hb hr hc
  | expired id hop a s ha hs hrun =>
    obtain ⟨hsm, hid⟩ := stepOf_mem hs
    exact h.worked a (activityOf_mem ha).1 s hsm hid r hr hrun.symm
  | swept hop =>
    split at hc
    · exact h.advanced hb hr hc
    · exact h.completed r hr hc

/-- The start of a run that is dated stays so over a step. -/
theorem step_dated (hw : WellFormed w.db) {call : Call} (hc : (server crates).admits w call)
    (hr : r ∈ w.db.workflows) (hd : r.startedAt ≠ none)
    (hr' : r' ∈ ((server crates).step w call).2.db.workflows) (hid : r'.runId = r.runId) :
    r'.startedAt ≠ none := by
  obtain ⟨q, hq, hl⟩ := step_lasting hw hc hr
  obtain rfl := (step_wellFormed crates call hw).runs.unique hr' hq
    (key_iff.mpr (hid.trans hl.id.symm))
  obtain ⟨t, ht⟩ := Option.ne_none_iff_exists'.mp hd
  rw [hl.started t ht]
  simp

/-- Over a step that hands out nothing. -/
theorem Entered.quiet (h : Entered w.db) (hw : WellFormed w.db) (hb : Backed w.db) {call : Call}
    (hc : (server crates).admits w call)
    (hrunning : ∀ r ∈ ((server crates).step w call).2.db.workflows, StartDated r)
    (ht : Turns call.env call.op w.db ((server crates).step w call).2.db) :
    Entered ((server crates).step w call).2.db := by
  refine ⟨hrunning, fun r' hr' hstate => ?_, fun a' ha' s' hs' hid r' hr' hrun => ?_⟩
  · rcases ht.runs r' hr' with ⟨-, hpending⟩ | ⟨r, hr, hid, hturn⟩
    · rw [hpending] at hstate
      cases hstate
    · exact step_dated hw hc hr (h.turned hb hr hturn hstate) hr' hid
  · obtain ⟨a, ha, s, hs, hsa, hsr⟩ := ht.attempts a' ha' s' hs' hid
    obtain ⟨r, hr, hrid⟩ := hw.ofRun s hs
    have hsame : r'.runId = r.runId := hrun.trans (hsr.symm.trans hrid.symm)
    exact step_dated hw hc hr (h.worked a ha s hs hsa r hr hrid) hr' hsame

/-- Over a step that hands out a step of a run whose start is dated. -/
theorem Entered.dispatched (h : Entered w.db) (hw : WellFormed w.db) {call : Call}
    (hc : (server crates).admits w call) (hs : s ∈ w.db.workflowSteps)
    (hdb : ((server crates).step w call).2.db = Proofs.dispatched call.env s w.db)
    (hdated : ∀ r ∈ w.db.workflows, r.runId = s.workflowRunId → r.startedAt ≠ none) :
    Entered ((server crates).step w call).2.db := by
  have hrow : ∀ r' ∈ ((server crates).step w call).2.db.workflows, ∃ r ∈ w.db.workflows,
      r'.runId = r.runId ∧ (r.runId = s.workflowRunId ∨ r' = r) := by
    intro r' hr'
    rw [hdb] at hr'
    obtain ⟨r, hr, hid, ⟨hrun, -⟩ | ⟨-, he⟩⟩ := dispatched_run hr'
    · exact ⟨r, hr, hid, .inl hrun⟩
    · exact ⟨r, hr, hid, .inr he⟩
  refine ⟨fun r' hr' hstate => ?_, fun r' hr' hstate => ?_, fun a' ha' s' hs' hid r' hr' hrun => ?_⟩
  · obtain ⟨r, hr, hid, hrun | rfl⟩ := hrow r' hr'
    · exact step_dated hw hc hr (hdated r hr hrun) hr' hid
    · exact h.running r' hr hstate
  · obtain ⟨r, hr, hid, hrun | rfl⟩ := hrow r' hr'
    · exact step_dated hw hc hr (hdated r hr hrun) hr' hid
    · exact h.completed r' hr hstate
  · obtain ⟨r, hr, hrid, hself⟩ := hrow r' hr'
    have hdone : r.startedAt ≠ none → r'.startedAt ≠ none :=
      fun hd => step_dated hw hc hr hd hr' hrid
    rw [hdb] at ha' hs'
    rcases (mem_dispatched_steps hw hs).mp hs' with rfl | ⟨hs', hne⟩
    · exact hdone (hdated r hr (hrid.symm.trans hrun))
    · rcases mem_dispatched_activities.mp ha' with ha' | rfl
      · exact hdone (h.worked a' ha' s' hs' hid r hr (hrid.symm.trans hrun))
      · exact absurd hid hne

/-- A poll that hands out a step of a run whose start is not dated. -/
def HandsUndated (w : World) (call : Call) : Prop :=
  ∃ s, chosen call.env call.op w.db = some s ∧
    ∃ r ∈ w.db.workflows, r.runId = s.workflowRunId ∧ r.startedAt = none

theorem step_entered (hw : WellFormed w.db) (hb : Backed w.db) (hd : Readable w.db) {call : Call}
    (hc : (server crates).admits w call) (hn : ¬ HandsUndated w call) (h : Entered w.db) :
    Entered ((server crates).step w call).2.db := by
  cases hchosen : chosen call.env call.op w.db with
  | some s =>
    refine h.dispatched hw hc (chosen_mem hchosen).1 (chosen_handed hd hw hc crates hchosen) ?_
    intro r hr hrun hnone
    exact hn ⟨s, hchosen, r, hr, hrun, hnone⟩
  | none =>
    cases hop : polling call.op with
    | true =>
      rw [show ((server crates).step w call).2 = w from unoffered_still hc crates hop hchosen]
      exact h
    | false =>
      rcases exec_turns hw hc crates call.op with ⟨s, hs, -⟩ | ht
      · rw [hchosen] at hs
        cases hs
      · exact h.quiet hw hb hc (startDated_carried.exec hw hc crates hop h.running) ht

/-- In a run the starts of the running and the completed runs are dated after every step exactly
when every step that is handed out belongs to a run whose start is dated already. -/
theorem run_startDated_iff {ts : List ServerStep} (hr : (server crates).Run .empty ts w) :
    (∀ τ ∈ ts, ∀ r ∈ τ.after.db.workflows,
      r.state = .running ∨ r.state = .completed → r.startedAt ≠ none) ↔
      ∀ τ ∈ ts, ¬ HandsUndated τ.before τ.input := by
  constructor
  · rintro h τ hτ ⟨s, hs, r, hmem, hrun, hnone⟩
    obtain ⟨-, hafter⟩ := run_handed hr hτ hs
    have hrow := dispatched_row hmem hrun τ.input.env
    rw [← hafter] at hrow
    exact h τ hτ _ hrow (.inl rfl) hnone
  · intro hn τ hτ
    obtain ⟨us, vs, rfl, hu, hi, he⟩ := run_before hr hτ
    have hreach : ∀ {us v}, (server crates).Run .empty us v →
        WellFormed v.db ∧ Backed v.db ∧ Readable v.db := by
      intro us v hv
      obtain ⟨hd, hw⟩ := reachable_readable ⟨_, us, rfl, hv⟩
      exact ⟨hw, reachable_backed ⟨_, us, rfl, hv⟩, hd⟩
    have hbefore : Entered τ.before.db := by
      refine hu.keeps_with_past (P := fun _ v => Entered v.db)
        (C := fun _ v call => ¬ HandsUndated v call) ?_ .empty ?_
      · intro us v call hv h hc hquiet
        obtain ⟨hw, hb, hd⟩ := hreach hv
        exact step_entered hw hb hd hc hquiet h
      · rintro us' σ vs' rfl
        exact hn σ (by simp)
    obtain ⟨hw, hb, hd⟩ := hreach hu
    have hafter := step_entered hw hb hd hi (hn τ hτ) hbefore
    rw [he]
    intro r hmem hstate
    rcases hstate with hstate | hstate
    · exact hafter.running r hmem hstate
    · exact hafter.completed r hmem hstate

/-- The two times of a run bear out its state. -/
structure Dated (r : WorkflowRow) : Prop where
  start : r.state = .running ∨ r.state = .completed → r.startedAt ≠ none
  finish : EndDated r

/-- In a run the times of all runs bear out their states after every step exactly when no poll is
offered a step. -/
theorem run_dated_iff {ts : List ServerStep} (hr : (server crates).Run .empty ts w) :
    (∀ τ ∈ ts, ∀ r ∈ τ.after.db.workflows, Dated r) ↔
      ∀ τ ∈ ts, ∀ s ∈ τ.before.db.workflowSteps,
        offered τ.input.env τ.input.op τ.before.db s = false := by
  constructor
  · intro h τ hτ
    rw [← chosen_none_iff]
    exact (run_endDated_iff hr).mp (fun σ hσ r hmem => (h σ hσ r hmem).finish) τ hτ
  · intro hn τ hτ r hmem
    have hnone : ∀ σ ∈ ts, chosen σ.input.env σ.input.op σ.before.db = none :=
      fun σ hσ => chosen_none_iff.mpr (hn σ hσ)
    refine ⟨(run_startDated_iff hr).mpr ?_ τ hτ r hmem, (run_endDated_iff hr).mpr hnone τ hτ r hmem⟩
    rintro σ hσ ⟨s, hs, -⟩
    rw [hnone σ hσ] at hs
    cases hs

/-- A run is started, is begun by the engine, and is cancelled before a worker polls. -/
def cancelledEarly : List Op :=
  [.startWorkflow ⟨"x", [], "", "", none, ""⟩, .handle (.workflowCreated "id-0"),
    .cancelWorkflow ⟨"id-0", ""⟩]

theorem cancelled_early_dated :
    (∃ τ ∈ (server plainCrates).replay .empty (script cancelledEarly),
      ∃ r ∈ τ.after.db.workflows, r.state = .running) ∧
    (∃ τ ∈ (server plainCrates).replay .empty (script cancelledEarly),
      ∃ r ∈ τ.after.db.workflows, r.state = .cancelled) ∧
    ∀ τ ∈ (server plainCrates).replay .empty (script cancelledEarly),
      ∀ r ∈ τ.after.db.workflows, Dated r := by
  refine ⟨by decide +kernel, by decide +kernel,
    (run_dated_iff (script_run cancelledEarly (by decide +kernel))).mpr ?_⟩
  decide +kernel

/-- A worker has been handed the first step of a run that the engine has not looked at yet: the run
is running, has no start, and has an end. -/
theorem polled_first_undated :
    ¬ ∀ (crates : Crates) (w : World), (server crates).Reachable w →
      ∀ r ∈ w.db.workflows, Dated r := by
  intro h
  have hrow : ∃ r ∈ firstAttempt.db.workflows,
      r.state = .running ∧ r.startedAt = none ∧ r.completedAt ≠ none := by decide +kernel
  obtain ⟨r, hr, hstate, hstart, -⟩ := hrow
  have hreach : (server plainCrates).Reachable firstAttempt :=
    ⟨_, _, rfl, script_run _ (by decide +kernel)⟩
  exact (h plainCrates _ hreach r hr).start (.inl hstate) hstart

end Khronos.Proofs
