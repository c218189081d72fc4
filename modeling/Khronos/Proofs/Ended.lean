import Khronos.Proofs.Order

namespace Khronos.Proofs
open Time Lib Db.Activities Db.Workflows Server Engine

theorem active_terminal (r : WorkflowRow) : r.state.terminal = !active r := by
  unfold active
  cases r.state <;> rfl

theorem mem_activeRuns (hw : WellFormed db) (hr : r ∈ db.workflows) :
    r.runId ∈ activeRuns db ↔ active r = true := by
  simp only [activeRuns, byStart, List.mem_map, List.mem_insertionSort, List.mem_filter]
  constructor
  · rintro ⟨q, ⟨hq, ha⟩, he⟩
    rw [hw.runs.unique hr hq (key_iff.mpr he.symm)]
    exact ha
  · exact fun ha => ⟨r, ⟨hr, ha⟩, rfl⟩

theorem swept_looked (hw : WellFormed db) (env : Env) :
    Looked (fun r => active r = true) db (swept env db (activeRuns db).zipIdx) := by
  obtain ⟨f, hf, hfr⟩ := swept_runs env db (activeRuns db).zipIdx
  refine ⟨swept_steps env db _, fun r' hr' => ?_⟩
  rw [hf] at hr'
  obtain ⟨r, hr, rfl⟩ := List.mem_map.mp hr'
  obtain ⟨hid, hstate⟩ := hfr r
  simp only [List.zipIdx_map_fst, mem_activeRuns hw hr] at hstate
  exact ⟨r, hr, hid, hstate⟩

theorem Cancels.keeps (h : Cancels p t t') (hr : r ∈ t) (hn : active r = false) : r ∈ t' := by
  obtain ⟨f, rfl, hf⟩ := h
  rcases hf r hr with he | ⟨_, ha, _⟩
  · exact List.mem_map.mpr ⟨r, hr, he⟩
  · rw [hn] at ha
    cases ha

theorem Terminated.keeps (h : Terminated crates env scheduleId w t) (hr : r ∈ w.db.workflows)
    (hn : active r = false) : r ∈ t := by
  rcases h with rfl | ⟨_, _, _, _, hc⟩
  · exact hr
  · exact hc.keeps hr hn

/-- Every run in a terminal state keeps that state. -/
def KeepsTerminal (db db' : Db) : Prop :=
  ∀ r ∈ db.workflows, r.state.terminal = true →
    ∃ r' ∈ db'.workflows, r'.runId = r.runId ∧ r'.state = r.state

/-- An operation is about a run in a terminal state: a poll whose foremost step is of it, an
event for it when its steps say otherwise, or the last timeout of a step of it that makes the
engine decide on it once more. -/
inductive Overrides (env : Env) (op : Op) (db : Db) : Prop
  | poll (r : WorkflowRow) (hr : r ∈ db.workflows) (ht : r.state.terminal = true)
      (s : WorkflowStepRow) (hs : Foremost env op db s) (hrun : s.workflowRunId = r.runId)
  | event (r : WorkflowRow) (hr : r ∈ db.workflows) (ht : r.state.terminal = true)
      (hop : op = .handle (.workflowCreated r.runId.text) ∨
        op = .handle (.stepCompleted r.runId.text))
      (state : WorkflowState) (hc : Concluded db r.runId state) (hne : state ≠ r.state)
  | timeout (r : WorkflowRow) (hr : r ∈ db.workflows) (ht : r.state.terminal = true)
      (hne : r.state ≠ .failed) (activityId : String) (a : ActivityRow) (s : WorkflowStepRow)
      (hop : op = .handle (.heartbeatTimeout activityId)) (ha : activityOf db activityId = some a)
      (hs : stepOf db a.stepId = some s) (hrun : s.workflowRunId = r.runId)
      (hh : a.state = .running) (hlt : ¬ a.attempt < s.retryPolicyJson.maximumAttempts)
      (hrest : ∀ t ∈ db.workflowSteps, t.workflowRunId = r.runId → t.id ≠ s.id →
        waiting t = false)

/-- The engine leaves a terminal run alone whose steps say nothing else. -/
theorem advancedState_terminal (ht : r.state.terminal = true)
    (hn : ∀ state, Concluded db r.runId state → state = r.state) : advancedState db r = r.state := by
  unfold advancedState
  cases hd : decided (runKey r) db with
  | some state => exact hn state (decided_iff.mp hd)
  | none =>
    have hp : r.state ≠ .pending := by
      intro hp
      rw [hp] at ht
      cases ht
    rw [Option.getD_none, if_neg hp]

theorem effect_keepsTerminal (hw : WellFormed w.db) (hn : ¬ Overrides env op w.db)
    (h : Effect crates env op w w') : KeepsTerminal w.db w'.db := by
  intro r hr ht
  have hinactive : active r = false := by simpa [active_terminal] using ht
  cases h with
  | still => exact ⟨r, hr, rfl, rfl⟩
  | schedules rows notify hop queue hqueue => exact ⟨r, hr, rfl, rfl⟩
  | reported id rep hop hrep a s ha hs queue hq => exact ⟨r, hr, rfl, rfl⟩
  | retimed id hop a s ha hs hrun hlt => exact ⟨r, hr, rfl, rfl⟩
  | beaten id t hbeat => exact ⟨r, hr, rfl, rfl⟩
  | started run new queue hop hid hstate hnew =>
    exact ⟨r, List.mem_append_left _ hr, rfl, rfl⟩
  | fired scheduleId hop _ hfired =>
    cases hfired with
    | cut t hterm => exact ⟨r, hterm.keeps hr hinactive, rfl, rfl⟩
    | started t hterm hfires run new hid hstate hnew =>
      exact ⟨r, List.mem_append_left _ (hterm.keeps hr hinactive), rfl, rfl⟩
  | cancelled req hop =>
    exact ⟨r, (cancels_update (p := fun _ => true) (env.now 0) req.workflowRunId
      (fun _ _ _ => rfl)).keeps hr hinactive, rfl, rfl⟩
  | dispatched s hs =>
    have hne : runKey r ≠ s.workflowRunId.text := by
      intro hk
      exact hn (.poll r hr ht s (chosen_foremost hs) (key_iff.mp hk).symm)
    exact ⟨r, Table.mem_update.mpr ⟨r, hr, by simp [hne]⟩, rfl, rfl⟩
  | expired id hop a s ha hs hrun hlt =>
    obtain ⟨f, hf, hfr⟩ := processed_runs (env.part 3) s.workflowRunId.text
      (reported env .timeout a s w.db)
    obtain ⟨hid, hstate⟩ := hfr r
    refine ⟨f r, ?_, hid, ?_⟩
    · rw [hf]
      exact List.mem_map.mpr ⟨r, hr, rfl⟩
    · rw [hstate]
      split
      · rename_i hk
        have hrs : s.workflowRunId = r.runId := (key_iff.mp hk).symm
        obtain ⟨hmem, _⟩ := stepOf_mem hs
        refine advancedState_terminal ht (fun state hc => ?_)
        -- The step has failed, so the engine can only say that the run has.
        have hfailed : r.state = .failed := by
          by_contra hne
          refine hn (.timeout r hr ht hne id a s hop ha hs hrs hrun hlt ?_)
          exact fun t hm htr hid =>
            hc.nothing_waits t ((mem_reported_steps hw hmem).mpr (.inr ⟨hm, hid⟩)) htr
        cases state with
        | failed => exact hfailed.symm
        | completed =>
          have hwrite : (Report.timeout.write env a.attempt s.retryPolicyJson s).state = .failed := by
            simp [Report.write, failedStep, Report.counted, hlt, setStep]
          have hdone := hc.2 _ ((mem_reported_steps hw hmem).mpr (.inl rfl))
            ((write_fixed _ _ _ _ _).run.trans hrs)
          rw [hwrite] at hdone
          cases hdone
        | pending => exact hc.elim
        | running => exact hc.elim
        | cancelled => exact hc.elim
      · rfl
  | advanced runId hop =>
    obtain ⟨f, hf, hfr⟩ := processed_runs (env.part 0) runId w.db
    obtain ⟨hid, hstate⟩ := hfr r
    refine ⟨f r, ?_, hid, ?_⟩
    · rw [hf]
      exact List.mem_map.mpr ⟨r, hr, rfl⟩
    · rw [hstate]
      split
      · rename_i hk
        subst hk
        refine advancedState_terminal ht (fun state hc => ?_)
        by_contra hne
        exact hn (.event r hr ht hop state hc hne)
      · rfl
  | swept hop =>
    obtain ⟨f, hf, hfr⟩ := swept_runs env w.db (activeRuns w.db).zipIdx
    obtain ⟨hid, hstate⟩ := hfr r
    rw [List.zipIdx_map_fst, if_neg (by simp [mem_activeRuns hw hr, hinactive])] at hstate
    refine ⟨f r, ?_, hid, hstate⟩
    rw [hf]
    exact List.mem_map.mpr ⟨r, hr, rfl⟩

/-- In a run no step of which overrides a terminal state, no terminal state is ever left or
replaced by another. -/
theorem run_keeps_terminal {ts : List ServerStep} (hr : (server crates).Run .empty ts w)
    (hn : ∀ τ ∈ ts, ¬ Overrides τ.input.env τ.input.op τ.before.db) :
    ∀ τ ∈ ts, KeepsTerminal τ.before.db τ.after.db := by
  intro τ hτ
  obtain ⟨us, vs, rfl⟩ := List.append_of_mem hτ
  obtain ⟨hu, hi, he, _⟩ := hr.at
  have hw := run_wellFormed hu .empty
  have hkeep := effect_keepsTerminal hw (hn τ hτ) (exec_effect hw hi crates τ.input.op)
  rw [he]
  exact hkeep

instance (db : Db) (u : Uuid) : (state : WorkflowState) → Decidable (Concluded db u state)
  | .failed => inferInstanceAs (Decidable (_ ∧ _))
  | .completed => inferInstanceAs (Decidable (_ ∧ _))
  | .pending => .isFalse id
  | .running => .isFalse id
  | .cancelled => .isFalse id

/-- A run is completed, and then its first event comes once more and it is cancelled. -/
def completedRun : List Op :=
  [.startWorkflow ⟨"x", [], "", "", none, ""⟩, .pollActivity ⟨"", ["x"]⟩,
    .reportActivityResult ⟨"id-10", ""⟩, .handle (.stepCompleted "id-0"),
    .handle (.workflowCreated "id-0"), .cancelWorkflow ⟨"id-0", ""⟩]

theorem completed_run_keeps_terminal :
    ∃ τ ∈ (server plainCrates).replay .empty (script completedRun),
      (∃ r ∈ τ.before.db.workflows, r.state = .completed) ∧
        KeepsTerminal τ.before.db τ.after.db := by
  have hended : ∃ τ ∈ (server plainCrates).replay .empty (script completedRun),
      ∃ r ∈ τ.before.db.workflows, r.state = .completed := by decide +kernel
  have hquiet : ∀ τ ∈ (server plainCrates).replay .empty (script completedRun),
      ∀ r ∈ τ.before.db.workflows, r.state.terminal = true → r.state = .completed ∧
        ¬ Concluded τ.before.db r.runId .failed ∧ (reportOf plainCrates τ.input.op).isNone = true ∧
        ∀ s ∈ τ.before.db.workflowSteps,
          offered τ.input.env τ.input.op τ.before.db s = false := by decide +kernel
  obtain ⟨τ, hτ, hr⟩ := hended
  refine ⟨τ, hτ, hr, ?_⟩
  refine run_keeps_terminal (script_run completedRun (by decide +kernel)) ?_ τ hτ
  intro σ hσ h
  cases h with
  | poll r hr ht s hs hrun =>
    obtain ⟨hoff, pre, post, he, _⟩ := hs
    rw [(hquiet σ hσ r hr ht).2.2.2 s (by rw [he]; simp)] at hoff
    cases hoff
  | event r hr ht hop state hc hne =>
    obtain ⟨hstate, hfail, _⟩ := hquiet σ hσ r hr ht
    cases state with
    | failed => exact hfail hc
    | completed => exact hne hstate.symm
    | pending => exact hc
    | running => exact hc
    | cancelled => exact hc
  | timeout r hr ht hne activityId a s hop =>
    have hnone := (hquiet σ hσ r hr ht).2.2.1
    rw [hop] at hnone
    cases hnone

/-- A run is cancelled while its step waits, and a worker polls for the step. -/
def cancelledRun : List Op :=
  [.startWorkflow ⟨"x", [], "", "", none, ""⟩, .cancelWorkflow ⟨"id-0", ""⟩,
    .pollActivity ⟨"", ["x"]⟩]

/-- The cancelled run is running again. -/
theorem cancelled_run_resumed :
    ¬ ∀ (crates : Crates) (ts : List ServerStep) (w : World), (server crates).Run .empty ts w →
      ∀ τ ∈ ts, KeepsTerminal τ.before.db τ.after.db := by
  intro h
  have hlost : ∃ τ ∈ (server plainCrates).replay .empty (script cancelledRun),
      ∃ r ∈ τ.before.db.workflows, r.state.terminal = true ∧
        ∀ r' ∈ τ.after.db.workflows, r'.runId = r.runId → r'.state ≠ r.state := by
    decide +kernel
  obtain ⟨τ, hτ, r, hr, ht, hn⟩ := hlost
  obtain ⟨r', hr', hid, hstate⟩ :=
    h plainCrates _ _ (script_run cancelledRun (by decide +kernel)) τ hτ r hr ht
  exact hn r' hr' hid hstate

/-- No step of a run in a terminal state waits for a worker. -/
def NoneStranded (db : Db) : Prop :=
  ∀ s ∈ db.workflowSteps, s.state = .pending →
    ∀ r ∈ db.workflows, r.runId = s.workflowRunId → r.state.terminal = false

/-- An operation is to cancel a run: at a caller's wish, or because a schedule of the policy
`terminate` fires that takes the run for its own. -/
def cancelling (crates : Crates) (env : Env) (op : Op) (w : World) (r : WorkflowRow) : Bool :=
  match op with
  | .cancelWorkflow req => runKey r = req.workflowRunId
  | .scheduleFire scheduleId => match Scheduler.scheduleInfo scheduleId w.db with
    | .ok info => info.overlapPolicy = .terminate && Scheduler.ofSchedule scheduleId r &&
      ((Scheduler.shouldFire crates (env.part 0) info).run w).1.value? = some true
    | .error _ => false
  | _ => false

/-- An operation that leaves a step waiting in a run that has ended: it cancels a run with
such a step, or takes a failure of a step of an ended run for a reason to try it again. -/
inductive Strands (crates : Crates) (env : Env) (op : Op) (w : World) : Prop
  | cancel (r : WorkflowRow) (hr : r ∈ w.db.workflows) (hc : cancelling crates env op w r = true)
      (ha : active r = true) (s : WorkflowStepRow) (hs : s ∈ w.db.workflowSteps)
      (hrun : s.workflowRunId = r.runId) (hp : s.state = .pending)
  | retry (activityId : String) (rep : Report) (hop : reportOf crates op = some (activityId, rep))
      (a : ActivityRow) (s : WorkflowStepRow) (hact : activityOf w.db activityId = some a)
      (hstep : stepOf w.db a.stepId = some s) (hh : rep.heard a)
      (hfinal : rep.final a.attempt s.retryPolicyJson = false) (r : WorkflowRow)
      (hr : r ∈ w.db.workflows) (hrun : r.runId = s.workflowRunId) (ht : r.state.terminal = true)

theorem Cancels.noneStranded (h : Cancels p w.db.workflows t) (hq : NoneStranded w.db)
    (hn : ∀ r ∈ w.db.workflows, p r = true → active r = true → ∀ s ∈ w.db.workflowSteps,
      s.workflowRunId = r.runId → s.state ≠ .pending) : NoneStranded (withRuns w t).db := by
  intro s hs hp r' hr' hrun
  obtain ⟨f, rfl, hf⟩ := h
  obtain ⟨r, hr, rfl⟩ := List.mem_map.mp hr'
  rcases hf r hr with he | ⟨hpr, ha, now, he⟩
  · rw [he] at hrun ⊢
    exact hq s hs hp r hr hrun
  · rw [he] at hrun
    exact absurd hp (hn r hr hpr ha s hs hrun.symm)

theorem Terminated.noneStranded (h : Terminated crates env scheduleId w t) (hq : NoneStranded w.db)
    (hn : ¬ Strands crates env (.scheduleFire scheduleId) w) : NoneStranded (withRuns w t).db := by
  rcases h with rfl | ⟨info, hinfo, hpolicy, hfire, hc⟩
  · exact hq
  · refine hc.noneStranded hq (fun r hr hof ha s hs hrun hp => ?_)
    refine hn (.cancel r hr ?_ ha s hs hrun hp)
    simp [cancelling, hinfo, hpolicy, hof, hfire, Outcome.value?]

theorem started_noneStranded (hf : Fresh w.db env)
    (hids : t.map (·.runId) = w.db.workflows.map (·.runId)) (hq : NoneStranded (withRuns w t).db)
    (hstate : run.state = .pending) (hnew : FreshSteps env now w.db new) :
    NoneStranded (started run new (withRuns w t).db) := by
  have hunused := (fresh_unused hf (i := 0) (by omega)).1
  intro s hs hp r hr hrun
  rcases List.mem_append.mp hr with hr | hr
  · rcases List.mem_append.mp hs with hs | hs
    · exact hq s hs hp r hr hrun
    · have hmem : r.runId ∈ t.map (·.runId) := List.mem_map.mpr ⟨r, hr, rfl⟩
      rw [hids] at hmem
      obtain ⟨q, hq, hqr⟩ := List.mem_map.mp hmem
      exact absurd ⟨q, hq, hqr.trans (hrun.trans (hnew.ofRun s hs))⟩ hunused
  · rw [List.mem_singleton.mp hr, hstate]
    rfl

theorem reported_noneStranded (hw : WellFormed db) (hq : NoneStranded db)
    (hstep : stepOf db a.stepId = some s)
    (hn : rep.final a.attempt s.retryPolicyJson = false → ∀ r ∈ db.workflows,
      r.runId = s.workflowRunId → r.state.terminal = false) :
    NoneStranded (reported env rep a s db) := by
  have hmem := (stepOf_mem hstep).1
  intro s' hs' hp r hr hrun
  rcases (mem_reported_steps hw hmem).mp hs' with rfl | ⟨hold, _⟩
  · rw [(write_fixed _ _ _ _ _).run] at hrun
    rcases write_retries hp with hfinal | hsame
    · exact hn hfinal r hr hrun
    · rw [hsame] at hp
      exact hq s hmem hp r hr hrun
  · exact hq s' hold hp r hr hrun

/-- The engine ends no run of which a step waits. -/
theorem Looked.noneStranded {p : WorkflowRow → Prop} [DecidablePred p] (h : Looked p db db')
    (hq : NoneStranded db) : NoneStranded db' := by
  intro s hm hp r' hr' hrun
  rw [h.steps] at hm
  obtain ⟨r, hr, hid, hstate⟩ := h.runs r' hr'
  rw [hid] at hrun
  have hlive := hq s hm hp r hr hrun
  rw [hstate]
  split
  · unfold advancedState
    cases hd : decided (runKey r) db with
    | some state =>
      have hwaits := (decided_iff.mp hd).nothing_waits s hm hrun.symm
      simp [waiting, hp] at hwaits
    | none =>
      rw [Option.getD_none]
      split
      · rfl
      · exact hlive
  · exact hlive

theorem effect_noneStranded (hw : WellFormed w.db) (hf : Fresh w.db env) (hq : NoneStranded w.db)
    (hn : ¬ Strands crates env op w) (h : Effect crates env op w w') : NoneStranded w'.db := by
  have hretry : ∀ {id rep a s}, reportOf crates op = some (id, rep) →
      activityOf w.db id = some a → stepOf w.db a.stepId = some s → rep.heard a →
      NoneStranded (reported env rep a s w.db) := by
    intro id rep a s hop ha hs hh
    refine reported_noneStranded hw hq hs (fun hfinal r hr hrun => ?_)
    by_contra ht
    exact hn (.retry id rep hop a s ha hs hh hfinal r hr hrun (by simpa using ht))
  cases h with
  | still => exact hq
  | schedules rows notify hop queue hqueue => exact hq
  | beaten id t ht => exact hq
  | started run new queue hop hid hstate hnew =>
    exact started_noneStranded hf rfl hq hstate hnew
  | fired scheduleId hop _ hfired =>
    subst hop
    cases hfired with
    | cut t hterm => exact hterm.noneStranded hq hn
    | started t hterm hfires run new hid hstate hnew =>
      exact started_noneStranded hf hterm.runIds (hterm.noneStranded hq hn) hstate hnew
  | dispatched s hs =>
    intro s' hs' hp r' hr' hrun
    have hmem := (chosen_mem hs).1
    rcases (mem_dispatched_steps hw hmem).mp hs' with rfl | ⟨hold, _⟩
    · cases hp
    · obtain ⟨r, hr, rfl⟩ := Table.mem_update.mp hr'
      split
      · rfl
      · rw [if_neg ‹_›] at hrun
        exact hq s' hold hp r hr hrun
  | reported id rep hop ht a s ha hs queue _ =>
    exact hretry hop ha hs (by cases rep <;> trivial)
  | retimed id hop a s ha hs hr hlt =>
    have hop' : reportOf crates op = some (id, .timeout) := by
      rw [hop]
      rfl
    exact hretry hop' ha hs hr
  | expired id hop a s ha hs hr hlt =>
    have hop' : reportOf crates op = some (id, .timeout) := by
      rw [hop]
      rfl
    exact (processed_looked _ _ _).noneStranded (hretry hop' ha hs hr)
  | cancelled req hop =>
    refine (cancels_update (p := fun r => runKey r = req.workflowRunId) _ _
      (fun _ _ hk => decide_eq_true hk)).noneStranded hq (fun r hr hk ha s hs hrun hp => ?_)
    exact hn (.cancel r hr (by rw [hop]; exact hk) ha s hs hrun hp)
  | advanced runId hop => exact (processed_looked _ _ _).noneStranded hq
  | swept hop => exact (swept_looked hw env).noneStranded hq

/-- In a run no step of which leaves a step waiting in an ended run, no step of an ended run is
handed out. -/
theorem run_hands_out_live {ts : List ServerStep} (hr : (server crates).Run .empty ts w)
    (hn : ∀ τ ∈ ts, ¬ Strands crates τ.input.env τ.input.op τ.before) :
    ∀ τ ∈ ts, ∀ a, handedOut crates τ = some a →
      ∀ s ∈ τ.before.db.workflowSteps, s.id = a.stepId →
        ∀ r ∈ τ.before.db.workflows, r.runId = s.workflowRunId → r.state.terminal = false := by
  intro τ hτ a hout s hs hid r hrm hrun
  obtain ⟨us, vs, rfl⟩ := List.append_of_mem hτ
  obtain ⟨hu, hi, he, _⟩ := hr.at
  have hinv := hu.keeps_when (P := fun w => WellFormed w.db ∧ NoneStranded w.db)
    (C := fun w call => ¬ Strands crates call.env call.op w)
    (fun w call h hc hns => ⟨step_wellFormed crates call h.1,
      effect_noneStranded h.1 hc h.2 hns (exec_effect h.1 hc crates call.op)⟩)
    ⟨.empty, by intro s hs; cases hs⟩ (fun σ hσ => hn σ (List.mem_append_left _ hσ))
  rw [he] at hout
  obtain ⟨q, hq, rfl, _⟩ := handedOut_dispatched hi hout
  obtain rfl := hinv.1.steps.unique hs (chosen_mem hq).1 (key_iff.mpr hid)
  exact hinv.2 s hs (chosen_pending hinv.1 hq) r hrm hrun

/-- A run is cancelled while its only step runs, and the worker reports a result. -/
def cancelledLate : List Op :=
  [.startWorkflow ⟨"x", [], "", "", none, ""⟩, .pollActivity ⟨"", ["x"]⟩,
    .cancelWorkflow ⟨"id-0", ""⟩, .reportActivityResult ⟨"id-10", ""⟩]

theorem cancelled_late_hands_out_live :
    ∃ τ ∈ (server plainCrates).replay .empty (script cancelledLate),
      ∃ s ∈ τ.before.db.workflowSteps,
        (handedOut plainCrates τ).any (fun a => s.id = a.stepId) = true ∧
        ∀ r ∈ τ.before.db.workflows, r.runId = s.workflowRunId → r.state.terminal = false := by
  have hpoll : ∃ τ ∈ (server plainCrates).replay .empty (script cancelledLate),
      ∃ s ∈ τ.before.db.workflowSteps,
        (handedOut plainCrates τ).any (fun a => s.id = a.stepId) = true := by decide +kernel
  have hcancel : ∀ τ ∈ (server plainCrates).replay .empty (script cancelledLate),
      ∀ r ∈ τ.before.db.workflows,
        cancelling plainCrates τ.input.env τ.input.op τ.before r = true →
          ∀ s ∈ τ.before.db.workflowSteps, s.state ≠ .pending := by decide +kernel
  have hresult : ∀ τ ∈ (server plainCrates).replay .empty (script cancelledLate),
      (reportOf plainCrates τ.input.op).all (fun p => !p.2.failing) = true := by decide +kernel
  obtain ⟨τ, hτ, s, hs, hout⟩ := hpoll
  obtain ⟨a, ha, hid⟩ := Option.any_eq_true _ _ |>.mp hout
  refine ⟨τ, hτ, s, hs, hout, ?_⟩
  refine run_hands_out_live (script_run cancelledLate (by decide +kernel)) ?_ τ hτ a ha s hs
    (of_decide_eq_true hid)
  intro σ hσ h
  cases h with
  | cancel r hr hc ha s hs hrun hp => exact hcancel σ hσ r hr hc s hs hp
  | retry activityId rep hop a s hact hstep hh hfinal r hr hrun ht =>
    have hrep := hresult σ hσ
    rw [hop] at hrep
    cases rep with
    | result json => cases hfinal
    | failure message => cases hrep
    | timeout => cases hrep

/-- A step of a cancelled run is handed out. -/
theorem cancelled_run_handed_out :
    ¬ ∀ (crates : Crates) (ts : List ServerStep) (w : World), (server crates).Run .empty ts w →
      ∀ τ ∈ ts, ∀ a, handedOut crates τ = some a →
        ∀ s ∈ τ.before.db.workflowSteps, s.id = a.stepId →
          ∀ r ∈ τ.before.db.workflows, r.runId = s.workflowRunId → r.state.terminal = false := by
  intro h
  have hout : ∃ τ ∈ (server plainCrates).replay .empty (script cancelledRun),
      ∃ s ∈ τ.before.db.workflowSteps, ∃ r ∈ τ.before.db.workflows,
        (handedOut plainCrates τ).any (fun a => s.id = a.stepId) = true ∧
          r.runId = s.workflowRunId ∧ r.state = .cancelled := by decide +kernel
  obtain ⟨τ, hτ, s, hs, r, hr, hout, hrun, hstate⟩ := hout
  obtain ⟨a, ha, hid⟩ := Option.any_eq_true _ _ |>.mp hout
  have hlive := h plainCrates _ _ (script_run cancelledRun (by decide +kernel)) τ hτ a ha
    s hs (of_decide_eq_true hid) r hr hrun
  rw [hstate] at hlive
  cases hlive

end Khronos.Proofs
