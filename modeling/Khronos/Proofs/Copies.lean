import Khronos.Db.Columns
import Khronos.Proofs.Starts
import Khronos.Server.Naming
import Khronos.Server.Replays

namespace Khronos.Proofs
open Time Lib Db.Activities Db.Workflows Server

/-- What the steps of a run have from the definition it was created with. -/
structure StepPlan where
  activityName : String
  retryPolicy : RetryPolicy
  timeoutSecs : UInt64
  heartbeatTimeoutSecs : Option UInt64
deriving DecidableEq

def definedPlan (d : ActivityStep) : StepPlan :=
  ⟨d.activityName, d.retryPolicy, d.timeoutSecs, d.heartbeatTimeoutSecs⟩

def storedPlan (r : WorkflowStepRow) : StepPlan :=
  ⟨r.activityName, r.retryPolicyJson, r.timeoutSecs.toUInt64,
    r.heartbeatTimeoutSecs.map Int64.toUInt64⟩

/-- The steps of a run in their order. -/
def planned (runId : Uuid) (db : Db) : List StepPlan :=
  (byIndex (db.workflowSteps.filter (fun s => s.workflowRunId = runId))).map storedPlan

theorem storedPlan_newStep (env : Env) (runId : Uuid) (args : ActivityStep → Json)
    (d : ActivityStep × Nat) : storedPlan (newStep env runId args d) = definedPlan d.1 := by
  have hbeat : d.1.heartbeatTimeoutSecs.map (Int64.toUInt64 ∘ UInt64.toInt64) =
      d.1.heartbeatTimeoutSecs := by
    cases d.1.heartbeatTimeoutSecs <;> simp
  simp [storedPlan, newStep, stepRow, freshStep, definedPlan, hbeat]

/-- No step of a new run is there before it. -/
theorem steps_none (hw : WellFormed db) (hf : Fresh db env) :
    db.workflowSteps.filter (fun s => s.workflowRunId = env.uuid 0) = [] := by
  rw [List.filter_eq_nil_iff]
  intro s hs he
  obtain ⟨r, hr, hid⟩ := hw.ofRun s hs
  exact (fresh_unused hf (by omega)).1 ⟨r, hr, hid.trans (of_decide_eq_true he)⟩

theorem FreshSteps.byIndex (h : FreshSteps env now db new) : byIndex new = new := by
  refine List.Pairwise.insertionSort_eq (h.ordered.imp fun hlt => ?_)
  exact Int.le_of_lt (Int64.lt_iff_toInt_lt.mp hlt)

/-- The steps of a run that has just been started are those of its definition. -/
theorem planned_started (hw : WellFormed db) (hf : Fresh db env) (run : WorkflowRow)
    (t : List WorkflowRow) {env' : Env} (hu : env'.uuid = env.uuid) (args : ActivityStep → Json)
    {defs : List ActivityStep} (hn : defs ≠ []) (hl : defs.length ≤ 5)
    (hp : ∀ d ∈ defs, d.retryPolicy ∈ builtInPolicies) :
    planned (env.uuid 0) (started run (newSteps env' (env.uuid 0) args defs)
      { db with workflows := t }) = defs.map definedPlan := by
  have hfresh : FreshSteps env env'.now db (newSteps env' (env.uuid 0) args defs) :=
    freshSteps hf args hn hl hp env' hu
  have hnew : (newSteps env' (env.uuid 0) args defs).filter
      (fun s => s.workflowRunId = env.uuid 0) = newSteps env' (env.uuid 0) args defs :=
    List.filter_eq_self.mpr fun s hs => decide_eq_true (hfresh.ofRun s hs)
  have hrows : (started run (newSteps env' (env.uuid 0) args defs)
      { db with workflows := t }).workflowSteps =
      db.workflowSteps ++ newSteps env' (env.uuid 0) args defs := rfl
  rw [planned, hrows, List.filter_append, steps_none hw hf, hnew, List.nil_append,
    hfresh.byIndex, newSteps, List.map_map]
  calc defs.zipIdx.map (storedPlan ∘ newStep env' (env.uuid 0) args)
      = defs.zipIdx.map (definedPlan ∘ Prod.fst) :=
        List.map_congr_left fun d _ => storedPlan_newStep env' (env.uuid 0) args d
    _ = defs.map definedPlan := by rw [← List.map_map, List.zipIdx_map_fst]

theorem startWorkflow_planned (hw : WellFormed w.db) (hf : Fresh w.db env)
    (req : StartWorkflowRequest) :
    planned (env.uuid 0) ((startWorkflow env req).after w).db =
      (getWorkflowDefinition req.workflowName).map definedPlan := by
  rw [Prog.after, run_startWorkflow hf]
  exact planned_started hw hf _ _ rfl _ (definition_nonempty _) (definition_length _)
    (definition_policies _)

theorem startWorkflowExecution_planned (hw : WellFormed w.db) (hf : Fresh w.db env)
    (crates : Crates) (req : StartWorkflowExecutionRequest) :
    planned (env.uuid 0) ((startWorkflowExecution crates env req).after w).db =
      (getWorkflowDefinition (req.workflowType.getD "")).map definedPlan := by
  rw [Prog.after, run_startWorkflowExecution hf]
  exact planned_started hw hf _ _ rfl _ (definition_nonempty _) (definition_length _)
    (definition_policies _)

/-- A schedule fire that has created a run has created it with the scheduler's definition. -/
theorem processSchedule_planned (hw : WellFormed w.db) (hf : Fresh w.db env) {crates : Crates}
    (hinfo : Scheduler.scheduleInfo scheduleId w.db = .ok info)
    (hfired : ∃ r ∈ ((Scheduler.processSchedule crates env scheduleId).after w).db.workflows,
      r.runId = env.uuid 0) :
    planned (env.uuid 0) ((Scheduler.processSchedule crates env scheduleId).after w).db =
      (scheduleWorkflowDefinition info.actionWorkflowName).map definedPlan := by
  rcases processSchedule_cases hw hf crates scheduleId with ⟨t, ht, he⟩ | ⟨info', t, h, he⟩
  · -- Cancellations alone bring no run with a new id.
    rw [he] at hfired
    obtain ⟨r, hr, hid⟩ := hfired
    have hmem : env.uuid 0 ∈ t.map (·.runId) := List.mem_map.mpr ⟨r, hr, hid⟩
    rw [ht.runIds] at hmem
    obtain ⟨q, hq, hqid⟩ := List.mem_map.mp hmem
    exact absurd ⟨q, hq, hqid⟩ (fresh_unused hf (by omega)).1
  · obtain rfl : info = info' := Except.ok.inj (hinfo.symm.trans h.stored)
    have hu : ((env.part 2).part 1).uuid = env.uuid := rfl
    rw [he]
    exact planned_started hw hf _ t hu _ (schedule_definition_nonempty info.actionWorkflowName)
      (schedule_definition_length _) (schedule_definition_policies _)

/-- These are the steps that a request to start a workflow of this name creates. -/
inductive RequestedBy (crates : Crates) (name : String) : List StepPlan → Prop
  | startWorkflow {w : World} {env : Env} (hw : WellFormed w.db) (hf : Fresh w.db env)
      (req : StartWorkflowRequest) (hname : req.workflowName = name) :
      RequestedBy crates name (planned (env.uuid 0) ((startWorkflow env req).after w).db)
  | startWorkflowExecution {w : World} {env : Env} (hw : WellFormed w.db) (hf : Fresh w.db env)
      (req : StartWorkflowExecutionRequest) (hname : req.workflowType.getD "" = name) :
      RequestedBy crates name
        (planned (env.uuid 0) ((startWorkflowExecution crates env req).after w).db)

/-- These are the steps of the run that a schedule of a workflow of this name creates. -/
inductive FiredBy (crates : Crates) (name : String) : List StepPlan → Prop
  | processSchedule {w : World} {env : Env} (hw : WellFormed w.db) (hf : Fresh w.db env)
      {scheduleId : String} {info : ScheduleRow}
      (hinfo : Scheduler.scheduleInfo scheduleId w.db = .ok info)
      (hname : info.actionWorkflowName = name)
      (hfired : ∃ r ∈ ((Scheduler.processSchedule crates env scheduleId).after w).db.workflows,
        r.runId = env.uuid 0) :
      FiredBy crates name
        (planned (env.uuid 0) ((Scheduler.processSchedule crates env scheduleId).after w).db)

theorem RequestedBy.created (h : RequestedBy crates name steps) :
    steps = (getWorkflowDefinition name).map definedPlan := by
  cases h with
  | startWorkflow hw hf req hname => rw [startWorkflow_planned hw hf, hname]
  | startWorkflowExecution hw hf req hname => rw [startWorkflowExecution_planned hw hf, hname]

theorem FiredBy.created (h : FiredBy crates name steps) :
    steps = (scheduleWorkflowDefinition name).map definedPlan := by
  cases h with
  | processSchedule hw hf hinfo hname hfired =>
    rw [processSchedule_planned hw hf hinfo hfired, hname]

/-- The two copies agree on the spellings of the built-in workflow's name and on no other: there
a request creates one step of that name, and a schedule the pipeline with more time to begin. -/
theorem copies_agree_iff (hu : u.Unicode) (hs : RequestedBy crates name steps)
    (hs' : RequestedBy crates name steps') (hf : FiredBy crates name fired) :
    steps = steps' ∧
      (steps = fired ↔ normalizeIn u name = "cron_job_workflow") ∧
      (normalizeIn u name = "cron_job_workflow" ↔ name ∈ cronJobNames) ∧
      (name ∈ cronJobNames → steps = (cronPipeline 300).map definedPlan) ∧
      (name ∉ cronJobNames → steps = [⟨name, ⟨3, 2⟩, 300, some 60⟩] ∧
        fired = (cronPipeline 600).map definedPlan) := by
  rw [hs.created, hs'.created, hf.created, ← getWorkflowDefinitionIn_eq hu,
    ← scheduleWorkflowDefinitionIn_eq hu, ← normalizeIn_iff hu]
  unfold getWorkflowDefinitionIn scheduleWorkflowDefinitionIn
  by_cases hn : normalizeIn u name = "cron_job_workflow"
  · rw [if_pos hn, if_pos hn]
    exact ⟨rfl, iff_of_true rfl hn, Iff.rfl, fun _ => rfl, fun h => absurd hn h⟩
  · have hlength : [activityStep name 3 2 300 (some 60)].map definedPlan ≠
        (cronPipeline 600).map definedPlan := by
      intro he
      cases congrArg List.length he
    rw [if_neg hn, if_neg hn]
    exact ⟨rfl, iff_of_false hlength hn, Iff.rfl, fun h => absurd h hn, fun _ => ⟨rfl, rfl⟩⟩

/-- Tables with the two capitals that lower into ASCII. -/
def latin : CharTables where
  isUppercase c := c.isUpper || c.val = 0x130 || c.val = 0x212A
  toLowercase c :=
    if c.val = 0x130 then ['i', Char.ofNat 0x307] else if c.val = 0x212A then ['k'] else [c.toLower]

theorem latin_unicode : latin.Unicode where
  ascii := by
    intro c hc
    have hi : c.val ≠ 0x130 := fun he => absurd (he ▸ hc) (by decide)
    have hk : c.val ≠ 0x212A := fun he => absurd (he ▸ hc) (by decide)
    simp [latin, hi, hk]
  beyond := by
    intro c d hc hd hlt
    have hup : ¬ c.isUpper = true := fun h => absurd (ascii_of_isUpper h) (UInt32.not_lt.mpr hc)
    by_cases hi : c.val = 0x130
    · exact ⟨by simp [latin, hi], .inl (by simpa [latin, hi, eq_comm] using hd)⟩
    · by_cases hk : c.val = 0x212A
      · exact ⟨by simp [latin, hk], .inr (by simpa [latin, hk, eq_comm] using hd)⟩
      · have he : c = d := by
          simpa [latin, hi, hk, Char.toLower_eq_of_not_isUpper hup] using hd
        exact absurd (he ▸ hlt) (UInt32.not_lt.mpr hc)

/-- A schedule of a workflow of this name, and nothing else. -/
def onlySchedule (name : String) : World :=
  { World.empty with db := { Db.empty with schedules :=
      [⟨"s", "default", .interval, none, some 60, .skip, name, "default", "", none, ""⟩] } }

theorem onlySchedule_wellFormed (name : String) : WellFormed (onlySchedule name).db :=
  ⟨WellFormed.empty.runs, WellFormed.empty.steps, WellFormed.empty.activities,
    WellFormed.empty.ofRun, WellFormed.empty.ofStep, WellFormed.empty.noRetried⟩

def requestFor (name : String) : StartWorkflowRequest := ⟨name, [], "", "", none, ""⟩

def requestedSteps (name : String) : List StepPlan :=
  planned ((turn 0).uuid 0) ((startWorkflow (turn 0) (requestFor name)).after .empty).db

def firedSteps (name : String) : List StepPlan :=
  planned ((turn 0).uuid 0)
    ((Scheduler.processSchedule plainCrates (turn 0) "s").after (onlySchedule name)).db

theorem requestedSteps_by (name : String) : RequestedBy plainCrates name (requestedSteps name) :=
  .startWorkflow WellFormed.empty (by decide +kernel) (requestFor name) rfl

theorem cronJob_agrees : requestedSteps "CronJobWorkflow" = firedSteps "CronJobWorkflow" :=
  (copies_agree_iff latin_unicode (requestedSteps_by "CronJobWorkflow")
    (requestedSteps_by "CronJobWorkflow") (.processSchedule (onlySchedule_wellFormed _)
      (by decide +kernel) rfl rfl (by decide +kernel))).2.1.mpr (by decide +kernel)

/-- A job of another name is one step when a request starts it, and five when a schedule does. -/
theorem job_differs :
    ¬ ∀ crates name steps fired, RequestedBy crates name steps → FiredBy crates name fired →
      steps = fired := by
  intro h
  have he := h plainCrates "job" _ (firedSteps "job") (requestedSteps_by "job")
    (.processSchedule (onlySchedule_wellFormed _) (by decide +kernel) rfl rfl (by decide +kernel))
  exact absurd (congrArg List.length he) (by decide +kernel)

end Khronos.Proofs
