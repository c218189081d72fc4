import Khronos.Lib.Faults
import Khronos.Proofs.Polls
import Khronos.Server.Replays

namespace Khronos.Proofs
open Time Lib Db.Activities Db.Workflows Server Engine Scheduler

/-- The operations that write more than once. -/
inductive Writer where
  | startWorkflow (req : StartWorkflowRequest)
  | startWorkflowExecution (req : StartWorkflowExecutionRequest)
  | startScheduleWorkflow (info : ScheduleRow)
  | pollActivity (req : PollActivityRequest)
  | pollActivityTaskQueue (req : PollActivityTaskQueueRequest)
  | reportActivityResult (req : ReportActivityResultRequest)
  | reportActivityFailure (req : ReportActivityFailureRequest)
  | respondActivityTaskCompleted (req : RespondActivityTaskCompletedRequest)
  | respondActivityTaskFailed (req : RespondActivityTaskFailedRequest)
  | handleHeartbeatTimeout (activityId : String)

/-- Whether a program succeeds, whatever its value or its error. -/
def ended (p : Prog World ε α) : Prog World Unit Unit := do
  let _ ← p.mapError (fun _ => ())
  return ()

def Writer.program (crates : Crates) (env : Env) : Writer → Prog World Unit Unit
  | .startWorkflow req => ended (Server.startWorkflow env req)
  | .startWorkflowExecution req => ended (Server.startWorkflowExecution crates env req)
  | .startScheduleWorkflow info => ended (Scheduler.startScheduleWorkflow crates env info)
  | .pollActivity req => ended (Server.pollActivity env req)
  | .pollActivityTaskQueue req => ended (Server.pollActivityTaskQueue crates env req)
  | .reportActivityResult req => ended (Server.reportActivityResult crates env req)
  | .reportActivityFailure req => ended (Server.reportActivityFailure env req)
  | .respondActivityTaskCompleted req => ended (Server.respondActivityTaskCompleted crates env req)
  | .respondActivityTaskFailed req => ended (Server.respondActivityTaskFailed crates env req)
  | .handleHeartbeatTimeout activityId => ended (Engine.handleHeartbeatTimeout env activityId)

/-- The queries of a scan for a queue. -/
def scanned (taskQueue : String) (db : Db) : List WorkflowStepInstance → Nat
  | [] => 0
  | step :: steps =>
    if unwrapOr "" (runTaskQueue step.workflowRunId.text db) = taskQueue then 1
    else scanned taskQueue db steps + 1

/-- The statements of an operation before its first write. -/
def Writer.reads (env : Env) (db : Db) : Writer → Nat
  | .startWorkflow _ => 0
  | .startWorkflowExecution _ => 0
  | .startScheduleWorkflow _ => 0
  | .pollActivity _ => 1
  | .pollActivityTaskQueue req => match pendingSteps (env.now 0) db with
    | .ok steps => scanned (req.taskQueue.getD "") db steps + 1
    | .error _ => 1
  | .reportActivityResult _ => 0
  | .reportActivityFailure _ => 2
  | .respondActivityTaskCompleted _ => 0
  | .respondActivityTaskFailed _ => 2
  | .handleHeartbeatTimeout _ => 3

theorem ended_orderly {p : Prog World ε α} (h : p.Orderly w) : (ended p).Orderly w :=
  (h.mapError _).return _

theorem ended_idle {p : Prog World ε α} (h : p.Idle n w) : (ended p).Idle n w := by
  intro k hk
  unfold ended
  rw [Prog.upto_bind_pure, Prog.upto_mapError]
  exact h k hk

theorem strict_query (f : Db → Except DbError α) : (query f).Strict := .query _ _

theorem strict_execute (f : Db → Except DbError (α × Db)) : (execute f).Strict := .execute _ _

theorem strict_send (e : EngineEvent) : (send e : Prog World ε Unit).Strict := .modify _

theorem strict_updateActivityState (now : Clock) (id : String) (state : ActivityState)
    (result : Option Json) (message : Option String) :
    (updateActivityState now id state result message).Strict := strict_execute _

theorem strict_updateStepState (stepId : String) (state : WorkflowState)
    (attempt : Option UInt32) (result : Option Json) (next : Option DateTime) :
    (updateStepState stepId state attempt result next).Strict := strict_execute _

theorem strict_insertSteps (env : Env) (runId : Uuid) (argsJson : ActivityStep → Json)
    (failed : Nat → DbError → ε) (steps : List ActivityStep) :
    (insertSteps env runId argsJson failed steps).Strict :=
  .forEach (fun _ _ => (strict_execute _).mapError _)

theorem strict_startWorkflow (env : Env) (req : StartWorkflowRequest) :
    (Server.startWorkflow env req).Strict := by
  refine .bind ((strict_execute _).mapError _) (fun _ => ?_)
  refine .bind (strict_insertSteps _ _ _ _ _) (fun _ => ?_)
  exact .bind (strict_send _) (fun _ => .done _)

theorem strict_startWorkflowExecution (crates : Crates) (env : Env)
    (req : StartWorkflowExecutionRequest) :
    (Server.startWorkflowExecution crates env req).Strict := by
  refine .bind ((strict_execute _).mapError _) (fun _ => ?_)
  exact .bind (strict_insertSteps _ _ _ _ _) (fun _ => .done _)

theorem strict_startScheduleWorkflow (crates : Crates) (env : Env) (info : ScheduleRow) :
    (Scheduler.startScheduleWorkflow crates env info).Strict := by
  refine .bind (strict_execute _) (fun _ => ?_)
  exact .bind (strict_insertSteps _ _ _ _ _) (fun _ => strict_send _)

theorem strict_reportResult (env : Env) (activityId : String) (json : Json) (findRun : String) :
    (reportResult env activityId json findRun).Strict := by
  refine .bind ((strict_updateActivityState _ _ _ _ _).mapError _) (fun _ => ?_)
  refine .bind ((strict_query _).mapError _) (fun _ => ?_)
  refine .bind ((strict_updateStepState _ _ _ _ _).mapError _) (fun _ => ?_)
  exact .bind ((strict_query _).mapError _) (fun _ => strict_send _)

theorem strict_reportActivityResult (crates : Crates) (env : Env)
    (req : ReportActivityResultRequest) : (Server.reportActivityResult crates env req).Strict := by
  unfold Server.reportActivityResult
  cases parsedResult crates req.resultJson with
  | error status => exact .done _
  | ok json => exact .bind (strict_reportResult _ _ _ _) (fun _ => .done _)

theorem strict_reportFailure {exhausted : Uuid → Prog World Status Unit}
    (h : ∀ stepId, (exhausted stepId).Strict) (env : Env) (activityId message : String) :
    (reportFailure env activityId message exhausted).Strict := by
  refine .bind ((strict_query _).mapError _) (fun found => ?_)
  refine .bind ((strict_query _).mapError _) (fun policy => ?_)
  refine .bind ((strict_updateActivityState _ _ _ _ _).mapError _) (fun _ => ?_)
  dsimp only
  split
  · split
    · exact .done _
    · exact (strict_updateStepState _ _ _ _ _).mapError _
  · exact .bind ((strict_updateStepState _ _ _ _ _).mapError _) (fun _ => h _)

theorem strict_notifyRun (stepId : Uuid) : (notifyRun stepId).Strict :=
  .bind ((strict_query _).mapError _) (fun _ => strict_send _)

theorem strict_processSingleWorkflow (env : Env) (runId : String) :
    (processSingleWorkflow env runId).Strict := by
  refine .bind (strict_execute _) (fun _ => ?_)
  refine .bind (strict_query _) (fun next => ?_)
  cases next with
  | some index =>
    exact .bind (strict_query _) (fun _ => .bind (strict_query _) (fun _ => .done _))
  | none =>
    refine .bind (strict_query _) (fun totals => ?_)
    split
    · exact strict_execute _
    · exact .done _

/-- The last of the three writes of a poll may fail unnoticed. -/
theorem orderly_handOut (env : Env) (step : WorkflowStepInstance) (w : World) :
    (handOut env step).Orderly w := by
  refine .bind ((strict_updateStepState _ _ _ _ _).mapError _) (fun _ t _ => ?_)
  refine .bind ((strict_execute _).mapError _) (fun _ u _ => ?_)
  exact .sql (.done _ _) (.inr (fun e he => nomatch he))

theorem orderly_pollActivity (env : Env) (req : PollActivityRequest) (w : World) :
    (Server.pollActivity env req).Orderly w := by
  refine .bind ((strict_query _).mapError _) (fun steps t _ => ?_)
  split
  · exact (orderly_handOut env _ t).return _
  · exact .done _ _

theorem run_query_ok {f : Db → Except DbError α} {h : DbError → ε}
    (hr : ((query f).mapError h).run w = (.ok a, t)) : f w.db = .ok a ∧ t = w := by
  rw [Prog.run_mapError, run_query] at hr
  cases hf : f w.db with
  | ok b =>
    rw [hf] at hr
    cases hr
    exact ⟨rfl, rfl⟩
  | error e =>
    rw [hf] at hr
    cases hr

/-- A scan passes over the queues it cannot read. -/
theorem orderly_scanQueue {taskQueue : String} {steps : List WorkflowStepInstance}
    {g : Option WorkflowStepInstance → Prog World ε α}
    (hg : ∀ x, (∀ y ∈ x, y ∈ steps) → (g x).Orderly w)
    (hn : ∀ x, (∀ y ∈ x, y ∈ steps) → ∀ e, ((g x).run w).1 ≠ .error e) :
    (scanQueue taskQueue steps >>= g).Orderly w := by
  induction steps with
  | nil => exact hg none (by simp)
  | cons step steps ih =>
    have hrest : ∀ x : Option WorkflowStepInstance, (∀ y ∈ x, y ∈ steps) →
        ∀ y ∈ x, y ∈ step :: steps := fun x hx y hy => List.mem_cons_of_mem _ (hx y hy)
    rw [scanQueue, Prog.bind_assoc]
    refine .attempt_query ?_ ?_
    · split
      · exact hg (some step) (by simp)
      · exact ih (fun x hx => hg x (hrest x hx)) (fun x hx => hn x (hrest x hx))
    · intro e
      split
      · exact hn (some step) (by simp) e
      · rw [Prog.run_bind, run_scanQueue, Prog.resume_ok]
        exact hn _ (hrest _ (fun y hy => List.mem_of_find?_eq_some hy)) e

/-- What is made of a query that may fail is no failure. -/
theorem attempt_calm (f : Db → Except DbError α) (g : Except DbError α → β) (w : World) :
    (((query f).attempt >>= fun q => pure (g q) : Prog World ε β).run w).1 ≠ .error e := by
  rw [Prog.run_bind, Prog.run_attempt, run_query]
  cases f w.db <;> nofun

theorem orderly_pollActivityTaskQueue (hf : Fresh w.db env) (crates : Crates)
    (req : PollActivityTaskQueueRequest) :
    (Server.pollActivityTaskQueue crates env req).Orderly w := by
  refine .bind ((strict_query _).mapError _) (fun steps t ht => ?_)
  obtain ⟨hsteps, rfl⟩ := run_query_ok ht
  apply orderly_scanQueue
  · intro x _
    cases x with
    | none => exact .done _ _
    | some step =>
      refine (orderly_handOut env step t).bind_calm (fun _ u _ => ?_) (fun _ u e => ?_)
      · exact .attempt_query (.done _ _) (fun _ => nofun)
      · exact attempt_calm _ _ u
  · intro x hx e
    cases x with
    | none => nofun
    | some step =>
      obtain ⟨s, hs, hd⟩ := pendingSteps_origin hsteps (hx step rfl)
      dsimp only
      rw [Prog.run_bind, run_handOut hf hs (rowToStep_decodes hd), Prog.resume_ok]
      exact attempt_calm _ _ _

/-- What a heartbeat timeout does with a running activity. -/
def expire (env : Env) (activityId : String) (stepId : Uuid) (retryPolicy : RetryPolicy)
    (attempt : UInt32) : Prog World DbError Unit := do
  updateActivityState (env.now 1) activityId .failed none (some "Heartbeat timeout")
  if attempt < retryPolicy.maximumAttempts then
    match retryTime (env.now 0) retryPolicy (predecessor attempt) with
    | none => Prog.panic
    | some nextRetryAt =>
      updateStepState stepId.text .pending (some attempt) none (some nextRetryAt)
      arm (env.now 2) nextRetryAt (.retryDue stepId.text)
  else
    updateStepState stepId.text .failed (some attempt) none none
    let workflowRunId ← query (stepRunId stepId.text)
    processSingleWorkflow (env.part 3) workflowRunId.text

theorem strict_expire (env : Env) (activityId : String) (stepId : Uuid)
    (retryPolicy : RetryPolicy) (attempt : UInt32) :
    (expire env activityId stepId retryPolicy attempt).Strict := by
  refine .bind (strict_updateActivityState _ _ _ _ _) (fun _ => ?_)
  split
  · split
    · exact .done _
    · exact .bind (strict_updateStepState _ _ _ _ _) (fun _ => .modify _)
  · refine .bind (strict_updateStepState _ _ _ _ _) (fun _ => ?_)
    exact .bind (strict_query _) (fun _ => strict_processSingleWorkflow _ _)

theorem expire_calm (hs : stepOf w.db stepId = some s) (env : Env) (activityId : String)
    (retryPolicy : RetryPolicy) (attempt : UInt32) :
    ((expire env activityId stepId retryPolicy attempt).run w).1 ≠ .error e := by
  unfold expire
  rw [Prog.run_bind, run_updateActivityState .failed .failed rfl, Prog.resume_ok]
  split
  · split
    · nofun
    · rw [Prog.run_bind, run_updateStepState .pending .pending rfl, Prog.resume_ok]
      nofun
  · have hs' : stepOf (onActivity activityId
        (setActivity .failed (env.now 1) none (some "Heartbeat timeout")) w.db) stepId = some s := hs
    have hrun := stepRunId_known (stepOf_onStep hs'
      (fun r => (setStep_fixed .failed (some attempt) none none r).id))
    rw [Prog.run_bind, run_updateStepState .failed .failed rfl, Prog.resume_ok, Prog.run_bind,
      run_query, Option.map_none, hrun]
    dsimp only [Outcome.ofExcept]
    rw [Prog.resume_ok, run_processSingleWorkflow]
    nofun

/-- What the schema promises of an activity. -/
def ActivitiesHaveSteps (db : Db) : Prop :=
  ∀ a ∈ db.activities, ∃ s ∈ db.workflowSteps, s.id = a.stepId

theorem ActivitiesHaveSteps.found (h : ActivitiesHaveSteps db)
    (hstatus : activityStatus activityId db = .ok (state, stepId)) :
    ∃ s, stepOf db stepId = some s := by
  rw [activityStatus, queryRow_filter] at hstatus
  cases ha : db.activities.find? (fun r => activityKey r = activityId) with
  | none =>
    rw [ha] at hstatus
    cases hstatus
  | some a =>
    rw [ha] at hstatus
    cases hstatus
    obtain ⟨s, hs, he⟩ := h a (List.mem_of_find?_eq_some ha)
    exact Option.isSome_iff_exists.mp (List.find?_isSome.mpr ⟨s, hs, by simp [he]⟩)

theorem orderly_handleHeartbeatTimeout (h : ActivitiesHaveSteps w.db) (env : Env)
    (activityId : String) : (Engine.handleHeartbeatTimeout env activityId).Orderly w := by
  refine .bind (strict_query _) (fun found t ht => ?_)
  rw [run_query] at ht
  cases hstatus : activityStatus activityId w.db with
  | error e =>
    rw [hstatus] at ht
    cases ht
  | ok status =>
    rw [hstatus] at ht
    cases ht
    obtain ⟨s, hs⟩ := h.found hstatus
    dsimp only
    split
    · refine .attempt_query (.attempt_query ?_ ?_) ?_
      · exact (strict_expire _ _ _ _ _).orderly w
      · exact fun e => expire_calm hs _ _ _ _
      · intro e
        rw [Prog.run_bind, Prog.run_attempt, run_query]
        cases currentAttempt activityId w.db with
        | ok n => exact expire_calm hs _ _ _ _
        | error e' => exact expire_calm hs _ _ _ _
    · exact .done _ _

theorem orderly_writer (crates : Crates) (hf : Fresh w.db env) (h : ActivitiesHaveSteps w.db)
    (op : Writer) : (op.program crates env).Orderly w := by
  cases op with
  | startWorkflow req => exact ended_orderly ((strict_startWorkflow env req).orderly w)
  | startWorkflowExecution req =>
    exact ended_orderly ((strict_startWorkflowExecution crates env req).orderly w)
  | startScheduleWorkflow info =>
    exact ended_orderly ((strict_startScheduleWorkflow crates env info).orderly w)
  | pollActivity req => exact ended_orderly (orderly_pollActivity env req w)
  | pollActivityTaskQueue req => exact ended_orderly (orderly_pollActivityTaskQueue hf crates req)
  | reportActivityResult req =>
    exact ended_orderly ((strict_reportActivityResult crates env req).orderly w)
  | reportActivityFailure req =>
    have hstrict : (reportFailure env req.activityId req.errorMessage (fun _ => pure ())).Strict :=
      strict_reportFailure (fun _ => .done _) _ _ _
    exact ended_orderly ((hstrict.orderly w).return _)
  | respondActivityTaskCompleted req =>
    exact ended_orderly ((strict_reportResult _ _ _ _).orderly w)
  | respondActivityTaskFailed req =>
    exact ended_orderly ((strict_reportFailure strict_notifyRun _ _ _).orderly w)
  | handleHeartbeatTimeout activityId =>
    exact ended_orderly (orderly_handleHeartbeatTimeout h env activityId)

theorem idle_scanQueue {taskQueue : String} {steps : List WorkflowStepInstance}
    {g : Option WorkflowStepInstance → Prog World ε α} (hg : ∀ x, (g x).Idle 0 w) :
    (scanQueue taskQueue steps >>= g).Idle (scanned taskQueue w.db steps) w := by
  induction steps with
  | nil => exact hg none
  | cons step steps ih =>
    rw [scanQueue, Prog.bind_assoc]
    unfold scanned
    by_cases hq : unwrapOr "" (runTaskQueue step.workflowRunId.text w.db) = taskQueue
    · rw [if_pos hq]
      refine .query_attempt ?_
      rw [if_pos hq]
      exact hg (some step)
    · rw [if_neg hq]
      refine .query_attempt ?_
      rw [if_neg hq]
      exact ih

theorem idle_reportFailure (env : Env) (activityId message : String)
    (exhausted : Uuid → Prog World Status Unit) :
    (reportFailure env activityId message exhausted).Idle 2 w :=
  .query_mapError _ (fun _ _ => .query_mapError _ (fun _ _ => .first _ _ _ _))

theorem idle_pollActivityTaskQueue (crates : Crates) (env : Env)
    (req : PollActivityTaskQueueRequest) (w : World) :
    (Server.pollActivityTaskQueue crates env req).Idle
      ((Writer.pollActivityTaskQueue req).reads env w.db) w := by
  cases hp : pendingSteps (env.now 0) w.db with
  | error e =>
    have hreads : (Writer.pollActivityTaskQueue req).reads env w.db = 1 := by
      simp only [Writer.reads, hp]
    rw [hreads]
    refine .query_mapError _ (fun steps hs => ?_)
    rw [hp] at hs
    cases hs
  | ok steps =>
    have hreads : (Writer.pollActivityTaskQueue req).reads env w.db =
        scanned (req.taskQueue.getD "") w.db steps + 1 := by
      simp only [Writer.reads, hp]
    rw [hreads]
    refine .query_mapError _ (fun steps' hs => ?_)
    rw [hp] at hs
    cases hs
    apply idle_scanQueue
    intro x
    cases x with
    | none => exact .done _ _ _
    | some step => exact .first _ _ _ _

theorem idle_writer (crates : Crates) (env : Env) (op : Writer) (w : World) :
    (op.program crates env).Idle (op.reads env w.db) w := by
  cases op with
  | startWorkflow req => exact ended_idle (.first _ _ _ _)
  | startWorkflowExecution req => exact ended_idle (.first _ _ _ _)
  | startScheduleWorkflow info => exact ended_idle (.first _ _ _ _)
  | pollActivity req =>
    refine ended_idle (.query_mapError _ (fun steps _ => ?_))
    split
    · exact .first _ _ _ _
    · exact .done _ _ _
  | pollActivityTaskQueue req => exact ended_idle (idle_pollActivityTaskQueue crates env req w)
  | reportActivityResult req =>
    apply ended_idle
    unfold Server.reportActivityResult
    cases parsedResult crates req.resultJson with
    | error status => exact .done _ _ _
    | ok json => exact .first _ _ _ _
  | reportActivityFailure req =>
    apply ended_idle
    intro k hk
    unfold Server.reportActivityFailure
    rw [Prog.upto_bind_pure]
    exact idle_reportFailure _ _ _ _ k hk
  | respondActivityTaskCompleted req => exact ended_idle (.first _ _ _ _)
  | respondActivityTaskFailed req => exact ended_idle (idle_reportFailure _ _ _ _)
  | handleHeartbeatTimeout activityId =>
    refine ended_idle (.query (fun status _ => ?_))
    dsimp only
    split
    · exact .query_attempt (.query_attempt (.first _ _ _ _))
    · exact .done _ _ _

/-- Where an operation fails because storage refuses a statement, the database is what the
statements before have made of it, and as before where none of them writes. -/
theorem fault_leaves_prefix (crates : Crates) {env : Env} {w : World} (hf : Fresh w.db env)
    (h : ActivitiesHaveSteps w.db) (op : Writer) {k : Nat} {w' : World}
    (hk : (op.program crates env).faulted k w = (.error (), w')) :
    w' = (op.program crates env).upto k w ∧ (k ≤ op.reads env w.db → w' = w) := by
  have hw' := (orderly_writer crates hf h op).halts hk
  exact ⟨hw', fun hle => hw'.trans (idle_writer crates env op w k hle)⟩

/-- A run is started, and storage refuses the statement after the first. -/
def startInterrupted : Outcome Unit Unit × World :=
  ((Writer.startWorkflow ⟨"x", [], "", "", none, ""⟩).program plainCrates (turn 0)).faulted 1 .empty

theorem startInterrupted_prefix :
    startInterrupted.2 = ((Writer.startWorkflow ⟨"x", [], "", "", none, ""⟩).program plainCrates
      (turn 0)).upto 1 .empty := by
  have hsteps : ActivitiesHaveSteps World.empty.db := by
    simp [ActivitiesHaveSteps, World.empty, Db.empty]
  have hk : ((Writer.startWorkflow ⟨"x", [], "", "", none, ""⟩).program plainCrates
      (turn 0)).faulted 1 .empty = (.error (), startInterrupted.2) := rfl
  have h := fault_leaves_prefix plainCrates (by decide) hsteps _ hk
  exact h.1

/-- The run stays, with none of its steps. -/
theorem fault_leaves_run :
    ¬ ∀ crates env w (op : Writer) k w', Fresh w.db env → ActivitiesHaveSteps w.db →
      (op.program crates env).faulted k w = (.error (), w') → w'.db = w.db := by
  intro h
  have hdb := h plainCrates (turn 0) .empty (.startWorkflow ⟨"x", [], "", "", none, ""⟩) 1
    startInterrupted.2 (by decide) (by simp [ActivitiesHaveSteps, World.empty, Db.empty]) rfl
  exact absurd (congrArg (fun db => db.workflows.length) hdb) (by decide)

end Khronos.Proofs
