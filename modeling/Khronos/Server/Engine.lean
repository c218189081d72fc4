import Khronos.Server.Temporal

namespace Khronos.Server.Engine
open Time Lib Db.Activities Db.Workflows

/-- When a timer for an instant goes off: one that has passed goes off a millisecond later. -/
def deadline (now : Clock) (due : DateTime) : DateTime :=
  if now.time.nanos ≤ due.nanos then due else ⟨now.time.nanos + 1000000⟩

/-- Spawn a task that sleeps until a deadline and then sends an event. -/
def arm (now : Clock) (due : DateTime) (event : EngineEvent) : Prog World ε Unit :=
  Prog.modify (fun w => { w with timers := w.timers ++ [⟨deadline now due, event⟩] })

@[simp] theorem run_arm (now : Clock) (due : DateTime) (event : EngineEvent) (w : World) :
    (arm now due event : Prog World ε Unit).run w =
      (.ok (), { w with timers := w.timers ++ [⟨deadline now due, event⟩] }) := rfl

/-- Steps that wait for a worker. -/
def waiting (r : WorkflowStepRow) : Bool := r.state = .pending || r.state = .retried

def ofRun (runId : String) (r : WorkflowStepRow) : Bool := r.workflowRunId.text = runId

def startable (runId : String) (r : WorkflowRow) : Bool := runKey r = runId && r.state = .pending

def startRun (now : Clock) (r : WorkflowRow) : WorkflowRow :=
  { r with state := .running, startedAt := r.startedAt.or (some now.datetime) }

/-- The index of the first waiting step of a run. -/
def nextStep (runId : String) (db : Db) : Option Int64 :=
  ((db.workflowSteps.filter (fun r => ofRun runId r && waiting r)).map (·.stepIndex)).min?

/-- The steps of a run before an index. -/
def previous (runId : String) (index : Int64) (db : Db) : List WorkflowStepRow :=
  db.workflowSteps.filter (fun r => ofRun runId r && decide (r.stepIndex < index))

def totalPrev (runId : String) (index : Int64) (db : Db) : Nat :=
  (previous runId index db).length

def prevCompleted (runId : String) (index : Int64) (db : Db) : Nat :=
  ((previous runId index db).filter (fun r => r.state = .completed)).length

structure StepTotals where
  totalSteps : Nat
  completedCount : Nat
  failedCount : Nat
deriving DecidableEq, Repr

def stepTotals (runId : String) (db : Db) : StepTotals :=
  let steps := db.workflowSteps.filter (ofRun runId)
  { totalSteps := steps.length
    completedCount := (steps.filter (fun r => r.state = .completed)).length
    failedCount := (steps.filter (fun r => r.state = .failed)).length }

/-- What becomes of a run none of whose steps waits. -/
def verdict (totals : StepTotals) : Option WorkflowState :=
  if totals.totalSteps > 0 then
    if totals.failedCount > 0 then some .failed
    else if totals.completedCount = totals.totalSteps then some .completed
    else none
  else none

def processSingleWorkflow (env : Env) (runId : String) : Prog World DbError Unit := do
  execute fun db =>
    let workflows := Table.update (startable runId) (startRun (env.now 0)) db.workflows
    .ok ((), { db with workflows })
  match ← query (fun db => .ok (nextStep runId db)) with
  | some index =>
    -- The order of the steps is computed here, and only logged.
    let _ ← query (fun db => .ok (prevCompleted runId index db))
    let _ ← query (fun db => .ok (totalPrev runId index db))
    return ()
  | none =>
    let totals ← query (fun db => .ok (stepTotals runId db))
    match verdict totals with
    | some state => updateWorkflowState runId state none (some (env.now 1).time)
    | none => return ()

/-- The steps of a run whose retry could be timed. -/
def retriedSteps (runId : String) (db : Db) : List (Uuid × String) :=
  db.workflowSteps.filterMap fun r =>
    if ofRun runId r && r.state = .retried then r.nextRetryAt.map (fun t => (r.id, t)) else none

def scheduleRetryTimersForWorkflow (env : Env) (runId : String) : Prog World DbError Unit := do
  let steps ← query (fun db => .ok (retriedSteps runId db))
  Prog.forEach steps.zipIdx fun ((stepId, nextRetryAt), i) =>
    match DateTime.parseFromStr nextRetryAt "%Y-%m-%d %H:%M:%S" with
    | some retryAt => arm (env.now i) retryAt (.retryDue stepId.text)
    | none => pure ()

/-- The running activities of a run, with the timeout of their step. -/
def runningActivities (runId : String) (db : Db) : List (ActivityRow × Option Int64) :=
  db.activities.flatMap fun a =>
    (db.workflowSteps.filter (fun r => r.id = a.stepId && ofRun runId r && a.state = .running)).map
      (fun r => (a, r.heartbeatTimeoutSecs))

/-- The last sign of life of an activity. -/
def referenceTime (a : ActivityRow) : Option DateTime :=
  (a.lastHeartbeatAt.or a.startedAt).bind
    (fun t => DateTime.parseFromStr t "%Y-%m-%d %H:%M:%S")

def scheduleHeartbeatTimersForWorkflow (env : Env) (runId : String) :
    Prog World DbError Unit := do
  let activities ← query (fun db => .ok (runningActivities runId db))
  Prog.forEach activities.zipIdx fun ((a, timeoutSecs), i) =>
    match timeoutSecs, referenceTime a with
    | some timeout, some refTime =>
      match (Duration.seconds timeout.toInt).bind refTime.add with
      | some due => arm (env.now i) due (.heartbeatTimeout a.id.text)
      | none => Prog.panic
    | _, _ => pure ()

def scheduleTimersForWorkflow (env : Env) (runId : String) : Prog World DbError Unit := do
  scheduleRetryTimersForWorkflow (env.part 0) runId
  scheduleHeartbeatTimersForWorkflow (env.part 1) runId

/-- `handle_workflow_created` and `handle_step_completed` have one body. -/
def advanceRun (env : Env) (runId : String) : Prog World DbError Unit := do
  processSingleWorkflow (env.part 0) runId
  scheduleTimersForWorkflow (env.part 1) runId

def handleWorkflowCreated (env : Env) (runId : String) : Prog World DbError Unit :=
  advanceRun env runId

def handleStepCompleted (env : Env) (runId : String) : Prog World DbError Unit :=
  advanceRun env runId

def stepStatus (stepId : String) (db : Db) : Except DbError (StepState × Uuid) :=
  queryRow ((db.workflowSteps.filter (fun r => stepKey r = stepId)).map
    (fun r => (r.state, r.workflowRunId)))

def resetStep (r : WorkflowStepRow) : WorkflowStepRow :=
  { r with state := .pending, nextRetryAt := none }

def handleRetryDue (env : Env) (stepId : String) : Prog World DbError Unit := do
  let (state, workflowRunId) ← query (stepStatus stepId)
  if state = .retried then
    execute fun db =>
      let workflowSteps := Table.update (fun r => stepKey r = stepId) resetStep db.workflowSteps
      .ok ((), { db with workflowSteps })
    advanceRun env workflowRunId.text

def activityStatus (activityId : String) (db : Db) : Except DbError (AttemptState × Uuid) :=
  queryRow ((db.activities.filter (fun r => activityKey r = activityId)).map
    (fun r => (r.state, r.stepId)))

def currentAttempt (activityId : String) (db : Db) : Except DbError UInt32 :=
  queryRow ((db.activities.filter (fun r => activityKey r = activityId)).map (·.attempt))

/-- `saturating_sub(1)`. -/
def predecessor (n : UInt32) : UInt32 := if n = 0 then 0 else n - 1

/-- Here the attempt that counts is the activity's own, and an activity that is no longer
running is left alone. -/
def handleHeartbeatTimeout (env : Env) (activityId : String) : Prog World DbError Unit := do
  let (state, stepId) ← query (activityStatus activityId)
  if state = .running then
    let policy ← (query (stepRetryPolicy stepId.text)).attempt
    let retryPolicy := unwrapOr RetryPolicy.default policy
    let attempt ← (query (currentAttempt activityId)).attempt
    let attempt := unwrapOr 0 attempt
    updateActivityState (env.now 1) activityId .failed none (some "Heartbeat timeout")
    if attempt < retryPolicy.maximumAttempts then
      match retryTime (env.now 0) retryPolicy (predecessor attempt) with
      | none => Prog.panic
      | some nextRetryAt =>
        updateStepState stepId.text .pending (some attempt) none (some nextRetryAt)
        arm (env.now 2) nextRetryAt (.retryDue stepId.text)
    else
      updateStepState stepId.text .failed (some attempt) none none
      let workflowRunId ← query (stepRunId stepId.text)
      processSingleWorkflow (env.part 3) workflowRunId.text

/-- `started_at <= started_at` as a sort key, where NULL comes first. -/
def startedBy (a b : WorkflowRow) : Bool :=
  match a.startedAt, b.startedAt with
  | none, _ => true
  | some _, none => false
  | some s, some t => textLe s t

/-- `ORDER BY started_at ASC`. Runs that started in one second are processed in table order;
each is processed for itself, so the order of these shows nowhere. -/
def byStart (rows : List WorkflowRow) : List WorkflowRow :=
  rows.insertionSort (fun a b => startedBy a b = true)

def activeRuns (db : Db) : List Uuid := (byStart (db.workflows.filter active)).map (·.runId)

def processWorkflows (env : Env) : Prog World DbError Unit := do
  let runIds ← query (fun db => .ok (activeRuns db))
  Prog.forEach runIds.zipIdx fun (runId, i) => advanceRun (env.part i) runId.text

def handler (env : Env) : EngineEvent → Prog World DbError Unit
  | .workflowCreated runId => handleWorkflowCreated env runId
  | .stepCompleted workflowRunId => handleStepCompleted env workflowRunId
  | .scheduleChange => processWorkflows env
  | .retryDue stepId => handleRetryDue env stepId
  | .heartbeatTimeout activityId => handleHeartbeatTimeout env activityId

/-- The arm of `Engine::run` for one event: an error is logged and forgotten. -/
def handle (env : Env) (event : EngineEvent) : Prog World ε Unit := do
  let _ ← ((handler env event).attempt : Prog World ε (Except DbError Unit))
  return ()

end Khronos.Server.Engine
