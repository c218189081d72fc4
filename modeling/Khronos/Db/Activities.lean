import Khronos.Db.Schema
import Mathlib.Data.List.Sort

namespace Khronos.Db.Activities
open Time Lib

/-- The text a step row is looked up by. -/
def stepKey (r : WorkflowStepRow) : String := r.id.text

/-- The text an activity row is looked up by. -/
def activityKey (r : ActivityRow) : String := r.id.text

/-- The column value of a `WorkflowState`, if the CHECK of `workflow_steps` admits it. -/
def stepState : WorkflowState → Option StepState
  | .pending => some .pending
  | .running => some .running
  | .completed => some .completed
  | .failed => some .failed
  | .cancelled => none

/-- The column value of an `ActivityState`, if the CHECK of `activities` admits it. -/
def attemptState : ActivityState → Option AttemptState
  | .pending => some .pending
  | .running => some .running
  | .completed => some .completed
  | .failed => some .failed
  | .retried => none

/-- `str_to_workflow_state` on a step's column. -/
def strToWorkflowState : StepState → Except DbError WorkflowState
  | .pending => .ok .pending
  | .running => .ok .running
  | .completed => .ok .completed
  | .failed => .ok .failed
  | .retried => .error (.other "Unknown workflow state: retried")

/-- `parse_datetime` of `activities.rs`: formats with an offset first, then naive ones. -/
def parseDatetime (s : String) : Except DbError DateTime :=
  let zoned := ["%Y-%m-%d %H:%M:%S", "%Y-%m-%dT%H:%M:%S%.fZ", "%Y-%m-%dT%H:%M:%SZ",
    "%Y-%m-%dT%H:%M:%S"].findSome? (DateTime.parseFromStr s)
  let naive := ["%Y-%m-%d %H:%M:%S%.f", "%Y-%m-%dT%H:%M:%S%.f"].findSome?
    (NaiveDateTime.parseFromStr s)
  match zoned <|> naive with
  | some d => .ok d
  | none => .error (.other s!"Failed to parse datetime: {s}")

def rowToStep (r : WorkflowStepRow) : Except DbError WorkflowStepInstance := do
  let state ← strToWorkflowState r.state
  let nextRetryAt ← r.nextRetryAt.mapM parseDatetime
  return {
    id := r.id
    workflowRunId := r.workflowRunId
    stepIndex := r.stepIndex.toUInt64
    activityName := r.activityName
    argsJson := r.argsJson
    retryPolicy := r.retryPolicyJson
    timeoutSecs := r.timeoutSecs.toUInt64
    heartbeatTimeoutSecs := r.heartbeatTimeoutSecs.map Int64.toUInt64
    state
    attempt := r.attempt
    resultJson := r.resultJson
    nextRetryAt }

/-- The row `insert_workflow_step` writes at a clock reading. -/
def stepRow (step : WorkflowStepInstance) (state : StepState) (now : Clock) :
    WorkflowStepRow where
  id := step.id
  workflowRunId := step.workflowRunId
  stepIndex := step.stepIndex.toInt64
  activityName := step.activityName
  argsJson := step.argsJson
  retryPolicyJson := step.retryPolicy
  timeoutSecs := step.timeoutSecs.toInt64
  heartbeatTimeoutSecs := step.heartbeatTimeoutSecs.map UInt64.toInt64
  state
  attempt := step.attempt
  resultJson := step.resultJson
  nextRetryAt := step.nextRetryAt.map DateTime.format
  createdAt := now.datetime

def insertWorkflowStep (now : Clock) (step : WorkflowStepInstance) : Prog World DbError Unit :=
  execute fun db =>
    match stepState step.state with
    | none => .error (.check "state IN ('pending', 'running', 'completed', 'failed', 'retried')")
    | some state =>
      if ∃ r ∈ db.workflowSteps, r.id = step.id then .error (.unique "workflow_steps.id")
      else if ∃ w ∈ db.workflows, w.runId = step.workflowRunId then
        .ok ((), { db with workflowSteps := db.workflowSteps ++ [stepRow step state now] })
      else .error .foreignKey

/-- The assignments of `update_step_state`; `COALESCE` keeps the attempt when none is given. -/
def setStep (state : StepState) (attempt : Option UInt32) (resultJson : Option Json)
    (nextRetryAt : Option String) (r : WorkflowStepRow) : WorkflowStepRow :=
  { r with state, attempt := attempt.getD r.attempt, resultJson, nextRetryAt }

def updateStepState (stepId : String) (newState : WorkflowState) (attempt : Option UInt32)
    (resultJson : Option Json) (nextRetryAt : Option DateTime) : Prog World DbError Unit :=
  execute fun db =>
    match stepState newState with
    | some state =>
      let set := setStep state attempt resultJson (nextRetryAt.map DateTime.format)
      let workflowSteps := Table.update (fun r => stepKey r = stepId) set db.workflowSteps
      .ok ((), { db with workflowSteps })
    | none =>
      if ∃ r ∈ db.workflowSteps, stepKey r = stepId then
        .error (.check "state IN ('pending', 'running', 'completed', 'failed', 'retried')")
      else .ok ((), db)

/-- The WHERE clause of `get_pending_steps`; a comparison with NULL selects nothing. -/
def ready (now : Clock) (r : WorkflowStepRow) : Bool :=
  match r.nextRetryAt with
  | none => r.state = .pending
  | some t => (r.state = .pending || r.state = .retried) && textLe t now.datetime

/-- `ORDER BY created_at ASC`: SQLite's sorter keeps rows of one second in table order. -/
def byCreation (rows : List WorkflowStepRow) : List WorkflowStepRow :=
  rows.insertionSort (fun a b => textLe a.createdAt b.createdAt = true)

/-- What `get_pending_steps` reads: one undecodable row makes the whole read fail. -/
def pendingSteps (now : Clock) (db : Db) : Except DbError (List WorkflowStepInstance) :=
  (byCreation (db.workflowSteps.filter (ready now))).mapM rowToStep

def getPendingSteps (now : Clock) : Prog World DbError (List WorkflowStepInstance) :=
  query (pendingSteps now)

/-- The row `insert_activity_attempt` writes. -/
def attemptRow (id stepId : Uuid) (attempt : UInt32) (now : Clock) : ActivityRow where
  id
  stepId
  attempt
  state := .running
  startedAt := some now.datetime
  completedAt := none
  lastHeartbeatAt := none
  resultJson := none
  errorMessage := none

def insertActivityAttempt (now : Clock) (id stepId : Uuid) (attempt : UInt32) :
    Prog World DbError Unit :=
  execute fun db =>
    if ∃ r ∈ db.activities, r.id = id then .error (.unique "activities.id")
    else if ∃ r ∈ db.workflowSteps, r.id = stepId then
      .ok ((), { db with activities := db.activities ++ [attemptRow id stepId attempt now] })
    else .error .foreignKey

/-- The assignments of `update_activity_state`. -/
def setActivity (state : AttemptState) (now : Clock) (resultJson : Option Json)
    (errorMessage : Option String) (r : ActivityRow) : ActivityRow :=
  { r with state, completedAt := some now.datetime, resultJson, errorMessage }

def updateActivityState (now : Clock) (id : String) (newState : ActivityState)
    (resultJson : Option Json) (errorMessage : Option String) : Prog World DbError Unit :=
  execute fun db =>
    match attemptState newState with
    | some state =>
      let set := setActivity state now resultJson errorMessage
      let activities := Table.update (fun r => activityKey r = id) set db.activities
      .ok ((), { db with activities })
    | none =>
      if ∃ r ∈ db.activities, activityKey r = id then
        .error (.check "state IN ('pending', 'running', 'completed', 'failed')")
      else .ok ((), db)

/-- The rows a heartbeat is recorded on. -/
def beats (id : String) (r : ActivityRow) : Bool := activityKey r = id && r.state = .running

def beat (now : Clock) (r : ActivityRow) : ActivityRow :=
  { r with lastHeartbeatAt := some now.datetime }

def heartbeatUpdate (now : Clock) (id : String) : Prog World DbError Unit := do
  let rows ← execute fun db =>
    let activities := Table.update (beats id) (beat now) db.activities
    .ok ((db.activities.filter (beats id)).length, { db with activities })
  if rows = 0 then
    Prog.raise (.other "Activity not found or not in running state")

end Khronos.Db.Activities
