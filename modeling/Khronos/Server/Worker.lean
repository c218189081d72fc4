import Khronos.Db.Activities
import Khronos.Db.Workflows

namespace Khronos.Server
open Time Lib Db.Activities Db.Workflows

structure PollActivityRequest where
  taskQueue : String
  activityTypes : List String

structure ActivityTask where
  activityId : String
  stepId : String
  workflowRunId : String
  name : String
  args : List (String × String)
  retryPolicy : RetryPolicy
  heartbeatTimeoutSecs : UInt64
  startToCloseTimeoutSecs : UInt64

structure PollActivityResponse where
  task : Option ActivityTask
  hasTask : Bool

/-- The string entries of a JSON object; any other value has none. -/
def stringArgs : Json → List (String × String)
  | .object entries => entries.filterMap fun
    | (k, .string s) => some (k, s)
    | _ => none
  | _ => []

/-- What both polls do with the step they choose: the step becomes running, a running
activity is recorded for it, and its run is written `running` whatever it was before. -/
def handOut (env : Env) (step : WorkflowStepInstance) : Prog World Status Uuid := do
  let activityId := env.uuid 0
  let newAttempt := step.attempt + 1
  (updateStepState step.id.text .running (some newAttempt) none none).mapError
    (Status.internal "Failed to update step state")
  (insertActivityAttempt (env.now 1) activityId step.id newAttempt).mapError
    (Status.internal "Failed to insert activity")
  -- `.ok()`: the poll goes on if this write fails.
  let _ ← (updateWorkflowState step.workflowRunId.text .running none
    (some (env.now 2).time)).attempt
  return activityId

def activityTask (activityId : Uuid) (step : WorkflowStepInstance) : ActivityTask where
  activityId := activityId.text
  stepId := step.id.text
  workflowRunId := step.workflowRunId.text
  name := step.activityName
  args := stringArgs step.argsJson
  retryPolicy := step.retryPolicy
  heartbeatTimeoutSecs := step.heartbeatTimeoutSecs.getD 30
  startToCloseTimeoutSecs := step.timeoutSecs

/-- The types a poll asks for; its `task_queue` is not looked at. -/
def asksFor (req : PollActivityRequest) (step : WorkflowStepInstance) : Bool :=
  req.activityTypes.contains step.activityName

/-- `poll_activity`: the loop returns at the first step of a requested type. -/
def pollActivity (env : Env) (req : PollActivityRequest) :
    Prog World Status PollActivityResponse := do
  let pendingSteps ← (getPendingSteps (env.now 0)).mapError
    (Status.internal "Failed to get pending steps")
  match pendingSteps.find? (asksFor req) with
  | some step =>
    let activityId ← handOut env step
    return ⟨some (activityTask activityId step), true⟩
  | none => return ⟨none, false⟩

structure ReportActivityResultRequest where
  activityId : String
  resultJson : String

/-- The step an activity belongs to. -/
def activityStepId (activityId : String) (db : Db) : Except DbError Uuid :=
  queryRow ((db.activities.filter (fun r => activityKey r = activityId)).map (·.stepId))

/-- The run a step belongs to. -/
def stepRunId (stepId : String) (db : Db) : Except DbError Uuid :=
  queryRow ((db.workflowSteps.filter (fun r => stepKey r = stepId)).map (·.workflowRunId))

/-- What both result reports do once they have the result: neither the activity's state nor
the step's is looked at. -/
def reportResult (env : Env) (activityId : String) (resultJson : Json) (findRun : String) :
    Prog World Status Unit := do
  (updateActivityState (env.now 0) activityId .completed (some resultJson) none).mapError
    (Status.internal "Failed to update activity")
  let stepId ← (query (activityStepId activityId)).mapError
    (Status.internal "Failed to find activity")
  (updateStepState stepId.text .completed none (some resultJson) none).mapError
    (Status.internal "Failed to update step")
  let workflowRunId ← (query (stepRunId stepId.text)).mapError (Status.internal findRun)
  send (.stepCompleted workflowRunId.text)

/-- The result a native report carries: an empty text stands for `{}`. -/
def parsedResult (crates : Crates) (text : String) : Except Status Json :=
  if text.isEmpty then .ok .empty
  else match crates.jsonFromStr text with
    | some v => .ok v
    | none => .error ⟨.invalidArgument, "Invalid result JSON"⟩

def reportActivityResult (crates : Crates) (env : Env) (req : ReportActivityResultRequest) :
    Prog World Status Bool := do
  match parsedResult crates req.resultJson with
  | .error status => Prog.raise status
  | .ok resultJson =>
    reportResult env req.activityId resultJson "Failed to find step"
    return true

structure ReportActivityFailureRequest where
  activityId : String
  errorMessage : String

/-- The step and the attempt number of an activity. -/
def activityAttempt (activityId : String) (db : Db) : Except DbError (Uuid × UInt32) :=
  queryRow ((db.activities.filter (fun r => activityKey r = activityId)).map
    (fun r => (r.stepId, r.attempt)))

def stepRetryPolicy (stepId : String) (db : Db) : Except DbError RetryPolicy :=
  queryRow ((db.workflowSteps.filter (fun r => stepKey r = stepId)).map (·.retryPolicyJson))

/-- What both failure reports do. The attempt that counts is one more than the activity's,
and `exhausted` is what follows once a step has failed for good. -/
def reportFailure (env : Env) (activityId errorMessage : String)
    (exhausted : Uuid → Prog World Status Unit) : Prog World Status Unit := do
  let (stepId, attempt) ← (query (activityAttempt activityId)).mapError
    (Status.internal "Failed to find activity")
  let retryPolicy ← (query (stepRetryPolicy stepId.text)).mapError
    (Status.internal "Failed to get retry policy")
  (updateActivityState (env.now 0) activityId .failed none (some errorMessage)).mapError
    (Status.internal "Failed to update activity")
  let currentAttempt := attempt + 1
  if currentAttempt < retryPolicy.maximumAttempts then
    match retryTime (env.now 1) retryPolicy (currentAttempt - 1) with
    | none => Prog.panic
    | some nextRetryAt =>
      (updateStepState stepId.text .pending (some currentAttempt) none (some nextRetryAt)).mapError
        (Status.internal "Failed to schedule retry")
  else
    (updateStepState stepId.text .failed (some currentAttempt) none none).mapError
      (Status.internal "Failed to mark step as failed")
    exhausted stepId

/-- `report_activity_failure` tells the engine nothing when a step has failed for good. -/
def reportActivityFailure (env : Env) (req : ReportActivityFailureRequest) :
    Prog World Status Bool := do
  reportFailure env req.activityId req.errorMessage (fun _ => pure ())
  return true

structure HeartbeatRequest where
  activityId : String

def heartbeat (env : Env) (req : HeartbeatRequest) : Prog World Status Bool := do
  (heartbeatUpdate (env.now 0) req.activityId).mapError
    (Status.internal "Failed to update heartbeat")
  return true

end Khronos.Server
