import Khronos.Server.Operations

namespace Khronos
open Time Lib

/-- A row without the readings of clocks in it: which times it has stays. -/
def WorkflowRow.timeless (r : WorkflowRow) : WorkflowRow :=
  { r with
    startedAt := r.startedAt.map (fun _ => "")
    completedAt := r.completedAt.map (fun _ => "") }

def WorkflowStepRow.timeless (s : WorkflowStepRow) : WorkflowStepRow :=
  { s with nextRetryAt := s.nextRetryAt.map (fun _ => "") }

def ActivityRow.timeless (a : ActivityRow) : ActivityRow :=
  { a with
    startedAt := a.startedAt.map (fun _ => "")
    completedAt := a.completedAt.map (fun _ => "")
    lastHeartbeatAt := a.lastHeartbeatAt.map (fun _ => "") }

def Db.timeless (db : Db) : Db where
  schedules := db.schedules
  workflows := db.workflows.map WorkflowRow.timeless
  workflowSteps := db.workflowSteps.map WorkflowStepRow.timeless
  activities := db.activities.map ActivityRow.timeless

end Khronos

namespace Khronos.Server
open Time Lib Db.Activities Db.Workflows

/-- The operations that are about one run. -/
inductive RunOp where
  | reportActivityResult (req : ReportActivityResultRequest)
  | reportActivityFailure (req : ReportActivityFailureRequest)
  | heartbeat (req : HeartbeatRequest)
  | heartbeatTimeout (activityId : String)
  | cancelWorkflow (req : CancelWorkflowRequest)
  | workflowCreated (runId : String)
  | stepCompleted (workflowRunId : String)

/-- How they fail: with a status for the caller, or with an error for the engine's log. -/
inductive Failure where
  | answered (status : Status)
  | logged (e : DbError)

def perform (crates : Crates) (env : Env) : RunOp → Prog World Failure Bool
  | .reportActivityResult req => (reportActivityResult crates env req).mapError .answered
  | .reportActivityFailure req => (reportActivityFailure env req).mapError .answered
  | .heartbeat req => (heartbeat env req).mapError .answered
  | .heartbeatTimeout activityId => do
    (Engine.handleHeartbeatTimeout env activityId).mapError .logged; return true
  | .cancelWorkflow req => (cancelWorkflow env req).mapError .answered
  | .workflowCreated runId => do
    (Engine.handleWorkflowCreated env runId).mapError .logged; return true
  | .stepCompleted workflowRunId => do
    (Engine.handleStepCompleted env workflowRunId).mapError .logged; return true

/-- The same as an operation of the server. -/
def RunOp.op : RunOp → Op
  | .reportActivityResult req => .reportActivityResult req
  | .reportActivityFailure req => .reportActivityFailure req
  | .heartbeat req => .heartbeat req
  | .heartbeatTimeout activityId => .handle (.heartbeatTimeout activityId)
  | .cancelWorkflow req => .cancelWorkflow req
  | .workflowCreated runId => .handle (.workflowCreated runId)
  | .stepCompleted workflowRunId => .handle (.stepCompleted workflowRunId)

/-- The run of an existing activity. -/
def runOfActivity (activityId : String) (db : Db) : Option String :=
  (activityOf db activityId).bind fun a => (stepOf db a.stepId).map (·.workflowRunId.text)

/-- The run an operation is about. -/
def addressee (db : Db) : RunOp → Option String
  | .reportActivityResult req => runOfActivity req.activityId db
  | .reportActivityFailure req => runOfActivity req.activityId db
  | .heartbeat req => runOfActivity req.activityId db
  | .heartbeatTimeout activityId => runOfActivity activityId db
  | .cancelWorkflow req => some req.workflowRunId
  | .workflowCreated runId => some runId
  | .stepCompleted workflowRunId => some workflowRunId

/-- An activity of a step of a run. -/
def attempted (runId : String) (db : Db) (a : ActivityRow) : Bool :=
  db.workflowSteps.any fun s => Engine.ofRun runId s && s.id = a.stepId

/-- The rows of a run: its own, its steps' and their activities'. -/
def rowsOf (runId : String) (db : Db) : Db where
  schedules := []
  workflows := db.workflows.filter (fun r => runKey r = runId)
  workflowSteps := db.workflowSteps.filter (Engine.ofRun runId)
  activities := db.activities.filter (attempted runId db)

end Khronos.Server
