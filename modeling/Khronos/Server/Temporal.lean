import Khronos.Server.Workflows
import Khronos.Server.Worker

namespace Khronos.Server
open Time Lib Db.Activities Db.Workflows

/-- `String::from_utf8_lossy`. -/
def fromUtf8Lossy (crates : Crates) (bytes : List UInt8) : String :=
  match String.fromUTF8? ⟨bytes.toArray⟩ with
  | some s => s
  | none => crates.utf8Replacing bytes

def intoBytes (s : String) : List UInt8 := s.toUTF8.data.toList

structure Payload where
  metadata : List (String × List UInt8)
  data : List UInt8

/-- The fields of a `StartWorkflowExecutionRequest` that the server reads; a timeout is the
seconds of its `Duration`. -/
structure StartWorkflowExecutionRequest where
  nameSpace : String
  workflowId : String
  workflowType : Option String
  taskQueue : Option String
  input : Option (List Payload)
  workflowExecutionTimeout : Option Int64
  workflowRunTimeout : Option Int64
  workflowTaskTimeout : Option Int64

structure StartWorkflowExecutionResponse where
  runId : String
  started : Bool

def payloadArgs (crates : Crates) : Option (List Payload) → Json
  | some (p :: ps) => .array ((p :: ps).map fun p => .string (fromUtf8Lossy crates p.data))
  | _ => .empty

def executionInstance (crates : Crates) (env : Env) (req : StartWorkflowExecutionRequest) :
    WorkflowInstance where
  runId := env.uuid 0
  workflowId := req.workflowId
  name := req.workflowType.getD ""
  taskQueue := req.taskQueue.getD "default"
  state := .pending
  argsJson := payloadArgs crates req.input
  resultJson := none
  timeouts := ⟨req.workflowExecutionTimeout.map Int64.toUInt64,
    req.workflowRunTimeout.map Int64.toUInt64, req.workflowTaskTimeout.map Int64.toUInt64⟩
  startedAt := none
  completedAt := none
  nameSpace := orDefault req.nameSpace

/-- `start_workflow_execution` sends no event. -/
def startWorkflowExecution (crates : Crates) (env : Env) (req : StartWorkflowExecutionRequest) :
    Prog World Status StartWorkflowExecutionResponse := do
  let workflow := executionInstance crates env req
  (insertWorkflow workflow).mapError (Status.internal "Failed to create workflow")
  insertSteps env workflow.runId (fun _ => workflow.argsJson) createStepFailed
    (getWorkflowDefinition workflow.name)
  return ⟨workflow.runId.text, true⟩

structure PollActivityTaskQueueRequest where
  taskQueue : Option String

/-- A `PollActivityTaskQueueResponse`; durations are in seconds. -/
structure PollActivityTaskQueueResponse where
  taskToken : List UInt8
  workflowNamespace : String
  workflowExecution : Option (String × String)
  activityId : String
  activityType : Option String
  input : Option (List Payload)
  heartbeatTimeout : Option Int64
  scheduleToCloseTimeout : Option Int64
  startToCloseTimeout : Option Int64

/-- `..Default::default()`. -/
def PollActivityTaskQueueResponse.default : PollActivityTaskQueueResponse :=
  ⟨[], "", none, "", none, none, none, none, none⟩

/-- `SELECT task_queue FROM workflows WHERE run_id = ?1`. -/
def runTaskQueue (runId : String) (db : Db) : Except DbError String :=
  queryRow ((db.workflows.filter (fun r => runKey r = runId)).map (·.taskQueue))

def runNamespace (runId : String) (db : Db) : Except DbError String :=
  queryRow ((db.workflows.filter (fun r => runKey r = runId)).map (·.nameSpace))

/-- `unwrap_or`. -/
def unwrapOr (default : α) : Except ε α → α
  | .ok a => a
  | .error _ => default

@[simp] theorem unwrapOr_ok (default a : α) : unwrapOr default (.ok a : Except ε α) = a := rfl

@[simp] theorem unwrapOr_error (default : α) (e : ε) :
    unwrapOr default (.error e : Except ε α) = default := rfl

/-- The scan of `poll_activity_task_queue`: each step costs a query for its run's queue. -/
def scanQueue (taskQueue : String) :
    List WorkflowStepInstance → Prog World ε (Option WorkflowStepInstance)
  | [] => pure none
  | step :: steps => do
    let wfQueue ← (query (runTaskQueue step.workflowRunId.text)).attempt
    if unwrapOr "" wfQueue = taskQueue then
      return some step
    else
      scanQueue taskQueue steps

/-- Only a non-empty JSON string becomes a payload. -/
def taskPayloads (crates : Crates) : Json → List Payload
  | .string jobId =>
    if jobId.isEmpty then []
    else [⟨[("encoding", intoBytes "json/plain")],
      intoBytes (crates.jsonToString (.string jobId))⟩]
  | _ => []

def pollActivityTaskQueue (crates : Crates) (env : Env) (req : PollActivityTaskQueueRequest) :
    Prog World Status PollActivityTaskQueueResponse := do
  let taskQueue := req.taskQueue.getD ""
  let pendingSteps ← (getPendingSteps (env.now 0)).mapError
    (Status.internal "Failed to get pending steps")
  match ← scanQueue taskQueue pendingSteps with
  | some step =>
    let activityId ← handOut env step
    let wfNamespace ← (query (runNamespace step.workflowRunId.text)).attempt
    return {
      taskToken := intoBytes activityId.text
      workflowNamespace := unwrapOr "default" wfNamespace
      workflowExecution := some (step.workflowRunId.text, step.workflowRunId.text)
      activityId := step.activityName
      activityType := some step.activityName
      input := some (taskPayloads crates step.argsJson)
      heartbeatTimeout := some (step.heartbeatTimeoutSecs.getD 30).toInt64
      scheduleToCloseTimeout := some step.timeoutSecs.toInt64
      startToCloseTimeout := some step.timeoutSecs.toInt64 }
  | none => return .default

structure RespondActivityTaskCompletedRequest where
  taskToken : List UInt8
  result : Option (List Payload)

/-- The first payload as JSON, or its text where it is not JSON. -/
def respondedResult (crates : Crates) : Option (List Payload) → Json
  | some (payload :: _) =>
    (crates.jsonFromSlice payload.data).getD (.string (fromUtf8Lossy crates payload.data))
  | _ => .empty

def respondActivityTaskCompleted (crates : Crates) (env : Env)
    (req : RespondActivityTaskCompletedRequest) : Prog World Status Unit :=
  reportResult env (fromUtf8Lossy crates req.taskToken) (respondedResult crates req.result)
    "Failed to find workflow_run_id"

structure RespondActivityTaskFailedRequest where
  taskToken : List UInt8
  failure : Option String

/-- Tell the engine that a step of this run has ended. -/
def notifyRun (stepId : Uuid) : Prog World Status Unit := do
  let workflowRunId ← (query (stepRunId stepId.text)).mapError
    (Status.internal "Failed to find workflow_run_id")
  send (.stepCompleted workflowRunId.text)

def respondActivityTaskFailed (crates : Crates) (env : Env)
    (req : RespondActivityTaskFailedRequest) : Prog World Status Unit :=
  reportFailure env (fromUtf8Lossy crates req.taskToken) (req.failure.getD "") notifyRun

end Khronos.Server
