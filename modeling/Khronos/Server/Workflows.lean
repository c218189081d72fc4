import Khronos.Db.Activities
import Khronos.Db.Workflows
import Khronos.Server.Definitions

namespace Khronos.Server
open Time Lib Db.Activities Db.Workflows

/-- A protobuf map of strings, entry by entry. -/
abbrev StringMap := List (String × String)

/-- `BTreeMap::insert`. -/
def StringMap.insert (k v : String) : StringMap → StringMap
  | [] => [(k, v)]
  | (k', v') :: rest =>
    if k = k' then (k, v) :: rest
    else if k < k' then (k, v) :: (k', v') :: rest
    else (k', v') :: StringMap.insert k v rest

/-- The entries of one map put into another, one after the other. -/
def StringMap.extend (m entries : StringMap) : StringMap :=
  entries.foldl (fun acc (k, v) => StringMap.insert k v acc) m

/-- A JSON object of strings; `serde_json` keeps its keys in order. -/
def Json.ofMap (m : StringMap) : Json :=
  .object ((StringMap.extend [] m).map fun (k, v) => (k, .string v))

/-- The proto `Timeouts`, where 0 stands for none. -/
structure ProtoTimeouts where
  executionTimeoutSecs : UInt64
  runTimeoutSecs : UInt64
  taskTimeoutSecs : UInt64

def nonZero (secs : UInt64) : Option UInt64 := if secs = 0 then none else some secs

def coreTimeouts : Option ProtoTimeouts → Timeouts
  | some t => ⟨nonZero t.executionTimeoutSecs, nonZero t.runTimeoutSecs, nonZero t.taskTimeoutSecs⟩
  | none => .default

/-- An empty text stands for `default`. -/
def orDefault (s : String) : String := if s.isEmpty then "default" else s

/-- `run_id.to_string().chars().take(8)`. -/
def shortId (id : Uuid) : String := String.ofList (id.text.toList.take 8)

structure StartWorkflowRequest where
  workflowName : String
  args : StringMap
  workflowId : String
  taskQueue : String
  timeouts : Option ProtoTimeouts
  nameSpace : String

/-- A step of a fresh run: pending, never attempted. -/
def freshStep (id runId : Uuid) (index : Nat) (argsJson : Json) (d : ActivityStep) :
    WorkflowStepInstance where
  id
  workflowRunId := runId
  stepIndex := UInt64.ofNat index
  activityName := d.activityName
  argsJson
  retryPolicy := d.retryPolicy
  timeoutSecs := d.timeoutSecs
  heartbeatTimeoutSecs := d.heartbeatTimeoutSecs
  state := .pending
  attempt := 0
  resultJson := none
  nextRetryAt := none

/-- The loop that creates the steps of a run: step `index` draws the id after the run's own
and the ids of the steps before it. -/
def insertSteps (env : Env) (runId : Uuid) (argsJson : ActivityStep → Json)
    (failed : Nat → DbError → ε) (steps : List ActivityStep) : Prog World ε Unit :=
  Prog.forEach steps.zipIdx fun (d, index) =>
    (insertWorkflowStep (env.now index)
      (freshStep (env.uuid (index + 1)) runId index (argsJson d) d)).mapError (failed index)

def createStepFailed (index : Nat) : DbError → Status :=
  Status.internal s!"Failed to create step {index}"

def startedInstance (env : Env) (req : StartWorkflowRequest) : WorkflowInstance where
  runId := env.uuid 0
  workflowId := if req.workflowId.isEmpty then s!"{req.workflowName}-{shortId (env.uuid 0)}"
    else req.workflowId
  name := req.workflowName
  taskQueue := orDefault req.taskQueue
  state := .pending
  argsJson := if req.args.isEmpty then .empty else Json.ofMap req.args
  resultJson := none
  timeouts := coreTimeouts req.timeouts
  startedAt := none
  completedAt := none
  nameSpace := orDefault req.nameSpace

/-- The workflow arguments, overridden by the step's template. -/
def stepArgs (args : StringMap) (d : ActivityStep) : Json :=
  if args.isEmpty then .empty
  else Json.ofMap (StringMap.extend (StringMap.extend [] args) d.argsTemplate)

/-- `start_workflow`; the response is the run id. -/
def startWorkflow (env : Env) (req : StartWorkflowRequest) : Prog World Status String := do
  let workflow := startedInstance env req
  (insertWorkflow workflow).mapError (Status.internal "Failed to create workflow")
  insertSteps env workflow.runId (stepArgs req.args) createStepFailed
    (getWorkflowDefinition req.workflowName)
  send (.workflowCreated workflow.runId.text)
  return workflow.runId.text

structure CancelWorkflowRequest where
  workflowRunId : String
  nameSpace : String

def cancelWorkflow (env : Env) (req : CancelWorkflowRequest) : Prog World Status Bool := do
  (Db.Workflows.cancelWorkflow (env.now 0) req.workflowRunId).mapError
    (Status.internal "Failed to cancel workflow")
  return true

end Khronos.Server
