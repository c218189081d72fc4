import Khronos.Db.Activities
import Khronos.Db.Workflows

namespace Khronos.Db
open Time Lib

/-- The encodings of columns that the model leaves open beside those of `Crates`. -/
structure Codec where
  /-- `Uuid::parse_str`. -/
  parseStr : String → Option Uuid
  /-- `serde_json::to_string` of a `RetryPolicy`. -/
  policyToString : RetryPolicy → String
  /-- `serde_json::from_str::<RetryPolicy>`. -/
  policyFromStr : String → Option RetryPolicy

/-- The crates read back what they wrote: any JSON value, any UUID, and the policies of the
built-in definitions. -/
structure Codec.ReadsBack (crates : Crates) (codec : Codec) (policies : List RetryPolicy) :
    Prop where
  json : ∀ v, crates.jsonFromStr (crates.jsonToString v) = some v
  uuid : ∀ u : Uuid, codec.parseStr u.text = some u
  policy : ∀ p ∈ policies, codec.policyFromStr (codec.policyToString p) = some p

/-- A crate's refusal to read a text; what the crate itself says of it is left out. -/
def parsed (message : String) : Option α → Except DbError α
  | some a => .ok a
  | none => .error (.other message)

@[simp] theorem parsed_some (message : String) (a : α) : parsed message (some a) = .ok a := rfl

theorem Codec.ReadsBack.optional {crates : Crates} {codec : Codec} {policies : List RetryPolicy}
    (h : codec.ReadsBack crates policies) (v : Option Json) :
    (v.map crates.jsonToString).mapM (fun s => parsed "invalid JSON" (crates.jsonFromStr s)) =
      .ok v := by
  cases v with
  | none => rfl
  | some v => simp [h.json, Option.mapM_some]

/-- `workflow_state_to_str`. -/
def workflowStateToStr : WorkflowState → String
  | .pending => "pending"
  | .running => "running"
  | .completed => "completed"
  | .failed => "failed"
  | .cancelled => "cancelled"

def strToWorkflowState (s : String) : Except DbError WorkflowState :=
  if s = "pending" then .ok .pending
  else if s = "running" then .ok .running
  else if s = "completed" then .ok .completed
  else if s = "failed" then .ok .failed
  else if s = "cancelled" then .ok .cancelled
  else .error (.other s!"Unknown workflow state: {s}")

theorem strToWorkflowState_toStr (state : WorkflowState) :
    strToWorkflowState (workflowStateToStr state) = .ok state := by
  cases state <;> rfl

namespace Workflows

/-- A row of `workflows` as its columns hold it. -/
structure WorkflowColumns where
  runId : String
  workflowId : String
  name : String
  taskQueue : String
  state : String
  argsJson : String
  resultJson : Option String
  executionTimeoutSecs : Option Int64
  runTimeoutSecs : Option Int64
  taskTimeoutSecs : Option Int64
  startedAt : Option String
  completedAt : Option String
  nameSpace : String

def workflowColumns (crates : Crates) (r : WorkflowRow) : WorkflowColumns where
  runId := r.runId.text
  workflowId := r.workflowId
  name := r.name
  taskQueue := r.taskQueue
  state := workflowStateToStr r.state
  argsJson := crates.jsonToString r.argsJson
  resultJson := r.resultJson.map crates.jsonToString
  executionTimeoutSecs := r.executionTimeoutSecs
  runTimeoutSecs := r.runTimeoutSecs
  taskTimeoutSecs := r.taskTimeoutSecs
  startedAt := r.startedAt
  completedAt := r.completedAt
  nameSpace := r.nameSpace

/-- `parse_datetime` of `workflows.rs`: naive formats first. -/
def parseDatetime (s : String) : Except DbError DateTime :=
  let naive := ["%Y-%m-%d %H:%M:%S%.f", "%Y-%m-%d %H:%M:%S", "%Y-%m-%dT%H:%M:%S%.f",
    "%Y-%m-%dT%H:%M:%S"].findSome? (NaiveDateTime.parseFromStr s)
  let zoned := ["%Y-%m-%dT%H:%M:%S%.fZ", "%Y-%m-%dT%H:%M:%SZ"].findSome?
    (DateTime.parseFromStr s)
  match naive <|> zoned with
  | some d => .ok d
  | none => .error (.other s!"Failed to parse datetime: {s}")

def rowToWorkflow (crates : Crates) (codec : Codec) (c : WorkflowColumns) :
    Except DbError WorkflowInstance := do
  let runId ← parsed "Invalid run_id UUID" (codec.parseStr c.runId)
  let state ← strToWorkflowState c.state
  let argsJson ← parsed "invalid JSON" (crates.jsonFromStr c.argsJson)
  let resultJson ← c.resultJson.mapM (fun s => parsed "invalid JSON" (crates.jsonFromStr s))
  let startedAt ← c.startedAt.mapM parseDatetime
  let completedAt ← c.completedAt.mapM parseDatetime
  return {
    runId
    workflowId := c.workflowId
    name := c.name
    taskQueue := c.taskQueue
    state
    argsJson
    resultJson
    timeouts := ⟨c.executionTimeoutSecs.map Int64.toUInt64, c.runTimeoutSecs.map Int64.toUInt64,
      c.taskTimeoutSecs.map Int64.toUInt64⟩
    startedAt
    completedAt
    nameSpace := c.nameSpace }

def getWorkflow (crates : Crates) (codec : Codec) (runId : String) :
    Prog World DbError (Option WorkflowInstance) :=
  query fun db =>
    match db.workflows.filter (fun r => runKey r = runId) with
    | r :: _ => (rowToWorkflow crates codec (workflowColumns crates r)).map some
    | [] => .ok none

/-- `started_at >= started_at` as a sort key, where NULL comes last. -/
def startedSince (a b : WorkflowRow) : Bool :=
  match a.startedAt, b.startedAt with
  | _, none => true
  | none, some _ => false
  | some s, some t => textLe t s

/-- `ORDER BY started_at DESC`: SQLite's sorter keeps rows of one second in table order. -/
def newestFirst (rows : List WorkflowRow) : List WorkflowRow :=
  rows.insertionSort (fun a b => startedSince a b = true)

/-- The rows of a namespace, and of a state if one is asked for. -/
def inNamespace (nameSpace : String) (stateFilter : Option WorkflowState) (r : WorkflowRow) :
    Bool :=
  r.nameSpace = nameSpace && stateFilter.all (fun state => r.state = state)

def listWorkflows (crates : Crates) (codec : Codec) (nameSpace : String)
    (stateFilter : Option WorkflowState) : Prog World DbError (List WorkflowInstance) :=
  query fun db =>
    (newestFirst (db.workflows.filter (inNamespace nameSpace stateFilter))).mapM
      (fun r => rowToWorkflow crates codec (workflowColumns crates r))

end Workflows

namespace Activities

/-- The text of a step's state. -/
def stepStateText : StepState → String
  | .pending => "pending"
  | .running => "running"
  | .completed => "completed"
  | .failed => "failed"
  | .retried => "retried"

/-- A row of `workflow_steps` as the columns of `get_pending_steps` hold it. -/
structure StepColumns where
  id : String
  workflowRunId : String
  stepIndex : Int64
  activityName : String
  argsJson : String
  retryPolicyJson : String
  timeoutSecs : Int64
  heartbeatTimeoutSecs : Option Int64
  state : String
  attempt : Int64
  resultJson : Option String
  nextRetryAt : Option String

def stepColumns (crates : Crates) (codec : Codec) (r : WorkflowStepRow) : StepColumns where
  id := r.id.text
  workflowRunId := r.workflowRunId.text
  stepIndex := r.stepIndex
  activityName := r.activityName
  argsJson := crates.jsonToString r.argsJson
  retryPolicyJson := codec.policyToString r.retryPolicyJson
  timeoutSecs := r.timeoutSecs
  heartbeatTimeoutSecs := r.heartbeatTimeoutSecs
  state := stepStateText r.state
  attempt := r.attempt.toUInt64.toInt64
  resultJson := r.resultJson.map crates.jsonToString
  nextRetryAt := r.nextRetryAt

/-- `row_to_step` on the columns themselves. -/
def columnsToStep (crates : Crates) (codec : Codec) (c : StepColumns) :
    Except DbError WorkflowStepInstance := do
  let id ← parsed "Invalid step ID UUID" (codec.parseStr c.id)
  let workflowRunId ← parsed "Invalid workflow_run_id UUID" (codec.parseStr c.workflowRunId)
  let state ← Db.strToWorkflowState c.state
  let argsJson ← parsed "invalid JSON" (crates.jsonFromStr c.argsJson)
  let retryPolicy ← parsed "invalid JSON" (codec.policyFromStr c.retryPolicyJson)
  let resultJson ← c.resultJson.mapM (fun s => parsed "invalid JSON" (crates.jsonFromStr s))
  let nextRetryAt ← c.nextRetryAt.mapM parseDatetime
  return {
    id
    workflowRunId
    stepIndex := c.stepIndex.toUInt64
    activityName := c.activityName
    argsJson
    retryPolicy
    timeoutSecs := c.timeoutSecs.toUInt64
    heartbeatTimeoutSecs := c.heartbeatTimeoutSecs.map Int64.toUInt64
    state
    attempt := c.attempt.toUInt64.toUInt32
    resultJson
    nextRetryAt }

/-- The WHERE clause of `get_next_step_for_workflow`. -/
def nextFor (workflowRunId : String) (r : WorkflowStepRow) : Bool :=
  r.workflowRunId.text = workflowRunId && (r.state = .pending || r.state = .retried)

/-- `ORDER BY step_index ASC`, by an index that keeps rows of one number in table order. -/
def byIndex (rows : List WorkflowStepRow) : List WorkflowStepRow :=
  rows.insertionSort (fun a b => a.stepIndex.toInt ≤ b.stepIndex.toInt)

def getNextStepForWorkflow (crates : Crates) (codec : Codec) (workflowRunId : String) :
    Prog World DbError (Option WorkflowStepInstance) :=
  query fun db =>
    match byIndex (db.workflowSteps.filter (nextFor workflowRunId)) with
    | r :: _ => (columnsToStep crates codec (stepColumns crates codec r)).map some
    | [] => .ok none

/-- On columns that read back, the decoder is the one the polls are modelled with. -/
theorem columnsToStep_stepColumns {crates : Crates} {codec : Codec} {policies : List RetryPolicy}
    (h : codec.ReadsBack crates policies) {r : WorkflowStepRow}
    (hp : r.retryPolicyJson ∈ policies) :
    columnsToStep crates codec (stepColumns crates codec r) = rowToStep r := by
  have hstate : Db.strToWorkflowState (stepStateText r.state) = strToWorkflowState r.state := by
    cases r.state <;> rfl
  have hattempt : r.attempt.toUInt64.toInt64.toUInt64.toUInt32 = r.attempt := by simp
  unfold columnsToStep rowToStep stepColumns
  simp only [h.uuid, h.json, h.policy _ hp, hstate, h.optional, hattempt, parsed_some]
  rfl

end Activities

end Khronos.Db
