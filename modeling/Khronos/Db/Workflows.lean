import Khronos.Db.Schema

namespace Khronos.Db.Workflows
open Time Lib

/-- The text a workflow row is looked up by. -/
def runKey (r : WorkflowRow) : String := r.runId.text

/-- The row `insert_workflow` writes. -/
def workflowRow (wf : WorkflowInstance) : WorkflowRow where
  runId := wf.runId
  workflowId := wf.workflowId
  name := wf.name
  taskQueue := wf.taskQueue
  state := wf.state
  argsJson := wf.argsJson
  resultJson := wf.resultJson
  executionTimeoutSecs := wf.timeouts.executionTimeoutSecs.map UInt64.toInt64
  runTimeoutSecs := wf.timeouts.runTimeoutSecs.map UInt64.toInt64
  taskTimeoutSecs := wf.timeouts.taskTimeoutSecs.map UInt64.toInt64
  startedAt := wf.startedAt.map DateTime.format
  completedAt := wf.completedAt.map DateTime.format
  nameSpace := wf.nameSpace

def insertWorkflow (wf : WorkflowInstance) : Prog World DbError Unit :=
  execute fun db =>
    if ∃ r ∈ db.workflows, r.runId = wf.runId then .error (.unique "workflows.run_id")
    else .ok ((), { db with workflows := db.workflows ++ [workflowRow wf] })

/-- The assignments of `update_workflow_state`: the old state is not looked at. -/
def setRun (state : WorkflowState) (resultJson : Option Json) (completedAt : Option String)
    (r : WorkflowRow) : WorkflowRow :=
  { r with state, resultJson, completedAt }

def updateWorkflowState (runId : String) (newState : WorkflowState) (resultJson : Option Json)
    (completedAt : Option DateTime) : Prog World DbError Unit :=
  execute fun db =>
    let set := setRun newState resultJson (completedAt.map DateTime.format)
    let workflows := Table.update (fun r => runKey r = runId) set db.workflows
    .ok ((), { db with workflows })

/-- `state IN ('pending', 'running')`. -/
def active (r : WorkflowRow) : Bool := r.state = .pending || r.state = .running

/-- The rows `cancel_workflow` updates. -/
def cancellable (runId : String) (r : WorkflowRow) : Bool := runKey r = runId && active r

def cancelRun (now : Clock) (r : WorkflowRow) : WorkflowRow :=
  { r with state := .cancelled, completedAt := some now.datetime }

def cancelWorkflow (now : Clock) (runId : String) : Prog World DbError Unit := do
  let rows ← execute fun db =>
    let workflows := Table.update (cancellable runId) (cancelRun now) db.workflows
    .ok ((db.workflows.filter (cancellable runId)).length, { db with workflows })
  if rows = 0 then
    Prog.raise (.other "Workflow not found or already in terminal state")

end Khronos.Db.Workflows
