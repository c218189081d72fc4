import Khronos.Db.Columns
import Khronos.Server.Schedules
import Khronos.Server.Worker

namespace Khronos.Server
open Time Lib

structure GetWorkflowRequest where
  workflowRunId : String
  nameSpace : String

structure WorkflowInfo where
  workflowRunId : String
  workflowId : String
  name : String
  state : String
  args : StringMap
  resultJson : String
  startedAt : String
  completedAt : String
deriving DecidableEq

def workflowInfoToProto (crates : Crates) (wf : WorkflowInstance) : WorkflowInfo where
  workflowRunId := wf.runId.text
  workflowId := wf.workflowId
  name := wf.name
  state := Db.workflowStateToStr wf.state
  args := stringArgs wf.argsJson
  resultJson := (wf.resultJson.map crates.jsonToString).getD ""
  startedAt := (wf.startedAt.map DateTime.format).getD ""
  completedAt := (wf.completedAt.map DateTime.format).getD ""

/-- `get_workflow` does not look at the namespace. -/
def getWorkflow (crates : Crates) (codec : Db.Codec) (req : GetWorkflowRequest) :
    Prog World Status WorkflowInfo := do
  let workflow ← (Db.Workflows.getWorkflow crates codec req.workflowRunId).mapError
    (Status.internal "Failed to get workflow")
  match workflow with
  | none => Prog.raise ⟨.notFound, "Workflow not found"⟩
  | some wf => return workflowInfoToProto crates wf

structure ListWorkflowsRequest where
  nameSpace : String

def listWorkflows (crates : Crates) (codec : Db.Codec) (req : ListWorkflowsRequest) :
    Prog World Status (List WorkflowInfo) := do
  let workflows ← (Db.Workflows.listWorkflows crates codec (orDefault req.nameSpace) none).mapError
    (Status.internal "Failed to list workflows")
  return workflows.map (workflowInfoToProto crates)

structure ListSchedulesRequest where
  nameSpace : String

structure ScheduleInfo where
  scheduleId : String
  nameSpace : String
  spec : Option ProtoScheduleSpec
  action : Option ProtoWorkflowAction
  policy : Option String
  createdAt : String

def scheduleSpecToProto : Core.ScheduleSpec → ProtoScheduleSpec
  | .cron exprs => ⟨"cron", exprs, none⟩
  | .interval duration => ⟨"interval", [], some duration.asSecs⟩

def workflowActionToProto (action : Core.WorkflowAction) : ProtoWorkflowAction where
  workflowName := action.workflowName
  args := action.args
  taskQueue := action.taskQueue
  id := action.id
  timeouts := some ⟨action.timeouts.executionTimeoutSecs.getD 0,
    action.timeouts.runTimeoutSecs.getD 0, action.timeouts.taskTimeoutSecs.getD 0⟩

def overlapPolicyToProto : Core.OverlapPolicy → String
  | .skip => "skip"
  | .buffer _ => "buffer"
  | .terminateExisting => "terminate"

/-- What a listing says of a schedule; its time is read to the second. -/
def scheduleToInfo (created : String → Clock) (s : Core.Schedule) : ScheduleInfo where
  scheduleId := s.scheduleId
  nameSpace := s.nameSpace
  spec := some (scheduleSpecToProto s.spec)
  action := some (workflowActionToProto s.action)
  policy := some (overlapPolicyToProto s.policy)
  createdAt := (created s.scheduleId).time.trunc.format

def listSchedules (crates : Crates) (serde : Db.Schedules.Serde) (created : String → Clock)
    (req : ListSchedulesRequest) : Prog World Status (List ScheduleInfo) := do
  let schedules ← (Db.Schedules.listSchedules crates serde created
    (orDefault req.nameSpace)).mapError (Status.internal "Failed to list schedules")
  return schedules.map (scheduleToInfo created)

end Khronos.Server
