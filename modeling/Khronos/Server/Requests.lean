import Khronos.Server.Catalogue
import Khronos.Server.Registry

namespace Khronos.Server
open Time Lib

/-- A native request that names a namespace. -/
inductive NamespaceRequest where
  | getWorkflow (req : GetWorkflowRequest)
  | cancelWorkflow (req : CancelWorkflowRequest)
  | listWorkflows (req : ListWorkflowsRequest)
  | createSchedule (req : CreateScheduleRequest)
  | updateSchedule (req : UpdateScheduleRequest)
  | deleteSchedule (req : DeleteScheduleRequest)
  | listSchedules (req : ListSchedulesRequest)

inductive NamespaceReply where
  | workflow (info : WorkflowInfo)
  | cancelled (success : Bool)
  | workflows (infos : List WorkflowInfo)
  | schedule (reply : ScheduleReply)

/-- The namespace of a request. Runs and listings read the empty name as `default`, the other
requests for schedules as it is. -/
def NamespaceRequest.nameSpace : NamespaceRequest → String
  | .getWorkflow req => orDefault req.nameSpace
  | .cancelWorkflow req => orDefault req.nameSpace
  | .listWorkflows req => orDefault req.nameSpace
  | .createSchedule req => req.nameSpace
  | .updateSchedule req => req.nameSpace
  | .deleteSchedule req => req.nameSpace
  | .listSchedules req => orDefault req.nameSpace

/-- The answer to a request; `created` is when SQLite has recorded each schedule. -/
def serveNamespace (crates : Crates) (codec : Db.Codec) (serde : Db.Schedules.Serde)
    (created : String → Clock) (env : Env) : NamespaceRequest → Prog World Status NamespaceReply
  | .getWorkflow req => do return .workflow (← getWorkflow crates codec req)
  | .cancelWorkflow req => do return .cancelled (← cancelWorkflow env req)
  | .listWorkflows req => do return .workflows (← listWorkflows crates codec req)
  | .createSchedule req => do return .schedule (← serveSchedules crates serde (.create req))
  | .updateSchedule req => do return .schedule (← serveSchedules crates serde (.update req))
  | .deleteSchedule req => do return .schedule (← serveSchedules crates serde (.delete req))
  | .listSchedules req => do
    return .schedule (← serveSchedules crates serde (.list req created))

/-- A request to any native RPC, or to a Temporal one that opens the database. -/
inductive Rpc where
  | ofNamespace (req : NamespaceRequest)
  | startWorkflow (req : StartWorkflowRequest)
  | pollActivity (req : PollActivityRequest)
  | reportActivityResult (req : ReportActivityResultRequest)
  | reportActivityFailure (req : ReportActivityFailureRequest)
  | heartbeat (req : HeartbeatRequest)
  | registerNamespace (name : String)
  | describeNamespace (name : String)
  | startWorkflowExecution (req : StartWorkflowExecutionRequest)
  | pollActivityTaskQueue (req : PollActivityTaskQueueRequest)
  | respondActivityTaskCompleted (req : RespondActivityTaskCompletedRequest)
  | respondActivityTaskFailed (req : RespondActivityTaskFailedRequest)
  | createTemporalSchedule (req : Temporal.CreateScheduleRequest)
  | updateTemporalSchedule (req : Temporal.UpdateScheduleRequest)
  | describeTemporalSchedule (req : Temporal.DescribeScheduleRequest)
  | deleteTemporalSchedule (req : Temporal.DeleteScheduleRequest)

/-- What the handlers of requests read beside the state. -/
structure Surroundings where
  crates : Crates
  codec : Db.Codec
  serde : Db.Schedules.Serde
  created : String → Clock
  spliced : Temporal.Spliced
  namespaces : List String

/-- The handler of a request, whatever it answers when it succeeds. -/
def Rpc.serve (s : Surroundings) (env : Env) : Rpc → Prog World Status Unit
  | .ofNamespace req => do
    let _ ← serveNamespace s.crates s.codec s.serde s.created env req; return ()
  | .startWorkflow req => do let _ ← Server.startWorkflow env req; return ()
  | .pollActivity req => do let _ ← Server.pollActivity env req; return ()
  | .reportActivityResult req => do let _ ← Server.reportActivityResult s.crates env req; return ()
  | .reportActivityFailure req => do let _ ← Server.reportActivityFailure env req; return ()
  | .heartbeat req => do let _ ← Server.heartbeat env req; return ()
  | .registerNamespace name => Temporal.registerNamespace s.namespaces name
  | .describeNamespace name => do
    let _ ← Temporal.describeNamespace s.namespaces name; return ()
  | .startWorkflowExecution req => do
    let _ ← Server.startWorkflowExecution s.crates env req; return ()
  | .pollActivityTaskQueue req => do
    let _ ← Server.pollActivityTaskQueue s.crates env req; return ()
  | .respondActivityTaskCompleted req => Server.respondActivityTaskCompleted s.crates env req
  | .respondActivityTaskFailed req => Server.respondActivityTaskFailed s.crates env req
  | .createTemporalSchedule req => Temporal.createSchedule s.crates req
  | .updateTemporalSchedule req => Temporal.updateSchedule s.spliced req
  | .describeTemporalSchedule req => do
    let _ ← Temporal.describeSchedule s.crates req; return ()
  | .deleteTemporalSchedule req => Temporal.deleteSchedule req

end Khronos.Server
