import Khronos.Lib.Runs
import Khronos.Server.Engine
import Khronos.Server.Scheduler

namespace Khronos.Server
open Time Lib Db.Activities Db.Workflows

/-- The operations of the server, each executed as a whole. -/
inductive Op where
  | startWorkflow (req : StartWorkflowRequest)
  | startWorkflowExecution (req : StartWorkflowExecutionRequest)
  | scheduleFire (scheduleId : String)
  | pollActivity (req : PollActivityRequest)
  | pollActivityTaskQueue (req : PollActivityTaskQueueRequest)
  | reportActivityResult (req : ReportActivityResultRequest)
  | reportActivityFailure (req : ReportActivityFailureRequest)
  | respondActivityTaskCompleted (req : RespondActivityTaskCompletedRequest)
  | respondActivityTaskFailed (req : RespondActivityTaskFailedRequest)
  | heartbeat (req : HeartbeatRequest)
  | cancelWorkflow (req : CancelWorkflowRequest)
  | handle (event : EngineEvent)
  /-- What the schedule requests can do to their table; most also notify the engine. -/
  | writeSchedules (rows : List ScheduleRow) (notify : Bool)

/-- What a caller gets back, where it is a task. -/
inductive Reply where
  | polled (response : PollActivityResponse)
  | queuePolled (response : PollActivityTaskQueueResponse)
  | other

def writeSchedules (rows : List ScheduleRow) (notify : Bool) : Prog World Status Unit := do
  Prog.modify (fun w => { w with db := { w.db with schedules := rows } })
  if notify then
    send .scheduleChange

def exec (crates : Crates) (env : Env) : Op → Prog World Status Reply
  | .startWorkflow req => do let _ ← startWorkflow env req; return .other
  | .startWorkflowExecution req => do
    let _ ← startWorkflowExecution crates env req; return .other
  | .scheduleFire scheduleId => do
    -- The scheduler's loop logs an error and goes on.
    let _ ← ((Scheduler.processSchedule crates env scheduleId).attempt :
      Prog World Status (Except DbError Unit))
    return .other
  | .pollActivity req => do return .polled (← pollActivity env req)
  | .pollActivityTaskQueue req => do return .queuePolled (← pollActivityTaskQueue crates env req)
  | .reportActivityResult req => do let _ ← reportActivityResult crates env req; return .other
  | .reportActivityFailure req => do let _ ← reportActivityFailure env req; return .other
  | .respondActivityTaskCompleted req => do
    respondActivityTaskCompleted crates env req; return .other
  | .respondActivityTaskFailed req => do respondActivityTaskFailed crates env req; return .other
  | .heartbeat req => do let _ ← heartbeat env req; return .other
  | .cancelWorkflow req => do let _ ← cancelWorkflow env req; return .other
  | .handle event => do Engine.handle env event; return .other
  | .writeSchedules rows notify => do writeSchedules rows notify; return .other

/-- An operation and what it draws from its surroundings. -/
structure Call where
  env : Env
  op : Op

/-- The ids that name a row of some table. -/
def takenIds (db : Db) : List Uuid :=
  db.workflows.map (·.runId) ++ db.workflowSteps.map (·.id) ++ db.activities.map (·.id)

/-- `Uuid::new_v4` repeats nothing; no operation draws more than six ids. -/
def Fresh (db : Db) (env : Env) : Prop :=
  ((List.range 6).map env.uuid).Nodup ∧ ∀ i < 6, env.uuid i ∉ takenIds db

instance (db : Db) (env : Env) : Decidable (Fresh db env) :=
  inferInstanceAs (Decidable (_ ∧ _))

/-- The server, one whole operation after another in any order. -/
def server (crates : Crates) : Machine World Call (Outcome Status Reply) where
  initial w := w = .empty
  admits w call := Fresh w.db call.env
  step w call := (exec crates call.env call.op).run w

/-- A step of the server. -/
abbrev ServerStep := Transition World Call (Outcome Status Reply)

/-- The activity whose task a reply hands out. -/
def Reply.task (crates : Crates) : Reply → Option String
  | .polled response => response.task.map (·.activityId)
  | .queuePolled response =>
    response.activityType.map (fun _ => fromUtf8Lossy crates response.taskToken)
  | .other => none

def activityOf (db : Db) (activityId : String) : Option ActivityRow :=
  db.activities.find? (fun r => activityKey r = activityId)

def stepOf (db : Db) (stepId : Uuid) : Option WorkflowStepRow :=
  db.workflowSteps.find? (fun r => r.id = stepId)

/-- The activity that a step of the server hands out. -/
def handedOut (crates : Crates) (τ : ServerStep) : Option ActivityRow :=
  (τ.output.value?.bind (Reply.task crates)).bind (activityOf τ.after.db)

end Khronos.Server
