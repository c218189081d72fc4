import Khronos.Db.Schedules
import Khronos.Server.Workflows

namespace Khronos.Server
open Time Lib Db.Schedules

/-- The proto `ScheduleSpec`, with the seconds of its interval. -/
structure ProtoScheduleSpec where
  specType : String
  cronExpressions : List String
  intervalSpec : Option UInt64

structure ProtoWorkflowAction where
  workflowName : String
  args : StringMap
  taskQueue : String
  id : String
  timeouts : Option ProtoTimeouts

structure CreateScheduleRequest where
  scheduleId : String
  nameSpace : String
  spec : Option ProtoScheduleSpec
  action : Option ProtoWorkflowAction
  policy : Option String

structure UpdateScheduleRequest where
  scheduleId : String
  nameSpace : String
  spec : Option ProtoScheduleSpec

structure DeleteScheduleRequest where
  scheduleId : String
  nameSpace : String

def Status.invalidArgument (message : String) : Status := ⟨.invalidArgument, message⟩

def coreSpec (spec : ProtoScheduleSpec) : Except Status Core.ScheduleSpec :=
  if spec.specType = "cron" then .ok (.cron spec.cronExpressions)
  else if spec.specType = "interval" then match spec.intervalSpec with
    | some secs => .ok (.interval (.fromSecs secs))
    | none => .error (Status.invalidArgument "interval seconds required for interval spec")
  else .error (Status.invalidArgument s!"unknown spec_type: {spec.specType}")

def corePolicy (policy : String) : Except Status Core.OverlapPolicy :=
  if policy = "skip" ∨ policy = "" then .ok .skip
  else if policy = "buffer" then .ok (.buffer 1)
  else if policy = "terminate" then .ok .terminateExisting
  else .error (Status.invalidArgument s!"unknown policy: {policy}")

/-- `ok_or_else(|| Status::invalid_argument("{field} is required"))`. -/
def required (field : String) : Option α → Except Status α
  | some a => .ok a
  | none => .error (Status.invalidArgument s!"{field} is required")

theorem required_ok {field : String} {o : Option α} : required field o = .ok a ↔ o = some a := by
  cases o <;> simp [required]

/-- The schedule that a request describes. -/
def requestedSchedule (req : CreateScheduleRequest) : Except Status Core.Schedule := do
  let spec ← required "spec" req.spec
  let action ← required "action" req.action
  let scheduleSpec ← coreSpec spec
  let policy ← corePolicy (req.policy.getD "")
  return {
    scheduleId := req.scheduleId
    nameSpace := req.nameSpace
    spec := scheduleSpec
    action := {
      workflowName := action.workflowName
      args := StringMap.extend [] action.args
      taskQueue := action.taskQueue
      id := action.id
      timeouts := coreTimeouts action.timeouts }
    policy }

/-- `create_schedule` tells the engine of the change, and not the scheduler. -/
def createSchedule (serde : Serde) (req : CreateScheduleRequest) : Prog World Status String := do
  match requestedSchedule req with
  | .error status => Prog.raise status
  | .ok schedule =>
    (insertSchedule serde schedule).mapError (Status.internal "Failed to create schedule")
    send .scheduleChange
    return req.scheduleId

/-- `update_schedule`: the stored schedule is found by its id alone. -/
def updateSchedule (crates : Crates) (serde : Serde) (req : UpdateScheduleRequest) :
    Prog World Status Bool := do
  match required "spec" req.spec with
  | .error status => Prog.raise status
  | .ok spec =>
    let existing ← (getSchedule crates serde req.scheduleId).mapError
      (Status.internal "Failed to get schedule")
    match existing with
    | none => Prog.raise ⟨.notFound, "Schedule not found"⟩
    | some existing => match coreSpec spec with
      | .error status => Prog.raise status
      | .ok newSpec =>
        (updateScheduleSpec serde req.scheduleId req.nameSpace
          { existing with spec := newSpec }).mapError (Status.internal "Failed to update schedule")
        send .scheduleChange
        return true

def deleteSchedule (req : DeleteScheduleRequest) : Prog World Status Bool := do
  let rows ← (Db.Schedules.deleteSchedule req.scheduleId req.nameSpace).mapError
    (Status.internal "Failed to delete schedule")
  send .scheduleChange
  return decide (0 < rows)

end Khronos.Server
