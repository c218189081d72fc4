import Khronos.Lib.Refinement
import Khronos.Server.Listings
import Khronos.Server.Operations
import Mathlib.Logic.Function.Basic

namespace Khronos.Server
open Time Lib

/-- A request to the `ScheduleService`. A listing comes with the times of creation that SQLite
has recorded, by schedule. -/
inductive ScheduleCall where
  | create (req : CreateScheduleRequest)
  | update (req : UpdateScheduleRequest)
  | delete (req : DeleteScheduleRequest)
  | list (req : ListSchedulesRequest) (created : String → Clock)

inductive ScheduleReply where
  | created (scheduleId : String)
  | updated (success : Bool)
  | deleted (success : Bool)
  | listed (schedules : List ScheduleInfo)

def serveSchedules (crates : Crates) (serde : Db.Schedules.Serde) :
    ScheduleCall → Prog World Status ScheduleReply
  | .create req => do return .created (← createSchedule serde req)
  | .update req => do return .updated (← updateSchedule crates serde req)
  | .delete req => do return .deleted (← deleteSchedule req)
  | .list req created => do return .listed (← listSchedules crates serde created req)

/-- The namespace of a request that writes is not empty. -/
def ScheduleCall.spaced : ScheduleCall → Prop
  | .create req => req.nameSpace ≠ ""
  | .update req => req.nameSpace ≠ ""
  | .delete req => req.nameSpace ≠ ""
  | .list _ _ => True

def scheduleService (crates : Crates) (serde : Db.Schedules.Serde) :
    Machine World ScheduleCall (Outcome Status ScheduleReply) where
  initial w := w.db.schedules = []
  admits _ call := call.spaced
  step w call := (serveSchedules crates serde call).run w

/-- What a map of strings holds under a key: a later entry replaces an earlier one. -/
def StringMap.get? : StringMap → String → Option String
  | [], _ => none
  | (k, v) :: rest, x => (StringMap.get? rest x).or (if k = x then some v else none)

end Khronos.Server

namespace Khronos.Catalogue
open Lib Server

/-- What a request said of a schedule. -/
structure Entry where
  nameSpace : String
  spec : ProtoScheduleSpec
  action : ProtoWorkflowAction
  policy : String

/-- The purpose of the `ScheduleService`: a finite map of schedules by their ids. -/
abbrev Entries := String → Option Entry

inductive Answer where
  | created (scheduleId : String)
  | updated (success : Bool)
  | deleted (success : Bool)
  | listed (schedules : Entries)
  | refused

def validSpec (spec : ProtoScheduleSpec) : Bool :=
  spec.specType = "cron" || (spec.specType = "interval" && spec.intervalSpec.isSome)

def validPolicy (policy : String) : Bool := ["", "skip", "buffer", "terminate"].contains policy

structure Entry.Valid (e : Entry) : Prop where
  spec : validSpec e.spec = true
  policy : validPolicy e.policy = true

/-- The schedules of a namespace. -/
def ofNamespace (m : Entries) (nameSpace : String) : Entries :=
  fun id => (m id).filter (fun e => e.nameSpace = nameSpace)

/-- What a request to create describes, if all of it is there and valid. -/
def requestedEntry (req : CreateScheduleRequest) : Option Entry :=
  match req.spec, req.action with
  | some spec, some action =>
    if validSpec spec && validPolicy (req.policy.getD "") then
      some ⟨req.nameSpace, spec, action, req.policy.getD ""⟩
    else none
  | _, _ => none

/-- An id is created once, whatever the namespaces. -/
def create (m : Entries) (req : CreateScheduleRequest) : Answer × Entries :=
  match requestedEntry req, m req.scheduleId with
  | some e, none => (.created req.scheduleId, Function.update m req.scheduleId (some e))
  | _, _ => (.refused, m)

/-- A known id is answered with success, and changed under its own namespace only. -/
def update (m : Entries) (req : UpdateScheduleRequest) : Answer × Entries :=
  match req.spec, m req.scheduleId with
  | some spec, some e =>
    if validSpec spec then
      (.updated true, if e.nameSpace = req.nameSpace then
        Function.update m req.scheduleId (some { e with spec }) else m)
    else (.refused, m)
  | _, _ => (.refused, m)

def delete (m : Entries) (req : DeleteScheduleRequest) : Answer × Entries :=
  match ofNamespace m req.nameSpace req.scheduleId with
  | some _ => (.deleted true, Function.update m req.scheduleId none)
  | none => (.deleted false, m)

def step (m : Entries) : ScheduleCall → Answer × Entries
  | .create req => create m req
  | .update req => update m req
  | .delete req => delete m req
  | .list req _ => (.listed (ofNamespace m (orDefault req.nameSpace)), m)

def catalogue : Machine Entries ScheduleCall Answer where
  initial m := m = fun _ => none
  admits _ _ := True
  step := step

/-- The spec without the field that its type does not use. -/
def usedSpec (spec : ProtoScheduleSpec) : ProtoScheduleSpec :=
  if spec.specType = "cron" then { spec with intervalSpec := none }
  else { spec with cronExpressions := [] }

/-- A listed action is the requested one; its arguments are the same map. -/
structure SameAction (shown asked : ProtoWorkflowAction) : Prop where
  workflowName : shown.workflowName = asked.workflowName
  args : ∀ k, StringMap.get? shown.args k = StringMap.get? asked.args k
  keys : (shown.args.map Prod.fst).Nodup
  taskQueue : shown.taskQueue = asked.taskQueue
  id : shown.id = asked.id
  timeouts : shown.timeouts = some (asked.timeouts.getD ⟨0, 0, 0⟩)

structure Shows (info : ScheduleInfo) (e : Entry) : Prop where
  nameSpace : info.nameSpace = e.nameSpace
  spec : info.spec = some (usedSpec e.spec)
  action : ∃ shown ∈ info.action, SameAction shown e.action
  policy : info.policy = some (if e.policy = "" then "skip" else e.policy)

/-- A listing of exactly the schedules of a map. -/
structure Lists (infos : List ScheduleInfo) (m : Entries) : Prop where
  once : (infos.map ScheduleInfo.scheduleId).Nodup
  shows : ∀ info ∈ infos, ∃ e ∈ m info.scheduleId, Shows info e
  all : ∀ id, (m id).isSome → ∃ info ∈ infos, info.scheduleId = id

/-- When the server answers as the map does. -/
inductive AnswersAs : Outcome Status ScheduleReply → Answer → Prop
  | created (scheduleId : String) : AnswersAs (.ok (.created scheduleId)) (.created scheduleId)
  | updated (success : Bool) : AnswersAs (.ok (.updated success)) (.updated success)
  | deleted (success : Bool) : AnswersAs (.ok (.deleted success)) (.deleted success)
  | listed (infos : List ScheduleInfo) (m : Entries) (h : Lists infos m) :
      AnswersAs (.ok (.listed infos)) (.listed m)
  | refused (status : Status) : AnswersAs (.error status) .refused

end Khronos.Catalogue
