import Khronos.Db.Schema
import Mathlib.Data.List.Sort

namespace Khronos.Core

/-- `std::time::Duration`: whole seconds, and the nanoseconds beyond them. -/
structure Duration where
  secs : UInt64
  subsecNanos : Fin 1000000000
deriving DecidableEq

/-- `Duration::from_secs`. -/
def Duration.fromSecs (secs : UInt64) : Duration := ⟨secs, 0⟩

/-- `as_secs`. -/
def Duration.asSecs (d : Duration) : UInt64 := d.secs

@[simp] theorem Duration.asSecs_fromSecs (secs : UInt64) : (fromSecs secs).asSecs = secs := rfl

/-- How a schedule triggers. -/
inductive ScheduleSpec where
  | cron (expressions : List String)
  | interval (duration : Duration)
deriving DecidableEq

/-- What a schedule does about its own earlier runs. -/
inductive OverlapPolicy where
  | skip
  | buffer (n : Nat)
  | terminateExisting
deriving DecidableEq, Repr

/-- What a schedule starts. -/
structure WorkflowAction where
  workflowName : String
  args : List (String × String)
  taskQueue : String
  id : String
  timeouts : Timeouts
deriving DecidableEq

structure Schedule where
  scheduleId : String
  nameSpace : String
  spec : ScheduleSpec
  action : WorkflowAction
  policy : OverlapPolicy
deriving DecidableEq

end Khronos.Core

namespace Khronos.Db.Schedules
open Time Lib

/-- `serde_json` on the columns of a schedule. -/
structure Serde where
  /-- `to_string` of a `Vec<String>`. -/
  stringsToString : List String → String
  /-- `to_string` of a `BTreeMap<String, String>`. -/
  mapToString : List (String × String) → String
  /-- `from_str::<BTreeMap<String, String>>`. -/
  mapFromStr : String → Option (List (String × String))
  /-- `to_string` of `Timeouts`. -/
  timeoutsToString : Timeouts → String

/-- `serde_json` reads back what it wrote. The keys of a `BTreeMap` ascend. -/
structure Serde.ReadsBack (crates : Crates) (serde : Serde) : Prop where
  strings : ∀ l, crates.stringsFromStr (serde.stringsToString l) = some l
  map : ∀ m, m.Pairwise (fun a b => a.1 < b.1) → serde.mapFromStr (serde.mapToString m) = some m
  timeouts : ∀ t, crates.timeoutsFromStr (serde.timeoutsToString t) = some t

/-- The columns of a spec. -/
structure SpecColumns where
  specType : SpecType
  cronExpressions : Option String
  intervalSeconds : Option Int64
deriving DecidableEq

def specColumns (serde : Serde) : Core.ScheduleSpec → SpecColumns
  | .cron exprs => ⟨.cron, some (serde.stringsToString exprs), none⟩
  | .interval duration => ⟨.interval, none, some duration.asSecs.toInt64⟩

/-- The column of a policy: the size of a buffer is not stored. -/
def policyColumn : Core.OverlapPolicy → OverlapPolicy
  | .skip => .skip
  | .buffer _ => .buffer
  | .terminateExisting => .terminate

/-- The row `insert_schedule` writes. -/
def scheduleRow (serde : Serde) (schedule : Core.Schedule) : ScheduleRow where
  scheduleId := schedule.scheduleId
  nameSpace := schedule.nameSpace
  specType := (specColumns serde schedule.spec).specType
  cronExpressions := (specColumns serde schedule.spec).cronExpressions
  intervalSeconds := (specColumns serde schedule.spec).intervalSeconds
  overlapPolicy := policyColumn schedule.policy
  actionWorkflowName := schedule.action.workflowName
  actionTaskQueue := schedule.action.taskQueue
  actionArgsJson := serde.mapToString schedule.action.args
  actionId := some schedule.action.id
  timeoutsJson := serde.timeoutsToString schedule.action.timeouts

def insertSchedule (serde : Serde) (schedule : Core.Schedule) : Prog World DbError Unit :=
  execute fun db =>
    if ∃ r ∈ db.schedules, r.scheduleId = schedule.scheduleId then
      .error (.unique "schedules.schedule_id")
    else .ok ((), { db with schedules := db.schedules ++ [scheduleRow serde schedule] })

/-- The assignments of `update_schedule_spec`. -/
def setSchedule (serde : Serde) (schedule : Core.Schedule) (r : ScheduleRow) : ScheduleRow :=
  { scheduleRow serde schedule with scheduleId := r.scheduleId, nameSpace := r.nameSpace }

/-- The rows that a request for an id in a namespace is about. -/
def named (scheduleId nameSpace : String) (r : ScheduleRow) : Bool :=
  r.scheduleId = scheduleId && r.nameSpace = nameSpace

def updateScheduleSpec (serde : Serde) (scheduleId nameSpace : String) (schedule : Core.Schedule) :
    Prog World DbError Unit :=
  execute fun db =>
    let schedules := Table.update (named scheduleId nameSpace) (setSchedule serde schedule)
      db.schedules
    .ok ((), { db with schedules })

def deleteSchedule (scheduleId nameSpace : String) : Prog World DbError Nat :=
  execute fun db =>
    .ok ((db.schedules.filter (named scheduleId nameSpace)).length,
      { db with schedules := db.schedules.filter (fun r => !named scheduleId nameSpace r) })

/-- `parse_datetime` of `schedules.rs`, which reads the two times of a row. -/
def parseDatetime (s : String) : Except DbError DateTime :=
  let naive := ["%Y-%m-%d %H:%M:%S%.f", "%Y-%m-%d %H:%M:%S", "%Y-%m-%dT%H:%M:%S%.f",
    "%Y-%m-%dT%H:%M:%S"].findSome? (NaiveDateTime.parseFromStr s)
  let zoned := ["%Y-%m-%dT%H:%M:%S%.fZ", "%Y-%m-%dT%H:%M:%SZ"].findSome?
    (DateTime.parseFromStr s)
  match naive <|> zoned with
  | some d => .ok d
  | none => .error (.other s!"Failed to parse datetime: {s}")

/-- A column of a row that is not text of the kind it should be. -/
def decoded (column : String) : Option α → Except DbError α
  | some a => .ok a
  | none => .error (.other s!"Failed to parse {column}")

def rowSpec (crates : Crates) (r : ScheduleRow) : Except DbError Core.ScheduleSpec :=
  match r.specType with
  | .cron => match r.cronExpressions with
    | some json => (decoded "cron_expressions" (crates.stringsFromStr json)).map .cron
    | none => .ok (.cron [])
  | .interval =>
    .ok (.interval (.fromSecs ((r.intervalSeconds.map Int64.toUInt64).getD 0)))

/-- Every buffer is read back with the size 1. -/
def rowPolicy (r : ScheduleRow) : Core.OverlapPolicy :=
  match r.overlapPolicy with
  | .skip => .skip
  | .buffer => .buffer 1
  | .terminate => .terminateExisting

/-- Its times are SQLite's own and always parse. -/
def rowToSchedule (crates : Crates) (serde : Serde) (r : ScheduleRow) :
    Except DbError Core.Schedule := do
  let spec ← rowSpec crates r
  let args ← decoded "action_args_json" (serde.mapFromStr r.actionArgsJson)
  let timeouts ← decoded "timeouts_json" (crates.timeoutsFromStr r.timeoutsJson)
  return {
    scheduleId := r.scheduleId
    nameSpace := r.nameSpace
    spec
    action := {
      workflowName := r.actionWorkflowName
      args
      taskQueue := r.actionTaskQueue
      id := r.actionId.getD ""
      timeouts }
    policy := rowPolicy r }

def getSchedule (crates : Crates) (serde : Serde) (scheduleId : String) :
    Prog World DbError (Option Core.Schedule) :=
  query fun db =>
    match db.schedules.filter (fun r => r.scheduleId = scheduleId) with
    | r :: _ => (rowToSchedule crates serde r).map some
    | [] => .ok none

/-- `ORDER BY created_at ASC`: SQLite's sorter keeps rows of one second in table order.
`created` is the column of that name, by the unique id of the row. -/
def oldestFirst (created : String → Clock) (rows : List ScheduleRow) : List ScheduleRow :=
  rows.insertionSort
    (fun a b => textLe (created a.scheduleId).datetime (created b.scheduleId).datetime = true)

/-- One undecodable row makes the whole listing fail. -/
def listSchedules (crates : Crates) (serde : Serde) (created : String → Clock)
    (nameSpace : String) : Prog World DbError (List Core.Schedule) :=
  query fun db =>
    (oldestFirst created (db.schedules.filter (fun r => r.nameSpace = nameSpace))).mapM
      (rowToSchedule crates serde)

end Khronos.Db.Schedules
