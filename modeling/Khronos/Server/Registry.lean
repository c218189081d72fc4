import Khronos.Server.Schedules
import Khronos.Server.Temporal

namespace Khronos.Server.Temporal
open Time Lib Db.Schedules

/-- The fields of a Temporal `ScheduleSpec` that the server reads; an interval is the seconds of
its `Duration`. -/
structure ScheduleSpec where
  cronString : List String
  interval : List (Option Int64)

structure NewWorkflowExecutionInfo where
  workflowId : String
  workflowType : Option String
  taskQueue : Option String
  input : Option (List Payload)

/-- To start a workflow is the only action there is. -/
structure ScheduleAction where
  startWorkflow : Option NewWorkflowExecutionInfo

/-- A Temporal `Schedule`, with the overlap policy of its policies. -/
structure Schedule where
  spec : Option ScheduleSpec
  action : Option ScheduleAction
  overlapPolicy : Option Int32

structure CreateScheduleRequest where
  nameSpace : String
  scheduleId : String
  schedule : Option Schedule

structure UpdateScheduleRequest where
  nameSpace : String
  scheduleId : String
  schedule : Option Schedule

structure DescribeScheduleRequest where
  nameSpace : String
  scheduleId : String

structure DeleteScheduleRequest where
  nameSpace : String
  scheduleId : String

/-- `cron_string.join(",")`. -/
def joined (cronString : List String) : String := ",".intercalate cronString

/-- The seconds of the first interval. -/
def firstSeconds (interval : List (Option Int64)) : Int64 := interval.head?.join.getD 0

/-- The columns `create_schedule` writes for a spec: the cron expressions are not JSON. -/
def specColumns (spec : ScheduleSpec) : Except Status SpecColumns :=
  if !spec.cronString.isEmpty then .ok ⟨.cron, some (joined spec.cronString), some 0⟩
  else if !spec.interval.isEmpty then .ok ⟨.interval, some "", some (firstSeconds spec.interval)⟩
  else .error (Status.invalidArgument "schedule spec must have cron_string or interval")

def cronPrefix : String := "lycus-cron-"

/-- The text of the first payload; with no input at all, the job that the id names. -/
def actionArgs (crates : Crates) (scheduleId : String) (sw : NewWorkflowExecutionInfo) : String :=
  match sw.input with
  | some payloads => (payloads.head?.map (fun p => fromUtf8Lossy crates p.data)).getD ""
  | none =>
    if cronPrefix.toList.isPrefixOf scheduleId.toList then
      String.ofList (scheduleId.toList.drop cronPrefix.length)
    else ""

def storedPolicy (overlapPolicy : Int32) : OverlapPolicy :=
  if overlapPolicy = 2 ∨ overlapPolicy = 3 then .buffer
  else if overlapPolicy = 4 ∨ overlapPolicy = 5 then .terminate
  else .skip

/-- The row that a request to create describes. -/
def requestedRow (crates : Crates) (req : CreateScheduleRequest) : Except Status ScheduleRow := do
  let schedule ← required "schedule" req.schedule
  let spec ← required "schedule spec" schedule.spec
  let action ← required "schedule action" schedule.action
  let columns ← specColumns spec
  let sw ← required "schedule action start_workflow" action.startWorkflow
  return {
    scheduleId := req.scheduleId
    nameSpace := orDefault req.nameSpace
    specType := columns.specType
    cronExpressions := columns.cronExpressions
    intervalSeconds := columns.intervalSeconds
    overlapPolicy := storedPolicy (schedule.overlapPolicy.getD 0)
    actionWorkflowName := sw.workflowType.getD ""
    actionTaskQueue := sw.taskQueue.getD ""
    actionArgsJson := actionArgs crates req.scheduleId sw
    actionId := some sw.workflowId
    timeoutsJson := "\x7b\x7d" }

/-- A request that describes a row has all parts of a schedule, and a valid spec. -/
theorem requestedRow_ok {req : CreateScheduleRequest} (h : requestedRow crates req = .ok row) :
    ∃ schedule spec action columns sw, req.schedule = some schedule ∧ schedule.spec = some spec ∧
      schedule.action = some action ∧ specColumns spec = .ok columns ∧
      action.startWorkflow = some sw ∧ row = {
        scheduleId := req.scheduleId
        nameSpace := orDefault req.nameSpace
        specType := columns.specType
        cronExpressions := columns.cronExpressions
        intervalSeconds := columns.intervalSeconds
        overlapPolicy := storedPolicy (schedule.overlapPolicy.getD 0)
        actionWorkflowName := sw.workflowType.getD ""
        actionTaskQueue := sw.taskQueue.getD ""
        actionArgsJson := actionArgs crates req.scheduleId sw
        actionId := some sw.workflowId
        timeoutsJson := "\x7b\x7d" } := by
  unfold requestedRow at h
  obtain ⟨schedule, hschedule, h⟩ := bind_eq_ok.mp h
  obtain ⟨spec, hspec, h⟩ := bind_eq_ok.mp h
  obtain ⟨action, haction, h⟩ := bind_eq_ok.mp h
  obtain ⟨columns, hcolumns, h⟩ := bind_eq_ok.mp h
  obtain ⟨sw, hsw, h⟩ := bind_eq_ok.mp h
  exact ⟨schedule, spec, action, columns, sw, required_ok.mp hschedule, required_ok.mp hspec,
    required_ok.mp haction, hcolumns, required_ok.mp hsw, (Except.ok.inj h).symm⟩

def insertRow (row : ScheduleRow) : Prog World DbError Unit :=
  execute fun db =>
    if ∃ r ∈ db.schedules, r.scheduleId = row.scheduleId then
      .error (.unique "schedules.schedule_id")
    else .ok ((), { db with schedules := db.schedules ++ [row] })

/-- `create_schedule` of the Temporal interface tells nobody of the new schedule. -/
def createSchedule (crates : Crates) (req : CreateScheduleRequest) : Prog World Status Unit :=
  match requestedRow crates req with
  | .error status => Prog.raise status
  | .ok row => (insertRow row).mapError (Status.internal "Failed to create schedule")

/-- An assignment of the UPDATE that `update_schedule` puts together. -/
inductive Assignment where
  | cron (cronExpressions : String)
  | interval (seconds : Int64)
  | workflowName (name : String)
  | taskQueue (name : String)
  | actionId (id : String)
  | overlapPolicy (policy : OverlapPolicy)

def policyText : OverlapPolicy → String
  | .skip => "skip"
  | .buffer => "buffer"
  | .terminate => "terminate"

/-- Texts are put between quotes as they are. -/
def Assignment.sql : Assignment → String
  | .cron text => s!"spec_type = 'cron', cron_expressions = '{text}'"
  | .interval secs => s!"spec_type = 'interval', interval_seconds = {secs.toInt}"
  | .workflowName text => s!"action_workflow_name = '{text}'"
  | .taskQueue text => s!"action_task_queue = '{text}'"
  | .actionId text => s!"action_id = '{text}'"
  | .overlapPolicy policy => s!"overlap_policy = '{policyText policy}'"

/-- What an assignment says as long as its text ends where its quotes do. -/
def Assignment.apply : Assignment → ScheduleRow → ScheduleRow
  | .cron text, r => { r with specType := .cron, cronExpressions := some text }
  | .interval secs, r => { r with specType := .interval, intervalSeconds := some secs }
  | .workflowName text, r => { r with actionWorkflowName := text }
  | .taskQueue text, r => { r with actionTaskQueue := text }
  | .actionId text, r => { r with actionId := some text }
  | .overlapPolicy policy, r => { r with overlapPolicy := policy }

/-- The request's own text in an assignment. -/
def Assignment.text : Assignment → String
  | .cron text => text
  | .workflowName text => text
  | .taskQueue text => text
  | .actionId text => text
  | .interval _ => ""
  | .overlapPolicy _ => ""

/-- A text that SQLite reads as one literal: without a quote, and without the NUL that would end
the statement. -/
def plain (text : String) : Bool :=
  text.toList.all (fun c => c ≠ Char.ofNat 39 && c ≠ Char.ofNat 0)

def specAssignments (spec : ScheduleSpec) : List Assignment :=
  if !spec.cronString.isEmpty then [.cron (joined spec.cronString)]
  else if !spec.interval.isEmpty then [.interval (firstSeconds spec.interval)]
  else []

def actionAssignments (sw : NewWorkflowExecutionInfo) : List Assignment :=
  (sw.workflowType.map .workflowName).toList ++ (sw.taskQueue.map .taskQueue).toList ++
    if sw.workflowId.isEmpty then [] else [.actionId sw.workflowId]

def assignments (schedule : Schedule) : List Assignment :=
  (schedule.spec.map specAssignments).getD [] ++
    ((schedule.action.bind ScheduleAction.startWorkflow).map actionAssignments).getD [] ++
    (schedule.overlapPolicy.map fun p => .overlapPolicy (storedPolicy p)).toList

/-- The text of the UPDATE. -/
def updateSql (sets : List Assignment) : String :=
  let setClause := ", ".intercalate ("updated_at = datetime('now')" :: sets.map Assignment.sql)
  s!"UPDATE schedules SET {setClause} WHERE schedule_id = ?1 AND namespace = ?2"

/-- What SQLite and `rusqlite` make of a statement on `schedules` with its two parameters, where
it is not the one that was meant: what it reports, and the rows it leaves. -/
abbrev Spliced := String → String → String → List ScheduleRow → Except DbError Unit × List ScheduleRow

def applyAll (sets : List Assignment) (r : ScheduleRow) : ScheduleRow :=
  sets.foldl (fun r set => set.apply r) r

def updateRow (spliced : Spliced) (scheduleId nameSpace : String) (sets : List Assignment) :
    Prog World DbError Unit :=
  if sets.all (fun set => plain set.text) then
    execute fun db =>
      let schedules := Table.update (named scheduleId nameSpace) (applyAll sets) db.schedules
      .ok ((), { db with schedules })
  else
    let outcome := fun w : World => spliced (updateSql sets) scheduleId nameSpace w.db.schedules
    .sql (fun w => { w with db := { w.db with schedules := (outcome w).2 } })
      (fun w => .done (.ofExcept (outcome w).1)) (Prog.raise .storage)

/-- `update_schedule` of the Temporal interface: the row is looked for before the request is
looked at, and under its own namespace. -/
def updateSchedule (spliced : Spliced) (req : UpdateScheduleRequest) : Prog World Status Unit := do
  let found := named req.scheduleId (orDefault req.nameSpace)
  let present ← (query fun db => .ok (db.schedules.any found)).mapError
    (Status.internal "Failed to check schedule")
  if present then
    match required "schedule" req.schedule with
    | .error status => Prog.raise status
    | .ok schedule =>
      (updateRow spliced req.scheduleId (orDefault req.nameSpace) (assignments schedule)).mapError
        (Status.internal "Failed to update schedule")
  else
    Prog.raise ⟨.notFound, "Schedule not found"⟩

/-- The schedule that `describe_schedule` makes of a row. -/
def describedSchedule (crates : Crates) (r : ScheduleRow) : Schedule where
  spec := some (match r.specType with
    | .cron => ⟨(r.cronExpressions.bind crates.stringsFromStr).getD [], []⟩
    | .interval =>
      ⟨[], if 0 < r.intervalSeconds.getD 0 then [some (r.intervalSeconds.getD 0)] else []⟩)
  action := some ⟨some ⟨r.actionId.getD "", some r.actionWorkflowName, some r.actionTaskQueue, none⟩⟩
  overlapPolicy := some (match r.overlapPolicy with
    | .skip => 1
    | .buffer => 2
    | .terminate => 4)

def describeSchedule (crates : Crates) (req : DescribeScheduleRequest) :
    Prog World Status Schedule := do
  let found := named req.scheduleId (orDefault req.nameSpace)
  let failed := Status.internal "Failed to describe schedule"
  let count ← (query fun db => .ok (db.schedules.countP found)).mapError failed
  if count = 0 then
    Prog.raise ⟨.notFound, "Schedule not found"⟩
  else
    let row ← (query fun db => queryRow (db.schedules.filter found)).mapError failed
    return describedSchedule crates row

def deleteSchedule (req : DeleteScheduleRequest) : Prog World Status Unit := do
  let _ ← (Db.Schedules.deleteSchedule req.scheduleId (orDefault req.nameSpace)).mapError
    (Status.internal "Failed to delete schedule")
  return ()

/-- The rows of `namespaces` of a name. No statement of the server adds one, so that the table is
a parameter and not a part of the state. -/
def namespaceCount (namespaces : List String) (name : String) : Prog World Status Nat := do
  let count ← (query fun _ => .ok (namespaces.count name)).attempt
  return unwrapOr 0 (count : Except DbError Nat)

/-- `register_namespace`: its INSERT names a column `updated_at`, which the table does not have. -/
def registerNamespace (namespaces : List String) (name : String) : Prog World Status Unit := do
  if (← namespaceCount namespaces name) = 0 then
    (execute fun _ => .error (.other "table namespaces has no column named updated_at")).mapError
      (Status.internal "Failed to create namespace")

def describeNamespace (namespaces : List String) (name : String) : Prog World Status String := do
  if (← namespaceCount namespaces name) = 0 then
    Prog.raise ⟨.notFound, s!"Namespace '{name}' not found"⟩
  else
    return name

end Khronos.Server.Temporal
