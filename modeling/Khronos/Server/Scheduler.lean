import Khronos.Server.Workflows
import Khronos.Server.Temporal

namespace Khronos.Server.Scheduler
open Time Lib Db.Activities Db.Workflows

/-- `LIKE`: `%` stands for any text and `_` for any character; ASCII letters are compared
without their case. -/
def likeMatch (pattern : List Char) (text : List Char) : Bool :=
  match pattern with
  | [] => text.isEmpty
  | '%' :: rest => text.tails.any (likeMatch rest)
  | c :: rest => match text with
    | d :: text => (c = '_' || c.toLower = d.toLower) && likeMatch rest text
    | [] => false

/-- `format!("schedule:{}-%", schedule_id)`; the id is not escaped. -/
def pattern (scheduleId : String) : String := s!"schedule:{scheduleId}-%"

/-- What `LIKE` reads of a text: SQLite stops at a NUL. -/
def cText (s : String) : List Char := s.toList.takeWhile (fun c => c ≠ Char.ofNat 0)

/-- The runs a schedule takes for its own. -/
def ofSchedule (scheduleId : String) (r : WorkflowRow) : Bool :=
  likeMatch (cText (pattern scheduleId)) (cText r.workflowId)

/-- `LIKE` refuses a pattern of more than `SQLITE_MAX_LIKE_PATTERN_LENGTH` bytes. -/
def tooComplex (scheduleId : String) : Bool := decide (50000 < (pattern scheduleId).utf8ByteSize)

/-- What a query reads that compares these rows with the pattern of a schedule; a pattern that is
refused is so at the first row. -/
def compared (scheduleId : String) (rows : List WorkflowRow) (value : α) : Except DbError α :=
  if tooComplex scheduleId && !rows.isEmpty then .error (.other "LIKE or GLOB pattern too complex")
  else .ok value

theorem compared_eq_ok {rows : List WorkflowRow} {value v : α} :
    compared scheduleId rows value = .ok v ↔
      (tooComplex scheduleId = true → rows = []) ∧ value = v := by
  unfold compared
  cases tooComplex scheduleId <;> cases rows <;> simp

theorem not_tooComplex {p : Prop} (h : tooComplex scheduleId = false)
    (ht : tooComplex scheduleId = true) : p :=
  absurd (h.symm.trans ht) Bool.false_ne_true

theorem compared_fits (h : tooComplex scheduleId = false) (rows : List WorkflowRow) (value : α) :
    compared scheduleId rows value = .ok value :=
  compared_eq_ok.mpr ⟨not_tooComplex h, rfl⟩

/-- `parse_datetime` of `scheduler.rs`: naive formats first. -/
def parseDatetime (s : String) : Except DbError DateTime :=
  let naive := ["%Y-%m-%d %H:%M:%S%.f", "%Y-%m-%d %H:%M:%S", "%Y-%m-%dT%H:%M:%S%.f",
    "%Y-%m-%dT%H:%M:%S"].findSome? (NaiveDateTime.parseFromStr s)
  let zoned := ["%Y-%m-%dT%H:%M:%S%.fZ", "%Y-%m-%dT%H:%M:%SZ"].findSome?
    (DateTime.parseFromStr s)
  match naive <|> zoned with
  | some d => .ok d
  | none => .error (.other s!"Failed to parse datetime: {s}")

/-- `MAX` of a text column; NULL does not count. -/
def maxText (texts : List (Option String)) : Option String :=
  texts.foldl (fun best t => match best, t with
    | some b, some t => some (if textLe b t then t else b)
    | some b, none => some b
    | none, t => t) none

/-- The latest start of a run of the schedule. -/
def lastStarted (scheduleId : String) (db : Db) : Option String :=
  maxText ((db.workflows.filter (ofSchedule scheduleId)).map (·.startedAt))

/-- `SELECT MAX(started_at) FROM workflows WHERE workflow_id LIKE ?1`. -/
def selectLastStarted (scheduleId : String) (db : Db) : Except DbError (Option String) :=
  compared scheduleId db.workflows (lastStarted scheduleId db)

def getLastStarted (scheduleId : String) : Prog World DbError (Option DateTime) := do
  match ← query (selectLastStarted scheduleId) with
  | some text => match parseDatetime text with
    | .ok last => return some last
    | .error e => Prog.raise e
  | none => return none

def checkInterval (scheduleId : String) (intervalSecs : UInt64) (now : Clock) :
    Prog World DbError Bool := do
  -- `unwrap_or(None)`: a failed read counts as no run.
  let last ← (query (selectLastStarted scheduleId)).attempt
  match unwrapOr none last with
  | some text => match parseDatetime text with
    | .error e => Prog.raise e
    | .ok last => return decide (intervalSecs.toInt64.toInt ≤ (now.time.since last).numSeconds)
  | none => return true

/-- Whether an expression's next occurrence lies within the second after `now`; the crate
reads the clock again for it. -/
def cronMatches (crates : Crates) (now reading : Clock) (expr : String) : Bool :=
  match crates.cronUpcoming expr reading.time with
  | some (some next) =>
    let diff := (next.since now.time).numSeconds
    decide (0 ≤ diff ∧ diff ≤ 1)
  | _ => false

def checkCronMatch (crates : Crates) (env : Env) (expressions : List String) (now : Clock) :
    Bool :=
  expressions.zipIdx.any fun (expr, i) => cronMatches crates now (env.now i) expr

/-- Whether a schedule should fire now. -/
def shouldFire (crates : Crates) (env : Env) (info : ScheduleRow) : Prog World DbError Bool :=
  match info.specType with
  | .cron => match info.cronExpressions.bind crates.stringsFromStr with
    | some expressions => return checkCronMatch crates (env.part 1) expressions (env.now 0)
    | none => return false
  | .interval => match info.intervalSeconds with
    | some secs => checkInterval info.scheduleId secs.toUInt64 (env.now 0)
    | none => return false

/-- The active runs of a schedule. -/
def activeOf (scheduleId : String) (db : Db) : List WorkflowRow :=
  db.workflows.filter (fun r => ofSchedule scheduleId r && active r)

/-- A query of the active runs of a schedule; the index on the state gives it the active runs to
compare. -/
def selectActive (scheduleId : String) (f : List WorkflowRow → α) (db : Db) : Except DbError α :=
  compared scheduleId (db.workflows.filter active) (f (activeOf scheduleId db))

def checkRunningWorkflow (scheduleId : String) : Prog World DbError Bool :=
  query (selectActive scheduleId fun runs => decide (0 < runs.length))

def terminateExisting (env : Env) (scheduleId : String) : Prog World DbError Unit := do
  -- `filter_map(|r| r.ok())`: a row that cannot be read is left out.
  let ids ← (query (selectActive scheduleId fun runs => runs.map (·.runId))).attempt
  Prog.forEach (unwrapOr [] ids).zipIdx fun (runId, i) =>
    Db.Workflows.cancelWorkflow (env.now i) runId.text

/-- The run a schedule starts; it counts as started at once. -/
def scheduledInstance (crates : Crates) (env : Env) (info : ScheduleRow) : WorkflowInstance where
  runId := env.uuid 0
  workflowId := s!"schedule:{info.scheduleId}-{shortId (env.uuid 0)}"
  name := info.actionWorkflowName
  taskQueue := info.actionTaskQueue
  state := .pending
  argsJson := if info.actionArgsJson.isEmpty then .empty
    else .object [("job_id", .string info.actionArgsJson)]
  resultJson := none
  timeouts := (crates.timeoutsFromStr info.timeoutsJson).getD .default
  startedAt := some (env.now 0).time
  completedAt := none
  nameSpace := info.nameSpace

/-- The single argument of each step. -/
def scheduledArgs (info : ScheduleRow) : Json :=
  if info.actionArgsJson.isEmpty then .null else .string info.actionArgsJson

def startScheduleWorkflow (crates : Crates) (env : Env) (info : ScheduleRow) :
    Prog World DbError Unit := do
  let workflow := scheduledInstance crates env info
  insertWorkflow workflow
  insertSteps (env.part 1) workflow.runId (fun _ => scheduledArgs info) (fun _ e => e)
    (scheduleWorkflowDefinition info.actionWorkflowName)
  send (.workflowCreated workflow.runId.text)

def scheduleInfo (scheduleId : String) (db : Db) : Except DbError ScheduleRow :=
  queryRow (db.schedules.filter (fun r => r.scheduleId = scheduleId))

/-- `process_schedule`: a schedule that was deleted is passed over. -/
def processSchedule (crates : Crates) (env : Env) (scheduleId : String) :
    Prog World DbError Unit := do
  match ← (query (scheduleInfo scheduleId)).attempt with
  | (.error _ : Except DbError ScheduleRow) => return ()
  | .ok info =>
    if ← shouldFire crates (env.part 0) info then
      let hasRunning ← checkRunningWorkflow scheduleId
      match info.overlapPolicy with
      | .skip =>
        if hasRunning then
          return ()
        else
          startScheduleWorkflow crates (env.part 2) info
      | .terminate =>
        if hasRunning then
          terminateExisting (env.part 1) scheduleId
        startScheduleWorkflow crates (env.part 2) info
      | .buffer => startScheduleWorkflow crates (env.part 2) info

end Khronos.Server.Scheduler
