import Mathlib.Data.List.Sort
import Khronos.Server.Scheduler

namespace Khronos.Server.Scheduler
open Time Lib Db.Activities Db.Workflows

structure ScheduleEntry where
  nextFireTime : DateTime
  scheduleId : String
deriving DecidableEq

/-- `cmp`: by time, and entries of one time by id. -/
def ScheduleEntry.le (a b : ScheduleEntry) : Bool :=
  decide (a.nextFireTime.nanos < b.nextFireTime.nanos) ||
    (decide (a.nextFireTime.nanos = b.nextFireTime.nanos) && textLe a.scheduleId b.scheduleId)

/-- The entries in the order in which the heap gives them out. -/
structure Heap where
  entries : List ScheduleEntry
  sorted : entries.Pairwise (fun a b => a.le b = true)

def Heap.empty : Heap := ⟨[], .nil⟩

instance : IsTrans ScheduleEntry (fun a b => a.le b = true) where
  trans a b c hab hbc := by
    simp only [ScheduleEntry.le, textLe, Bool.or_eq_true, Bool.and_eq_true, decide_eq_true_eq,
      Bool.not_eq_true', decide_eq_false_iff_not, String.not_lt] at *
    rcases hab with hab | ⟨hab, hid⟩
    · rcases hbc with hbc | ⟨hbc, _⟩
      · exact .inl (by omega)
      · exact .inl (by omega)
    · rcases hbc with hbc | ⟨hbc, hid'⟩
      · exact .inl (by omega)
      · exact .inr ⟨by omega, String.le_trans hid hid'⟩

instance : Std.Total (fun a b : ScheduleEntry => a.le b = true) where
  total a b := by
    simp only [ScheduleEntry.le, textLe, Bool.or_eq_true, Bool.and_eq_true, decide_eq_true_eq,
      Bool.not_eq_true', decide_eq_false_iff_not, String.not_lt]
    rcases Int.lt_trichotomy a.nextFireTime.nanos b.nextFireTime.nanos with h | h | h
    · exact .inl (.inl h)
    · exact (String.le_total a.scheduleId b.scheduleId).imp (fun hid => .inr ⟨h, hid⟩)
        (fun hid => .inr ⟨h.symm, hid⟩)
    · exact .inr (.inl h)

def Heap.push (e : ScheduleEntry) (heap : Heap) : Heap :=
  ⟨heap.entries.orderedInsert (fun a b => a.le b = true) e, heap.sorted.orderedInsert e _⟩

/-- The first of the expressions that has an occurrence to come; each is asked at a reading of
its own. -/
def calculateNextCronFire (crates : Crates) (env : Env) (info : ScheduleRow) : Option DateTime :=
  (info.cronExpressions.bind crates.stringsFromStr).bind fun expressions =>
    expressions.zipIdx.findSome? fun (expr, i) => (crates.cronUpcoming expr (env.now i).time).join

/-- `time + chrono::Duration::seconds(secs as i64)`. -/
def plusSeconds (time : DateTime) (secs : UInt64) : Prog World DbError DateTime :=
  match (Duration.seconds secs.toInt64.toInt).bind time.add with
  | some next => return next
  | none => Prog.panic

def calculateNextIntervalFire (env : Env) (info : ScheduleRow) (now : Clock) :
    Prog World DbError (Option DateTime) := do
  let intervalSecs := (info.intervalSeconds.map Int64.toUInt64).getD 0
  if intervalSecs = 0 then
    return none
  match ← getLastStarted info.scheduleId with
  | some last =>
    let next ← plusSeconds last intervalSecs
    if now.time.nanos < next.nanos then
      return some next
    else
      return some (← plusSeconds now.time intervalSecs)
  | none => return some (env.now 0).time

/-- When a schedule fires next, as both the reload and the update of one schedule compute it. -/
def nextFireTime (crates : Crates) (env : Env) (info : ScheduleRow) (now : Clock) :
    Prog World DbError (Option DateTime) :=
  match info.specType with
  | .cron => return calculateNextCronFire crates env info
  | .interval => calculateNextIntervalFire env info now

/-- `next_fires`: one entry for an id, with its earliest time. -/
def keepEarliest (fires : List ScheduleEntry) (e : ScheduleEntry) : List ScheduleEntry :=
  if fires.any (fun f => f.scheduleId = e.scheduleId) then
    fires.map fun f => if f.scheduleId = e.scheduleId ∧ e.nextFireTime.nanos < f.nextFireTime.nanos
      then e else f
  else fires ++ [e]

def nextFires (crates : Crates) (env : Env) (now : Clock) :
    List (ScheduleRow × Nat) → List ScheduleEntry → Prog World DbError (List ScheduleEntry)
  | [], fires => return fires
  | (info, i) :: rows, fires => do
    match ← nextFireTime crates (env.part i) info now with
    | some t => nextFires crates env now rows (keepEarliest fires ⟨t, info.scheduleId⟩)
    | none => nextFires crates env now rows fires

/-- The new heap; the old one is dropped only when this succeeds. -/
def reloadAllSchedules (crates : Crates) (env : Env) : Prog World DbError Heap := do
  let rows ← query (fun db => .ok db.schedules)
  let fires ← nextFires crates (env.part 1) (env.now 0) rows.zipIdx []
  return fires.foldr Heap.push .empty

/-- The loop over the entries that are due: the first that is not goes back into the heap. -/
def processDue (crates : Crates) (env : Env) (now : Clock) :
    (entries : List ScheduleEntry) → entries.Pairwise (fun a b => a.le b = true) → Nat →
      Prog World DbError (List String × Heap)
  | [], sorted, _ => return ([], ⟨[], sorted⟩)
  | e :: rest, sorted, i =>
    if now.time.nanos < e.nextFireTime.nanos then
      return ([], ⟨e :: rest, sorted⟩)
    else do
      let _ ← ((processSchedule crates (env.part i) e.scheduleId).attempt :
        Prog World DbError (Except DbError Unit))
      let (firedIds, heap) ← processDue crates env now rest sorted.of_cons (i + 1)
      return (e.scheduleId :: firedIds, heap)

/-- The statement of `update_schedule_next_fire`: in its source text the backslashes at the
line ends are escaped, so they and the line ends are part of it. -/
def updateStatement : String :=
  "SELECT schedule_id, namespace, spec_type, cron_expressions, \\\n             interval_seconds, overlap_policy, action_workflow_name, \\\n             action_task_queue, action_args_json, timeouts_json \\\n             FROM schedules WHERE schedule_id = ?1"

/-- No token of SQLite's begins with a backslash, and this text holds no quoted one. -/
def prepares (sql : String) : Bool := !sql.toList.contains '\\'

/-- An error of the query counts as a schedule that was deleted. -/
def updateScheduleNextFire (crates : Crates) (env : Env) (scheduleId : String) (heap : Heap) :
    Prog World DbError Heap := do
  let found ← (query fun db =>
    if prepares updateStatement then scheduleInfo scheduleId db
    else .error (.other "unrecognized token: \"\\\"")).attempt
  match (found : Except DbError ScheduleRow) with
  | .error _ => return heap
  | .ok info => match ← nextFireTime crates (env.part 1) info (env.now 0) with
    | some t => return heap.push ⟨t, scheduleId⟩
    | none => return heap

def updateFired (crates : Crates) (env : Env) :
    List (String × Nat) → Heap → Prog World DbError Heap
  | [], heap => return heap
  | (scheduleId, i) :: ids, heap => do
    let updated ← (updateScheduleNextFire crates (env.part i) scheduleId heap).attempt
    match (updated : Except DbError Heap) with
    | .ok heap => updateFired crates env ids heap
    | .error _ => updateFired crates env ids heap

/-- The branch of the loop that the sleep ends in. -/
def wake (crates : Crates) (env : Env) (heap : Heap) : Prog World DbError Heap := do
  let (firedIds, heap) ← processDue crates (env.part 1) (env.now 0) heap.entries heap.sorted 0
  updateFired crates (env.part 2) firedIds.zipIdx heap

end Khronos.Server.Scheduler
