import Khronos.Core.Types
import Khronos.Lib.Programs
import Khronos.Lib.Tables

namespace Khronos
open Time Lib

/-- `workflow_steps.state`: its CHECK admits `retried` and not `cancelled`. -/
inductive StepState where
  | pending | running | completed | failed | retried
deriving DecidableEq, Repr

/-- `activities.state`, as its CHECK admits it. -/
inductive AttemptState where
  | pending | running | completed | failed
deriving DecidableEq, Repr

/-- A step that no further work is meant to change. -/
def StepState.settled : StepState → Bool
  | .completed | .failed => true
  | .pending | .running | .retried => false

/-- A row of `workflows`. The JSON columns hold what `serde_json::to_string` wrote of
these values; times are text. -/
structure WorkflowRow where
  runId : Uuid
  workflowId : String
  name : String
  taskQueue : String
  state : WorkflowState
  argsJson : Json
  resultJson : Option Json
  executionTimeoutSecs : Option Int64
  runTimeoutSecs : Option Int64
  taskTimeoutSecs : Option Int64
  startedAt : Option String
  completedAt : Option String
  nameSpace : String

/-- A row of `workflow_steps`. The cast of `attempt` to the column and back loses nothing. -/
structure WorkflowStepRow where
  id : Uuid
  workflowRunId : Uuid
  stepIndex : Int64
  activityName : String
  argsJson : Json
  retryPolicyJson : RetryPolicy
  timeoutSecs : Int64
  heartbeatTimeoutSecs : Option Int64
  state : StepState
  attempt : UInt32
  resultJson : Option Json
  nextRetryAt : Option String
  createdAt : String

/-- A row of `activities`. -/
structure ActivityRow where
  id : Uuid
  stepId : Uuid
  attempt : UInt32
  state : AttemptState
  startedAt : Option String
  completedAt : Option String
  lastHeartbeatAt : Option String
  resultJson : Option Json
  errorMessage : Option String

inductive SpecType where
  | cron | interval
deriving DecidableEq, Repr

inductive OverlapPolicy where
  | skip | buffer | terminate
deriving DecidableEq, Repr

/-- A row of `schedules`. SQLite fills its two times by itself, and they are kept apart. -/
structure ScheduleRow where
  scheduleId : String
  nameSpace : String
  specType : SpecType
  cronExpressions : Option String
  intervalSeconds : Option Int64
  overlapPolicy : OverlapPolicy
  actionWorkflowName : String
  actionTaskQueue : String
  actionArgsJson : String
  actionId : Option String
  timeoutsJson : String

/-- Rows stand in the order of their insertion. -/
structure Db where
  schedules : List ScheduleRow
  workflows : List WorkflowRow
  workflowSteps : List WorkflowStepRow
  activities : List ActivityRow

def Db.empty : Db := ⟨[], [], [], []⟩

/-- What a statement can report. -/
inductive DbError where
  | noRows
  | unique (column : String)
  | foreignKey
  | check (condition : String)
  | storage
  | other (message : String)
deriving DecidableEq, Repr

def DbError.display : DbError → String
  | .noRows => "Query returned no rows"
  | .unique column => s!"UNIQUE constraint failed: {column}"
  | .foreignKey => "FOREIGN KEY constraint failed"
  | .check condition => s!"CHECK constraint failed: {condition}"
  | .storage => "disk I/O error"
  | .other message => message

/-- Events that drive the engine. -/
inductive EngineEvent where
  | workflowCreated (runId : String)
  | stepCompleted (workflowRunId : String)
  | scheduleChange
  | retryDue (stepId : String)
  | heartbeatTimeout (activityId : String)
deriving DecidableEq, Repr

/-- A spawned task that sleeps until a deadline and then sends an event. -/
structure Timer where
  deadline : DateTime
  event : EngineEvent
deriving DecidableEq, Repr

/-- The database file and the server's memory: the engine's event channel, oldest event
first, and its sleeping timers. -/
structure World where
  db : Db
  queue : List EngineEvent
  timers : List Timer

def World.empty : World := ⟨.empty, [], []⟩

/-- A server with an empty memory over a database. -/
def World.ofDb (db : Db) : World := ⟨db, [], []⟩

def query (f : Db → Except DbError α) : Prog World DbError α :=
  Prog.query .storage (fun w => f w.db)

def execute (f : Db → Except DbError (α × Db)) : Prog World DbError α :=
  Prog.execute .storage (fun w => (f w.db).map (fun r => (r.1, { w with db := r.2 })))

/-- `query_row` on a list of selected rows. -/
def queryRow (rows : List α) : Except DbError α :=
  match rows with
  | row :: _ => .ok row
  | [] => .error .noRows

/-- `broadcast::channel(256)`: a sender never waits, the oldest events give way. -/
def capacity : Nat := 256

@[irreducible] def enqueue (queue : List EngineEvent) (e : EngineEvent) : List EngineEvent :=
  (queue ++ [e]).drop ((queue ++ [e]).length - capacity)

theorem enqueue_length (queue : List EngineEvent) (e : EngineEvent) :
    (enqueue queue e).length ≤ capacity := by
  unfold enqueue
  rw [List.length_drop]
  omega

theorem enqueue_new (queue : List EngineEvent) (e : EngineEvent) : e ∈ enqueue queue e := by
  have hsub : (queue ++ [e]).length - capacity ≤ queue.length := by
    simp [capacity]
  unfold enqueue
  rw [List.drop_append_of_le_length hsub]
  exact List.mem_append_right _ (List.mem_singleton_self e)

/-- A channel that is full loses its oldest event to a new one, and no other. -/
theorem enqueue_keeps {queue : List EngineEvent} (hlen : queue.length ≤ capacity)
    (hd : d ∈ queue) (hfull : capacity ≤ queue.length → d ∈ queue.tail) (e : EngineEvent) :
    d ∈ enqueue queue e := by
  unfold enqueue
  by_cases hc : capacity ≤ queue.length
  · have hone : (queue ++ [e]).length - capacity = 1 := by
      simp only [List.length_append, List.length_singleton]
      omega
    rw [hone, List.drop_append_of_le_length (by unfold capacity at hc; omega), List.drop_one]
    exact List.mem_append_left _ (hfull hc)
  · have hzero : (queue ++ [e]).length - capacity = 0 := by
      simp only [List.length_append, List.length_singleton]
      omega
    rw [hzero, List.drop_zero]
    exact List.mem_append_left _ hd

/-- `let _ = tx.send(event)`. -/
def send (e : EngineEvent) : Prog World ε Unit :=
  Prog.modify (fun w => { w with queue := enqueue w.queue e })

@[simp] theorem run_query (f : Db → Except DbError α) (w : World) :
    (query f).run w = (.ofExcept (f w.db), w) := rfl

theorem run_execute (f : Db → Except DbError (α × Db)) (w : World) :
    (execute f).run w = match f w.db with
      | .ok (a, db) => (.ok a, { w with db })
      | .error e => (.error e, w) := by
  rw [execute, Prog.run_execute]
  cases f w.db <;> rfl

@[simp] theorem run_send (e : EngineEvent) (w : World) :
    (send e : Prog World ε Unit).run w = (.ok (), { w with queue := enqueue w.queue e }) := rfl

inductive Code where
  | invalidArgument | notFound | internal
deriving DecidableEq, Repr

/-- `tonic::Status`. -/
structure Status where
  code : Code
  message : String
deriving DecidableEq, Repr

/-- `map_err(|e| Status::internal(format!("{context}: {e}")))`. -/
def Status.internal (context : String) (e : DbError) : Status :=
  ⟨.internal, s!"{context}: {e.display}"⟩

end Khronos
