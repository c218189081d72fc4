import Khronos.Lib.Runs
import Khronos.Lib.Semaphores
import Khronos.Server.Worker

namespace Khronos.Worker
open Time Lib Server

/-- The handlers by the name of their activity. -/
structure ActivityRegistry (η : Type) where
  handlers : List (String × η)

def ActivityRegistry.new : ActivityRegistry η := ⟨[]⟩

/-- `HashMap::insert`: a handler takes the place of an earlier one of its name. -/
def ActivityRegistry.register (name : String) (handler : η) (registry : ActivityRegistry η) :
    ActivityRegistry η :=
  ⟨(name, handler) :: registry.handlers.filter (fun e => e.1 ≠ name)⟩

def ActivityRegistry.get (name : String) (registry : ActivityRegistry η) : Option η :=
  registry.handlers.lookup name

/-- `str::trim`. -/
def trim (s : String) : String :=
  String.ofList ((s.toList.dropWhile whiteSpace).reverse.dropWhile whiteSpace).reverse

/-- A call of the client that reports on an activity. -/
inductive ReportCall where
  | result (activityId resultJson : String)
  | failure (activityId errorMessage : String)
deriving DecidableEq, Repr

/-- The report on what a handler has returned. -/
def resultReport (crates : Crates) (task : ActivityTask) : Except String String → ReportCall
  | .ok output =>
    .result task.activityId (crates.jsonToString (.object [("stdout", .string (trim output))]))
  | .error errMsg => .failure task.activityId errMsg

/-- The report that no handler has the name of the activity. -/
def noHandler (task : ActivityTask) : ReportCall :=
  .failure task.activityId s!"No handler registered for activity: {task.name}"

/-- How far `execute` and the task that it spawns have come. -/
inductive TaskPhase where
  /-- `execute` awaits a permit. -/
  | acquiring
  /-- The spawned task has got an error for its permit, and has not run yet. -/
  | refused
  /-- The spawned task has its permit, and has not run yet. -/
  | spawned
  /-- The handler executes. -/
  | executing
  /-- The report is under way. -/
  | reporting
  /-- The spawned task has returned. -/
  | finished
deriving DecidableEq, Repr

/-- A permit is dropped when the spawned task returns. -/
def TaskPhase.holds : TaskPhase → Bool
  | .spawned | .executing | .reporting => true
  | .acquiring | .refused | .finished => false

structure Job where
  task : ActivityTask
  phase : TaskPhase

/-- A `TaskExecutor`, with the calls of `execute` in their order. -/
structure TaskExecutor (σ η : Type) where
  registry : ActivityRegistry η
  semaphore : σ
  jobs : List Job

def TaskExecutor.new (S : Semaphore σ) (registry : ActivityRegistry η) (maxConcurrent : Nat) :
    Option (TaskExecutor σ η) :=
  (S.new maxConcurrent).map fun semaphore => ⟨registry, semaphore, []⟩

/-- What happens next: a call of `execute`, or a step of one of the calls before. -/
inductive Event where
  | execute (task : ActivityTask)
  /-- The awaited permit is asked for. -/
  | acquire (i : Nat)
  /-- The spawned task runs for the first time. -/
  | start (i : Nat)
  /-- The handler returns. -/
  | complete (i : Nat) (result : Except String String)
  /-- The report is answered; an error is logged and forgotten. -/
  | reply (i : Nat) (response : Except Status Unit)

namespace TaskExecutor
variable {σ η : Type}

def phase? (ex : TaskExecutor σ η) (i : Nat) : Option TaskPhase := ex.jobs[i]?.map (·.phase)

def move (ex : TaskExecutor σ η) (i : Nat) (job : Job) (phase : TaskPhase) : TaskExecutor σ η :=
  { ex with jobs := ex.jobs.set i { job with phase } }

/-- The awaited permit is asked for. -/
def acquirePermit (S : Semaphore σ) (ex : TaskExecutor σ η) (i : Nat) (job : Job) :
    TaskExecutor σ η :=
  match S.acquire ex.semaphore with
  | .pending => ex
  | .granted semaphore => { ex.move i job .spawned with semaphore }
  | .closed => ex.move i job .refused

/-- The spawned task looks its handler up; without one it reports at once. -/
def startTask (ex : TaskExecutor σ η) (i : Nat) (job : Job) : Option ReportCall × TaskExecutor σ η :=
  if job.phase = .refused then (none, ex.move i job .finished)
  else match ex.registry.get job.task.name with
    | some _ => (none, ex.move i job .executing)
    | none => (some (noHandler job.task), ex.move i job .reporting)

/-- The report has been answered, and the task returns. -/
def returnTask (S : Semaphore σ) (ex : TaskExecutor σ η) (i : Nat) (job : Job) :
    TaskExecutor σ η :=
  { ex.move i job .finished with semaphore := S.release ex.semaphore }

/-- A step of one call, and the report it makes with the number of the call. -/
def ofJob (ex : TaskExecutor σ η) (i : Nat) (f : Job → Option ReportCall × TaskExecutor σ η) :
    Option (Nat × ReportCall) × TaskExecutor σ η :=
  match ex.jobs[i]? with
  | some job => ((f job).1.map (fun r => (i, r)), (f job).2)
  | none => (none, ex)

end TaskExecutor

/-- An executor under any interleaving. `Worker::run` awaits each call of `execute` before the
next; here the calls may overlap. -/
def executor (S : Semaphore σ) (crates : Crates) (registry : ActivityRegistry η)
    (maxConcurrent : Nat) : Machine (TaskExecutor σ η) Event (Option (Nat × ReportCall)) where
  initial ex := TaskExecutor.new S registry maxConcurrent = some ex
  admits ex
    | .execute _ => True
    | .acquire i => ex.phase? i = some .acquiring
    | .start i => ex.phase? i = some .spawned ∨ ex.phase? i = some .refused
    | .complete i _ => ex.phase? i = some .executing
    | .reply i _ => ex.phase? i = some .reporting
  step ex
    | .execute task => (none, { ex with jobs := ex.jobs ++ [⟨task, .acquiring⟩] })
    | .acquire i => ex.ofJob i fun job => (none, ex.acquirePermit S i job)
    | .start i => ex.ofJob i fun job => ex.startTask i job
    | .complete i result => ex.ofJob i fun job =>
      (some (resultReport crates job.task result), ex.move i job .reporting)
    | .reply i _ => ex.ofJob i fun job => (none, ex.returnTask S i job)

instance (S : Semaphore σ) (crates : Crates) (registry : ActivityRegistry η) (n : Nat)
    (ex : TaskExecutor σ η) :
    (event : Event) → Decidable ((executor S crates registry n).admits ex event)
  | .execute _ => .isTrue trivial
  | .acquire i => inferInstanceAs (Decidable (ex.phase? i = some .acquiring))
  | .start i => inferInstanceAs (Decidable
      (ex.phase? i = some .spawned ∨ ex.phase? i = some .refused))
  | .complete i _ => inferInstanceAs (Decidable (ex.phase? i = some .executing))
  | .reply i _ => inferInstanceAs (Decidable (ex.phase? i = some .reporting))

end Khronos.Worker
