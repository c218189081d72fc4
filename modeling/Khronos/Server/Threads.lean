import Khronos.Lib.Threads
import Khronos.Server.Operations

namespace Khronos.Server
open Time Lib

/-- Who reads and writes the database over a connection of its own. The requests take turns on
that of the service state; the engine and the scheduler do not wait for them. -/
inductive Thread where
  | rpc | engine | scheduler
deriving DecidableEq, Repr

/-- The database, and what each thread is about to do with it. -/
def connections (w : World) (rpc engine scheduler : Prog World ε Unit) : Pool Thread World ε where
  store := w
  thread
    | .rpc => rpc
    | .engine => engine
    | .scheduler => scheduler

@[simp] theorem connections_store (w : World) (rpc engine scheduler : Prog World ε Unit) :
    (connections w rpc engine scheduler).store = w := rfl

theorem connections_rpc (w : World) (rpc engine scheduler : Prog World ε Unit) :
    (connections w rpc engine scheduler).step .rpc =
      connections (rpc.advance w).2 (rpc.advance w).1 engine scheduler :=
  congrArg (Pool.mk _) (funext fun t => by cases t <;> rfl)

theorem connections_engine (w : World) (rpc engine scheduler : Prog World ε Unit) :
    (connections w rpc engine scheduler).step .engine =
      connections (engine.advance w).2 rpc (engine.advance w).1 scheduler :=
  congrArg (Pool.mk _) (funext fun t => by cases t <;> rfl)

theorem acts_query {f : Db → Except DbError α} {w : World} (h : f w.db = .ok a) :
    (query f).Acts w a w := by
  apply Prog.Acts.query
  exact h

theorem acts_attempt_query (f : Db → Except DbError α) (w : World) :
    ((query f).attempt : Prog World ε (Except DbError α)).Acts w (f w.db) w := by
  apply Prog.Acts.attempt_query

theorem acts_execute {f : Db → Except DbError (α × Db)} {w : World} {db : Db}
    (h : f w.db = .ok (a, db)) : (execute f).Acts w a { w with db } := by
  apply Prog.Acts.execute
  rw [h]
  rfl

/-- A result is reported while the timer of its activity goes off. -/
def reportRace (crates : Crates) (reporting timing : Env) (req : ReportActivityResultRequest)
    (w : World) : Pool Thread World Status :=
  connections w
    (do let _ ← reportActivityResult crates reporting req; return ())
    (Engine.handle timing (.heartbeatTimeout req.activityId))
    (return ())

/-- The requests of workers: polls, reports and heartbeats. -/
def Op.ofWorker : Op → Bool
  | .pollActivity _ => true
  | .pollActivityTaskQueue _ => true
  | .reportActivityResult _ => true
  | .reportActivityFailure _ => true
  | .respondActivityTaskCompleted _ => true
  | .respondActivityTaskFailed _ => true
  | .heartbeat _ => true
  | _ => false

/-- The scheduler does something while requests are served and events come to the engine. -/
def serving (crates : Crates) (scheduler : Prog World DbError Unit) (calls : List Call)
    (events : List (Env × EngineEvent)) (w : World) : Pool Thread World DbError :=
  connections w
    (Prog.tasks calls fun call => exec crates call.env call.op)
    (Prog.forEach events fun (env, event) => Engine.handle env event)
    scheduler

/-- A schedule starts a run while workers make their requests. -/
def startingRun (crates : Crates) (env : Env) (info : ScheduleRow) :
    List Call → List (Env × EngineEvent) → World → Pool Thread World DbError :=
  serving crates (Scheduler.startScheduleWorkflow crates env info)

/-- The requests that can bring a run to its end: reports and cancellations. -/
def Op.concludes : Op → Bool
  | .reportActivityResult _ => true
  | .reportActivityFailure _ => true
  | .respondActivityTaskCompleted _ => true
  | .respondActivityTaskFailed _ => true
  | .cancelWorkflow _ => true
  | _ => false

/-- A schedule is processed while runs come to their end. -/
def firing (crates : Crates) (env : Env) (scheduleId : String) :
    List Call → List (Env × EngineEvent) → World → Pool Thread World DbError :=
  serving crates (Scheduler.processSchedule crates env scheduleId)

end Khronos.Server
