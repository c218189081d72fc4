import Khronos.Server.Worker

namespace Khronos.Worker
open Lib Server

/-- `GrpcClient::poll_activity`: the task is taken as it comes, and `has_task` is not looked at. -/
def pollActivity (env : Env) (taskQueue : String) (activityTypes : List String) :
    Prog World Status (Option ActivityTask) := do
  let inner ← Server.pollActivity env { taskQueue, activityTypes }
  return inner.task

/-- An `ActivityPoller` whose connection stands. -/
structure ActivityPoller where
  taskQueue : String

/-- `poll_once` lists no activity type. -/
def ActivityPoller.pollOnce (env : Env) (poller : ActivityPoller) :
    Prog World Status (Option ActivityTask) :=
  Worker.pollActivity env poller.taskQueue []

end Khronos.Worker
