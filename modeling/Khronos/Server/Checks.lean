import Khronos.Server.Engine

namespace Khronos.Server.Engine
open Time Lib Db.Activities

structure RunningActivity where
  id : Uuid
  stepId : Uuid
  attempt : UInt32
  startedAtStr : Option String
  lastHeartbeatAtStr : Option String
  workflowRunId : Uuid
  activityName : String
  heartbeatTimeoutSecs : Option UInt64

/-- The running activities, each with its step. -/
def runningRows (db : Db) : List RunningActivity :=
  db.activities.flatMap fun a =>
    (db.workflowSteps.filter (fun ws => ws.id = a.stepId && a.state = .running)).map fun ws =>
      { id := a.id, stepId := a.stepId, attempt := a.attempt, startedAtStr := a.startedAt
        lastHeartbeatAtStr := a.lastHeartbeatAt, workflowRunId := ws.workflowRunId
        activityName := ws.activityName
        heartbeatTimeoutSecs := ws.heartbeatTimeoutSecs.map Int64.toUInt64 }

def getRunningActivities : Prog World DbError (List RunningActivity) :=
  query fun db => .ok (runningRows db)

/-- `parse_from_str(text, "%Y-%m-%d %H:%M:%S")?`, by what chrono says of a text it refuses. -/
def checkedTime (refused : String → DbError) (text : String) : Except DbError DateTime :=
  match DateTime.parseFromStr text "%Y-%m-%d %H:%M:%S" with
  | some time => .ok time
  | none => .error (refused text)

/-- The text that `check_heartbeats` reads of an activity that has a timeout. -/
def checkedText (activity : RunningActivity) : Option String :=
  activity.heartbeatTimeoutSecs.bind fun _ =>
    activity.lastHeartbeatAtStr.or activity.startedAtStr

/-- What `check_heartbeats` does about an activity that is overdue. -/
def failOverdue (now : Clock) (env : Env) (activity : RunningActivity) :
    Prog World DbError Unit := do
  updateActivityState (env.now 0) activity.id.text .failed none (some "Heartbeat timeout")
  let policy ← (query (stepRetryPolicy activity.stepId.text)).attempt
  let retryPolicy := unwrapOr RetryPolicy.default policy
  let currentAttempt := activity.attempt
  if currentAttempt < retryPolicy.maximumAttempts then
    match retryTime now retryPolicy (currentAttempt - 1) with
    | none => Prog.panic
    | some nextRetryAt =>
      updateStepState activity.stepId.text .pending (some currentAttempt) none (some nextRetryAt)
  else
    updateStepState activity.stepId.text .failed (some currentAttempt) none none

/-- One turn of the loop of `check_heartbeats`. -/
def checkHeartbeat (refused : String → DbError) (now : Clock) (env : Env)
    (activity : RunningActivity) : Prog World DbError Unit :=
  match activity.heartbeatTimeoutSecs,
      activity.lastHeartbeatAtStr.or activity.startedAtStr with
  | some timeoutSecs, some text =>
    match checkedTime refused text with
    | .error e => Prog.raise e
    | .ok referenceTime =>
      let elapsed := (now.time.since referenceTime).numSeconds
      if timeoutSecs.toInt64.toInt < elapsed then failOverdue now env activity else return ()
  | _, _ => return ()

/-- `check_heartbeats`, which nothing calls any more. -/
def checkHeartbeats (refused : String → DbError) (env : Env) : Prog World DbError Unit := do
  let runningActivities ← getRunningActivities
  Prog.forEach runningActivities.zipIdx fun (activity, i) =>
    checkHeartbeat refused (env.now 0) (env.part (i + 1)) activity

end Khronos.Server.Engine
