import Khronos.Lib.Runs
import Khronos.Server.Registry
import Mathlib.Logic.Function.Basic

namespace Khronos.Server
open Time Lib Db.Schedules

/-- What writes schedules, through either interface. -/
inductive ScheduleWrite where
  | create (req : CreateScheduleRequest)
  | update (req : UpdateScheduleRequest)
  | delete (req : DeleteScheduleRequest)
  | createTemporal (req : Temporal.CreateScheduleRequest)
  | updateTemporal (req : Temporal.UpdateScheduleRequest)
  | deleteTemporal (req : Temporal.DeleteScheduleRequest)

def ScheduleWrite.run (crates : Crates) (serde : Serde) (spliced : Temporal.Spliced) :
    ScheduleWrite → Prog World Status Unit
  | .create req => do let _ ← createSchedule serde req; return ()
  | .update req => do let _ ← updateSchedule crates serde req; return ()
  | .delete req => do let _ ← Server.deleteSchedule req; return ()
  | .createTemporal req => Temporal.createSchedule crates req
  | .updateTemporal req => Temporal.updateSchedule spliced req
  | .deleteTemporal req => Temporal.deleteSchedule req

/-- The id and the namespace a write is for. -/
def ScheduleWrite.target : ScheduleWrite → String × String
  | .create req => (req.scheduleId, req.nameSpace)
  | .update req => (req.scheduleId, req.nameSpace)
  | .delete req => (req.scheduleId, req.nameSpace)
  | .createTemporal req => (req.scheduleId, orDefault req.nameSpace)
  | .updateTemporal req => (req.scheduleId, orDefault req.nameSpace)
  | .deleteTemporal req => (req.scheduleId, orDefault req.nameSpace)

/-- The cron expressions of a native spec. -/
def nativeCron (spec : Option ProtoScheduleSpec) : Option (List String) :=
  (spec.filter (fun spec => spec.specType = "cron")).map (·.cronExpressions)

/-- The cron expressions of a Temporal schedule. -/
def temporalCron (schedule : Option Temporal.Schedule) : Option (List String) :=
  ((schedule.bind (·.spec)).filter (fun spec => !spec.cronString.isEmpty)).map (·.cronString)

/-- The cron expressions that a write gives its schedule, if it gives it any. -/
def ScheduleWrite.cron : ScheduleWrite → Option (List String)
  | .create req => nativeCron req.spec
  | .update req => nativeCron req.spec
  | .delete _ => none
  | .createTemporal req => temporalCron req.schedule
  | .updateTemporal req => temporalCron req.schedule
  | .deleteTemporal _ => none

/-- The state, and the cron expressions that each schedule was last given. -/
structure Ledger where
  world : World
  given : String → List String

/-- An accepted write with cron expressions gives them to the row that it is for. -/
def Ledger.note (call : ScheduleWrite) (out : Outcome Status Unit) (l : Ledger) : Ledger :=
  match out, call.cron with
  | .ok _, some exprs =>
    if l.world.db.schedules.any (named call.target.1 call.target.2) then
      { l with given := Function.update l.given call.target.1 exprs }
    else l
  | _, _ => l

/-- The writers of schedules, one request after another. -/
def scheduleWriters (crates : Crates) (serde : Serde) (spliced : Temporal.Spliced) :
    Machine Ledger ScheduleWrite (Outcome Status Unit) where
  initial l := l.world.db.schedules = []
  admits _ _ := True
  step l call :=
    let (out, world) := (call.run crates serde spliced).run l.world
    (out, { l with world }.note call out)

/-- The list that the loader of the scheduler reads for a row. -/
def loadedCron (crates : Crates) (r : ScheduleRow) : Option (List String) :=
  r.cronExpressions.bind crates.stringsFromStr

end Khronos.Server
