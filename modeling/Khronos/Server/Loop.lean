import Khronos.Server.Heap
import Khronos.Server.Operations
import Khronos.Server.Schedules

namespace Khronos.Server
open Time Lib Db.Schedules Scheduler

/-- The scheduler's loop: not yet started, asleep over its heap, or ended by a panic. -/
inductive Loop where
  | idle
  | asleep (heap : Heap)
  | dead

/-- The server with its scheduler, and the notifications that wait in the scheduler's channel. -/
structure Scheduling where
  world : World
  loop : Loop
  changes : Nat

inductive Activity where
  | createSchedule (req : CreateScheduleRequest)
  | updateSchedule (req : UpdateScheduleRequest)
  | deleteSchedule (req : DeleteScheduleRequest)
  /-- Any other operation of the server. -/
  | serve (op : Op)
  /-- `Scheduler::run` begins and loads all schedules. -/
  | start
  /-- The sleep ends. -/
  | wake
  /-- `schedule_change_rx.recv()`. -/
  | notified

structure Turn where
  env : Env
  activity : Activity

/-- What `reload_all_schedules` makes of the heap; its errors are logged. -/
def reloaded (crates : Crates) (env : Env) (heap : Heap) (s : Scheduling) : Scheduling :=
  match (reloadAllSchedules crates env).run s.world with
  | (.ok heap, world) => { s with world, loop := .asleep heap }
  | (.error _, world) => { s with world, loop := .asleep heap }
  | (.panicked, world) => { s with world, loop := .dead }

def woken (crates : Crates) (env : Env) (heap : Heap) (s : Scheduling) : Scheduling :=
  match (wake crates env heap).run s.world with
  | (.ok heap, world) => { s with world, loop := .asleep heap }
  | (_, world) => { s with world, loop := .dead }

/-- One turn of the server or of its scheduler. No request sends on the scheduler's channel. -/
def Scheduling.proceed (crates : Crates) (serde : Serde) (t : Turn) (s : Scheduling) : Scheduling :=
  match t.activity, s.loop with
  | .createSchedule req, _ => { s with world := (createSchedule serde req).after s.world }
  | .updateSchedule req, _ => { s with world := (updateSchedule crates serde req).after s.world }
  | .deleteSchedule req, _ => { s with world := (deleteSchedule req).after s.world }
  | .serve op, _ => { s with world := (exec crates t.env op).after s.world }
  | .start, _ => reloaded crates t.env .empty s
  | .wake, .asleep heap => woken crates t.env heap s
  | .notified, .asleep heap => reloaded crates t.env heap { s with changes := s.changes - 1 }
  | .wake, _ | .notified, _ => s

/-- When each activity can take place. -/
def Scheduling.allows (s : Scheduling) : Activity → Prop
  | .start => s.loop = .idle
  | .wake => ∃ heap, s.loop = .asleep heap
  | .notified => (∃ heap, s.loop = .asleep heap) ∧ 0 < s.changes
  | _ => True

/-- The server and its scheduler, from before the scheduler starts over any tables. -/
def scheduling (crates : Crates) (serde : Serde) : Machine Scheduling Turn Unit where
  initial s := s.loop = .idle ∧ s.changes = 0
  admits s t := s.allows t.activity
  step s t := ((), s.proceed crates serde t)

abbrev SchedulingStep := Transition Scheduling Turn Unit

end Khronos.Server
