import Khronos.Lib.Endings
import Khronos.Server.Loop

namespace Khronos.Server.Scheduler
open Time Lib

/-- A function of the scheduler on its heap: what it has made of the heap stays when it fails. -/
abbrev OnHeap (α : Type) : Type := ExceptT DbError (StateT Heap (Prog World Empty)) α

/-- A part that does not touch the heap; its errors are the whole's. -/
def OnHeap.lift (p : Prog World DbError α) : OnHeap α :=
  fun heap => do
    let r ← p.attempt
    return (r, heap)

/-- `reload_all_schedules(&mut heap)`. The order in which the map gives out its entries makes no
difference to the heap. -/
def reloadInPlace (crates : Crates) (env : Env) : OnHeap Unit := do
  let rows ← OnHeap.lift (query (fun db => .ok db.schedules))
  let fires ← OnHeap.lift (nextFires crates (env.part 1) (env.now 0) rows.zipIdx [])
  set Heap.empty
  fires.reverse.forM fun e => modify (Heap.push e)

/-- What a function on a heap gives, and the heap it leaves. -/
def OnHeap.on (p : OnHeap α) (heap : Heap) : Prog World Empty (Except DbError α × Heap) := p heap

end Khronos.Server.Scheduler

namespace Khronos.Server
open Lib Scheduler

/-- One pass of the scheduler's loop, with the way its part of the work ends. Anything may happen
to the tables before each statement, and storage may refuse any. -/
inductive Pass where
  /-- The load before the loop. -/
  | start (env : Env) (out : Outcome Empty (Except DbError Unit × Heap))
  /-- The sleep ends. -/
  | wake (env : Env) (out : Outcome DbError Heap)
  /-- `rx.recv()`, whatever it gives. -/
  | notified (env : Env) (out : Outcome Empty (Except DbError Unit × Heap))

/-- The loop after a reload; its error is logged. -/
def afterReload : Outcome Empty (Except DbError Unit × Heap) → Loop
  | .ok (_, heap) => .asleep heap
  | _ => .dead

def afterWake : Outcome DbError Heap → Loop
  | .ok heap => .asleep heap
  | _ => .dead

/-- `Scheduler::run`. -/
def schedulerLoop (crates : Crates) : Machine Loop Pass Unit where
  initial loop := loop = .idle
  admits loop pass := match pass, loop with
    | .start env out, .idle => ((reloadInPlace crates env).on .empty).MayEnd out
    | .wake env out, .asleep heap => (wake crates env heap).MayEnd out
    | .notified env out, .asleep heap => ((reloadInPlace crates env).on heap).MayEnd out
    | _, _ => False
  step _ pass := ((), match pass with
    | .start _ out | .notified _ out => afterReload out
    | .wake _ out => afterWake out)

end Khronos.Server
