import Khronos.Server.Replays

namespace Khronos.Server
open Time Lib

/-- What befalls a server with its engine attached: it serves a request or the scheduler, the
engine receives its oldest event and handles it, a timer goes off, or the process ends and
another one starts over the same database. -/
inductive Action where
  | serve (op : Op)
  | receive
  | timer (i : Nat)
  | restart

/-- An action and what it draws from its surroundings. -/
structure Occurrence where
  env : Env
  action : Action

/-- The engine alone handles events, and it takes them from its channel. -/
def Op.served : Op → Bool
  | .handle _ => false
  | _ => true

/-- A timer that sends its event is gone. -/
def goOff (i : Nat) (w : World) : World :=
  match w.timers[i]? with
  | some t => { w with queue := enqueue w.queue t.event, timers := w.timers.eraseIdx i }
  | none => w

/-- `Engine::run`, once around: `recv` takes the event off the channel before its handler runs. -/
def receive (crates : Crates) (env : Env) (w : World) : World :=
  match w.queue with
  | event :: queue => (exec crates env (.handle event)).after { w with queue }
  | [] => w

def Occurrence.effect (crates : Crates) (o : Occurrence) (w : World) : World :=
  match o.action with
  | .serve op => (exec crates o.env op).after w
  | .receive => receive crates o.env w
  | .timer i => goOff i w
  -- `run_server` starts with an empty channel and no timer, and looks at no run.
  | .restart => .ofDb w.db

def Occurrence.possible (w : World) (o : Occurrence) : Prop :=
  match o.action with
  | .serve op => Fresh w.db o.env ∧ op.served = true
  | .receive => Fresh w.db o.env ∧ w.queue ≠ []
  | .timer i => ∃ t ∈ w.timers[i]?, t.deadline.nanos ≤ (o.env.now 0).time.nanos
  | .restart => True

/-- The server with its engine, under any interleaving of whole actions. -/
def attached (crates : Crates) : Machine World Occurrence Unit where
  initial w := w = .empty
  admits w o := o.possible w
  step w o := ((), o.effect crates w)

/-- A step of the attached server. -/
abbrev AttachedStep := Transition World Occurrence Unit

instance (w : World) : (o : Occurrence) → Decidable (o.possible w)
  | ⟨env, .serve op⟩ => inferInstanceAs (Decidable (Fresh w.db env ∧ op.served = true))
  | ⟨env, .receive⟩ => inferInstanceAs (Decidable (Fresh w.db env ∧ w.queue ≠ []))
  | ⟨env, .timer i⟩ => inferInstanceAs
    (Decidable (∃ t ∈ w.timers[i]?, t.deadline.nanos ≤ (env.now 0).time.nanos))
  | ⟨_, .restart⟩ => .isTrue trivial

instance (crates : Crates) (w : World) (o : Occurrence) :
    Decidable ((attached crates).admits w o) :=
  inferInstanceAs (Decidable (o.possible w))

/-- The attached server on a list of actions, one a turn. -/
def story (actions : List Action) : List Occurrence :=
  actions.zipIdx.map fun (action, i) => ⟨turn i, action⟩

end Khronos.Server
