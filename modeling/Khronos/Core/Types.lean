import Khronos.Core.Time
import Mathlib.Data.Nat.Pairing

namespace Khronos
open Time

/-- `serde_json::Value`; a number is kept as its literal, an object as its entries in key order. -/
inductive Json where
  | null
  | bool (b : Bool)
  | number (literal : String)
  | string (s : String)
  | array (items : List Json)
  | object (entries : List (String × Json))

/-- `json!({})`. -/
def Json.empty : Json := .object []

/-- A UUID, by the text `to_string` gives it. `parse_str` reads that text back. -/
structure Uuid where
  text : String
deriving DecidableEq, Repr

inductive WorkflowState where
  | pending | running | completed | failed | cancelled
deriving DecidableEq, Repr

/-- No transition leaves these states by design: `cancel_workflow` calls them terminal. -/
def WorkflowState.terminal : WorkflowState → Bool
  | .completed | .failed | .cancelled => true
  | .pending | .running => false

inductive ActivityState where
  | pending | running | completed | failed | retried
deriving DecidableEq, Repr

/-- `initial_interval_secs` is an `f64` in the source: every finite one is a rational, and
the only arithmetic done on it multiplies by a power of two. -/
structure RetryPolicy where
  maximumAttempts : UInt32
  initialIntervalSecs : ℚ
deriving DecidableEq

/-- `RetryPolicy::default()`. -/
def RetryPolicy.default : RetryPolicy := ⟨0, 0⟩

structure Timeouts where
  executionTimeoutSecs : Option UInt64
  runTimeoutSecs : Option UInt64
  taskTimeoutSecs : Option UInt64
deriving DecidableEq

/-- `Timeouts::default()`. -/
def Timeouts.default : Timeouts := ⟨none, none, none⟩

/-- A step of a workflow definition. Every built-in `args_template` is empty. -/
structure ActivityStep where
  activityName : String
  argsTemplate : List (String × String)
  retryPolicy : RetryPolicy
  timeoutSecs : UInt64
  heartbeatTimeoutSecs : Option UInt64

structure WorkflowInstance where
  runId : Uuid
  workflowId : String
  name : String
  taskQueue : String
  state : WorkflowState
  argsJson : Json
  resultJson : Option Json
  timeouts : Timeouts
  startedAt : Option DateTime
  completedAt : Option DateTime
  nameSpace : String

structure WorkflowStepInstance where
  id : Uuid
  workflowRunId : Uuid
  stepIndex : UInt64
  activityName : String
  argsJson : Json
  retryPolicy : RetryPolicy
  timeoutSecs : UInt64
  heartbeatTimeoutSecs : Option UInt64
  state : WorkflowState
  attempt : UInt32
  resultJson : Option Json
  nextRetryAt : Option DateTime

/-- `n as i32`. -/
def asI32 (n : UInt32) : ℤ := n.toInt32.toInt

/-- `(initial_interval_secs * 2.0_f64.powi(exponent as i32)) as i64`. -/
def backoffSecs (policy : RetryPolicy) (exponent : UInt32) : ℤ :=
  truncI64 (policy.initialIntervalSecs * 2 ^ asI32 exponent)

/-- `now + Duration::seconds(backoff_secs)`; `none` where chrono panics. -/
def retryTime (now : DateTime) (policy : RetryPolicy) (exponent : UInt32) : Option DateTime :=
  (Duration.seconds (backoffSecs policy exponent)).bind now.add

/-- The third-party functions the server calls and the model leaves open. -/
structure Crates where
  /-- `serde_json::to_string`. -/
  jsonToString : Json → String
  /-- `serde_json::from_str::<Value>`. -/
  jsonFromStr : String → Option Json
  /-- `serde_json::from_slice::<Value>`. -/
  jsonFromSlice : List UInt8 → Option Json
  /-- `serde_json::from_str::<Vec<String>>`. -/
  stringsFromStr : String → Option (List String)
  /-- `serde_json::from_str::<Timeouts>`. -/
  timeoutsFromStr : String → Option Timeouts
  /-- `cron::Schedule::from_str(expr)` and then `upcoming(Utc).next()` at a clock time. -/
  cronUpcoming : String → DateTime → Option (Option DateTime)
  /-- `String::from_utf8_lossy` on bytes that are not UTF-8. -/
  utf8Replacing : List UInt8 → String

/-- What one execution of an operation draws from its surroundings: the successive
readings of the clock and the successive results of `Uuid::new_v4`. -/
structure Env where
  now : Nat → Clock
  uuid : Nat → Uuid

/-- The clock readings of one part of an operation, kept apart from those of its others. -/
def Env.part (env : Env) (i : Nat) : Env := { env with now := fun j => env.now (Nat.pair i j) }

end Khronos
