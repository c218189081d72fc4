import Khronos.Core.Types

namespace Khronos.Server
open Time

/-- The normalisation loop of `get_workflow_definition`. Only ASCII letters matter for the
name it is matched with: U+212A alone also lowers to a letter of that name, and brings an
underscore which the name does not have there. -/
def normalize (name : String) : String :=
  String.ofList (name.toList.zipIdx.flatMap fun (c, i) =>
    (if c.isUpper && i > 0 then ['_'] else []) ++ [c.toLower])

def activityStep (activityName : String) (maximumAttempts : UInt32) (initialIntervalSecs : ℚ)
    (timeoutSecs : UInt64) (heartbeatTimeoutSecs : Option UInt64) : ActivityStep :=
  { activityName, argsTemplate := [], retryPolicy := { maximumAttempts, initialIntervalSecs },
    timeoutSecs, heartbeatTimeoutSecs }

/-- The cron pipeline, by the timeout of its first step. -/
def cronPipeline (timeoutSecs : UInt64) : List ActivityStep :=
  [activityStep "execute_cron_job" 3 2 timeoutSecs (some 60),
    activityStep "save_cron_output" 2 1 60 none,
    activityStep "deliver_cron_result" 3 2 120 (some 30),
    activityStep "mark_job_run_activity" 1 1 30 none,
    activityStep "trigger_on_success_jobs" 2 1 60 none]

/-- `get_workflow_definition` of `grpc.rs`. -/
def getWorkflowDefinition (name : String) : List ActivityStep :=
  if normalize name = "cron_job_workflow" then cronPipeline 300
  else [activityStep name 3 2 300 (some 60)]

/-- `get_workflow_definition` of `scheduler.rs`: every name runs the cron pipeline. -/
def scheduleWorkflowDefinition (name : String) : List ActivityStep :=
  if normalize name = "cron_job_workflow" then cronPipeline 300 else cronPipeline 600

/-- The retry policies a definition hands to its steps. -/
def builtInPolicies : List RetryPolicy := [⟨3, 2⟩, ⟨2, 1⟩, ⟨1, 1⟩]

theorem definition_policies (name : String) :
    ∀ d ∈ getWorkflowDefinition name, d.retryPolicy ∈ builtInPolicies := by
  unfold getWorkflowDefinition
  split <;> simp [cronPipeline, activityStep, builtInPolicies]

theorem schedule_definition_policies (name : String) :
    ∀ d ∈ scheduleWorkflowDefinition name, d.retryPolicy ∈ builtInPolicies := by
  unfold scheduleWorkflowDefinition
  split <;> simp [cronPipeline, activityStep, builtInPolicies]

theorem definition_nonempty (name : String) : getWorkflowDefinition name ≠ [] := by
  unfold getWorkflowDefinition
  split <;> simp [cronPipeline]

theorem schedule_definition_nonempty (name : String) : scheduleWorkflowDefinition name ≠ [] := by
  unfold scheduleWorkflowDefinition
  split <;> simp [cronPipeline]

end Khronos.Server
