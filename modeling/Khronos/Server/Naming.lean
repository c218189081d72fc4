import Khronos.Lib.Casing
import Khronos.Server.Definitions

namespace Khronos.Server
open Lib

/-- The normalisation loop of `get_workflow_definition`, over the Unicode tables. -/
def normalizeIn (u : CharTables) (name : String) : String :=
  String.ofList (name.toList.zipIdx.flatMap fun (c, i) =>
    (if u.isUppercase c && i > 0 then ['_'] else []) ++ [u.lower c])

/-- `get_workflow_definition` of `grpc.rs`, over these tables. -/
def getWorkflowDefinitionIn (u : CharTables) (name : String) : List ActivityStep :=
  if normalizeIn u name = "cron_job_workflow" then cronPipeline 300
  else [activityStep name 3 2 300 (some 60)]

/-- `get_workflow_definition` of `scheduler.rs`, over these tables. -/
def scheduleWorkflowDefinitionIn (u : CharTables) (name : String) : List ActivityStep :=
  if normalizeIn u name = "cron_job_workflow" then cronPipeline 300 else cronPipeline 600

/-- The names of the built-in workflow. -/
def cronJobNames : List String :=
  ["cron_job_workflow", "cron_jobWorkflow", "cronJob_workflow", "cronJobWorkflow",
    "Cron_job_workflow", "Cron_jobWorkflow", "CronJob_workflow", "CronJobWorkflow"]

theorem snake_zipIdx (u : CharTables) (cs : List Char) (n : Nat) :
    ((cs.zipIdx (n + 1)).flatMap fun (c, i) =>
      (if u.isUppercase c && i > 0 then ['_'] else []) ++ [u.lower c]) = u.snake cs := by
  induction cs generalizing n with
  | nil => rfl
  | cons c cs ih =>
    rw [List.zipIdx_cons, List.flatMap_cons, ih (n + 1)]
    simp [CharTables.snake]

theorem normalizeIn_cons (u : CharTables) (c : Char) (cs : List Char) :
    normalizeIn u (String.ofList (c :: cs)) = String.ofList (u.lower c :: u.snake cs) := by
  unfold normalizeIn
  rw [String.toList_ofList, List.zipIdx_cons, List.flatMap_cons, snake_zipIdx u cs 0]
  simp

theorem cronTail_target : AsciiTarget "ron_job_workflow".toList where
  ascii := by decide +kernel
  noI := by decide +kernel
  noK := by decide +kernel

/-- A name is taken for the built-in workflow's in these spellings of it, and in no other. -/
theorem normalizeIn_iff (hu : u.Unicode) (name : String) :
    normalizeIn u name = "cron_job_workflow" ↔ name ∈ cronJobNames := by
  have hname : String.ofList name.toList = name := String.ofList_toList
  cases hc : name.toList with
  | nil =>
    rw [hc] at hname
    subst hname
    have hempty : normalizeIn u (String.ofList []) = String.ofList [] := rfl
    rw [hempty]
    decide +kernel
  | cons c cs =>
    rw [hc] at hname
    subst hname
    have htarget : "cron_job_workflow" = String.ofList ('c' :: "ron_job_workflow".toList) := by
      decide +kernel
    rw [normalizeIn_cons, htarget, String.ofList_inj, List.cons.injEq,
      hu.lower_iff (by decide) (by decide) (by decide), hu.snake_iff cronTail_target]
    have hnames : cronJobNames = ['c', 'C'].flatMap fun c =>
        (spellings "ron_job_workflow".toList).map fun cs => String.ofList (c :: cs) := by
      decide +kernel
    rw [hnames]
    simp only [List.mem_flatMap, List.mem_map, String.ofList_inj, List.cons.injEq]
    constructor
    · rintro ⟨⟨_, rfl⟩ | ⟨_, rfl⟩, hcs⟩
      · exact ⟨'c', by decide, cs, hcs, rfl, rfl⟩
      · exact ⟨'C', by decide, cs, hcs, by decide, rfl⟩
    · rintro ⟨c', hc', cs', hcs, rfl, rfl⟩
      refine ⟨?_, hcs⟩
      rcases List.mem_cons.mp hc' with rfl | hc'
      · exact .inl ⟨by decide, rfl⟩
      · exact .inr ⟨by decide, List.mem_singleton.mp hc'⟩

/-- Past ASCII the tables make no difference to which definition a name has. -/
theorem normalizeIn_ascii (hu : u.Unicode) (name : String) :
    normalizeIn u name = "cron_job_workflow" ↔ normalize name = "cron_job_workflow" :=
  (normalizeIn_iff hu name).trans (normalizeIn_iff CharTables.onlyAscii_unicode name).symm

theorem getWorkflowDefinitionIn_eq (hu : u.Unicode) (name : String) :
    getWorkflowDefinitionIn u name = getWorkflowDefinition name :=
  if_congr (normalizeIn_ascii hu name) rfl rfl

theorem scheduleWorkflowDefinitionIn_eq (hu : u.Unicode) (name : String) :
    scheduleWorkflowDefinitionIn u name = scheduleWorkflowDefinition name :=
  if_congr (normalizeIn_ascii hu name) rfl rfl

end Khronos.Server
