import Khronos.Lib.Like
import Khronos.Proofs.Starts
import Mathlib.Data.List.TakeWhile

namespace Khronos.Proofs
open Time Lib Db.Activities Db.Workflows Server Scheduler

/-- How `LIKE` reads a letter of a pattern. -/
def token (c : Char) : Like.Token Char :=
  if c = '%' then .any else if c = '_' then .one else .letter c

def SameLetter (c d : Char) : Prop := c.toLower = d.toLower

theorem token_self {c d : Char} (h : token c = .letter d) : SameLetter d c := by
  unfold token at h
  split_ifs at h
  cases h
  rfl

/-- The code's matching is the matching of patterns. -/
theorem likeMatch_iff {p t : List Char} :
    likeMatch p t = true ↔ Like.Matches SameLetter (p.map token) t := by
  induction p generalizing t with
  | nil => simp [likeMatch, Like.nil_iff]
  | cons c p ih =>
    rw [List.map_cons]
    by_cases hany : c = '%'
    · subst hany
      rw [show token '%' = .any from rfl, Like.any_iff, likeMatch, List.any_eq_true]
      simp only [List.mem_tails, ih]
    · by_cases hunder : c = '_'
      · subst hunder
        rw [show token '_' = .one from rfl, Like.one_iff]
        cases t with
        | nil => simp [likeMatch]
        | cons d t => simp [likeMatch, ih]
      · rw [show token c = .letter c by simp [token, hany, hunder], Like.letter_iff]
        cases t with
        | nil => simp [likeMatch]
        | cons d t => simp [likeMatch, ih, hunder, SameLetter]

/-- The id that a run of a schedule is given, by the first eight letters of its run id. -/
def workflowIdOf (scheduleId short : String) : String := s!"schedule:{scheduleId}-{short}"

/-- `schedule:`, letter by letter. -/
def head : List Char := ['s', 'c', 'h', 'e', 'd', 'u', 'l', 'e', ':']

/-- The part that a schedule's pattern has in common with the ids of its runs. -/
def stem (scheduleId : String) : List Char := head ++ (scheduleId.toList ++ ['-'])

theorem pattern_toList (scheduleId : String) :
    (pattern scheduleId).toList = stem scheduleId ++ ['%'] := by
  have hparts : pattern scheduleId = "schedule:" ++ scheduleId ++ "-%" := rfl
  have hhead : "schedule:".toList = head := by decide
  have hlast : "-%".toList = ['-'] ++ ['%'] := by decide
  rw [hparts, String.toList_append, String.toList_append, hhead, hlast, stem]
  simp only [List.append_assoc]

theorem workflowIdOf_toList (scheduleId short : String) :
    (workflowIdOf scheduleId short).toList = stem scheduleId ++ short.toList := by
  have hparts : workflowIdOf scheduleId short = "schedule:" ++ scheduleId ++ "-" ++ short := rfl
  have hhead : "schedule:".toList = head := by decide
  have hlast : "-".toList = ['-'] := by decide
  rw [hparts, String.toList_append, String.toList_append, String.toList_append, hhead, hlast, stem]
  simp only [List.append_assoc]

/-- A schedule's pattern matches the ids of its runs, whatever letters it is made of. -/
theorem matches_own (scheduleId short : String) :
    likeMatch (cText (pattern scheduleId)) (cText (workflowIdOf scheduleId short)) = true := by
  have hself : ∀ t : List Char, Like.Matches SameLetter (t.map token) t :=
    Like.matches_self (fun _ _ => token_self)
  rw [likeMatch_iff, cText, cText, pattern_toList, workflowIdOf_toList, List.takeWhile_append,
    List.takeWhile_append]
  split
  · rw [List.map_append]
    exact (hself _).append (Like.any_matches _)
  · exact hself _

theorem ofSchedule_own (h : r.workflowId = workflowIdOf scheduleId short) :
    ofSchedule scheduleId r = true := by
  rw [ofSchedule, h]
  exact matches_own scheduleId short

/-- Eight hexadecimal digits, as the text of a UUID begins with. -/
def HexEight (x : String) : Prop :=
  x.toList.length = 8 ∧ ∀ c ∈ x.toList, c ∈ "0123456789abcdef".toList

/-- A run with the id that `start_schedule_workflow` gives to a run of this schedule. -/
def StartedBy (scheduleId : String) (r : WorkflowRow) : Prop :=
  HexEight (shortId r.runId) ∧ r.workflowId = workflowIdOf scheduleId (shortId r.runId)

theorem scheduledInstance_startedBy (crates : Crates) (env : Env) (info : ScheduleRow)
    (h : HexEight (shortId (env.uuid 0))) :
    StartedBy info.scheduleId (workflowRow (scheduledInstance crates env info)) :=
  ⟨h, rfl⟩

/-- The table without some of its runs. -/
def without (p : WorkflowRow → Bool) (db : Db) : Db :=
  { db with workflows := db.workflows.filter (fun r => !p r) }

/-- What a schedule asks about its runs and does to them is no matter of another one's. -/
structure Separate (s t : String) : Prop where
  running : ∀ (w : World) (p : WorkflowRow → Bool), Table.Keyed runKey w.db.workflows →
    (∀ r ∈ w.db.workflows, p r = true → StartedBy t r) →
      ((checkRunningWorkflow s).run w).1 =
        ((checkRunningWorkflow s).run { w with db := without p w.db }).1
  interval : ∀ (w : World) (p : WorkflowRow → Bool), Table.Keyed runKey w.db.workflows →
    (∀ r ∈ w.db.workflows, p r = true → StartedBy t r) → ∀ (secs : UInt64) (now : Clock),
      ((checkInterval s secs now).run w).1 =
        ((checkInterval s secs now).run { w with db := without p w.db }).1
  lastStarted : ∀ (w : World) (p : WorkflowRow → Bool), Table.Keyed runKey w.db.workflows →
    (∀ r ∈ w.db.workflows, p r = true → StartedBy t r) →
      ((getLastStarted s).run w).1 = ((getLastStarted s).run { w with db := without p w.db }).1
  terminated : ∀ (w : World) (env : Env), Table.Keyed runKey w.db.workflows →
    ∀ r ∈ w.db.workflows, StartedBy t r → r ∈ ((terminateExisting env s).after w).db.workflows

/-- No id that a run of `t` can have is one that SQLite finds for the pattern of `s`. -/
def Apart (s t : String) : Prop :=
  ∀ x, HexEight x → likeMatch (cText (pattern s)) (cText (workflowIdOf t x)) = false

/-- A run of `t`, active, that the pattern of `s` finds. -/
def foundRun (t x : String) : WorkflowRow where
  runId := ⟨x⟩
  workflowId := workflowIdOf t x
  name := ""
  taskQueue := "default"
  state := .pending
  argsJson := .null
  resultJson := none
  executionTimeoutSecs := none
  runTimeoutSecs := none
  taskTimeoutSecs := none
  startedAt := none
  completedAt := none
  nameSpace := "default"

theorem foundRun_startedBy (t : String) (hx : HexEight x) : StartedBy t (foundRun t x) := by
  have hshort : shortId (foundRun t x).runId = x := by
    rw [shortId, foundRun, List.take_of_length_le (Nat.le_of_eq hx.1), String.ofList_toList]
  refine ⟨?_, ?_⟩
  · rw [hshort]
    exact hx
  · rw [hshort, foundRun]

/-- A server over these runs. -/
def holding (runs : List WorkflowRow) : World := .ofDb { Db.empty with workflows := runs }

theorem Separate.without_found (h : Separate s t) (hx : HexEight x) :
    ((checkRunningWorkflow s).run (holding [foundRun t x])).1 =
      ((checkRunningWorkflow s).run (holding [])).1 := by
  have hruns : (holding [foundRun t x]).db.workflows = [foundRun t x] := rfl
  have hall : ∀ r ∈ (holding [foundRun t x]).db.workflows, StartedBy t r := by
    intro r hr
    rw [hruns, List.mem_singleton] at hr
    rw [hr]
    exact foundRun_startedBy t hx
  exact h.running (holding [foundRun t x]) (fun _ => true)
    (by rw [hruns]; exact List.nodup_singleton _) (fun r hr _ => hall r hr)

theorem hexEight_zeros : HexEight "00000000" := ⟨rfl, by simp⟩

/-- A run to compare makes the count of a pattern that is too long an error. -/
theorem Separate.fits (h : Separate s t) : tooComplex s = false := by
  by_contra hlong
  rw [Bool.not_eq_false] at hlong
  have hboth := h.without_found hexEight_zeros
  have hcompared : (holding [foundRun t "00000000"]).db.workflows.filter active =
      [foundRun t "00000000"] := rfl
  have hnone : (holding []).db.workflows.filter active = [] := rfl
  simp [checkRunningWorkflow, selectActive, compared, hcompared, hnone, hlong,
    Outcome.ofExcept] at hboth

theorem Separate.apart (h : Separate s t) : Apart s t := by
  intro x hx
  by_contra hmatch
  rw [Bool.not_eq_false] at hmatch
  have hboth := h.without_found hx
  have hruns : (holding [foundRun t x]).db.workflows = [foundRun t x] := rfl
  have hnone : (holding []).db.workflows = [] := rfl
  have hfound : (ofSchedule s (foundRun t x) && active (foundRun t x)) = true := by
    rw [ofSchedule, show (foundRun t x).workflowId = workflowIdOf t x from rfl, hmatch]
    rfl
  simp [checkRunningWorkflow, selectActive, compared_fits h.fits, activeOf, hruns, hnone, hfound,
    Outcome.ofExcept] at hboth

end Khronos.Proofs
