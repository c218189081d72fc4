import Khronos.Proofs.Polls
import Khronos.Proofs.Reports
import Khronos.Server.Texts

namespace Khronos.Proofs
open Time Lib Db.Activities Server

/-- Outcomes of one kind. Errors carry the same code; their texts may differ. -/
inductive Alike : Outcome Status α → Outcome Status β → Prop
  | ok (a : α) (b : β) : Alike (.ok a) (.ok b)
  | error (e e' : Status) (h : e.code = e'.code) : Alike (.error e) (.error e')
  | panicked : Alike .panicked .panicked

theorem Alike.refl (out : Outcome Status α) : Alike out out := by
  cases out with
  | ok a => exact .ok a a
  | error e => exact .error e e rfl
  | panicked => exact .panicked

theorem Alike.map {out : Outcome Status α} {out' : Outcome Status β} (h : Alike out out')
    (f : α → γ) : Alike (out.map f) out' := by
  cases h with
  | ok a b => exact .ok _ _
  | error e e' h => exact .error _ _ h
  | panicked => exact .panicked

/-- Requests that no one can tell apart by a database: they end alike, and leave the same
tables and send the same events. -/
def Equivalent (db : Db) (p : Prog World Status α) (q : Prog World Status β) : Prop :=
  ∀ w, w.db = db → Alike (p.run w).1 (q.run w).1 ∧ p.after w = q.after w

theorem Equivalent.return {p : Prog World Status α} {q : Prog World Status β}
    (h : Equivalent db p q) (f : α → γ) : Equivalent db (p >>= fun a => pure (f a)) q := by
  intro w hw
  obtain ⟨ha, he⟩ := h w hw
  rw [Prog.run_bind_pure, Prog.after_bind_pure]
  exact ⟨ha.map f, he⟩

/-- A failure of this activity is its step's last. -/
def LastFailure (db : Db) (activityId : String) : Prop :=
  ∃ a ∈ activityOf db activityId, ∃ s ∈ stepOf db a.stepId,
    s.retryPolicyJson.maximumAttempts ≤ a.attempt + 1

instance (db : Db) (activityId : String) : Decidable (LastFailure db activityId) :=
  inferInstanceAs (Decidable (∃ a ∈ activityOf db activityId, ∃ s ∈ stepOf db a.stepId, _))

/-- What two result reports say where no step is found differs in its text alone. -/
theorem reportResult_alike (env : Env) (activityId : String) (json : Json) (text text' : String) :
    Equivalent db (reportResult env activityId json text)
      (reportResult env activityId json text') := by
  intro w _
  unfold Prog.after reportResult
  simp only [Prog.run_bind, Prog.run_mapError, run_query,
    run_updateActivityState .completed .completed rfl, Outcome.mapError, Prog.resume_ok]
  cases activityStepId activityId _ with
  | error e => exact ⟨.error _ _ rfl, rfl⟩
  | ok stepId =>
    simp only [Outcome.ofExcept, Outcome.mapError, Prog.resume_ok, Prog.run_bind,
      Prog.run_mapError, run_query, run_updateStepState .completed .completed rfl]
    cases stepRunId stepId.text _ with
    | error e => exact ⟨.error _ _ rfl, rfl⟩
    | ok runId => exact ⟨.ok _ _, rfl⟩

/-- What follows the last failure of a step follows no other one. -/
theorem reportFailure_retried (h : ¬ LastFailure w.db activityId) (env : Env) (message : String)
    (exhausted exhausted' : Uuid → Prog World Status Unit) :
    (reportFailure env activityId message exhausted).run w =
      (reportFailure env activityId message exhausted').run w := by
  cases ha : activityOf w.db activityId with
  | none =>
    have hnone : activityAttempt activityId w.db = .error .noRows := by
      rw [activityAttempt, queryRow_filter, show w.db.activities.find? _ = none from ha]
    simp only [reportFailure, Prog.run_bind, Prog.run_mapError, run_query, hnone]
    rfl
  | some a =>
    cases hs : stepOf w.db a.stepId with
    | none =>
      have hattempt : activityAttempt activityId w.db = .ok (a.stepId, a.attempt) := by
        rw [activityAttempt, queryRow_filter, show w.db.activities.find? _ = some a from ha]
      have hnone : stepRetryPolicy a.stepId.text w.db = .error .noRows := by
        rw [stepRetryPolicy, queryRow_filter,
          show w.db.workflowSteps.find? (fun r => stepKey r = a.stepId.text) = none
            from find_key.trans hs]
      simp only [reportFailure, Prog.run_bind, Prog.run_mapError, run_query, hattempt,
        Outcome.ofExcept, Outcome.mapError, Prog.resume_ok, hnone]
      rfl
    | some s =>
      have hlt : a.attempt + 1 < s.retryPolicyJson.maximumAttempts := by
        rw [← UInt32.not_le]
        exact fun hle => h ⟨a, ha, s, hs, hle⟩
      rw [reportFailure_known ha hs, reportFailure_known ha hs, if_pos hlt, if_pos hlt]

/-- After its last failure only the one that tells the engine sends an event. -/
theorem reportFailure_last (ha : activityOf w.db activityId = some a)
    (hs : stepOf w.db a.stepId = some s)
    (hle : s.retryPolicyJson.maximumAttempts ≤ a.attempt + 1) (env : Env) (message : String) :
    ((reportFailure env activityId message (fun _ => pure ())).after w).queue = w.queue ∧
      ((reportFailure env activityId message notifyRun).after w).queue =
        enqueue w.queue (.stepCompleted s.workflowRunId.text) := by
  have hlt : ¬ a.attempt + 1 < s.retryPolicyJson.maximumAttempts := UInt32.not_lt.mpr hle
  unfold Prog.after
  rw [reportFailure_known ha hs, reportFailure_known ha hs, if_neg hlt, if_neg hlt]
  refine ⟨rfl, ?_⟩
  unfold notifyRun
  rw [Prog.run_bind, Prog.run_mapError, run_query, stepRunId_reported hs]
  rfl

/-- The reports of the two interfaces are equivalent, the failures just where they are not the
last of their step: the native one then tells the engine nothing. -/
theorem reports_equivalent_iff {crates : Crates}
    (hslice : ∀ s, crates.jsonFromSlice (intoBytes s) = crates.jsonFromStr s) (env : Env) (db : Db)
    (activityId : String) :
    (∀ text metadata rest, text ≠ "" → (crates.jsonFromStr text).isSome = true →
      Equivalent db (reportActivityResult crates env ⟨activityId, text⟩)
        (respondActivityTaskCompleted crates env
          ⟨intoBytes activityId, some (⟨metadata, intoBytes text⟩ :: rest)⟩)) ∧
    ∀ message, Equivalent db (reportActivityFailure env ⟨activityId, message⟩)
      (respondActivityTaskFailed crates env ⟨intoBytes activityId, some message⟩) ↔
        ¬ LastFailure db activityId := by
  constructor
  · intro text metadata rest hne hjson
    obtain ⟨json, hv⟩ := Option.isSome_iff_exists.mp hjson
    have hparsed : parsedResult crates text = .ok json := by
      have hempty : text.isEmpty = false := by simpa using hne
      rw [parsedResult, hempty, hv]
      rfl
    unfold reportActivityResult respondActivityTaskCompleted
    rw [hparsed, fromUtf8Lossy_intoBytes]
    dsimp only [respondedResult]
    rw [hslice, hv]
    exact (reportResult_alike env activityId json _ _).return _
  · intro message
    unfold reportActivityFailure respondActivityTaskFailed
    rw [fromUtf8Lossy_intoBytes]
    constructor
    · rintro heq ⟨a, ha, s, hs, hle⟩
      -- From an empty queue the events sent are those in it.
      obtain ⟨_, hafter⟩ := heq (.ofDb db) rfl
      rw [Prog.after_bind_pure] at hafter
      obtain ⟨hnative, htemporal⟩ := reportFailure_last (w := .ofDb db) ha hs hle env message
      have hqueue := congrArg World.queue hafter
      rw [hnative] at hqueue
      have hnew := enqueue_new (World.ofDb db).queue (.stepCompleted s.workflowRunId.text)
      rw [← hqueue.trans htemporal] at hnew
      cases hnew
    · intro h
      refine Equivalent.return ?_ _
      rintro w rfl
      have hrun := reportFailure_retried h env message (fun _ => pure ()) notifyRun
      unfold Prog.after
      rw [hrun]
      exact ⟨.refl _, rfl⟩

/-- Crates that read a slice as the text it encodes. -/
noncomputable def slicingCrates : Crates :=
  { readingCrates with
    jsonFromSlice := fun bytes =>
      (String.fromUTF8? ⟨bytes.toArray⟩).bind readingCrates.jsonFromStr }

theorem slicingCrates_slice (s : String) :
    slicingCrates.jsonFromSlice (intoBytes s) = slicingCrates.jsonFromStr s := by
  change (String.fromUTF8? ⟨(intoBytes s).toArray⟩).bind readingCrates.jsonFromStr = _
  rw [fromUTF8_intoBytes]
  rfl

/-- The only step of a run is handed out for the second time after a failure. -/
def handedOutAgain : List Op :=
  [.startWorkflow ⟨"x", [], "", "", none, ""⟩, .pollActivity ⟨"", ["x"]⟩,
    .reportActivityFailure ⟨"id-10", "failed"⟩, .pollActivity ⟨"", ["x"]⟩]

def secondAttempt : Db := ((server plainCrates).ending .empty (script handedOutAgain)).db

theorem secondAttempt_alike :
    Equivalent secondAttempt
        (reportActivityResult slicingCrates (turn 4) ⟨"id-30", String.ofList (Json.null.print)⟩)
        (respondActivityTaskCompleted slicingCrates (turn 4)
          ⟨intoBytes "id-30", some [⟨[], intoBytes (String.ofList (Json.null.print))⟩]⟩) ∧
      Equivalent secondAttempt (reportActivityFailure (turn 4) ⟨"id-10", "failed"⟩)
        (respondActivityTaskFailed slicingCrates (turn 4) ⟨intoBytes "id-10", some "failed"⟩) := by
  have h := fun activityId => reports_equivalent_iff slicingCrates_slice (turn 4) secondAttempt
    activityId
  constructor
  · apply (h "id-30").1
    · simp [Json.print]
    · change (readingCrates.jsonFromStr (readingCrates.jsonToString .null)).isSome = true
      rw [reading.json]
      rfl
  · exact ((h "id-10").2 "failed").mpr (by decide +kernel)

/-- The second failure is the last; the interfaces tell the engine different things of it. -/
theorem secondAttempt_differs :
    ¬ ∀ db activityId message,
      Equivalent db (reportActivityFailure (turn 4) ⟨activityId, message⟩)
        (respondActivityTaskFailed plainCrates (turn 4) ⟨intoBytes activityId, some message⟩) := by
  intro h
  have hqueue := congrArg World.queue (h secondAttempt "id-30" "failed" (.ofDb secondAttempt) rfl).2
  exact absurd hqueue (by decide +kernel)

end Khronos.Proofs
