import Khronos.Core.Stamps
import Khronos.Proofs.Backed
import Khronos.Proofs.Counting

namespace Khronos.Proofs
open Time Lib Db.Activities Db.Workflows Server

/-- The clock reading from which a report counts the backoff. -/
def Report.time (env : Env) : Report → DateTime
  | .timeout => env.now 0
  | _ => env.now 1

/-- The backoff of the attempt after the one that has failed, in seconds. -/
def Report.backoff : Report → UInt32 → RetryPolicy → ℤ
  | .timeout, attempt, policy => backoffSecs policy (Engine.predecessor attempt)
  | _, attempt, policy => backoffSecs policy (attempt + 1 - 1)

/-- The instant some seconds after another. -/
def later (t : DateTime) (secs : ℤ) : DateTime := ⟨t.nanos + secs * second⟩

/-- A step of the server processes, at a time and with a backoff, a failure that puts the
workflow step of an id back to pending. -/
def PutsBack (crates : Crates) (u : Uuid) (t : DateTime) (b : ℤ) (τ : ServerStep) : Prop :=
  ∃ activityId rep a s, reportOf crates τ.input.op = some (activityId, rep) ∧
    activityOf τ.before.db activityId = some a ∧ stepOf τ.before.db a.stepId = some s ∧
    s.id = u ∧ rep.heard a ∧ rep.final a.attempt s.retryPolicyJson = false ∧
    t = rep.time τ.input.env ∧ b = rep.backoff a.attempt s.retryPolicyJson

theorem retryTime_later (h : retryTime now policy n = some due) :
    due = later now (backoffSecs policy n) := by
  unfold retryTime Duration.seconds at h
  split at h
  · rw [Option.bind_some, DateTime.add] at h
    split at h
    · exact (Option.some.inj h).symm
    · cases h
  · cases h

theorem due_later {rep : Report} (h : rep.due env n policy = some due) :
    due = later (rep.time env) (rep.backoff n policy) := by
  cases rep with
  | result json => exact retryTime_later h
  | failure message => exact retryTime_later h
  | timeout => exact retryTime_later h

/-- While the step of an id is pending, it waits for this instant. -/
def WaitsFor (u : Uuid) (due : DateTime) (db : Db) : Prop :=
  ∃ s ∈ db.workflowSteps, s.id = u ∧ (s.state = .pending → s.nextRetryAt = some due.format)

theorem putsBack_waits (hw : WellFormed w.db) (hb : BuiltIn w.db) {call : Call}
    (h : PutsBack crates u t b ((server crates).transition w call)) :
    WaitsFor u (later t b) ((server crates).step w call).2.db := by
  obtain ⟨activityId, rep, a, s, hop, ha, hs, hu, hheard, hfinal, rfl, rfl⟩ := h
  have hmem := (stepOf_mem hs).1
  have hlt := counted_lt hfinal
  obtain ⟨due, hdue⟩ := Option.isSome_iff_exists.mp (builtIn_due (hb s hmem) hlt call.env)
  refine ⟨rep.write call.env a.attempt s.retryPolicyJson s, ?_, ?_, ?_⟩
  · have hsteps := exec_reported hop ha hs hheard call.env
    exact hsteps ▸ (mem_reported_steps hw hmem).mpr (.inl rfl)
  · exact (write_fixed _ _ _ _ _).id.trans hu
  · intro _
    have hlater : later (rep.time call.env) (rep.backoff a.attempt s.retryPolicyJson) = due :=
      (due_later hdue).symm
    change _ = some (later (rep.time call.env) _).format
    rw [hlater]
    cases rep with
    | result json => cases hfinal
    | failure message => simp [Report.write, failedStep, hlt, hdue, setStep]
    | timeout => simp [Report.write, failedStep, hlt, hdue, setStep]

/-- Only another failure changes what a pending step waits for. -/
theorem step_waits (hw : WellFormed w.db) {call : Call} (hc : (server crates).admits w call)
    (hn : ∀ t b, ¬ PutsBack crates u t b ((server crates).transition w call))
    (h : WaitsFor u due w.db) : WaitsFor u due ((server crates).step w call).2.db := by
  obtain ⟨s, hs, hu, hwait⟩ := h
  rcases (step_moved hw crates hc).follow hw hs with
    hsame | ⟨_, hrun⟩ | ⟨activityId, rep, a, hop, ha, hstep, hheard, hwrite⟩
  · exact ⟨s, hsame, hu, hwait⟩
  · exact ⟨running s, hrun, hu, fun hp => by cases hp⟩
  · refine ⟨_, hwrite, (write_fixed _ _ _ _ _).id.trans hu, fun hp => ?_⟩
    rcases write_retries hp with hfinal | hsame
    · exact absurd ⟨activityId, rep, a, s, hop, ha, hstep, hu, hheard, hfinal, rfl, rfl⟩ (hn _ _)
    · rw [hsame] at hp ⊢
      exact hwait hp

theorem run_waits {ts : List ServerStep} (hr : (server crates).Run v ts w) (hv : WellFormed v.db)
    (hn : ∀ ρ ∈ ts, ∀ t b, ¬ PutsBack crates u t b ρ) (h : WaitsFor u due v.db) :
    WellFormed w.db ∧ WaitsFor u due w.db :=
  hr.keeps_when (P := fun w => WellFormed w.db ∧ WaitsFor u due w.db)
    (C := fun w call => ∀ t b, ¬ PutsBack crates u t b ((server crates).transition w call))
    (fun _ call h hc hn => ⟨step_wellFormed crates call h.1, step_waits h.1 hc hn h.2⟩) ⟨hv, h⟩
    (fun ρ hρ t b hb => by
      obtain ⟨us, vs, rfl⟩ := List.append_of_mem hρ
      obtain ⟨_, _, he, _⟩ := hr.at
      rw [← he] at hb
      exact hn ρ hρ t b hb)

/-- A poll hands out no step before the time it waits for. -/
theorem waits_handedOut {call : Call} (hw : WellFormed w.db) (h : WaitsFor u due w.db)
    (hc : (server crates).admits w call) (hplain : due.Plain)
    (hout : handsOut crates u ((server crates).transition w call) = true) :
    due.secs ≤ (call.env.now 0).time.secs := by
  obtain ⟨a, ha, hau⟩ := Option.any_eq_true _ _ |>.mp hout
  obtain ⟨s, hs, rfl, _⟩ := handedOut_dispatched hc ha
  obtain ⟨r, hr, hru, hwait⟩ := h
  obtain ⟨hmem, hready, _⟩ := chosen_mem hs
  have hsu : s.id = u := of_decide_eq_true hau
  obtain rfl : s = r := hw.steps.unique hmem hr (key_iff.mpr (hsu.trans hru.symm))
  have hnext := hwait (chosen_pending hw hs)
  rw [ready, hnext] at hready
  simp only [Bool.and_eq_true] at hready
  exact secs_le_of_textLe hready.2 hplain (call.env.now 0).plain

/-- In every run: a step that was last put back to pending by a failure processed at a time
`t` with a backoff of `b` seconds is handed out no sooner than `t + b`, to the second. -/
theorem run_retry_not_early {us mid vs : List ServerStep} {τ σ : ServerStep}
    (hr : (server crates).Run .empty (us ++ τ :: (mid ++ σ :: vs)) w)
    (hback : PutsBack crates u t b τ) (hlast : ∀ ρ ∈ mid, ∀ t b, ¬ PutsBack crates u t b ρ)
    (hout : handsOut crates u σ = true) (hplain : (later t b).Plain) :
    (later t b).trunc.nanos ≤ (σ.input.env.now 0).time.trunc.nanos := by
  obtain ⟨hu, hi, he, hrest⟩ := hr.at
  obtain ⟨hw, hb⟩ := run_moved (P := BuiltIn) (fun hw _ hp hm => moved_builtIn hw hp hm) hu
    .empty builtIn_empty
  rw [he] at hback hrest
  obtain ⟨hmid, hi', he', _⟩ := hrest.at
  obtain ⟨hw', hwait⟩ := run_waits hmid (step_wellFormed crates _ hw) hlast
    (putsBack_waits hw hb hback)
  rw [he'] at hout
  have hsecs := waits_handedOut hw' hwait hi' hplain hout
  exact Int.mul_le_mul_of_nonneg_right hsecs (by decide)

/-- The world after the first turns of a list of operations. -/
def worldAfter (ops : List Op) : World := (server plainCrates).ending .empty (script ops)

/-- The failure of the first attempt, and the poll that hands out the second. -/
def firstFailure : ServerStep :=
  (server plainCrates).transition (worldAfter (retriedStep.take 2))
    ⟨turn 2, .reportActivityFailure ⟨"id-10", "boom"⟩⟩

def secondPoll : ServerStep :=
  (server plainCrates).transition firstFailure.after ⟨turn 3, .pollActivity ⟨"", ["x"]⟩⟩

theorem retried_step_not_early :
    PutsBack plainCrates ⟨"id-1"⟩ ((turn 2).now 1) 4 firstFailure ∧
      handsOut plainCrates ⟨"id-1"⟩ secondPoll = true ∧
      (later ((turn 2).now 1) 4).trunc.nanos ≤ (secondPoll.input.env.now 0).time.trunc.nanos := by
  have hfailed : (activityOf firstFailure.before.db "id-10").any (fun a =>
      (stepOf firstFailure.before.db a.stepId).any (fun s => s.id = ⟨"id-1"⟩ ∧
        (Report.failure "boom").final a.attempt s.retryPolicyJson = false ∧
        4 = (Report.failure "boom").backoff a.attempt s.retryPolicyJson)) = true := by
    decide +kernel
  obtain ⟨a, ha, hs⟩ := (Option.any_eq_true _ _).mp hfailed
  obtain ⟨s, hs, hrest⟩ := (Option.any_eq_true _ _).mp hs
  obtain ⟨hu, hfinal, hb⟩ := of_decide_eq_true hrest
  have hback : PutsBack plainCrates ⟨"id-1"⟩ ((turn 2).now 1) 4 firstFailure :=
    ⟨"id-10", .failure "boom", a, s, rfl, ha, hs, hu, trivial, hfinal, rfl, hb⟩
  have hout : handsOut plainCrates ⟨"id-1"⟩ secondPoll = true := by decide +kernel
  have hr : (server plainCrates).Run .empty
      ((server plainCrates).replay .empty (script (retriedStep.take 2)) ++
        firstFailure :: ([] ++ secondPoll :: [])) secondPoll.after := by
    have hi : (server plainCrates).admits firstFailure.before firstFailure.input := by
      decide +kernel
    have hi' : (server plainCrates).admits secondPoll.before secondPoll.input := by decide +kernel
    have hfirst := script_run (retriedStep.take 2) (by decide +kernel)
    have hboth := (hfirst.append (Machine.Run.single hi)).append (Machine.Run.single hi')
    rw [List.append_assoc] at hboth
    exact hboth
  exact ⟨hback, hout, run_retry_not_early hr hback (by simp) hout (by decide +kernel)⟩

end Khronos.Proofs
