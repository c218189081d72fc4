import Khronos.Proofs.Moves
import Khronos.Server.Replays

namespace Khronos.Proofs
open Time Lib Db.Activities Db.Workflows Server

/-- The steps of each run stand in the table in this order. -/
def RunsOrdered (R : WorkflowStepRow → WorkflowStepRow → Prop) (db : Db) : Prop :=
  db.workflowSteps.Pairwise (fun a b => a.workflowRunId = b.workflowRunId → R a b)

/-- By their indices. -/
abbrev Ordered (db : Db) : Prop := RunsOrdered (fun a b => a.stepIndex < b.stepIndex) db

/-- By the texts of their creation. -/
abbrev Created (db : Db) : Prop :=
  RunsOrdered (fun a b => textLe a.createdAt b.createdAt = true) db

/-- Nothing that is written to a step changes the order. -/
def Enduring (R : WorkflowStepRow → WorkflowStepRow → Prop) : Prop :=
  ∀ {a a' b b'}, Fixed a' a → Fixed b' b → R a b → R a' b'

theorem index_enduring : Enduring (fun a b => a.stepIndex < b.stepIndex) := by
  intro a a' b b' ha hb h
  rw [ha.index, hb.index]
  exact h

theorem createdAt_enduring : Enduring (fun a b => textLe a.createdAt b.createdAt = true) := by
  intro a a' b b' ha hb h
  rw [ha.created, hb.created]
  exact h

theorem runsOrdered_update {p : WorkflowStepRow → Bool} {f : WorkflowStepRow → WorkflowStepRow}
    (hR : Enduring R) (hf : ∀ s, Fixed (f s) s) (h : RunsOrdered R db) :
    (Table.update p f db.workflowSteps).Pairwise
      (fun a b => a.workflowRunId = b.workflowRunId → R a b) := by
  refine Table.pairwise_update (fun a b hab => ?_) h
  rw [(hf a).run, (hf b).run]
  exact ⟨fun he => hR (hf a) (.refl b) (hab he), fun he => hR (.refl a) (hf b) (hab he),
    fun he => hR (hf a) (hf b) (hab he)⟩

/-- An enduring order is kept where the steps of a new run have it. -/
theorem moved_runsOrdered {crates : Crates} (hR : Enduring R) (hw : WellFormed db) (hf : Fresh db env)
    (hnew : ∀ {new}, beginsRun op = true → FreshSteps env (stepTimes env op) db new →
      new.Pairwise R)
    (ho : RunsOrdered R db) (hm : Moved crates env op db db') : RunsOrdered R db' := by
  unfold RunsOrdered
  cases hm with
  | still hs ha =>
    rw [hs]
    exact ho
  | beaten id hs ha =>
    rw [hs]
    exact ho
  | started new hop hfresh hs ha =>
    rw [hs]
    refine List.pairwise_append.mpr ⟨ho, ?_, ?_⟩
    · refine (hnew hop hfresh).imp ?_
      intro a b h _
      exact h
    · -- No step that was there is of the new run.
      intro a ha b hb he
      obtain ⟨r, hr, hra⟩ := hw.ofRun a ha
      exact absurd ⟨r, hr, hra.trans (he.trans (hfresh.ofRun b hb))⟩ (fresh_unused hf (by omega)).1
  | dispatched s hc hs ha =>
    rw [hs]
    exact runsOrdered_update hR (setStep_fixed _ _ _ _) ho
  | reported id rep hop a s hact hstep hh hs ha =>
    rw [hs]
    exact runsOrdered_update hR (write_fixed _ _ _ _) ho

theorem moved_ordered {crates : Crates} (hw : WellFormed db) (hf : Fresh db env) (ho : Ordered db)
    (hm : Moved crates env op db db') : Ordered db' :=
  moved_runsOrdered index_enduring hw hf (fun _ hfresh => hfresh.ordered) ho hm

/-- The clock goes back while an operation creates the steps of a run, of which a definition has
at most five. -/
def SetBack (env : Env) (op : Op) : Prop :=
  beginsRun op = true ∧
    ∃ i j, i < j ∧ j < 5 ∧ (stepTimes env op j).time.secs < (stepTimes env op i).time.secs

theorem FreshSteps.created {now : Nat → Clock} (h : FreshSteps env now db new)
    (hback : ∀ i j, i < j → j < 5 → (now i).time.secs ≤ (now j).time.secs) :
    new.Pairwise (fun a b => textLe a.createdAt b.createdAt = true) := by
  rw [List.pairwise_iff_getElem]
  intro i j hi hj hlt
  rw [h.stamped i _ (List.getElem?_eq_getElem hi), h.stamped j _ (List.getElem?_eq_getElem hj)]
  have hj5 : j < 5 := Nat.lt_of_lt_of_le hj h.short
  exact (textLe_format (now i).plain (now j).plain).mpr (hback i j hlt hj5)

theorem moved_created {crates : Crates} (hw : WellFormed db) (hf : Fresh db env) (hc : Created db)
    (hback : ¬ SetBack env op) (hm : Moved crates env op db db') : Created db' := by
  refine moved_runsOrdered createdAt_enduring hw hf (fun hop hfresh => hfresh.created ?_) hc hm
  intro i j hlt hj
  by_contra hgt
  exact hback ⟨hop, i, j, hlt, hj, Int.not_le.mp hgt⟩

/-- A poll offers a step that is due and that it asks for. -/
def offered (env : Env) (op : Op) (db : Db) (s : WorkflowStepRow) : Bool :=
  ready (env.now 0) s && asks db op s

/-- The oldest of the offered steps; of equally old ones, the first in the table. -/
def Foremost (env : Env) (op : Op) (db : Db) (s : WorkflowStepRow) : Prop :=
  offered env op db s = true ∧ ∃ pre post, db.workflowSteps = pre ++ s :: post ∧
    (∀ t ∈ pre, offered env op db t = true → textLe t.createdAt s.createdAt = false) ∧
    ∀ t ∈ post, offered env op db t = true → textLe s.createdAt t.createdAt = true

instance : IsTrans WorkflowStepRow (fun a b => textLe a.createdAt b.createdAt = true) where
  trans a b c hab hbc := by
    simp only [textLe, Bool.not_eq_true', decide_eq_false_iff_not, String.not_lt] at hab hbc ⊢
    exact String.le_trans hab hbc

instance : Std.Total (fun a b : WorkflowStepRow => textLe a.createdAt b.createdAt = true) where
  total a b := by
    simp only [textLe, Bool.not_eq_true', decide_eq_false_iff_not, String.not_lt]
    exact String.le_total _ _

/-- Events are handled without a poll. -/
theorem foremost_not_handle (h : Foremost env op db s) (event : EngineEvent) :
    op ≠ .handle event :=
  asks_not_handle (Bool.and_eq_true_iff.mp h.1).2 event

theorem chosen_foremost (h : chosen env op db = some s) : Foremost env op db s := by
  obtain ⟨hs, hr, ha⟩ := chosen_mem h
  refine ⟨by simp [offered, hr, ha], ?_⟩
  obtain ⟨pre, post, he, hpre, hpost⟩ := Table.find_insertionSort h
  obtain ⟨pre', rest, ht, rfl, hrest⟩ := List.filter_eq_append_iff.mp he
  obtain ⟨mid, post', rfl, hmid, _, rfl⟩ := List.filter_eq_cons_iff.mp hrest
  refine ⟨pre' ++ mid, post', by rw [ht, List.append_assoc], ?_, ?_⟩
  · intro t ht ho
    simp only [offered, Bool.and_eq_true] at ho
    rcases List.mem_append.mp ht with hp | hm
    · simpa using hpre t (List.mem_filter.mpr ⟨hp, ho.1⟩) ho.2
    · exact absurd ho.1 (hmid t hm)
  · intro t ht ho
    simp only [offered, Bool.and_eq_true] at ho
    exact hpost t (List.mem_filter.mpr ⟨ht, ho.1⟩) ho.2

/-- A step that is not completed and that a poll cannot hand out: it runs, it has failed, it waits
for its retry, or the poll does not ask for it. -/
def HeldUp (env : Env) (op : Op) (db : Db) (u : WorkflowStepRow) : Prop :=
  u.state = .running ∨ u.state = .failed ∨
    (u.state = .pending ∧ (ready (env.now 0) u = false ∨ asks db op u = false))

/-- A poll is offered a step while an earlier one of its run is held up. -/
def OutOfTurn (env : Env) (op : Op) (db : Db) : Prop :=
  ∃ u ∈ db.workflowSteps, ∃ s ∈ db.workflowSteps, u.workflowRunId = s.workflowRunId ∧
    u.stepIndex < s.stepIndex ∧ HeldUp env op db u ∧ offered env op db s = true

/-- A step that is not completed is held up or offered. -/
theorem heldUp_or_offered (env : Env) (op : Op) (hw : WellFormed db) (hu : u ∈ db.workflowSteps) :
    u.state = .completed ∨ HeldUp env op db u ∨ offered env op db u = true := by
  cases hstate : u.state with
  | completed => exact .inl rfl
  | running => exact .inr (.inl (.inl hstate))
  | failed => exact .inr (.inl (.inr (.inl hstate)))
  | retried => exact absurd hstate (hw.noRetried u hu)
  | pending =>
    cases hr : ready (env.now 0) u with
    | false => exact .inr (.inl (.inr (.inr ⟨hstate, .inl hr⟩)))
    | true =>
      cases ha : asks db op u with
      | false => exact .inr (.inl (.inr (.inr ⟨hstate, .inr ha⟩)))
      | true => exact .inr (.inr (by simp [offered, hr, ha]))

/-- A poll takes no step before an earlier one of its run that it is offered too. -/
theorem offered_not_earlier (ho : Ordered db) (hc : Created db) (hs : Foremost env op db s)
    (hu : u ∈ db.workflowSteps) (hr : u.workflowRunId = s.workflowRunId)
    (hlt : u.stepIndex < s.stepIndex) : offered env op db u = false := by
  by_contra hoff
  rw [Bool.not_eq_false] at hoff
  obtain ⟨_, pre, post, he, hpre, _⟩ := hs
  unfold Ordered RunsOrdered at ho
  unfold Created RunsOrdered at hc
  rw [he] at hu ho hc
  rcases List.mem_append.mp hu with hm | hm
  · -- It stands before the step, and was created no later.
    have hle : textLe u.createdAt s.createdAt = true :=
      (List.pairwise_append.mp hc).2.2 u hm s (by simp) hr
    rw [hpre u hm hoff] at hle
    cases hle
  · have hafter := List.pairwise_cons.mp (List.pairwise_append.mp ho).2.1
    rcases List.mem_cons.mp hm with rfl | hm
    · exact absurd hlt Int64.lt_irrefl
    · exact absurd hlt (Int64.not_lt.mpr (Int64.le_of_lt (hafter.1 u hm hr.symm)))

theorem run_ordered {ts : List ServerStep} (hr : (server crates).Run .empty ts w) :
    WellFormed w.db ∧ Ordered w.db := by
  refine run_moved (P := Ordered) ?_ hr .empty ?_
  · intro db db' env op hw hf ho hm
    exact moved_ordered hw hf ho hm
  · exact List.Pairwise.nil

theorem run_created {ts : List ServerStep} (hr : (server crates).Run .empty ts w)
    (hback : ∀ τ ∈ ts, ¬ SetBack τ.input.env τ.input.op) : Created w.db := by
  have hstart : Created World.empty.db := List.Pairwise.nil
  refine (hr.keeps_when (P := fun w => WellFormed w.db ∧ Created w.db)
    (C := fun _ call => ¬ SetBack call.env call.op) ?_ ⟨.empty, hstart⟩ hback).2
  intro w call h hc hb
  exact ⟨step_wellFormed crates call h.1, moved_created h.1 hc h.2 hb (step_moved h.1 crates hc)⟩

/-- In a run in which no start sets the clock back, and no poll is offered a step while an
earlier one of its run is held up, a step is handed out only when all the earlier steps of its
run are completed. -/
theorem run_handed_out_in_order {ts : List ServerStep} (hr : (server crates).Run .empty ts w)
    (hback : ∀ τ ∈ ts, ¬ SetBack τ.input.env τ.input.op)
    (hturn : ∀ τ ∈ ts, ¬ OutOfTurn τ.input.env τ.input.op τ.before.db) :
    ∀ τ ∈ ts, ∀ a, handedOut crates τ = some a →
      ∀ s ∈ τ.before.db.workflowSteps, s.id = a.stepId →
        ∀ u ∈ τ.before.db.workflowSteps, u.workflowRunId = s.workflowRunId →
          u.stepIndex < s.stepIndex → u.state = .completed := by
  intro τ hτ a hout s hs hid u hu hrun hlt
  obtain ⟨us, vs, rfl⟩ := List.append_of_mem hτ
  obtain ⟨hbefore, hi, he, _⟩ := hr.at
  obtain ⟨hw, ho⟩ := run_ordered hbefore
  have hc := run_created hbefore fun σ hσ => hback σ (List.mem_append_left _ hσ)
  rw [he] at hout
  obtain ⟨q, hq, rfl, _⟩ := handedOut_dispatched hi hout
  obtain rfl := hw.steps.unique hs (chosen_mem hq).1 (key_iff.mpr hid)
  have hforemost := chosen_foremost hq
  rcases heldUp_or_offered τ.input.env τ.input.op hw hu with hdone | hheld | hoff
  · exact hdone
  · exact absurd ⟨u, hu, s, hs, hrun, hlt, hheld, hforemost.1⟩ (hturn τ hτ)
  · rw [offered_not_earlier ho hc hforemost hu hrun hlt] at hoff
    cases hoff

instance (env : Env) (op : Op) (db : Db) (u : WorkflowStepRow) : Decidable (HeldUp env op db u) :=
  inferInstanceAs (Decidable (_ ∨ _ ∨ _))

instance (env : Env) (op : Op) (db : Db) : Decidable (OutOfTurn env op db) :=
  inferInstanceAs (Decidable (∃ u ∈ db.workflowSteps, ∃ s ∈ db.workflowSteps, _))

/-- The first two steps of the cron pipeline, one after the other. -/
def twoSteps : List Op :=
  [.startWorkflow ⟨"cron_job_workflow", [], "", "", none, ""⟩,
    .pollActivity ⟨"", ["execute_cron_job"]⟩, .reportActivityResult ⟨"id-10", ""⟩,
    .pollActivity ⟨"", ["save_cron_output"]⟩]

theorem turn_not_setBack (i : Nat) (op : Op) : ¬ SetBack (turn i) op := by
  rintro ⟨_, j, k, _, _, hlt⟩
  cases op <;> exact Int.lt_irrefl _ hlt

theorem two_steps_in_order :
    ∃ τ ∈ (server plainCrates).replay .empty (script twoSteps),
      ∃ s ∈ τ.before.db.workflowSteps, s.stepIndex = 1 ∧
        (handedOut plainCrates τ).any (fun a => s.id = a.stepId) = true ∧
        ∀ u ∈ τ.before.db.workflowSteps, u.workflowRunId = s.workflowRunId →
          u.stepIndex < s.stepIndex → u.state = .completed := by
  have hsecond : ∃ τ ∈ (server plainCrates).replay .empty (script twoSteps),
      ∃ s ∈ τ.before.db.workflowSteps, s.stepIndex = 1 ∧
        (handedOut plainCrates τ).any (fun a => s.id = a.stepId) = true := by decide +kernel
  have hturn : ∀ τ ∈ (server plainCrates).replay .empty (script twoSteps),
      ¬ OutOfTurn τ.input.env τ.input.op τ.before.db := by decide +kernel
  have hback : ∀ τ ∈ (server plainCrates).replay .empty (script twoSteps),
      ¬ SetBack τ.input.env τ.input.op := by
    intro τ hτ
    obtain ⟨⟨op, i⟩, _, he⟩ := List.mem_map.mp (Machine.replay_input hτ)
    rw [← he]
    exact turn_not_setBack i op
  obtain ⟨τ, hτ, s, hs, hindex, hout⟩ := hsecond
  obtain ⟨a, ha, hid⟩ := Option.any_eq_true _ _ |>.mp hout
  refine ⟨τ, hτ, s, hs, hindex, hout, ?_⟩
  exact run_handed_out_in_order (script_run twoSteps (by decide +kernel)) hback hturn τ hτ a ha s hs
    (of_decide_eq_true hid)

/-- A worker of the cron pipeline asks for the type of its second step alone. -/
def skippedStep : List Op :=
  [.startWorkflow ⟨"cron_job_workflow", [], "", "", none, ""⟩,
    .pollActivity ⟨"", ["save_cron_output"]⟩]

/-- It is handed the second step while the first one waits. -/
theorem skipped_step_handed_out :
    ¬ ∀ (crates : Crates) (ts : List ServerStep) (w : World), (server crates).Run .empty ts w →
      ∀ τ ∈ ts, ∀ a, handedOut crates τ = some a →
        ∀ s ∈ τ.before.db.workflowSteps, s.id = a.stepId →
          ∀ u ∈ τ.before.db.workflowSteps, u.workflowRunId = s.workflowRunId →
            u.stepIndex < s.stepIndex → u.state = .completed := by
  intro h
  have hskip : ∃ τ ∈ (server plainCrates).replay .empty (script skippedStep),
      ∃ s ∈ τ.before.db.workflowSteps, ∃ u ∈ τ.before.db.workflowSteps,
        (handedOut plainCrates τ).any (fun a => s.id = a.stepId) = true ∧
          u.workflowRunId = s.workflowRunId ∧ u.stepIndex < s.stepIndex ∧ u.state = .pending := by
    decide +kernel
  obtain ⟨τ, hτ, s, hs, u, hu, hout, hrun, hlt, hpend⟩ := hskip
  obtain ⟨a, ha, hid⟩ := Option.any_eq_true _ _ |>.mp hout
  have hdone := h plainCrates _ _ (script_run skippedStep (by decide +kernel)) τ hτ a ha
    s hs (of_decide_eq_true hid) u hu hrun hlt
  rw [hpend] at hdone
  cases hdone

end Khronos.Proofs
