import Khronos.Lib.Endings
import Khronos.Proofs.Reload
import Khronos.Server.BinaryHeap

namespace Khronos.Proofs
open Time Lib Db.Activities Db.Workflows Server Server.Scheduler

theorem shouldFire_neverPanics (crates : Crates) (env : Env) (info : ScheduleRow) :
    (shouldFire crates env info).NeverPanics := by
  unfold shouldFire
  cases info.specType with
  | cron =>
    dsimp only
    split
    · exact .pure _
    · exact .pure _
  | interval =>
    dsimp only
    split
    · unfold checkInterval
      refine .bind (.attempt (.query _ _)) fun last => ?_
      split
      · split
        · exact .raise _
        · exact .pure _
      · exact .pure _
    · exact .pure _

theorem startScheduleWorkflow_neverPanics (crates : Crates) (env : Env) (info : ScheduleRow) :
    (startScheduleWorkflow crates env info).NeverPanics := by
  unfold startScheduleWorkflow
  refine .bind (.execute _ _) fun _ => .bind ?_ fun _ => .modify _
  exact .forEach fun x _ => .mapError (.execute _ _) _

theorem terminateExisting_neverPanics (env : Env) (scheduleId : String) :
    (terminateExisting env scheduleId).NeverPanics := by
  unfold terminateExisting
  refine .bind (.attempt (.query _ _)) fun ids => .forEach fun x _ => ?_
  unfold Db.Workflows.cancelWorkflow
  refine .bind (.execute _ _) fun rows => ?_
  split
  · exact .raise _
  · exact .pure _

theorem processSchedule_neverPanics (crates : Crates) (env : Env) (scheduleId : String) :
    (processSchedule crates env scheduleId).NeverPanics := by
  unfold processSchedule
  refine .bind (.attempt (.query _ _)) fun found => ?_
  cases found with
  | error e => exact .pure _
  | ok info =>
    refine .bind (shouldFire_neverPanics crates _ info) fun fires => ?_
    cases fires with
    | false => exact .pure _
    | true =>
      refine .bind (.query _ _) fun hasRunning => ?_
      have hstart := startScheduleWorkflow_neverPanics crates (env.part 2) info
      cases info.overlapPolicy with
      | skip =>
        cases hasRunning with
        | true => exact .pure _
        | false => exact hstart
      | terminate =>
        cases hasRunning with
        | true => exact .bind (terminateExisting_neverPanics _ scheduleId) fun _ => hstart
        | false => exact hstart
      | buffer => exact hstart

/-- An error of one schedule does not end the loop over them. -/
theorem processEach_ends (crates : Crates) (env : Env) (ids : List String) (i : Nat) :
    ∀ out, (processEach crates env ids i).MayEnd out → out = .ok () := by
  induction ids generalizing i with
  | nil =>
    intro out h
    exact h.of_pure
  | cons scheduleId ids ih =>
    intro out h
    unfold processEach at h
    have hfire := processSchedule_neverPanics crates (env.part i) scheduleId
    rcases h.of_bind with ⟨x, _, h⟩ | ⟨e, h, _⟩ | ⟨h, _⟩
    · exact ih (i + 1) out h
    · obtain ⟨x, hx⟩ := hfire.caught h
      cases hx
    · obtain ⟨x, hx⟩ := hfire.caught h
      cases hx

/-- Due is an entry whose time has come. -/
def dueBy (now : Clock) (e : Reverse) : Bool := e.entry.nextFireTime.nanos ≤ now.time.nanos

theorem dueBy_greater (now : Clock) (a b : Reverse) (h : b.le a) (hb : dueBy now b = true) :
    dueBy now a = true := by
  simp only [Reverse.le, ScheduleEntry.le, dueBy, Bool.or_eq_true, Bool.and_eq_true,
    decide_eq_true_eq] at *
  omega

theorem processPopped_step {H : Type} (Q : BinaryHeap H) (crates : Crates) (env : Env)
    (now : Clock) (heap : H) (i : Nat) :
    processPopped Q crates env now heap i = match Q.pop heap with
    | none => pure ([], heap)
    | some (⟨entry⟩, rest) =>
      if now.time.nanos < entry.nextFireTime.nanos then pure ([], Q.push ⟨entry⟩ rest)
      else (processSchedule crates (env.part i) entry.scheduleId).attempt >>=
        fun (_ : Except DbError Unit) => processPopped Q crates env now rest (i + 1) >>=
          fun r => pure (entry.scheduleId :: r.1, r.2) := by
  rw [processPopped]
  split
  · rename_i hp
    rw [hp]
  · rename_i hp
    rw [hp]

/-- The loop processes what a drain takes out, and leaves the heap that the drain leaves. -/
theorem processPopped_eq {H : Type} (Q : BinaryHeap H) (crates : Crates) (env : Env) (now : Clock)
    (heap : H) (i : Nat) :
    let fired := (Q.drain (dueBy now) heap).1.map (·.entry.scheduleId)
    processPopped Q crates env now heap i =
      processEach crates env fired i >>= fun _ => pure (fired, (Q.drain (dueBy now) heap).2) := by
  induction heap using Q.drain_induct (dueBy now) generalizing i with
  | empty h hp =>
    rw [processPopped_step, Q.drain_none hp, hp]
    rfl
  | later h a rest hp ha =>
    rw [processPopped_step, Q.drain_later hp ha, hp]
    exact if_pos (by simpa [dueBy] using ha)
  | pops h a rest hp ha ih =>
    rw [processPopped_step, Q.drain_due hp ha, hp]
    dsimp only
    rw [if_neg (by simpa [dueBy] using ha), List.map_cons, processEach, Prog.bind_assoc]
    congr 1
    funext out
    rw [ih, Prog.bind_assoc]
    rfl

/-- What the loop of a wake-up makes of a heap: the entries that it processes, in their order, and
the heap that it leaves. -/
structure Drains {H : Type} (Q : BinaryHeap H) (crates : Crates) (env : Env) (now : Clock)
    (heap : H) (i : Nat) (fired : List ScheduleEntry) (left : H) : Prop where
  ordered : fired.Pairwise (fun a b => a.le b = true)
  due : (fired : Multiset ScheduleEntry) =
    (Q.scheduled heap).filter (fun e => e.nextFireTime.nanos ≤ now.time.nanos)
  kept : Q.scheduled left =
    (Q.scheduled heap).filter (fun e => now.time.nanos < e.nextFireTime.nanos)
  loop : processPopped Q crates env now heap i =
    processEach crates env (fired.map (·.scheduleId)) i >>= fun _ =>
      pure (fired.map (·.scheduleId), left)

theorem drain_drains {H : Type} (Q : BinaryHeap H) (crates : Crates) (env : Env) (now : Clock)
    (heap : H) (i : Nat) :
    Drains Q crates env now heap i ((Q.drain (dueBy now) heap).1.map Reverse.entry)
      (Q.drain (dueBy now) heap).2 where
  ordered := List.pairwise_map.mpr (Q.drain_sorted (dueBy now) heap)
  due := by
    rw [← Multiset.map_coe, Q.drain_filter (dueBy_greater now), BinaryHeap.scheduled,
      Multiset.filter_map]
    congr 1
    refine Multiset.filter_congr fun e _ => ?_
    simp [dueBy]
  kept := by
    rw [BinaryHeap.scheduled, Q.left_filter (dueBy_greater now), BinaryHeap.scheduled,
      Multiset.filter_map]
    congr 1
    refine Multiset.filter_congr fun e _ => ?_
    simp [dueBy]
  loop := by
    rw [List.map_map]
    exact processPopped_eq Q crates env now heap i

/-- The loop comes to its end whatever happens to the tables in between and whichever statements
fail. -/
theorem Drains.ends {H : Type} {Q : BinaryHeap H} {heap left : H} {fired : List ScheduleEntry}
    (h : Drains Q crates env now heap i fired left) :
    ∀ out, (processPopped Q crates env now heap i).MayEnd out →
      out = .ok (fired.map (·.scheduleId), left) := by
  intro out hend
  rw [h.loop] at hend
  rcases hend.of_bind with ⟨_, _, hend⟩ | ⟨e, hend, _⟩ | ⟨hend, _⟩
  · exact hend.of_pure
  · cases processEach_ends _ _ _ _ _ hend
  · cases processEach_ends _ _ _ _ _ hend

/-- Whatever the heap and the time, the loop processes one after the other, in the order of their
times and ids, exactly the entries that are due, and leaves exactly the others. -/
theorem processPopped_drains {H : Type} (Q : BinaryHeap H) (crates : Crates) (env : Env)
    (now : Clock) (heap : H) (i : Nat) :
    ∃ fired left, Drains Q crates env now heap i fired left ∧
      (∀ out, (processPopped Q crates env now heap i).MayEnd out →
        out = .ok (fired.map (·.scheduleId), left)) ∧
      ∀ w, ∃ w', (processPopped Q crates env now heap i).run w =
        (.ok (fired.map (·.scheduleId), left), w') := by
  have h := drain_drains Q crates env now heap i
  exact ⟨_, _, h, h.ends, fun w => ⟨_, Prod.ext (h.ends _ (.run _ w)) rfl⟩⟩

theorem entry_antisymm {a b : ScheduleEntry} (hab : a.le b = true) (hba : b.le a = true) :
    a = b := by
  simp only [ScheduleEntry.le, textLe, Bool.or_eq_true, Bool.and_eq_true, decide_eq_true_eq,
    Bool.not_eq_true', decide_eq_false_iff_not, String.not_lt] at hab hba
  rcases hab with hab | ⟨ht, hab⟩
  · omega
  · rcases hba with hba | ⟨_, hba⟩
    · omega
    · exact entry_ext (String.le_antisymm hab hba) ht

/-- Over any heap of the same entries the loop is the one of `wake`, which knows them sorted. -/
theorem processPopped_simulates {H : Type} (Q : BinaryHeap H) (crates : Crates) (env : Env)
    (now : Clock) {heap : H} {sorted : Heap} (hsame : Q.scheduled heap = sorted.entries) (i : Nat) :
    ∃ left, Q.scheduled left = (notDue now sorted.entries sorted.sorted).entries ∧
      processPopped Q crates env now heap i =
        processDue crates env now sorted.entries sorted.sorted i >>= fun r => pure (r.1, left) := by
  have h := drain_drains Q crates env now heap i
  have hdue := h.due
  have hkept := h.kept
  rw [hsame, Multiset.filter_coe] at hdue hkept
  have hfired : _ = sorted.entries.filter (fun e => e.nextFireTime.nanos ≤ now.time.nanos) :=
    (Multiset.coe_eq_coe.mp hdue).eq_of_pairwise (fun _ _ _ _ => entry_antisymm) h.ordered
      (sorted.sorted.filter _)
  refine ⟨_, hkept, ?_⟩
  rw [h.loop, processDue_eq, Prog.bind_assoc, hfired]
  rfl

/-- The loop of `wake` is the one over the heap that keeps its entries sorted. -/
theorem processPopped_sorted (crates : Crates) (env : Env) (now : Clock)
    {entries : List ScheduleEntry} (hs : entries.Pairwise (fun a b => a.le b = true)) (i : Nat) :
    processPopped sortedHeap crates env now ⟨entries, hs⟩ i =
      processDue crates env now entries hs i := by
  induction entries generalizing i with
  | nil =>
    rw [processPopped_step]
    rfl
  | cons e rest ih =>
    rw [processPopped_step, processDue]
    change (if _ then _ else _) = _
    congr 1
    · -- The entry that is not due goes back to where it was.
      have hback : Heap.push e ⟨rest, hs.of_cons⟩ = ⟨e :: rest, hs⟩ := by
        apply heap_ext
        cases rest with
        | nil => rfl
        | cons f rest =>
          have hle : e.le f = true := List.rel_of_pairwise_cons hs List.mem_cons_self
          exact List.orderedInsert_cons_of_le (r := fun a b => a.le b = true) rest hle
      exact congrArg (fun heap => pure ([], heap)) hback
    · congr 1
      funext out
      change processPopped sortedHeap crates env now ⟨rest, hs.of_cons⟩ (i + 1) >>= _ = _
      rw [ih hs.of_cons]

end Khronos.Proofs
