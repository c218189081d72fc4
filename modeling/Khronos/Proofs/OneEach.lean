import Khronos.Proofs.Scheduled
import Khronos.Server.Reloading

namespace Khronos.Proofs
open Time Lib Server Server.Scheduler

abbrev entryIds (es : List ScheduleEntry) : List String := es.map (·.scheduleId)

/-- No two entries of the heap are for one schedule. -/
def OneEach (heap : Heap) : Prop := (entryIds heap.entries).Nodup

theorem push_ids (heap : Heap) (e : ScheduleEntry) :
    (entryIds (heap.push e).entries).Perm (e.scheduleId :: entryIds heap.entries) :=
  (List.perm_orderedInsert (fun a b : ScheduleEntry => a.le b = true) e heap.entries).map
    (·.scheduleId)

theorem pushes_ids (es : List ScheduleEntry) :
    (entryIds (es.foldr Heap.push .empty).entries).Perm (entryIds es) := by
  induction es with
  | nil => exact .refl _
  | cons e es ih => exact (push_ids _ e).trans (ih.cons e.scheduleId)

theorem OneEach.push (h : OneEach heap) {e : ScheduleEntry}
    (hn : e.scheduleId ∉ entryIds heap.entries) : OneEach (heap.push e) :=
  (push_ids heap e).nodup_iff.mpr (List.nodup_cons.mpr ⟨hn, h⟩)

/-- The map of the next fire times has one entry for an id. -/
theorem keepEarliest_ids {fires : List ScheduleEntry} (h : (entryIds fires).Nodup)
    (e : ScheduleEntry) : (entryIds (keepEarliest fires e)).Nodup := by
  unfold keepEarliest
  by_cases hany : fires.any (fun f => f.scheduleId = e.scheduleId) = true
  · rw [if_pos hany]
    have hsame : entryIds (fires.map fun f => if f.scheduleId = e.scheduleId ∧
        e.nextFireTime.nanos < f.nextFireTime.nanos then e else f) = entryIds fires := by
      rw [entryIds, List.map_map]
      apply List.map_congr_left
      intro f _
      simp only [Function.comp_apply]
      split
      · rename_i hf
        exact hf.1.symm
      · rfl
    rw [hsame]
    exact h
  · rw [if_neg hany]
    have hnone : ∀ f ∈ fires, f.scheduleId ≠ e.scheduleId := by simpa using hany
    rw [entryIds, List.map_append]
    refine List.Nodup.append h (List.nodup_singleton _) ?_
    intro k hk he
    obtain ⟨f, hf, rfl⟩ := List.mem_map.mp hk
    exact hnone f hf (by simpa using he)

theorem nextFires_ids {rows : List (ScheduleRow × Nat)} {fires fires' : List ScheduleEntry}
    (hend : (nextFires crates env now rows fires).MayEnd (.ok fires'))
    (h : (entryIds fires).Nodup) : (entryIds fires').Nodup := by
  induction rows generalizing fires with
  | nil =>
    cases hend.of_pure
    exact h
  | cons row rows ih =>
    obtain ⟨info, i⟩ := row
    obtain ⟨t, -, hrest⟩ := hend.bind_ok
    cases t with
    | some t => exact ih hrest (keepEarliest_ids h _)
    | none => exact ih hrest h

/-- A heap that a reload gives. -/
theorem reloadAllSchedules_oneEach
    (hend : (reloadAllSchedules crates env).MayEnd (.ok heap)) : OneEach heap := by
  obtain ⟨rows, -, hend⟩ := hend.bind_ok
  obtain ⟨fires, hfires, hend⟩ := hend.bind_ok
  cases hend.of_pure
  exact (pushes_ids fires).nodup_iff.mpr (nextFires_ids hfires List.nodup_nil)

theorem lift_on (p : Prog World DbError α) (f : α → OnHeap β) (heap : Heap) :
    (OnHeap.lift p >>= f).on heap = p.attempt >>= fun
      | .ok a => (f a).on heap
      | .error e => pure (.error e, heap) := by
  change ((p.attempt >>= fun r => pure (r, heap)) >>= _ : Prog World Empty _) = _
  rw [Prog.bind_assoc]
  congr 1
  funext r
  cases r <;> rfl

theorem pushes_on (es : List ScheduleEntry) (heap : Heap) :
    (es.forM (fun e => modify (Heap.push e)) : OnHeap Unit).on heap =
      pure (.ok (), es.foldl (fun heap e => heap.push e) heap) := by
  induction es generalizing heap with
  | nil => rfl
  | cons e es ih => exact ih (heap.push e)

/-- What a reload makes of the heap it is given. -/
def settled (heap : Heap) : Except DbError Heap → Except DbError Unit × Heap
  | .ok rebuilt => (.ok (), rebuilt)
  | .error e => (.error e, heap)

/-- The reload on the heap itself is the one that computes a new heap, which then takes the old
one's place. -/
theorem reloadInPlace_eq (crates : Crates) (env : Env) (heap : Heap) :
    (reloadInPlace crates env).on heap =
      (reloadAllSchedules crates env).attempt >>= fun r => pure (settled heap r) := by
  unfold reloadInPlace reloadAllSchedules
  rw [lift_on, Prog.attempt_bind, Prog.bind_assoc]
  congr 1
  funext rows
  cases rows with
  | error e => rfl
  | ok rows =>
    dsimp only
    rw [lift_on, Prog.attempt_bind, Prog.bind_assoc]
    congr 1
    funext fires
    cases fires with
    | error e => rfl
    | ok fires =>
      refine (pushes_on fires.reverse .empty).trans ?_
      rw [List.foldl_reverse]
      rfl

/-- A reload that fails leaves the heap as it was, and one that succeeds leaves one entry each. -/
theorem reloadInPlace_ends {x : Except DbError Unit}
    (hend : ((reloadInPlace crates env).on heap).MayEnd (.ok (x, heap'))) :
    (∀ e, x = .error e → heap' = heap) ∧ (x = .ok () → OneEach heap') := by
  rw [reloadInPlace_eq] at hend
  obtain ⟨r, hr, hend⟩ := hend.bind_ok
  cases r with
  | ok rebuilt =>
    cases hend.of_pure
    exact ⟨nofun, fun _ => reloadAllSchedules_oneEach hr.attempt_ok⟩
  | error e =>
    cases hend.of_pure
    exact ⟨fun _ _ => rfl, nofun⟩

theorem updateScheduleNextFire_ends
    (hend : (updateScheduleNextFire crates env scheduleId heap).MayEnd (.ok heap')) :
    heap' = heap ∨ ∃ t, heap' = heap.push ⟨t, scheduleId⟩ := by
  obtain ⟨found, -, hend⟩ := hend.bind_ok
  cases found with
  | error e => exact .inl (Outcome.ok.inj hend.of_pure)
  | ok info =>
    obtain ⟨t, -, hend⟩ := hend.bind_ok
    cases t with
    | none => exact .inl (Outcome.ok.inj hend.of_pure)
    | some t => exact .inr ⟨t, Outcome.ok.inj hend.of_pure⟩

/-- The ids that are put back are not in the heap, and no two of them are the same. -/
theorem updateFired_oneEach {ids : List (String × Nat)}
    (hend : (updateFired crates env ids heap).MayEnd (.ok heap')) (h : OneEach heap)
    (hids : (ids.map Prod.fst).Nodup)
    (hout : ∀ id ∈ ids.map Prod.fst, id ∉ entryIds heap.entries) : OneEach heap' := by
  induction ids generalizing heap with
  | nil =>
    cases hend.of_pure
    exact h
  | cons x ids ih =>
    obtain ⟨scheduleId, i⟩ := x
    obtain ⟨hfirst, hrest⟩ := List.nodup_cons.mp hids
    have hstay : ∀ id ∈ ids.map Prod.fst, id ∉ entryIds heap.entries :=
      fun id hid => hout id (List.mem_cons_of_mem _ hid)
    obtain ⟨updated, hupdate, hend⟩ := hend.bind_ok
    cases updated with
    | error e => exact ih hend h hrest hstay
    | ok rebuilt =>
      rcases updateScheduleNextFire_ends hupdate.attempt_ok with rfl | ⟨t, rfl⟩
      · exact ih hend h hrest hstay
      · refine ih hend (h.push (hout _ List.mem_cons_self)) hrest (fun id hid hmem => ?_)
        rcases List.mem_cons.mp ((push_ids heap _).mem_iff.mp hmem) with rfl | hmem
        · exact hfirst hid
        · exact hstay id hid hmem

theorem OneEach.due (h : OneEach heap) (now : Clock) : (dueIds now heap).Nodup :=
  List.Nodup.sublist (List.filter_sublist.map _) h

theorem OneEach.notDue (h : OneEach heap) (now : Clock) :
    OneEach (notDue now heap.entries heap.sorted) :=
  List.Nodup.sublist (List.filter_sublist.map _) h

/-- Only the ids that were due are put back, in any part of the updates of a wake-up. -/
theorem updates_oneEach {ids : List (String × Nat)} (h : OneEach heap)
    (hids : ids.Sublist (dueIds now heap).zipIdx)
    (hend : (updateFired crates env ids (notDue now heap.entries heap.sorted)).MayEnd (.ok heap')) :
    OneEach heap' := by
  have hdue : (ids.map Prod.fst).Sublist (dueIds now heap) := by
    have hmap := hids.map Prod.fst
    rwa [List.zipIdx_map_fst] at hmap
  apply updateFired_oneEach hend (h.notDue now) ((h.due now).sublist hdue)
  -- An id that is due and not due would have two entries.
  intro id hid hmem
  obtain ⟨e, he, rfl⟩ := List.mem_map.mp (hdue.subset hid)
  obtain ⟨f, hf, hsame⟩ := List.mem_map.mp hmem
  obtain ⟨he, hle⟩ := List.mem_filter.mp he
  obtain ⟨hf, hlt⟩ := List.mem_filter.mp hf
  obtain rfl := List.inj_on_of_nodup_map h hf he hsame
  simp only [decide_eq_true_eq] at hle hlt
  omega

/-- A wake-up, whatever becomes of the schedules it processes and of the updates. -/
theorem wake_oneEach (hend : (wake crates env heap).MayEnd (.ok heap')) (h : OneEach heap) :
    OneEach heap' := by
  rw [wake_eq] at hend
  obtain ⟨_, -, hend⟩ := hend.bind_ok
  exact updates_oneEach h (List.Sublist.refl _) hend

/-- One entry for a schedule in the heap of a loop. -/
def LoopOneEach : Loop → Prop
  | .asleep heap => OneEach heap
  | _ => True

theorem pass_oneEach {loop : Loop} {pass : Pass} (h : LoopOneEach loop)
    (ha : (schedulerLoop crates).admits loop pass) :
    LoopOneEach ((schedulerLoop crates).step loop pass).2 := by
  have hreload : ∀ {env heap out}, OneEach heap →
      ((reloadInPlace crates env).on heap).MayEnd out → LoopOneEach (afterReload out) := by
    intro env heap out hheap hend
    cases out with
    | ok r =>
      obtain ⟨x, heap'⟩ := r
      obtain ⟨hfailed, hdone⟩ := reloadInPlace_ends hend
      cases x with
      | error e => exact (hfailed e rfl).symm ▸ hheap
      | ok _ => exact hdone rfl
    | error e => trivial
    | panicked => trivial
  cases pass with
  | start env out =>
    cases loop with
    | idle => exact hreload (show OneEach .empty from List.nodup_nil) ha
    | asleep heap => exact ha.elim
    | dead => exact ha.elim
  | wake env out =>
    cases loop with
    | asleep heap =>
      cases out with
      | ok heap' => exact wake_oneEach ha h
      | error e => trivial
      | panicked => trivial
    | idle => exact ha.elim
    | dead => exact ha.elim
  | notified env out =>
    cases loop with
    | asleep heap => exact hreload h ha
    | idle => exact ha.elim
    | dead => exact ha.elim

/-- The loop of a server whose turns nothing interrupts reloads as the loop does. -/
theorem reloaded_loop (crates : Crates) (env : Env) (heap : Heap) (s : Scheduling) :
    (reloaded crates env heap s).loop =
      afterReload (((reloadInPlace crates env).on heap).run s.world).1 := by
  rw [reloadInPlace_eq, Prog.run_bind, Prog.run_attempt]
  unfold reloaded
  generalize (reloadAllSchedules crates env).run s.world = r
  obtain ⟨out, w⟩ := r
  cases out <;> rfl

theorem woken_loop (crates : Crates) (env : Env) (heap : Heap) (s : Scheduling) :
    (woken crates env heap s).loop = afterWake ((wake crates env heap).run s.world).1 := by
  unfold woken
  generalize (wake crates env heap).run s.world = r
  obtain ⟨out, w⟩ := r
  cases out <;> rfl

/-- The scheduler within the server goes through runs of its loop. -/
theorem scheduling_loop {serde : Db.Schedules.Serde} (hr : (scheduling crates serde).Run s₀ ts s)
    (h0 : (scheduling crates serde).initial s₀) :
    ∃ us, (schedulerLoop crates).Run .idle us s.loop := by
  apply hr.keeps (P := fun s => ∃ us, (schedulerLoop crates).Run .idle us s.loop)
  · rintro s ⟨env, activity⟩ ⟨us, h⟩ ha
    cases activity with
    | start =>
      have hidle : s.loop = .idle := ha
      rw [hidle] at h
      have hnext := Machine.Run.next h (M := schedulerLoop crates)
        (i := .start env _) (Prog.MayEnd.run ((reloadInPlace crates env).on .empty) s.world)
      have hstep : ((scheduling crates serde).step s ⟨env, .start⟩).2.loop = _ :=
        reloaded_loop crates env .empty s
      rw [hstep]
      exact ⟨_, hnext⟩
    | wake =>
      obtain ⟨heap, hloop⟩ : ∃ heap, s.loop = .asleep heap := ha
      rw [hloop] at h
      have hnext := Machine.Run.next h (M := schedulerLoop crates)
        (i := .wake env _) (Prog.MayEnd.run (wake crates env heap) s.world)
      have hstep : ((scheduling crates serde).step s ⟨env, .wake⟩).2 = woken crates env heap s := by
        change s.proceed crates serde ⟨env, .wake⟩ = _
        simp only [Scheduling.proceed, hloop]
      rw [hstep, woken_loop]
      exact ⟨_, hnext⟩
    | notified =>
      obtain ⟨⟨heap, hloop⟩, -⟩ : (∃ heap, s.loop = .asleep heap) ∧ 0 < s.changes := ha
      rw [hloop] at h
      have hnext := Machine.Run.next h (M := schedulerLoop crates)
        (i := .notified env _) (Prog.MayEnd.run ((reloadInPlace crates env).on heap) s.world)
      have hstep : ((scheduling crates serde).step s ⟨env, .notified⟩).2 =
          reloaded crates env heap { s with changes := s.changes - 1 } := by
        change s.proceed crates serde ⟨env, .notified⟩ = _
        simp only [Scheduling.proceed, hloop]
      rw [hstep, reloaded_loop]
      exact ⟨_, hnext⟩
    | _ => exact ⟨us, h⟩
  · exact ⟨[], h0.1 ▸ .start⟩

/-- In every run of the scheduler's loop, whatever happens to the tables and whichever statements
fail, the heap holds no two entries for one schedule, also between the updates of a wake-up: so a
wake-up, which processes the schedules that are due entry by entry, processes none twice. And a
reload that fails leaves the heap as it was. -/
theorem loop_oneEach {ts : List (Transition Loop Pass Unit)} {loop : Loop}
    (hr : (schedulerLoop crates).Run .idle ts loop) :
    (∀ heap, loop = .asleep heap → OneEach heap ∧ ∀ env : Env,
      wake crates env heap = (processEach crates (env.part 1) (dueIds (env.now 0) heap) 0 >>= fun _ =>
        updateFired crates (env.part 2) (dueIds (env.now 0) heap).zipIdx
          (notDue (env.now 0) heap.entries heap.sorted)) ∧
      (dueIds (env.now 0) heap).Nodup ∧
      ∀ k heap', (updateFired crates (env.part 2) ((dueIds (env.now 0) heap).zipIdx.take k)
        (notDue (env.now 0) heap.entries heap.sorted)).MayEnd (.ok heap') → OneEach heap') ∧
    ∀ env heap e heap', ((reloadInPlace crates env).on heap).MayEnd (.ok (.error e, heap')) →
      heap' = heap := by
  constructor
  · rintro heap rfl
    have h : OneEach heap :=
      hr.keeps (P := LoopOneEach) (fun _ _ h ha => pass_oneEach h ha) trivial
    exact ⟨h, fun env => ⟨wake_eq crates env heap, h.due (env.now 0), fun k heap' hend =>
      updates_oneEach h (List.take_sublist _ _) hend⟩⟩
  · intro env heap e heap' hend
    exact (reloadInPlace_ends hend).1 e rfl

/-- The loop starts when one schedule is stored. -/
def storedOnce : Pass :=
  .start (turn 1) (((reloadInPlace plainCrates (turn 1)).on .empty).run (storing halfMinute)).1

def heapIds : Loop → List String
  | .asleep heap => entryIds heap.entries
  | _ => []

theorem stored_oneEach :
    ∃ heap, (schedulerLoop plainCrates).Run .idle
        [(schedulerLoop plainCrates).transition .idle storedOnce] (.asleep heap) ∧
      entryIds heap.entries = ["s"] ∧ OneEach heap := by
  have hr : (schedulerLoop plainCrates).Run .idle
      [(schedulerLoop plainCrates).transition .idle storedOnce]
      ((schedulerLoop plainCrates).step .idle storedOnce).2 :=
    Machine.Run.single (Prog.MayEnd.run _ _)
  have hids : heapIds ((schedulerLoop plainCrates).step .idle storedOnce).2 = ["s"] := by
    decide +kernel
  generalize ((schedulerLoop plainCrates).step .idle storedOnce).2 = loop at hr hids
  cases loop with
  | asleep heap => exact ⟨heap, hr, hids, ((loop_oneEach hr).1 heap rfl).1⟩
  | idle => cases hids
  | dead => cases hids

end Khronos.Proofs
