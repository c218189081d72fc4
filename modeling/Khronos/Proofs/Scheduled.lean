import Khronos.Proofs.Reload
import Khronos.Server.Loop

namespace Khronos.Proofs
open Time Lib Db.Activities Db.Workflows Db.Schedules Server Server.Scheduler

/-- What a request for schedules does: nothing, or it writes their table and tells the engine. -/
def WritesSchedules (w w' : World) : Prop :=
  w' = w ∨ ∃ rows, ∀ crates env, w' = (exec crates env (.writeSchedules rows true)).after w

theorem createSchedule_writes (serde : Serde) (req : CreateScheduleRequest) (w : World) :
    WritesSchedules w ((createSchedule serde req).after w) := by
  unfold createSchedule Prog.after
  cases requestedSchedule req with
  | error status => exact .inl rfl
  | ok schedule =>
    dsimp only
    rw [Prog.run_bind, Prog.run_mapError, insertSchedule, run_execute]
    by_cases hdup : ∃ r ∈ w.db.schedules, r.scheduleId = schedule.scheduleId
    · rw [if_pos hdup]
      exact .inl rfl
    · rw [if_neg hdup]
      exact .inr ⟨_, fun _ _ => rfl⟩

theorem updateSchedule_writes (crates : Crates) (serde : Serde) (req : UpdateScheduleRequest)
    (w : World) : WritesSchedules w ((updateSchedule crates serde req).after w) := by
  unfold updateSchedule Prog.after
  cases required "spec" req.spec with
  | error status => exact .inl rfl
  | ok spec =>
    dsimp only
    rw [Prog.run_bind, Prog.run_mapError, getSchedule, run_query]
    generalize w.db.schedules.filter (fun r => r.scheduleId = req.scheduleId) = rows
    cases rows with
    | nil => exact .inl rfl
    | cons r rest =>
      dsimp only
      cases rowToSchedule crates serde r with
      | error e => exact .inl rfl
      | ok existing =>
        simp only [Except.map, Outcome.ofExcept, Outcome.mapError, Prog.resume_ok]
        cases coreSpec spec with
        | error status => exact .inl rfl
        | ok newSpec => exact .inr ⟨_, fun _ _ => rfl⟩

theorem deleteSchedule_writes (req : DeleteScheduleRequest) (w : World) :
    WritesSchedules w ((Server.deleteSchedule req).after w) :=
  .inr ⟨_, fun _ _ => rfl⟩

/-- What operations of the server, one after another, make of its world. -/
def Serves (crates : Crates) : World → World → Prop :=
  Relation.ReflTransGen fun w w' => ∃ env op, w' = (exec crates env op).after w

theorem exec_serves (crates : Crates) (env : Env) (op : Op) (w : World) :
    Serves crates w ((exec crates env op).after w) :=
  .single ⟨env, op, rfl⟩

theorem WritesSchedules.serves (h : WritesSchedules w w') (crates : Crates) (env : Env) :
    Serves crates w w' := by
  rcases h with rfl | ⟨rows, hrows⟩
  · exact .refl
  · rw [hrows crates env]
    exact exec_serves crates env _ w

/-- The loop over what is due fires one schedule after another. -/
theorem processDue_serves (crates : Crates) (env : Env) (now : Clock) {entries : List ScheduleEntry}
    (hs : entries.Pairwise (fun a b => a.le b = true)) (i : Nat) (w : World) :
    Serves crates w ((processDue crates env now entries hs i).after w) := by
  induction entries generalizing i w with
  | nil => exact .refl
  | cons e rest ih =>
    unfold processDue
    split
    · exact .refl
    · have hfire := exec_serves crates (env.part i) (.scheduleFire e.scheduleId) w
      rw [after_scheduleFire] at hfire
      unfold Prog.after at hfire ⊢
      rw [Prog.run_bind, Prog.run_attempt]
      generalize (processSchedule crates (env.part i) e.scheduleId).run w = out at hfire ⊢
      obtain ⟨out, v⟩ := out
      have hrest := ih hs.of_cons (i + 1) v
      rw [← Prog.after_bind_pure _ (fun x => (e.scheduleId :: x.1, x.2))] at hrest
      cases out with
      | ok u => exact hfire.trans hrest
      | error err => exact hfire.trans hrest
      | panicked => exact hfire

theorem wake_serves (crates : Crates) (env : Env) (heap : Heap) (w : World) :
    Serves crates w ((wake crates env heap).after w) := by
  have hdue := processDue_serves crates (env.part 1) (env.now 0) heap.sorted 0 w
  unfold wake Prog.after at *
  rw [Prog.run_bind]
  generalize (processDue crates (env.part 1) (env.now 0) heap.entries heap.sorted 0).run w = out
    at hdue ⊢
  obtain ⟨out, v⟩ := out
  cases out with
  | ok x =>
    rw [Prog.resume_ok, run_updateFired]
    exact hdue
  | error e => exact hdue
  | panicked => exact hdue

theorem reloaded_world (crates : Crates) (env : Env) (heap : Heap) (s : Scheduling) :
    (reloaded crates env heap s).world = s.world := by
  have hreads := (reloadAllSchedules_reads crates env).after s.world
  unfold Prog.after at hreads
  unfold reloaded
  generalize (reloadAllSchedules crates env).run s.world = out at hreads ⊢
  obtain ⟨out, w⟩ := out
  cases out with
  | ok heap => exact hreads
  | error e => exact hreads
  | panicked => exact hreads

theorem woken_world (crates : Crates) (env : Env) (heap : Heap) (s : Scheduling) :
    (woken crates env heap s).world = (wake crates env heap).after s.world := by
  unfold woken Prog.after
  generalize (wake crates env heap).run s.world = out
  obtain ⟨out, w⟩ := out
  cases out <;> rfl

/-- Whatever the server and its scheduler do in a turn, the server could have done. -/
theorem proceed_serves (crates : Crates) (serde : Serde) (s : Scheduling) (t : Turn) :
    Serves crates s.world (s.proceed crates serde t).world := by
  obtain ⟨env, activity⟩ := t
  cases activity with
  | createSchedule req => exact (createSchedule_writes serde req s.world).serves crates env
  | updateSchedule req => exact (updateSchedule_writes crates serde req s.world).serves crates env
  | deleteSchedule req => exact (deleteSchedule_writes req s.world).serves crates env
  | serve op => exact exec_serves crates env op s.world
  | start =>
    change Serves crates s.world (reloaded crates env .empty s).world
    rw [reloaded_world]
    exact .refl
  | wake =>
    unfold Scheduling.proceed
    cases s.loop with
    | asleep heap =>
      dsimp only
      rw [woken_world]
      exact wake_serves crates env heap s.world
    | idle => exact .refl
    | dead => exact .refl
  | notified =>
    unfold Scheduling.proceed
    cases s.loop with
    | asleep heap =>
      dsimp only
      rw [reloaded_world]
      exact .refl
    | idle => exact .refl
    | dead => exact .refl

/-- A run of the server with its scheduler is made of the server's operations. -/
theorem run_serves {serde : Serde} {ts : List SchedulingStep}
    (hr : (scheduling crates serde).Run s₀ ts s) : Serves crates s₀.world s.world := by
  have hstart : Serves crates s₀.world s₀.world := .refl
  refine hr.keeps (P := fun s => Serves crates s₀.world s.world) (fun s t h _ => ?_) hstart
  exact Relation.ReflTransGen.trans h (proceed_serves crates serde s t)

/-- The steps in which the scheduler loads all schedules. -/
def Loads (σ : SchedulingStep) : Prop :=
  σ.input.activity = .start ∨ σ.input.activity = .notified

/-- The next fire time of a numbered row, as a step computes it at its readings. -/
def timeIn (crates : Crates) (τ : SchedulingStep) (x : ScheduleRow × Nat) :
    Outcome DbError (Option DateTime) :=
  timeAt crates (τ.input.env.part 1) (τ.input.env.now 0) τ.before.world x

/-- A step can compute the time of every row, and an entry is the earliest of its id. -/
structure Loaded (crates : Crates) (τ : SchedulingStep) (e : ScheduleEntry) : Prop where
  all : ∀ x ∈ τ.before.world.db.schedules.zipIdx, ∃ o, timeIn crates τ x = .ok o
  earliest : Earliest (τ.before.world.db.schedules.zipIdx.filterMap
    (entryAt crates (τ.input.env.part 1) (τ.input.env.now 0) τ.before.world)) e

/-- The sleep ends too early for an entry to be due. -/
def Outlasts (e : ScheduleEntry) (σ : SchedulingStep) : Prop :=
  σ.input.activity = .wake → (σ.input.env.now 0).time.nanos < e.nextFireTime.nanos

/-- What the loop's heap holds after some steps: what the load at the start put into it, less
what has been due since. -/
inductive Heaped (crates : Crates) (ts : List SchedulingStep) : Loop → Prop
  | idle (hn : ∀ σ ∈ ts, ¬ Loads σ) : Heaped crates ts .idle
  | asleep (heap : Heap) (us : List SchedulingStep) (τ : SchedulingStep) (vs : List SchedulingStep)
      (he : ts = us ++ τ :: vs) (hstart : τ.input.activity = .start) (hus : ∀ σ ∈ us, ¬ Loads σ)
      (hvs : ∀ σ ∈ vs, ¬ Loads σ)
      (hmem : ∀ e, e ∈ heap.entries ↔ Loaded crates τ e ∧ ∀ σ ∈ vs, Outlasts e σ) :
      Heaped crates ts (.asleep heap)
  | dead : Heaped crates ts .dead

theorem Heaped.concat (h : Heaped crates ts loop) (hload : ¬ Loads σ)
    (hwake : σ.input.activity ≠ .wake) : Heaped crates (ts ++ [σ]) loop := by
  cases h with
  | idle hn =>
    exact .idle (List.forall_mem_append.mpr ⟨hn, List.forall_mem_singleton.mpr hload⟩)
  | asleep heap us τ vs he hstart hus hvs hmem =>
    refine .asleep heap us τ (vs ++ [σ]) (by simp [he]) hstart hus
      (List.forall_mem_append.mpr ⟨hvs, List.forall_mem_singleton.mpr hload⟩) (fun e => ?_)
    rw [hmem, List.forall_mem_append, List.forall_mem_singleton]
    exact ⟨fun h => ⟨h.1, h.2, fun hw => absurd hw hwake⟩, fun h => ⟨h.1, h.2.1⟩⟩
  | dead => exact .dead

theorem reloaded_heaped (hn : ∀ σ ∈ ts, ¬ Loads σ) {τ : SchedulingStep}
    (hstart : τ.input.activity = .start) :
    Heaped crates (ts ++ [τ]) (reloaded crates τ.input.env .empty τ.before).loop := by
  unfold reloaded
  generalize hr : (reloadAllSchedules crates τ.input.env).run τ.before.world = out
  obtain ⟨out, w⟩ := out
  cases out with
  | ok heap =>
    refine .asleep heap ts τ [] (by simp) hstart hn (by simp) (fun e => ?_)
    have hok := congrArg Prod.fst hr
    have hloaded : Loaded crates τ e ↔ e ∈ heap.entries := by
      rw [mem_reload hok]
      exact ⟨Loaded.earliest, fun h => ⟨((reload_ok_iff _ _ _ _).mp hok).1, h⟩⟩
    simp [hloaded]
  | error err =>
    refine .asleep .empty ts τ [] (by simp) hstart hn (by simp) (fun e => ?_)
    have hnone : ¬ Loaded crates τ e := by
      intro h
      have hok := (reload_ok_iff crates τ.input.env τ.before.world _).mpr ⟨h.all, rfl⟩
      rw [hr] at hok
      cases hok
    simp [hnone, Heap.empty]
  | panicked => exact .dead

theorem woken_heaped (h : Heaped crates ts (.asleep heap)) {σ : SchedulingStep}
    (hwake : σ.input.activity = .wake) :
    Heaped crates (ts ++ [σ]) (woken crates σ.input.env heap σ.before).loop := by
  have hload : ¬ Loads σ := by
    rintro (hs | hs)
    · rw [hwake] at hs
      cases hs
    · rw [hwake] at hs
      cases hs
  cases h with
  | asleep _ us τ vs he hstart hus hvs hmem =>
    unfold woken
    generalize hr : (wake crates σ.input.env heap).run σ.before.world = out
    obtain ⟨out, w⟩ := out
    cases out with
    | ok heap' =>
      refine .asleep heap' us τ (vs ++ [σ]) (by simp [he]) hstart hus
        (List.forall_mem_append.mpr ⟨hvs, List.forall_mem_singleton.mpr hload⟩) (fun e => ?_)
      rw [wake_entries hr, List.mem_filter, decide_eq_true_eq, hmem, List.forall_mem_append,
        List.forall_mem_singleton, and_assoc]
      exact and_congr_right fun _ => and_congr_right fun _ => ⟨fun h _ => h, fun h => h hwake⟩
    | error err => exact .dead
    | panicked => exact .dead

/-- One turn keeps what is known of the heap, and no notification ever comes. -/
theorem proceed_heaped {serde : Serde} {s : Scheduling} {t : Turn} (hc : s.changes = 0)
    (ht : s.allows t.activity) (h : Heaped crates ts s.loop) :
    (s.proceed crates serde t).changes = 0 ∧
      Heaped crates (ts ++ [(scheduling crates serde).transition s t])
        (s.proceed crates serde t).loop := by
  obtain ⟨env, activity⟩ := t
  have hquiet : activity ≠ .start → activity ≠ .wake → activity ≠ .notified →
      Heaped crates (ts ++ [(scheduling crates serde).transition s ⟨env, activity⟩]) s.loop :=
    fun hs hw hn => h.concat (fun hl => hl.elim hs hn) hw
  cases activity with
  | createSchedule req => exact ⟨hc, hquiet (by simp) (by simp) (by simp)⟩
  | updateSchedule req => exact ⟨hc, hquiet (by simp) (by simp) (by simp)⟩
  | deleteSchedule req => exact ⟨hc, hquiet (by simp) (by simp) (by simp)⟩
  | serve op => exact ⟨hc, hquiet (by simp) (by simp) (by simp)⟩
  | start =>
    rw [show s.loop = .idle from ht] at h
    cases h with
    | idle hn =>
      refine ⟨?_, reloaded_heaped (τ := (scheduling crates serde).transition s ⟨env, .start⟩) hn rfl⟩
      change (reloaded crates env .empty s).changes = 0
      unfold reloaded
      split <;> exact hc
  | wake =>
    obtain ⟨heap, hloop⟩ := ht
    rw [hloop] at h
    have hstep : s.proceed crates serde ⟨env, .wake⟩ = woken crates env heap s := by
      unfold Scheduling.proceed
      rw [hloop]
    rw [hstep]
    refine ⟨?_, woken_heaped (σ := (scheduling crates serde).transition s ⟨env, .wake⟩) h rfl⟩
    unfold woken
    split <;> exact hc
  | notified => exact absurd ht.2 (by omega)

theorem run_heaped {serde : Serde} {ts : List SchedulingStep}
    (hr : (scheduling crates serde).Run s₀ ts s) (h0 : (scheduling crates serde).initial s₀) :
    s.changes = 0 ∧ Heaped crates ts s.loop := by
  refine hr.keeps_with_past (P := fun ts s => s.changes = 0 ∧ Heaped crates ts s.loop)
    (C := fun _ _ _ => True) (fun us s t _ h ht _ => proceed_heaped h.1 ht h.2) ⟨h0.2, ?_⟩
    (fun _ _ _ _ => trivial)
  rw [h0.1]
  exact .idle (by simp)

/-- Two rows are of one schedule with one spec. -/
def SameSpec (r q : ScheduleRow) : Prop :=
  r.scheduleId = q.scheduleId ∧ r.specType = q.specType ∧
    r.cronExpressions = q.cronExpressions ∧ r.intervalSeconds = q.intervalSeconds

/-- A load computes a next fire time from the spec of a row. -/
def Computed (crates : Crates) (τ : SchedulingStep) (row : ScheduleRow) (T : DateTime) : Prop :=
  Loads τ ∧ ∃ x ∈ τ.before.world.db.schedules.zipIdx, SameSpec x.1 row ∧
    timeIn crates τ x = .ok (some T)

/-- The heap has an entry for a row that was computed from its spec. -/
def Scheduled (crates : Crates) (ts : List SchedulingStep) (heap : Heap) (row : ScheduleRow) :
    Prop :=
  ∃ T, ⟨T, row.scheduleId⟩ ∈ heap.entries ∧ ∃ τ ∈ ts, Computed crates τ row T

/-- A row had its spec at a load that went well, and has not been due at a wake-up since. -/
def Covered (crates : Crates) (ts : List SchedulingStep) (row : ScheduleRow) : Prop :=
  ∃ us τ vs T, ts = us ++ τ :: vs ∧ Computed crates τ row T ∧
    Loaded crates τ ⟨T, row.scheduleId⟩ ∧ ∀ σ ∈ vs, Outlasts ⟨T, row.scheduleId⟩ σ

/-- A list has one element of a kind, so it falls apart around it in one way. -/
theorem split_unique {p : α → Prop} (h : us ++ x :: vs = us' ++ x' :: vs') (hx : p x')
    (hus : ∀ y ∈ us, ¬ p y) (hvs : ∀ y ∈ vs, ¬ p y) : x = x' ∧ vs = vs' := by
  rcases List.append_eq_append_iff.mp h with ⟨mid, hmid, hrest⟩ | ⟨mid, hmid, hrest⟩
  · cases mid with
    | nil => exact List.cons_eq_cons.mp hrest
    | cons y mid =>
      rw [(List.cons_eq_cons.mp hrest).2] at hvs
      exact absurd hx (hvs x' (by simp))
  · cases mid with
    | nil => exact (List.cons_eq_cons.mp hrest).imp Eq.symm Eq.symm
    | cons y mid =>
      rw [← (List.cons_eq_cons.mp hrest).1] at hmid
      exact absurd hx (hus x' (by simp [hmid]))

theorem Heaped.scheduled_iff (h : Heaped crates ts (.asleep heap)) (row : ScheduleRow) :
    Scheduled crates ts heap row ↔ Covered crates ts row := by
  cases h with
  | asleep _ us τ vs he hstart hus hvs hmem =>
    constructor
    · rintro ⟨T, hT, σ, hσ, hcomputed⟩
      obtain ⟨us', vs', hsplit⟩ := List.append_of_mem hσ
      obtain ⟨rfl, rfl⟩ := split_unique (he.symm.trans hsplit) hcomputed.1 hus hvs
      exact ⟨us', τ, vs, T, hsplit, hcomputed, (hmem _).mp hT⟩
    · rintro ⟨us', σ, vs', T, hsplit, hcomputed, hkept⟩
      obtain ⟨rfl, rfl⟩ := split_unique (he.symm.trans hsplit) hcomputed.1 hus hvs
      exact ⟨T, (hmem _).mpr hkept, τ, by simp [he], hcomputed⟩

/-- At a clock time, a row has a next fire time. -/
def Computable (crates : Crates) (c : Clock) (w : World) (row : ScheduleRow) : Prop :=
  ∃ T, fireTime crates c w row = .ok (some T)

/-- In every run from the start of the server, while the loop sleeps: no notification waits for
it, and every stored schedule that has a next fire time is in the heap, by its current spec,
exactly when each had that spec at the load and has not been due since. -/
theorem run_scheduled_iff {serde : Serde} {ts : List SchedulingStep}
    (hr : (scheduling crates serde).Run s₀ ts s) (h0 : (scheduling crates serde).initial s₀)
    (hloop : s.loop = .asleep heap) (c : Clock) :
    s.changes = 0 ∧
    ((∀ row ∈ s.world.db.schedules, Computable crates c s.world row →
        Scheduled crates ts heap row) ↔
      ∀ row ∈ s.world.db.schedules, Computable crates c s.world row → Covered crates ts row) := by
  obtain ⟨hc, h⟩ := run_heaped hr h0
  rw [hloop] at h
  exact ⟨hc, forall₂_congr fun row _ => imp_congr_right fun _ => h.scheduled_iff row⟩

/-- The scheduler starts when one schedule is stored. -/
def startLoaded : SchedulingStep :=
  (scheduling plainCrates plainSerde).transition ⟨storing halfMinute, .idle, 0⟩ ⟨turn 1, .start⟩

theorem start_loaded_scheduled :
    ∃ heap, startLoaded.after.loop = .asleep heap ∧
      halfMinute ∈ startLoaded.after.world.db.schedules ∧
      ∀ row ∈ startLoaded.after.world.db.schedules,
        Computable plainCrates ((turn 1).now 0) startLoaded.after.world row →
          Scheduled plainCrates [startLoaded] heap row := by
  have htime : ∀ x ∈ (storing halfMinute).db.schedules.zipIdx,
      (timeIn plainCrates startLoaded x).value? = some (some ⟨60 * second⟩) := by decide +kernel
  have hall : ∀ x ∈ (storing halfMinute).db.schedules.zipIdx,
      ∃ o, timeIn plainCrates startLoaded x = .ok o :=
    fun x hx => ⟨_, Outcome.ok_of_value (htime x hx)⟩
  obtain ⟨heap, hok⟩ :
      ∃ heap, ((reloadAllSchedules plainCrates (turn 1)).run (storing halfMinute)).1 = .ok heap :=
    ⟨_, (reload_ok_iff plainCrates (turn 1) (storing halfMinute) _).mpr ⟨hall, rfl⟩⟩
  have hreload : (reloadAllSchedules plainCrates (turn 1)).run (storing halfMinute) =
      (.ok heap, storing halfMinute) :=
    Prod.ext hok ((reloadAllSchedules_reads plainCrates (turn 1)).after _)
  have hafter : startLoaded.after = ⟨storing halfMinute, .asleep heap, 0⟩ := by
    rw [show startLoaded.after = reloaded plainCrates (turn 1) .empty ⟨storing halfMinute, .idle, 0⟩
      from rfl, reloaded, hreload]
  have hr : (scheduling plainCrates plainSerde).Run ⟨storing halfMinute, .idle, 0⟩ [startLoaded]
      startLoaded.after := Machine.Run.single rfl
  rw [hafter] at hr ⊢
  refine ⟨heap, rfl, List.mem_cons_self, (run_scheduled_iff hr ⟨rfl, rfl⟩ rfl _).2.mpr ?_⟩
  intro row hrow _
  obtain rfl := List.mem_singleton.mp hrow
  have hfirst := Outcome.ok_of_value (htime _ List.mem_cons_self)
  exact ⟨[], startLoaded, [], ⟨60 * second⟩, rfl,
    ⟨.inl rfl, (halfMinute, 0), List.mem_cons_self, ⟨rfl, rfl, rfl, rfl⟩, hfirst⟩,
    ⟨hall, by decide +kernel, by decide +kernel⟩, by simp⟩

/-- A schedule is created over an empty heap, and the loop next wakes up a year later. -/
def createdAsleep : List Turn :=
  [⟨turn 0, .start⟩,
    ⟨turn 1, .createSchedule ⟨"s", "default", some ⟨"interval", [], some 30⟩,
      some ⟨"x", [], "default", "", none⟩, none⟩⟩,
    ⟨fixedEnv (Clock.ofSecs 31536000 (by omega)) 20, .wake⟩]

/-- The schedule is not in the heap. -/
theorem created_not_scheduled :
    ¬ ∀ (crates : Crates) (serde : Serde) (s₀ s : Scheduling) (ts : List SchedulingStep)
      (τ : SchedulingStep) (heap : Heap) (c : Clock), (scheduling crates serde).initial s₀ →
        (scheduling crates serde).Run s₀ (ts ++ [τ]) s →
        (Loads τ ∨ τ.input.activity = .wake) → s.loop = .asleep heap → s.changes = 0 →
          ∀ row ∈ s.world.db.schedules, Computable crates c s.world row →
            Scheduled crates (ts ++ [τ]) heap row := by
  intro h
  have hr := Machine.run_replay (M := scheduling plainCrates plainSerde) ⟨.empty, .idle, 0⟩
    createdAsleep ⟨rfl, trivial, ⟨.empty, rfl⟩, trivial⟩
  obtain ⟨T, hT, _⟩ := h plainCrates plainSerde _ _ [_, _] _ .empty
    (Clock.ofSecs 31536000 (by omega)) ⟨rfl, rfl⟩ hr (.inr rfl) rfl rfl _ List.mem_cons_self
    ⟨_, rfl⟩
  cases hT

end Khronos.Proofs
