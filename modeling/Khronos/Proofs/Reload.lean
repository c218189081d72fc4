import Khronos.Proofs.Cron

namespace Khronos.Proofs
open Time Lib Db.Activities Db.Workflows Server Server.Scheduler

theorem mem_push (e f : ScheduleEntry) (heap : Heap) :
    e ∈ (heap.push f).entries ↔ e = f ∨ e ∈ heap.entries := by
  simp [Heap.push, List.mem_orderedInsert]

theorem mem_pushes (e : ScheduleEntry) (kept : List ScheduleEntry) :
    e ∈ (kept.foldr Heap.push .empty).entries ↔ e ∈ kept := by
  induction kept with
  | nil => simp [Heap.empty]
  | cons f kept ih => rw [List.foldr_cons, mem_push, ih, List.mem_cons]

/-- An entry is among some, and none of them is an earlier one of its id. -/
structure Earliest (es : List ScheduleEntry) (e : ScheduleEntry) : Prop where
  mem : e ∈ es
  least : ∀ f ∈ es, f.scheduleId = e.scheduleId → e.nextFireTime.nanos ≤ f.nextFireTime.nanos

theorem entry_ext {e f : ScheduleEntry} (hid : e.scheduleId = f.scheduleId)
    (ht : e.nextFireTime.nanos = f.nextFireTime.nanos) : e = f := by
  cases e with
  | mk t id =>
    cases f with
    | mk t' id' =>
      cases t
      cases t'
      simp_all

/-- A map of next fire times for some entries. -/
structure Kept (es kept : List ScheduleEntry) : Prop where
  mem : ∀ e, e ∈ kept ↔ Earliest es e
  ids : ∀ e ∈ es, ∃ f ∈ kept, f.scheduleId = e.scheduleId

theorem earliest_concat : Earliest (es ++ [x]) e ↔
    (Earliest es e ∧
      (x.scheduleId = e.scheduleId → e.nextFireTime.nanos ≤ x.nextFireTime.nanos)) ∨
    (e = x ∧ ∀ f ∈ es, f.scheduleId = x.scheduleId →
      x.nextFireTime.nanos ≤ f.nextFireTime.nanos) := by
  constructor
  · intro h
    have hleast := List.forall_mem_append.mp h.least
    rcases List.mem_append.mp h.mem with hmem | hmem
    · exact .inl ⟨⟨hmem, hleast.1⟩, hleast.2 x List.mem_cons_self⟩
    · obtain rfl := List.mem_singleton.mp hmem
      exact .inr ⟨rfl, hleast.1⟩
  · rintro (⟨h, hx⟩ | ⟨rfl, h⟩)
    · exact ⟨List.mem_append_left _ h.mem,
        List.forall_mem_append.mpr ⟨h.least, List.forall_mem_singleton.mpr hx⟩⟩
    · exact ⟨by simp,
        List.forall_mem_append.mpr ⟨h, List.forall_mem_singleton.mpr fun _ => le_refl _⟩⟩

/-- Where the map has an entry of the id, the earlier one stays. -/
theorem Kept.known (h : Kept es kept) (hx : ∃ f ∈ kept, f.scheduleId = x.scheduleId) :
    Kept (es ++ [x]) (kept.map fun f =>
      if f.scheduleId = x.scheduleId ∧ x.nextFireTime.nanos < f.nextFireTime.nanos then x
      else f) where
  mem e := by
    rw [List.mem_map, earliest_concat]
    constructor
    · rintro ⟨f, hf, rfl⟩
      have hle := (h.mem f).mp hf
      split
      · rename_i hc
        refine .inr ⟨rfl, fun g hg hid => ?_⟩
        have hfg := hle.least g hg (hid.trans hc.1.symm)
        omega
      · rename_i hc
        refine .inl ⟨hle, fun hid => ?_⟩
        by_contra hlt
        exact hc ⟨hid.symm, by omega⟩
    · rintro (⟨he, hle⟩ | ⟨rfl, hall⟩)
      · refine ⟨e, (h.mem e).mpr he, if_neg ?_⟩
        rintro ⟨hid, hlt⟩
        have hge := hle hid.symm
        omega
      · obtain ⟨f, hf, hid⟩ := hx
        have hle := hall f ((h.mem f).mp hf).mem hid
        refine ⟨f, hf, ?_⟩
        split
        · rfl
        · rename_i hc
          have hge : f.nextFireTime.nanos ≤ e.nextFireTime.nanos := by
            by_contra hlt
            exact hc ⟨hid, by omega⟩
          exact entry_ext hid (by omega)
  ids e he := by
    obtain ⟨f, hf, hid⟩ : ∃ f ∈ kept, f.scheduleId = e.scheduleId := by
      rcases List.mem_append.mp he with he | he
      · exact h.ids e he
      · rw [List.mem_singleton.mp he]
        exact hx
    refine ⟨_, List.mem_map.mpr ⟨f, hf, rfl⟩, ?_⟩
    split
    · rename_i hc
      exact hc.1.symm.trans hid
    · exact hid

theorem Kept.new (h : Kept es kept) (hx : ¬ ∃ f ∈ kept, f.scheduleId = x.scheduleId) :
    Kept (es ++ [x]) (kept ++ [x]) where
  mem e := by
    have hnone : ∀ f ∈ es, f.scheduleId ≠ x.scheduleId := by
      intro f hf hid
      obtain ⟨g, hg, hgid⟩ := h.ids f hf
      exact hx ⟨g, hg, hgid.trans hid⟩
    rw [List.mem_append, List.mem_singleton, h.mem, earliest_concat]
    constructor
    · rintro (he | rfl)
      · exact .inl ⟨he, fun hid => absurd hid.symm (hnone e he.mem)⟩
      · exact .inr ⟨rfl, fun f hf hid => absurd hid (hnone f hf)⟩
    · rintro (⟨he, _⟩ | ⟨rfl, _⟩)
      · exact .inl he
      · exact .inr rfl
  ids e he := by
    rcases List.mem_append.mp he with he | he
    · obtain ⟨f, hf, hid⟩ := h.ids e he
      exact ⟨f, List.mem_append_left _ hf, hid⟩
    · exact ⟨e, List.mem_append_right _ he, rfl⟩

theorem kept_all (es : List ScheduleEntry) : Kept es (es.foldl keepEarliest []) := by
  induction es using List.reverseRecOn with
  | nil =>
    refine ⟨fun e => iff_of_false (by simp) (fun h => ?_), by simp⟩
    cases h.mem
  | append_singleton es x ih =>
    rw [List.foldl_append, List.foldl_cons, List.foldl_nil]
    generalize es.foldl keepEarliest [] = kept at ih ⊢
    unfold keepEarliest
    split
    · rename_i hany
      exact ih.known (by simpa using hany)
    · rename_i hany
      exact ih.new (by simpa using hany)

/-- A program that only reads. -/
abbrev Reads (p : Prog World DbError α) : Prop := p.Within Eq

theorem Reads.after {p : Prog World DbError α} (h : Reads p) (w : World) : p.after w = w :=
  (h.run (fun _ => rfl) Eq.trans w).symm

theorem getLastStarted_reads (scheduleId : String) : Reads (getLastStarted scheduleId) := by
  refine Prog.Within.bind (Prog.Within.query (fun _ => rfl) _ _) (fun last => ?_)
  cases last with
  | none => trivial
  | some text =>
    dsimp only
    split <;> trivial

theorem plusSeconds_reads (time : DateTime) (secs : UInt64) : Reads (plusSeconds time secs) := by
  unfold plusSeconds
  split <;> trivial

theorem nextFireTime_reads (crates : Crates) (env : Env) (info : ScheduleRow) (now : Clock) :
    Reads (nextFireTime crates env info now) := by
  unfold nextFireTime
  split
  · trivial
  · unfold calculateNextIntervalFire
    dsimp only
    split
    · trivial
    · refine Prog.Within.bind (getLastStarted_reads _) (fun last => ?_)
      cases last with
      | none => trivial
      | some last =>
        refine Prog.Within.bind (plusSeconds_reads _ _) (fun next => ?_)
        split
        · trivial
        · exact Prog.Within.bind (plusSeconds_reads _ _) (fun _ => trivial)

theorem nextFires_reads (crates : Crates) (env : Env) (now : Clock)
    (rows : List (ScheduleRow × Nat)) (kept : List ScheduleEntry) :
    Reads (nextFires crates env now rows kept) := by
  induction rows generalizing kept with
  | nil => trivial
  | cons x rows ih =>
    refine Prog.Within.bind (nextFireTime_reads _ _ _ _) (fun next => ?_)
    cases next with
    | none => exact ih _
    | some t => exact ih _

theorem reloadAllSchedules_reads (crates : Crates) (env : Env) :
    Reads (reloadAllSchedules crates env) :=
  Prog.Within.bind (Prog.Within.query (fun _ => rfl) _ _) fun _ =>
    Prog.Within.bind (nextFires_reads _ _ _ _ _) fun _ => trivial

/-- The next fire time of a numbered row, with the clock readings of its number. -/
def timeAt (crates : Crates) (env : Env) (now : Clock) (w : World) (x : ScheduleRow × Nat) :
    Outcome DbError (Option DateTime) :=
  ((nextFireTime crates (env.part x.2) x.1 now).run w).1

/-- The entry of a numbered row, if it has a next fire time. -/
def entryAt (crates : Crates) (env : Env) (now : Clock) (w : World) (x : ScheduleRow × Nat) :
    Option ScheduleEntry :=
  match timeAt crates env now w x with
  | .ok (some t) => some ⟨t, x.1.scheduleId⟩
  | _ => none

/-- The loop of the reload ends well when every time can be computed, and then has kept the
earliest ones. -/
theorem nextFires_ok_iff (crates : Crates) (env : Env) (now : Clock) (w : World)
    (rows : List (ScheduleRow × Nat)) (kept l : List ScheduleEntry) :
    ((nextFires crates env now rows kept).run w).1 = .ok l ↔
      (∀ x ∈ rows, ∃ o, timeAt crates env now w x = .ok o) ∧
        l = (rows.filterMap (entryAt crates env now w)).foldl keepEarliest kept := by
  induction rows generalizing kept with
  | nil => simp [nextFires, eq_comm]
  | cons x rows ih =>
    obtain ⟨info, i⟩ := x
    have hworld := (nextFireTime_reads crates (env.part i) info now).after w
    unfold Prog.after at hworld
    rw [nextFires, Prog.run_bind, List.filterMap_cons]
    generalize hr : (nextFireTime crates (env.part i) info now).run w = out at hworld
    obtain ⟨out, v⟩ := out
    dsimp only at hworld
    subst hworld
    have ht : timeAt crates env now v (info, i) = out := by rw [timeAt, hr]
    cases out with
    | ok t =>
      cases t with
      | none =>
        have hentry : entryAt crates env now v (info, i) = none := by rw [entryAt, ht]
        simp [hentry, ht, ih]
      | some t =>
        have hentry : entryAt crates env now v (info, i) = some ⟨t, info.scheduleId⟩ := by
          rw [entryAt, ht]
        simp [hentry, ht, ih]
    | error e => simp [ht]
    | panicked => simp [ht]

theorem reload_ok_iff (crates : Crates) (env : Env) (w : World) (heap : Heap) :
    ((reloadAllSchedules crates env).run w).1 = .ok heap ↔
      (∀ x ∈ w.db.schedules.zipIdx,
        ∃ o, timeAt crates (env.part 1) (env.now 0) w x = .ok o) ∧
      heap = ((w.db.schedules.zipIdx.filterMap
        (entryAt crates (env.part 1) (env.now 0) w)).foldl keepEarliest []).foldr Heap.push .empty := by
  have hfires := nextFires_ok_iff crates (env.part 1) (env.now 0) w w.db.schedules.zipIdx []
  unfold reloadAllSchedules
  rw [Prog.run_bind, run_query]
  simp only [Outcome.ofExcept, Prog.resume_ok, Prog.run_bind]
  generalize (nextFires crates (env.part 1) (env.now 0) w.db.schedules.zipIdx []).run w = out
    at hfires
  obtain ⟨out, v⟩ := out
  cases out with
  | ok l =>
    obtain ⟨hall, rfl⟩ := (hfires l).mp rfl
    rw [Prog.resume_ok, Prog.run_pure, Outcome.ok.injEq]
    exact ⟨fun he => ⟨hall, he.symm⟩, fun he => he.2.symm⟩
  | error e =>
    refine iff_of_false (by simp) (fun h => ?_)
    simpa using (hfires _).mpr ⟨h.1, rfl⟩
  | panicked =>
    refine iff_of_false (by simp) (fun h => ?_)
    simpa using (hfires _).mpr ⟨h.1, rfl⟩

/-- A reload that ends well puts the earliest entry of each id into the heap. -/
theorem mem_reload (h : ((reloadAllSchedules crates env).run w).1 = .ok heap) :
    e ∈ heap.entries ↔ Earliest (w.db.schedules.zipIdx.filterMap
      (entryAt crates (env.part 1) (env.now 0) w)) e := by
  rw [((reload_ok_iff crates env w heap).mp h).2, mem_pushes]
  exact (kept_all _).mem e

theorem prepares_ofList (letters : List Char) :
    prepares (String.ofList letters) = !letters.contains '\\' := by
  rw [prepares, String.toList_ofList]

-- Unfolding the text into its letters takes a step for each of them.
set_option maxRecDepth 4000 in
theorem updateStatement_refused : prepares updateStatement = false :=
  (prepares_ofList _).trans (by decide +kernel)

/-- The update of one schedule finds none. -/
theorem run_updateScheduleNextFire (crates : Crates) (env : Env) (scheduleId : String)
    (heap : Heap) (w : World) :
    (updateScheduleNextFire crates env scheduleId heap).run w = (.ok heap, w) := by
  unfold updateScheduleNextFire
  rw [Prog.run_bind, Prog.run_attempt, run_query, updateStatement_refused]
  rfl

theorem run_updateFired (crates : Crates) (env : Env) (ids : List (String × Nat)) (heap : Heap)
    (w : World) : (updateFired crates env ids heap).run w = (.ok heap, w) := by
  induction ids with
  | nil => rfl
  | cons x ids ih =>
    obtain ⟨scheduleId, i⟩ := x
    rw [updateFired, Prog.run_bind, Prog.run_attempt, run_updateScheduleNextFire]
    exact ih

theorem heap_ext {heap heap' : Heap} (h : heap.entries = heap'.entries) : heap = heap' := by
  cases heap
  cases heap'
  cases h
  rfl

/-- The ids of the entries that are due. -/
def dueIds (now : Clock) (heap : Heap) : List String :=
  (heap.entries.filter (fun e => e.nextFireTime.nanos ≤ now.time.nanos)).map (·.scheduleId)

/-- The schedules of some ids are processed, one after the other; an error is logged. -/
def processEach (crates : Crates) (env : Env) : List String → Nat → Prog World DbError Unit
  | [], _ => return ()
  | scheduleId :: ids, i => do
    let _ ← ((processSchedule crates (env.part i) scheduleId).attempt :
      Prog World DbError (Except DbError Unit))
    processEach crates env ids (i + 1)

/-- The heap of the entries that are not due yet. -/
def notDue (now : Clock) (entries : List ScheduleEntry)
    (sorted : entries.Pairwise (fun a b => a.le b = true)) : Heap :=
  ⟨entries.filter (fun e => now.time.nanos < e.nextFireTime.nanos), sorted.filter _⟩

theorem notDue_entries (now : Clock) (entries : List ScheduleEntry)
    (hs : entries.Pairwise (fun a b => a.le b = true)) :
    (notDue now entries hs).entries =
      entries.filter (fun e => now.time.nanos < e.nextFireTime.nanos) := rfl

/-- The loop of a wake-up processes the schedules that are due, each entry once, and leaves the
others in the heap. -/
theorem processDue_eq (crates : Crates) (env : Env) (now : Clock) {entries : List ScheduleEntry}
    (hs : entries.Pairwise (fun a b => a.le b = true)) (i : Nat) :
    processDue crates env now entries hs i =
      processEach crates env (dueIds now ⟨entries, hs⟩) i >>= fun _ =>
        pure (dueIds now ⟨entries, hs⟩, notDue now entries hs) := by
  induction entries generalizing i with
  | nil => rfl
  | cons e rest ih =>
    unfold processDue
    by_cases hlater : now.time.nanos < e.nextFireTime.nanos
    · rw [if_pos hlater]
      -- The heap is sorted, so nothing after this entry is due.
      have hall : ∀ f ∈ e :: rest, now.time.nanos < f.nextFireTime.nanos := by
        intro f hf
        rcases List.mem_cons.mp hf with rfl | hf
        · exact hlater
        · have hle := List.rel_of_pairwise_cons hs hf
          simp only [ScheduleEntry.le, Bool.or_eq_true, Bool.and_eq_true, decide_eq_true_eq] at hle
          omega
      have hdue : dueIds now ⟨e :: rest, hs⟩ = [] := by
        unfold dueIds
        rw [List.filter_eq_nil_iff.mpr (fun f hf => by simpa using hall f hf), List.map_nil]
      have hkept : notDue now (e :: rest) hs = ⟨e :: rest, hs⟩ :=
        heap_ext (List.filter_eq_self.mpr (fun f hf => decide_eq_true (hall f hf)))
      rw [hdue, hkept]
      rfl
    · rw [if_neg hlater]
      have hle : e.nextFireTime.nanos ≤ now.time.nanos := not_lt.mp hlater
      have hdue : dueIds now ⟨e :: rest, hs⟩ = e.scheduleId :: dueIds now ⟨rest, hs.of_cons⟩ := by
        unfold dueIds
        rw [List.filter_cons_of_pos (by simpa using hle), List.map_cons]
      have hkept : notDue now (e :: rest) hs = notDue now rest hs.of_cons := by
        apply heap_ext
        rw [notDue_entries, notDue_entries, List.filter_cons_of_neg (by simpa using hle)]
      rw [hdue, hkept, processEach, Prog.bind_assoc]
      congr 1
      funext out
      rw [ih, Prog.bind_assoc]
      rfl

/-- A wake-up processes what is due, and then updates what it has processed. -/
theorem wake_eq (crates : Crates) (env : Env) (heap : Heap) :
    wake crates env heap = processEach crates (env.part 1) (dueIds (env.now 0) heap) 0 >>= fun _ =>
      updateFired crates (env.part 2) (dueIds (env.now 0) heap).zipIdx
        (notDue (env.now 0) heap.entries heap.sorted) := by
  unfold wake
  rw [processDue_eq, Prog.bind_assoc]
  rfl

/-- A wake-up takes what is due out of the heap and puts nothing back. -/
theorem wake_entries (h : (wake crates env heap).run w = (.ok heap', w')) :
    heap'.entries =
      heap.entries.filter (fun e => (env.now 0).time.nanos < e.nextFireTime.nanos) := by
  rw [wake_eq, Prog.run_bind] at h
  generalize (processEach crates (env.part 1) (dueIds (env.now 0) heap) 0).run w = r at h
  obtain ⟨out, v⟩ := r
  cases out with
  | ok _ =>
    rw [Prog.resume_ok, run_updateFired] at h
    cases h
    rfl
  | error e => cases h
  | panicked => cases h

/-- A reload at a clock time puts an entry for an id into the heap. -/
def Reloads (crates : Crates) (t : Clock) (w : World) (scheduleId : String) (T : DateTime) : Prop :=
  ∃ heap, ((reloadAllSchedules crates (fixedEnv t 0)).run w).1 = .ok heap ∧
    ⟨T, scheduleId⟩ ∈ heap.entries

/-- The next fire time of a row at a clock time. -/
def fireTime (crates : Crates) (t : Clock) (w : World) (info : ScheduleRow) :
    Outcome DbError (Option DateTime) :=
  ((nextFireTime crates (fixedEnv t 0) info t).run w).1

/-- The next fire time of every row can be computed, and of the rows of an id this is the
earliest. -/
structure NextFire (crates : Crates) (t : Clock) (w : World) (scheduleId : String)
    (T : DateTime) : Prop where
  all : ∀ info ∈ w.db.schedules, ∃ o, fireTime crates t w info = .ok o
  stored : ∃ info ∈ w.db.schedules, info.scheduleId = scheduleId ∧
    fireTime crates t w info = .ok (some T)
  least : ∀ info ∈ w.db.schedules, info.scheduleId = scheduleId →
    ∀ T', fireTime crates t w info = .ok (some T') → T.nanos ≤ T'.nanos

theorem mem_entries : e ∈ w.db.schedules.zipIdx.filterMap
      (entryAt crates ((fixedEnv t 0).part 1) ((fixedEnv t 0).now 0) w) ↔
    ∃ info ∈ w.db.schedules, info.scheduleId = e.scheduleId ∧
      fireTime crates t w info = .ok (some e.nextFireTime) := by
  have hentry : ∀ x : ScheduleRow × Nat,
      entryAt crates ((fixedEnv t 0).part 1) ((fixedEnv t 0).now 0) w x = some e ↔
        x.1.scheduleId = e.scheduleId ∧ fireTime crates t w x.1 = .ok (some e.nextFireTime) := by
    intro x
    have hsame : timeAt crates ((fixedEnv t 0).part 1) ((fixedEnv t 0).now 0) w x =
        fireTime crates t w x.1 := rfl
    rw [entryAt, hsame]
    split
    · rename_i T hT
      rw [hT]
      cases e
      simp [and_comm]
    · rename_i hn
      exact iff_of_false (by simp) (fun h => hn _ h.2)
  rw [List.mem_filterMap]
  constructor
  · rintro ⟨x, hx, he⟩
    exact ⟨x.1, List.fst_mem_of_mem_zipIdx hx, (hentry x).mp he⟩
  · rintro ⟨info, hinfo, he⟩
    obtain ⟨i, hi, rfl⟩ := List.mem_iff_getElem.mp hinfo
    exact ⟨(w.db.schedules[i], i), List.mem_zipIdx_iff_getElem?.mpr (by simp [hi]),
      (hentry _).mpr he⟩

theorem reloads_iff : Reloads crates t w scheduleId T ↔ NextFire crates t w scheduleId T := by
  constructor
  · rintro ⟨heap, hrun, hmem⟩
    have hleast := (mem_reload hrun).mp hmem
    refine ⟨fun info hinfo => ?_, mem_entries.mp hleast.mem, fun info hinfo hid T' hT' => ?_⟩
    · obtain ⟨i, hi, rfl⟩ := List.mem_iff_getElem.mp hinfo
      exact ((reload_ok_iff _ _ _ _).mp hrun).1 (w.db.schedules[i], i)
        (List.mem_zipIdx_iff_getElem?.mpr (by simp [hi]))
    · exact hleast.least ⟨T', scheduleId⟩ (mem_entries.mpr ⟨info, hinfo, hid, hT'⟩) rfl
  · intro h
    have hrun := (reload_ok_iff crates (fixedEnv t 0) w _).mpr
      ⟨fun x hx => h.all x.1 (List.fst_mem_of_mem_zipIdx hx), rfl⟩
    refine ⟨_, hrun, (mem_reload hrun).mpr ⟨mem_entries.mpr h.stored, fun f hf hid => ?_⟩⟩
    obtain ⟨info, hinfo, hinfoid, hT⟩ := mem_entries.mp hf
    exact h.least info hinfo (hinfoid.trans hid) _ hT

/-- The heap holds the entries of an id that a reload would put into it, and no others. -/
def AgreesWithReload (crates : Crates) (t : Clock) (w : World) (heap : Heap)
    (scheduleId : String) : Prop :=
  ∀ T, ⟨T, scheduleId⟩ ∈ heap.entries ↔ Reloads crates t w scheduleId T

/-- After a wake-up, the heap agrees with a reload at any clock time on the ids that were due
exactly when what it held of them beyond the wake-up is what they have to fire next; if it held
one entry of each id, exactly when they have nothing to fire next. -/
theorem update_agrees_iff (hrun : (wake crates env heap).run w = (.ok heap', w')) (t : Clock) :
    ((∀ scheduleId ∈ dueIds (env.now 0) heap, AgreesWithReload crates t w' heap' scheduleId) ↔
      ∀ scheduleId ∈ dueIds (env.now 0) heap, ∀ T,
        (⟨T, scheduleId⟩ ∈ heap.entries ∧ (env.now 0).time.nanos < T.nanos) ↔
          NextFire crates t w' scheduleId T) ∧
    ((heap.entries.map (·.scheduleId)).Nodup →
      ((∀ scheduleId ∈ dueIds (env.now 0) heap, AgreesWithReload crates t w' heap' scheduleId) ↔
        ∀ scheduleId ∈ dueIds (env.now 0) heap, ∀ T, ¬ NextFire crates t w' scheduleId T)) := by
  have hagree : ∀ scheduleId, AgreesWithReload crates t w' heap' scheduleId ↔
      ∀ T, (⟨T, scheduleId⟩ ∈ heap.entries ∧ (env.now 0).time.nanos < T.nanos) ↔
        NextFire crates t w' scheduleId T := by
    intro scheduleId
    unfold AgreesWithReload
    simp only [wake_entries hrun, List.mem_filter, decide_eq_true_eq, reloads_iff]
  refine ⟨by simp only [hagree], fun hone => forall₂_congr (fun scheduleId hdue => ?_)⟩
  rw [hagree]
  refine forall_congr' (fun T => ?_)
  have hgone : ¬ (⟨T, scheduleId⟩ ∈ heap.entries ∧ (env.now 0).time.nanos < T.nanos) := by
    rintro ⟨hmem, hlater⟩
    obtain ⟨e, he, hid⟩ := List.mem_map.mp hdue
    obtain ⟨hmem', hle⟩ := List.mem_filter.mp he
    obtain rfl := List.inj_on_of_nodup_map hone hmem' hmem hid
    simp only [decide_eq_true_eq] at hle
    omega
  simp only [hgone, false_iff]

/-- A heap in which an id has been due since 1970. -/
def longDue (scheduleId : String) : Heap := ⟨[⟨⟨0⟩, scheduleId⟩], by simp⟩

theorem wake_longDue (crates : Crates) (env : Env) (scheduleId : String) (w : World)
    (hok : ((processSchedule crates ((env.part 1).part 0) scheduleId).run w).1.value?.isSome) :
    (wake crates env (longDue scheduleId)).run w =
      (.ok .empty, (processSchedule crates ((env.part 1).part 0) scheduleId).after w) := by
  have hdue : ¬ (env.now 0).time.nanos < (0 : Int) := not_lt.mpr (env.now 0).since
  unfold wake longDue Prog.after
  simp only [processDue, if_neg hdue, Prog.run_bind, Prog.run_attempt]
  generalize (processSchedule crates ((env.part 1).part 0) scheduleId).run w = out at hok ⊢
  obtain ⟨out, v⟩ := out
  cases out with
  | ok u => simp [Outcome.caught, run_updateFired, Heap.empty]
  | error e => cases hok
  | panicked => cases hok

/-- A schedule that has been deleted is due, and another one is stored. -/
theorem deleted_agrees :
    (∀ scheduleId ∈ dueIds ((turn 1).now 0) (longDue "gone"),
        AgreesWithReload plainCrates (Clock.ofSecs 60 (by omega)) (storing halfMinute) .empty
          scheduleId) ∧
      "gone" ∈ dueIds ((turn 1).now 0) (longDue "gone") := by
  have hrun : (wake plainCrates (turn 1) (longDue "gone")).run (storing halfMinute) =
      (.ok .empty, storing halfMinute) := wake_longDue plainCrates (turn 1) "gone" _ rfl
  have hiff := (update_agrees_iff hrun (Clock.ofSecs 60 (by omega))).2 (by decide)
  refine ⟨hiff.mpr ?_, by decide⟩
  intro scheduleId hdue T h
  obtain ⟨info, hinfo, hid, _⟩ := h.stored
  simp only [dueIds, longDue, List.mem_map, List.mem_filter, List.mem_singleton] at hdue
  obtain ⟨e, ⟨rfl, _⟩, rfl⟩ := hdue
  rw [List.mem_singleton.mp hinfo] at hid
  exact absurd hid (by decide)

/-- A stored schedule is due, fires, and is forgotten. -/
theorem fired_disagrees :
    ¬ ∀ (crates : Crates) (env : Env) (heap heap' : Heap) (w w' : World) (t : Clock),
      (wake crates env heap).run w = (.ok heap', w') →
        ∀ scheduleId ∈ dueIds (env.now 0) heap, AgreesWithReload crates t w' heap' scheduleId := by
  intro h
  have hrun := wake_longDue plainCrates (turn 1) "s" (storing halfMinute) (by decide +kernel)
  have hagree := h _ _ _ _ _ _ (Clock.ofSecs 60 (by omega)) hrun "s" (by decide)
  have htime : ∀ info ∈ ((processSchedule plainCrates (((turn 1).part 1).part 0) "s").after
      (storing halfMinute)).db.schedules, info.scheduleId = "s" ∧
        (fireTime plainCrates (Clock.ofSecs 60 (by omega))
          ((processSchedule plainCrates (((turn 1).part 1).part 0) "s").after (storing halfMinute))
            info).value? = some (some ⟨90 * second⟩) := by decide +kernel
  have hstored : ∃ info, info ∈ ((processSchedule plainCrates (((turn 1).part 1).part 0) "s").after
      (storing halfMinute)).db.schedules := ⟨halfMinute, by decide +kernel⟩
  obtain ⟨info, hinfo⟩ := hstored
  have hnext := fun i hi => (htime i hi).imp_right Outcome.ok_of_value
  have hreload := reloads_iff.mpr ⟨fun i hi => ⟨_, (hnext i hi).2⟩, ⟨info, hinfo, hnext info hinfo⟩,
    fun i hi _ T' hT' => ?_⟩
  · exact absurd ((hagree _).mpr hreload) (by simp [Heap.empty])
  · rw [(hnext i hi).2] at hT'
    cases hT'
    exact le_refl _

end Khronos.Proofs
