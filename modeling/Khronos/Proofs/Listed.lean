import Khronos.Proofs.Ledgers
import Khronos.Proofs.Stored

namespace Khronos.Proofs
open Time Lib Db.Schedules Server Catalogue

section
variable {crates : Crates} {serde : Serde}

/-- A row that the decoder takes. -/
def Read (crates : Crates) (serde : Serde) (r : ScheduleRow) : Prop :=
  ∃ s, rowToSchedule crates serde r = .ok s

/-- A row is read with a spec. -/
def ReadWith (crates : Crates) (serde : Serde) (spec : ProtoScheduleSpec) (r : ScheduleRow) :
    Prop :=
  ∃ s, rowToSchedule crates serde r = .ok s ∧ scheduleSpecToProto s.spec = spec

/-- A listing of a namespace succeeds and contains a schedule with a spec. -/
def ListedWith (crates : Crates) (serde : Serde) (created : String → Clock) (nameSpace : String)
    (w : World) (scheduleId : String) (spec : ProtoScheduleSpec) : Prop :=
  ∃ infos, ((Server.listSchedules crates serde created ⟨nameSpace⟩).run w).1 = .ok infos ∧
    ∃ info ∈ infos, info.scheduleId = scheduleId ∧ info.spec = some spec

/-- What a listing needs of the table: that all rows of its namespace are read, and that one of
them is the schedule with the spec. -/
theorem listedWith_iff {created : String → Clock} {nameSpace scheduleId : String}
    {spec : ProtoScheduleSpec} :
    ListedWith crates serde created nameSpace w scheduleId spec ↔
      (∀ r ∈ w.db.schedules, r.nameSpace = orDefault nameSpace → Read crates serde r) ∧
      ∃ r ∈ w.db.schedules, r.nameSpace = orDefault nameSpace ∧ r.scheduleId = scheduleId ∧
        ReadWith crates serde spec r := by
  let rows := oldestFirst created
    (w.db.schedules.filter (fun r => r.nameSpace = orDefault nameSpace))
  have hmem : ∀ r, r ∈ rows ↔ r ∈ w.db.schedules ∧ r.nameSpace = orDefault nameSpace := by
    intro r
    simp [rows, oldestFirst, List.mem_insertionSort]
  have hrun : ((Server.listSchedules crates serde created ⟨nameSpace⟩).run w).1 =
      ((Outcome.ofExcept (rows.mapM (rowToSchedule crates serde))).mapError
        (Status.internal "Failed to list schedules")).map
          (fun schedules => schedules.map (scheduleToInfo created)) := by
    simp only [Server.listSchedules, Db.Schedules.listSchedules, Prog.run_bind, Prog.run_mapError,
      run_query]
    cases rows.mapM (rowToSchedule crates serde) <;> rfl
  unfold ListedWith
  rw [hrun]
  constructor
  · rintro ⟨infos, hinfos, info, hinfo, hid, hspec⟩
    cases hm : rows.mapM (rowToSchedule crates serde) with
    | error e =>
      rw [hm] at hinfos
      cases hinfos
    | ok schedules =>
      rw [hm] at hinfos
      cases hinfos
      have hall := mapM_eq_ok.mp hm
      obtain ⟨s, hs, rfl⟩ := List.mem_map.mp hinfo
      obtain ⟨r, hr, hread⟩ := forall₂_origin hall hs
      obtain ⟨hr, hns⟩ := (hmem r).mp hr
      refine ⟨fun q hq hqn => ?_, r, hr, hns, (rowToSchedule_id hread).symm.trans hid, s, hread,
        Option.some.inj hspec⟩
      obtain ⟨t, _, ht⟩ := forall₂_origin hall.flip ((hmem q).mpr ⟨hq, hqn⟩)
      exact ⟨t, ht⟩
  · rintro ⟨hreads, r, hr, hns, hid, s, hread, hspec⟩
    have hrows : ∀ q ∈ rows, ∃ t, rowToSchedule crates serde q = .ok t ∧
        rowToSchedule crates serde q = .ok t := by
      intro q hq
      obtain ⟨hq, hqn⟩ := (hmem q).mp hq
      obtain ⟨t, ht⟩ := hreads q hq hqn
      exact ⟨t, ht, ht⟩
    obtain ⟨schedules, hm, hall⟩ := mapM_ok hrows
    obtain ⟨t, ht, hrt⟩ := forall₂_origin hall.flip ((hmem r).mpr ⟨hr, hns⟩)
    rw [hread] at hrt
    cases hrt
    rw [hm]
    exact ⟨_, rfl, scheduleToInfo created s, List.mem_map.mpr ⟨s, ht, rfl⟩,
      (rowToSchedule_id hread).trans hid, congrArg some hspec⟩

/-- The spec that a listing shows of what the server makes of a requested one. -/
theorem scheduleSpecToProto_core {spec : ProtoScheduleSpec} {newSpec : Core.ScheduleSpec}
    (h : coreSpec spec = .ok newSpec) : scheduleSpecToProto newSpec = usedSpec spec := by
  cases hv : validSpec spec with
  | false =>
    obtain ⟨status, he⟩ := coreSpec_invalid hv
    rw [he] at h
    cases h
  | true =>
    rw [coreSpec_valid hv] at h
    cases h
    exact scheduleSpecToProto_made hv

theorem scheduleSpecToProto_kept (spec : Core.ScheduleSpec) :
    scheduleSpecToProto (keptSpec spec) = scheduleSpecToProto spec := by
  cases spec <;> rfl

/-- A row written of a schedule is read with its spec. -/
theorem scheduleRow_readWith (hserde : serde.ReadsBack crates) {s : Core.Schedule}
    (ha : Ascending s.action.args) :
    ReadWith crates serde (scheduleSpecToProto s.spec) (scheduleRow serde s) :=
  ⟨kept s, rowToSchedule_kept hserde ha, scheduleSpecToProto_kept s.spec⟩

theorem orDefault_of_ne (h : nameSpace ≠ "") : orDefault nameSpace = nameSpace := by
  rw [orDefault, if_neg (by simpa using h)]

theorem orDefault_ne (nameSpace : String) : orDefault nameSpace ≠ "" := by
  by_cases h : nameSpace = ""
  · rw [h]
    decide
  · rw [orDefault_of_ne h]
    exact h

/-- A schedule that was created is listed under a namespace that is not empty, and among rows that
are all read. -/
theorem created_listed_iff (hserde : serde.ReadsBack crates) {created : String → Clock}
    {req : CreateScheduleRequest} {spec : ProtoScheduleSpec} {out : String}
    (hspec : req.spec = some spec) (hrun : (createSchedule serde req).run w = (.ok out, w')) :
    ListedWith crates serde created req.nameSpace w' req.scheduleId (usedSpec spec) ↔
      req.nameSpace ≠ "" ∧
        ∀ r ∈ w.db.schedules, r.nameSpace = req.nameSpace → Read crates serde r := by
  cases hreq : requestedSchedule req with
  | error status =>
    simp only [createSchedule, hreq] at hrun
    cases hrun
  | ok s =>
    obtain ⟨hnew, hrows⟩ := createSchedule_ok hreq hrun
    obtain ⟨hid, hns⟩ := requestedSchedule_key hreq
    obtain ⟨ha, spec', hspec', hcore⟩ := requestedSchedule_parts hreq
    rw [hspec] at hspec'
    cases hspec'
    have hread := scheduleRow_readWith hserde ha
    rw [scheduleSpecToProto_core hcore] at hread
    have hlast : ∀ r ∈ w.db.schedules ++ [scheduleRow serde s], r.scheduleId = req.scheduleId →
        r.nameSpace = req.nameSpace := by
      intro r hr hrid
      rcases List.mem_append.mp hr with hr | hr
      · exact absurd ⟨r, hr, hrid.trans hid.symm⟩ hnew
      · rw [List.mem_singleton.mp hr]
        exact hns
    rw [listedWith_iff, hrows]
    constructor
    · rintro ⟨hreads, r, hr, hrn, hrid, -⟩
      have hdefault : orDefault req.nameSpace = req.nameSpace :=
        hrn.symm.trans (hlast r hr hrid)
      rw [hdefault] at hreads
      exact ⟨hdefault ▸ orDefault_ne req.nameSpace,
        fun q hq => hreads q (List.mem_append_left _ hq)⟩
    · rintro ⟨hne, hreads⟩
      rw [orDefault_of_ne hne]
      refine ⟨?_, scheduleRow serde s, by simp, hns, hid, hread⟩
      intro r hr hrn
      rcases List.mem_append.mp hr with hr | hr
      · exact hreads r hr hrn
      · obtain ⟨t, ht, _⟩ := hread
        rw [List.mem_singleton.mp hr]
        exact ⟨t, ht⟩

/-- A schedule that was updated is listed if its row stands in the namespace that the listing
looks in, among rows that are all read; under the empty name the update has not touched that row,
which must then hold the spec already. -/
theorem updated_listed_iff (hc : Readers crates serde)
    (hkeyed : Table.Keyed ScheduleRow.scheduleId w.db.schedules) {created : String → Clock}
    {req : UpdateScheduleRequest} {spec : ProtoScheduleSpec} {out : Bool}
    (hspec : req.spec = some spec)
    (hrun : (updateSchedule crates serde req).run w = (.ok out, w')) :
    ListedWith crates serde created req.nameSpace w' req.scheduleId (usedSpec spec) ↔
      (∀ r ∈ w.db.schedules, r.nameSpace = orDefault req.nameSpace → Read crates serde r) ∧
      ∃ r ∈ w.db.schedules, r.nameSpace = orDefault req.nameSpace ∧
        r.scheduleId = req.scheduleId ∧
        (req.nameSpace ≠ "" ∨ ReadWith crates serde (usedSpec spec) r) := by
  obtain ⟨spec', newSpec, existing, r₀, hspec', hcore, ⟨hr₀, hid₀, hread₀⟩, hrows⟩ :=
    updateSchedule_ok hrun
  rw [hspec] at hspec'
  cases hspec'
  let f := setSchedule serde { existing with spec := newSpec }
  have hargs : Ascending existing.action.args := hc.ascending _ _ (rowToSchedule_ok hread₀).2
  have hset : ∀ r, ReadWith crates serde (usedSpec spec) (f r) := by
    intro r
    rw [← scheduleSpecToProto_core hcore]
    exact scheduleRow_readWith hc.back (s := { existing with
      spec := newSpec, scheduleId := r.scheduleId, nameSpace := r.nameSpace }) hargs
  have hnamed : ∀ {r}, named req.scheduleId req.nameSpace r = true ↔
      r.scheduleId = req.scheduleId ∧ r.nameSpace = req.nameSpace := by
    intro r
    simp [named]
  rw [listedWith_iff, hrows]
  refine and_congr ⟨?_, ?_⟩ ⟨?_, ?_⟩
  · intro hreads r hr hns
    have hq := Table.update_mem (p := named req.scheduleId req.nameSpace) (f := f) hr
    split at hq
    · rename_i hn
      -- The id names one row, and that one has been read by the update itself.
      rw [hkeyed.unique hr hr₀ ((hnamed.mp hn).1.trans hid₀.symm)]
      exact ⟨existing, hread₀⟩
    · exact hreads r hq hns
  · intro hreads q hq hns
    obtain ⟨r, hr, rfl⟩ := Table.mem_update.mp hq
    split
    · obtain ⟨t, ht, -⟩ := hset r
      exact ⟨t, ht⟩
    · rename_i hn
      rw [if_neg hn] at hns
      exact hreads r hr hns
  · rintro ⟨q, hq, hns, hid, hread⟩
    obtain ⟨r, hr, rfl⟩ := Table.mem_update.mp hq
    split at hns
    · rename_i hn
      obtain ⟨hrid, hrn⟩ := hnamed.mp hn
      have hsame : req.nameSpace = orDefault req.nameSpace := hrn.symm.trans hns
      exact ⟨r, hr, hns, hrid, .inl (hsame ▸ orDefault_ne req.nameSpace)⟩
    · rename_i hn
      rw [if_neg hn] at hid hread
      exact ⟨r, hr, hns, hid, .inr hread⟩
  · rintro ⟨r, hr, hns, hid, hheld⟩
    refine ⟨_, Table.update_mem hr, ?_⟩
    split
    · exact ⟨hns, hid, hset r⟩
    · rename_i hn
      rcases hheld with hne | hread
      · rw [orDefault_of_ne hne] at hns
        exact absurd (hnamed.mpr ⟨hid, hns⟩) hn
      · exact ⟨hns, hid, hread⟩

/-- When the schedule of a request that was answered with success is in the next listing under
the same namespace, with the spec of the request. -/
theorem written_listed_iff (hc : Readers crates serde)
    (hkeyed : Table.Keyed ScheduleRow.scheduleId w.db.schedules) (created : String → Clock) :
    (∀ req spec out w', CreateScheduleRequest.spec req = some spec →
      (createSchedule serde req).run w = (.ok out, w') →
      (ListedWith crates serde created req.nameSpace w' req.scheduleId (usedSpec spec) ↔
        req.nameSpace ≠ "" ∧
          ∀ r ∈ w.db.schedules, r.nameSpace = req.nameSpace → Read crates serde r)) ∧
    ∀ req spec out w', UpdateScheduleRequest.spec req = some spec →
      (updateSchedule crates serde req).run w = (.ok out, w') →
      (ListedWith crates serde created req.nameSpace w' req.scheduleId (usedSpec spec) ↔
        (∀ r ∈ w.db.schedules, r.nameSpace = orDefault req.nameSpace → Read crates serde r) ∧
        ∃ r ∈ w.db.schedules, r.nameSpace = orDefault req.nameSpace ∧
          r.scheduleId = req.scheduleId ∧
          (req.nameSpace ≠ "" ∨ ReadWith crates serde (usedSpec spec) r)) :=
  ⟨fun _ _ _ _ hspec hrun => created_listed_iff hc.back hspec hrun,
    fun _ _ _ _ hspec hrun => updated_listed_iff hc hkeyed hspec hrun⟩

end

/-- A request for a schedule of every full hour. -/
def asksHourly (nameSpace : String) : CreateScheduleRequest :=
  ⟨"s", nameSpace, some ⟨"cron", ["0 0 * * * *"], none⟩, some ⟨"w", [], "", "", none⟩, none⟩

/-- The schedule that it describes. -/
def hourlyIn (nameSpace : String) : Core.Schedule :=
  ⟨"s", nameSpace, .cron ["0 0 * * * *"], ⟨"w", [], "", "", .default⟩, .skip⟩

theorem hourly_listed :
    ListedWith readingCrates ascendingSerde (fun _ => (turn 0).now 0) "default"
      (firstStored ascendingSerde (hourlyIn "default")) "s" ⟨"cron", ["0 0 * * * *"], none⟩ := by
  have hkeyed : Table.Keyed ScheduleRow.scheduleId World.empty.db.schedules := List.nodup_nil
  have hreq : requestedSchedule (asksHourly "default") = .ok (hourlyIn "default") := rfl
  have hrun := firstStored_run hreq ascendingSerde
  exact ((written_listed_iff ascending_readers hkeyed (fun _ => (turn 0).now 0)).1 _ _ _ _ rfl
    hrun).mpr ⟨by decide, nofun⟩

/-- Under the empty name it is stored where no listing looks. -/
theorem hourly_not_listed :
    ¬ ∀ (crates : Crates) (serde : Serde) (created : String → Clock) (w w' : World)
      (req : CreateScheduleRequest) (spec : ProtoScheduleSpec) (out : String),
      Readers crates serde → Table.Keyed ScheduleRow.scheduleId w.db.schedules →
      req.spec = some spec → (createSchedule serde req).run w = (.ok out, w') →
      ListedWith crates serde created req.nameSpace w' req.scheduleId (usedSpec spec) := by
  intro h
  have hreq : requestedSchedule (asksHourly "") = .ok (hourlyIn "") := rfl
  have hrun := firstStored_run hreq ascendingSerde
  have hlisted := h _ _ (fun _ => (turn 0).now 0) .empty _ _ _ _ ascending_readers List.nodup_nil
    rfl hrun
  exact ((created_listed_iff ascending_readers.back rfl hrun).mp hlisted).1 rfl

end Khronos.Proofs
