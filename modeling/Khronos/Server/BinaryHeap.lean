import Khronos.Lib.Queues
import Khronos.Server.Heap

namespace Khronos.Server.Scheduler
open Time Lib

/-- `Reverse(entry)`. -/
structure Reverse where
  entry : ScheduleEntry

def Reverse.le (a b : Reverse) : Prop := b.entry.le a.entry = true

/-- `BinaryHeap<Reverse<ScheduleEntry>>`: all that is known of one is that it pops a greatest
element. -/
abbrev BinaryHeap (H : Type) := MaxQueue H Reverse Reverse.le

/-- The entries of a heap, as its owner pushed them. -/
def BinaryHeap.scheduled {H : Type} (Q : BinaryHeap H) (heap : H) : Multiset ScheduleEntry :=
  (Q.entries heap).map Reverse.entry

/-- `while let Some(Reverse(entry)) = heap.pop()`, with `fired_ids` and the heap it leaves. -/
def processPopped {H : Type} (Q : BinaryHeap H) (crates : Crates) (env : Env) (now : Clock)
    (heap : H) (i : Nat) : Prog World DbError (List String × H) :=
  match _hp : Q.pop heap with
  | none => return ([], heap)
  | some (⟨entry⟩, rest) =>
    if now.time.nanos < entry.nextFireTime.nanos then
      return ([], Q.push ⟨entry⟩ rest)
    else do
      let _ ← ((processSchedule crates (env.part i) entry.scheduleId).attempt :
        Prog World DbError (Except DbError Unit))
      let (firedIds, left) ← processPopped Q crates env now rest (i + 1)
      return (entry.scheduleId :: firedIds, left)
termination_by (Q.entries heap).card
decreasing_by exact Q.card_pop _hp

/-- A heap that keeps its entries in the order in which it gives them out. -/
def sortedHeap : BinaryHeap Heap where
  entries heap := (heap.entries : Multiset ScheduleEntry).map Reverse.mk
  push e heap := heap.push e.entry
  pop heap := heap.entries.head?.map fun e => (⟨e⟩, ⟨heap.entries.tail, heap.sorted.tail⟩)
  entries_push := by
    rintro ⟨e⟩ heap
    have hperm := Multiset.coe_eq_coe.mpr
      (heap.entries.perm_orderedInsert (fun a b => a.le b = true) e)
    refine (congrArg (Multiset.map Reverse.mk) hperm).trans ?_
    rw [← Multiset.cons_coe, Multiset.map_cons]
  pop_none := by
    rintro ⟨entries, sorted⟩ hp
    cases entries with
    | nil => rfl
    | cons e rest => cases hp
  entries_pop := by
    rintro ⟨entries, sorted⟩ a left hp
    cases entries with
    | nil => cases hp
    | cons e rest =>
      cases hp
      rfl
  greatest := by
    rintro ⟨entries, sorted⟩ a left hp b hb
    cases entries with
    | nil => cases hp
    | cons e rest =>
      cases hp
      obtain ⟨f, hf, rfl⟩ := Multiset.mem_map.mp hb
      exact List.rel_of_pairwise_cons sorted (Multiset.mem_coe.mp hf)

end Khronos.Server.Scheduler
