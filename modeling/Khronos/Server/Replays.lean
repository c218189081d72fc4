import Khronos.Db.Schedules
import Khronos.Server.Operations

namespace Khronos.Server
open Time Lib

instance (crates : Crates) (w : World) (call : Call) :
    Decidable ((server crates).admits w call) :=
  inferInstanceAs (Decidable (Fresh w.db call.env))

deriving instance DecidableEq for ScheduleRow

/-- Surroundings in which the clock stands still and ids are numbered from a first one. -/
def fixedEnv (clock : Clock) (first : Nat) : Env where
  now _ := clock
  uuid i := ⟨s!"id-{first + i}"⟩

/-- Crates for runs that hand them no text of their own. -/
def plainCrates : Crates where
  jsonToString _ := ""
  jsonFromStr _ := none
  jsonFromSlice _ := none
  stringsFromStr _ := none
  timeoutsFromStr _ := none
  cronUpcoming _ _ := none
  utf8Replacing _ := ""

def plainSerde : Db.Schedules.Serde where
  stringsToString _ := "[]"
  mapToString _ := "\x7b\x7d"
  mapFromStr _ := some []
  timeoutsToString _ := "\x7b\x7d"

/-- The surroundings of a turn: each is a minute and ten ids after the one before. -/
def turn (i : Nat) : Env := fixedEnv (Clock.ofSecs (60 * i % 86400) (by omega)) (10 * i)

/-- The server on a list of operations, one a turn. -/
def script (ops : List Op) : List Call := ops.zipIdx.map fun (op, i) => ⟨turn i, op⟩

theorem script_run (ops : List Op)
    (h : (server plainCrates).Admitted .empty (script ops)) :
    (server plainCrates).Run .empty ((server plainCrates).replay .empty (script ops))
      ((server plainCrates).ending .empty (script ops)) :=
  Machine.run_replay _ _ h

end Khronos.Server
