/-!
# TapeMachine.Input

What the machine reads from: a list of the things that reads will meet, one after the other.

* `Input.Event`   — a byte, the end of the input, a failure, an interruption, or the moment at
  which somebody cancels the evaluation.
* `Input.receive` — one read. It takes the events up to and including the first one that answers
  it: an interruption is tried again, a cancellation is noted on the way. The end of the input
  is no error, it reads as 0; so does a list that is used up.
-/

namespace TapeMachine

inductive Input.Event where
  | byte (value : UInt8)
  /-- The end of the input, for this one read. -/
  | finished
  /-- An interruption, after which the read is tried again. -/
  | interrupted
  | failed (text : String)
  /-- Somebody cancels the evaluation; the same read goes on. -/
  | cancel
  deriving DecidableEq

/-- What reads will meet, the next event first. -/
abbrev Input := List Input.Event

structure Input.Received where
  answer : Except String UInt8
  unread : Input
  canceled : Bool

namespace Input

def ofBytes (bytes : List UInt8) : Input := bytes.map .byte

def receive : Input → Received
  | [] => ⟨.ok 0, [], false⟩
  | .byte value :: rest => ⟨.ok value, rest, false⟩
  | .finished :: rest => ⟨.ok 0, rest, false⟩
  | .interrupted :: rest => receive rest
  | .failed text :: rest => ⟨.error text, rest, false⟩
  | .cancel :: rest => { receive rest with canceled := true }

end Input

end TapeMachine
