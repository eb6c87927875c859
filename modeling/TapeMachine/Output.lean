/-!
# TapeMachine.Output

What the machine writes to: the bytes taken so far, and how the taking may go wrong.

* `Output.Lapse`    — a write that fails for once.
* `Output.write`    — offers bytes; those up to the next lapse are taken or, when there is none any
  more, those that still fit under the limit. If not all are taken, the write fails.
* `Output.flush`    — asks for the bytes to be passed on, which may fail although they are taken.
* `Output.sendByte` — a write of one byte and, when it is taken, a flush.
* `Output.cancels`  — whether enough is written for somebody to cancel the evaluation.
-/

namespace TapeMachine

/-- A write that fails, after which writes go on as if it had not been made. -/
structure Output.Lapse where
  /-- The number of bytes that are taken in all before it comes. -/
  place : Nat
  text : String
  deriving DecidableEq

structure Output where
  /-- The number of bytes that are taken in all; `none` for no limit. -/
  limit : Option Nat := none
  refusal : String := "write failed"
  /-- The flush that fails, counted from one. -/
  failingFlush : Option Nat := none
  /-- The number of bytes at which the evaluation is cancelled. -/
  cancelAt : Option Nat := none
  taken : Array UInt8 := #[]
  flushes : Nat := 0
  /-- The lapses, in the order in which they come; the limit counts when all have come. -/
  lapses : List Output.Lapse := []
  /-- The number of lapses that have come. -/
  lapsed : Nat := 0

namespace Output

def noProgress : String := "failed to write whole buffer"

/-- What the next write fails by that offers too much. -/
def brink (o : Output) : Option Lapse :=
  o.lapses[o.lapsed]?.or (o.limit.map (⟨·, o.refusal⟩))

/-- The output after a write that has failed, be it by a lapse or by the limit. -/
def lapse (o : Output) : Output :=
  if o.lapsed < o.lapses.length then { o with lapsed := o.lapsed + 1 } else o

/-- The output after bytes that are taken, without a flush. -/
def append (bytes : List UInt8) (o : Output) : Output :=
  { o with taken := o.taken.appendList bytes }

/-- Offers bytes. Gives the destination afterwards and the text of the failure, if any. -/
def write (bytes : List UInt8) (o : Output) : Output × Option String :=
  match o.brink with
  | none => (o.append bytes, none)
  | some brink =>
    let room := brink.place - o.taken.size
    if room < bytes.length then ((o.append (bytes.take room)).lapse, some brink.text)
    else (o.append bytes, none)

def flush (o : Output) : Output × Option String :=
  let count := o.flushes + 1
  let refused := if o.failingFlush = some count then some "flush failed" else none
  ({ o with flushes := count }, refused)

def sendByte (byte : UInt8) (o : Output) : Output × Option String :=
  match o.write [byte] with
  | (o, some text) => (o, some text)
  | (o, none) => o.flush

def writeLine (line : String) (o : Output) : Output × Option String :=
  o.write (line.toUTF8.toList ++ [10])

def cancels (o : Output) : Bool :=
  match o.cancelAt with
  | none => false
  | some count => count ≤ o.taken.size

end Output

end TapeMachine
