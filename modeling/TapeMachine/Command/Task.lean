import TapeMachine.Command.Demo
import TapeMachine.Policy

/-!
# TapeMachine.Command.Task

What a command line asks for, once its words are understood.
-/

namespace TapeMachine.Command

structure Options where
  policy : Option Policy := none
  capacity : Option Nat := none
  timeoutMs : Option Nat := none
  maxSteps : Option Nat := none
  config : Option String := none
  file : Option String := none
  debug : Bool := false
  help : Bool := false
  verbose : Bool := false
  deriving DecidableEq

inductive Task where
  | run (options : Options) (code : List String)
  | check (options : Options) (code : List String)
  | demo (options : Options) (demo : Option Demo)

structure Invocation where
  help : Bool
  verbose : Bool
  task : Option Task

end TapeMachine.Command
