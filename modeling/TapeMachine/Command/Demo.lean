/-!
# TapeMachine.Command.Demo

The programs that come with the command.
-/

namespace TapeMachine.Command

inductive Demo where
  | hello
  | sierpinski
  deriving DecidableEq

namespace Demo

/-- All of them, in the order in which they run. -/
def all : List Demo := [hello, sierpinski]

def name : Demo → String
  | hello => "hello"
  | sierpinski => "sierpinski"

def ofName? (word : String) : Option Demo := all.find? (·.name = word)

def helloLines : List String :=
  ["Prints \"Hello World!\" followed by a newline",
   "",
   "++++++++++[>+++++++>++++++++++>+++>+<<<<-]",
   ">++.>+.+++++++..+++.>++.<<+++++++++++++++.",
   ">.+++.------.--------.>+.>."]

/-- Draws a triangle of stars, and looks like one. -/
def sierpinskiLines : List String :=
  ["Draws a Sierpinski triangle",
   "",
   "                                >",
   "                               + +",
   "                              +   +",
   "                             [ < + +",
   "                            +       +",
   "                           + +     + +",
   "                          >   -   ]   >",
   "                         + + + + + + + +",
   "                        [               >",
   "                       + +             + +",
   "                      <   -           ]   >",
   "                     > + + >         > > + >",
   "                    >       >       +       <",
   "                   < <     < <     < <     < <",
   "                  <   [   -   [   -   >   +   <",
   "                 ] > [ - < + > > > . < < ] > > >",
   "                [                               [",
   "               - >                             + +",
   "              +   +                           +   +",
   "             + + [ >                         + + + +",
   "            <       -                       ]       >",
   "           . <     < [                     - >     + <",
   "          ]   +   >   [                   -   >   +   +",
   "         + + + + + + + +                 < < + > ] > . [",
   "        -               ]               >               ]",
   "       ] +             < <             < [             - [",
   "      -   >           +   <           ]   +           >   [",
   "     - < + >         > > - [         - > + <         ] + + >",
   "    [       -       <       -       >       ]       <       <",
   "   < ]     < <     < <     ] +     + +     + +     + +     + +",
   "  +   .   +   +   +   .   [   -   ]   <   ]   +   +   +   +   +"]

def source : Demo → String
  | hello => String.join (helloLines.map (· ++ "\n"))
  | sierpinski => String.join (sierpinskiLines.map (· ++ "\n"))

end Demo

end TapeMachine.Command
