/-!
# TapeMachine.Command.Usage

The texts that say how the command is used. Each is followed by an empty line.
-/

namespace TapeMachine.Command.Usage

def page (lines : List String) : String := String.join ((lines ++ [""]).map (· ++ "\n"))

def general (program : String) : String := page
  ["Usage:",
   "  " ++ program ++ " run   [OPTIONS] \"<code>\"         # Run a program (args are concatenated)",
   "  " ++ program ++ " run   [OPTIONS] --file <PATH>    # Run a program loaded from file",
   "  " ++ program ++ " check \"<code>\" | --file <PATH>   # Validate loop structure without running",
   "  " ++ program ++ " demo  [hello|sierpinski]         # Run the bundled demonstration programs",
   "",
   "Global options:",
   "  --verbose, -v   Log interpreter activity to stderr (RUST_LOG overrides)",
   "",
   "Run \"" ++ program ++ " <subcommand> --help\" for more info."]

def run (program : String) : String := page
  ["Usage:",
   "  " ++ program ++ " run [OPTIONS] \"<code>\"",
   "  " ++ program ++ " run [OPTIONS] --file <PATH>",
   "",
   "Options:",
   "  --file,  -f <PATH>   Read the program from PATH instead of positional \"<code>\"",
   "  --policy <POLICY>    Pointer boundary policy: wrap (default) or strict",
   "  --capacity <CELLS>   Tape length in cells (default 30000)",
   "  --timeout <MS>       Abort after MS milliseconds of wall-clock time",
   "  --max-steps <N>      Abort after N executed instructions",
   "  --config <PATH>      Read settings from PATH instead of the default bf.toml",
   "  --debug, -d          Print a step-by-step table of operations instead of executing",
   "  --help,  -h          Show this help",
   "",
   "Notes:",
   "- Characters other than ><+-.,[] are comments and are ignored.",
   "- Options must come before the code: everything after the first code part",
   "  is program text, so `" ++ program ++ " run \"+.\" --policy strict` runs \"+.--policystrict\".",
   "- Code that starts with '-' must follow a \"--\" separator: " ++ program ++ " run -- \"-[+]\".",
   "- Input (`,`) reads a single byte from stdin; on EOF the current cell is set to 0.",
   "- Under the wrap policy the pointer wraps around the tape ends; under the",
   "  strict policy running off either end is an error.",
   "",
   "Examples:",
   "- Load a program from a file:",
   "    " ++ program ++ " run --file ./program.bf",
   "- Read bytes from a file as stdin (`,` will consume file input):",
   "    " ++ program ++ " run \",[.,]\" < input.txt"]

def check (program : String) : String := page
  ["Usage:",
   "  " ++ program ++ " check \"<code>\"",
   "  " ++ program ++ " check --file <PATH>",
   "",
   "Options:",
   "  --file,  -f <PATH>  Read the program from PATH instead of positional \"<code>\"",
   "  --help,  -h         Show this help",
   "",
   "Description:",
   "  Filters the program and matches its loops without running it. Prints the",
   "  instruction and loop counts, or the first structural error."]

def demo (program : String) : String := page
  ["Usage:",
   "  " ++ program ++ " demo [hello|sierpinski] [--policy wrap|strict]",
   "",
   "Options:",
   "  --policy <POLICY>   Pointer boundary policy: wrap (default) or strict",
   "  --help,  -h         Show this help",
   "",
   "Description:",
   "  Runs the bundled demonstration programs: \"hello\" prints Hello World!,",
   "  \"sierpinski\" draws a Sierpinski triangle. Without a name both run in turn",
   "  on the same interpreter."]

end TapeMachine.Command.Usage
