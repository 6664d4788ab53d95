/-!
# Usage

The text that explains the command line. It is set in eighty columns.

## Main definitions

* `programName` — the name of the program
* `usage` — how it is used
-/

namespace LineConsole.CommandLine

/-- The name the program goes by on the command line. -/
def programName : String := "consolebridge"

/-- How the program is used, flag by flag. -/
def usage : String :=
  "usage: " ++ programName ++ " [-h] [--mode \x7binteractive,legacy\x7d] [--prompt PROMPT]\n" ++
  "                     [--trigger \x7btab,ctrl-space\x7d] [--log-level LOG_LEVEL]\n" ++
  "\n" ++
  "Interactive interpreter console over a blocking input stream.\n" ++
  "\n" ++
  "options:\n" ++
  "  -h, --help            show this help message and exit\n" ++
  "  --mode \x7binteractive,legacy\x7d\n" ++
  "                        `interactive` launches the prompt_toolkit console,\n" ++
  "                        `legacy` reads plain stdin.\n" ++
  "  --prompt PROMPT\n" ++
  "  --trigger \x7btab,ctrl-space\x7d\n" ++
  "                        Key that opens the completion list.\n" ++
  "  --log-level LOG_LEVEL\n"

end LineConsole.CommandLine
