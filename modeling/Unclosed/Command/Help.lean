import Unclosed.Command.Error
import Unclosed.Command.Request

/-!
The texts that explain the command line.
-/

namespace Unclosed

def programVersion : String := "closecheck 0.1.0"

namespace Command

def usage : Command → String
  | run => "Usage: closecheck run [OPTIONS] <ROOT> [PACKAGES]..."
  | facts => "Usage: closecheck facts [OPTIONS] <ROOT> [PACKAGES]..."

def about : Command → String
  | run => "Analyze packages and report leaks"
  | facts => "Print the disposer fact of every summarized function"

def options : Command → List String
  | run =>
    ["      --config <CONFIG>        "
        ++ "Configuration file (defaults to `closecheck.toml` in the root)",
      "      --format <FORMAT>        "
        ++ "Output format (overrides the config file) [possible values: text, json]",
      "  -v, --verbose                Enable verbose output",
      "      --trace                  Trace every statement the analysis looks at",
      "      --passes <PASSES>        Maximum summarizer passes (overrides the config file)",
      "      --facts-in <FACTS_IN>    Fact file of previously analyzed packages",
      "      --facts-out <FACTS_OUT>  Write the facts of this run to a file",
      "      --no-color               Disable colored output",
      "  -h, --help                   Print help"]
  | facts =>
    ["      --config <CONFIG>      "
        ++ "Configuration file (defaults to `closecheck.toml` in the root)",
      "      --facts-in <FACTS_IN>  Fact file of previously analyzed packages",
      "  -h, --help                 Print help"]

end Command

namespace HelpTopic

def lines (texts : List String) : String := String.join (texts.map (· ++ "\n"))

def helpAbout : String := "Print this message or the help of the given subcommand(s)"

def text : HelpTopic → String
  | program => lines
    ["Finds Go values that are opened but never closed",
      "",
      "Usage: closecheck <COMMAND>",
      "",
      "Commands:",
      "  run    " ++ Command.run.about,
      "  facts  " ++ Command.facts.about,
      "  help   " ++ helpAbout,
      "",
      "Options:",
      "  -h, --help     Print help",
      "  -V, --version  Print version"]
  | command subject => lines
    ([subject.about, "", subject.usage, "", "Arguments:",
      "  <ROOT>         Source root; import paths are directories below it",
      "  [PACKAGES]...  "
        ++ "Package patterns (`app`, `app/...`, `...`); all packages when omitted",
      "", "Options:"] ++ subject.options)
  | help => lines
    [helpAbout, "", "Usage: closecheck help [COMMAND]...", "", "Arguments:",
      "  [COMMAND]...  Print help for the subcommand(s)"]

end HelpTopic

def ArgumentError.message (error : ArgumentError) : String :=
  if error = missingCommand then HelpTopic.program.text
  else
    "error: " ++ error.summary
      ++ (if error.showsUsage then "\n\nUsage: closecheck <COMMAND>" else "")
      ++ "\n\nFor more information, try '--help'.\n"

end Unclosed
