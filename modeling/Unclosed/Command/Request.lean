import Unclosed.Settings.Basic

/-!
What the command line asks for.
-/

namespace Unclosed

/-- The commands that look at packages. -/
inductive Command where
  | run
  | facts
deriving DecidableEq, Repr

namespace Command

def name : Command → String
  | run => "run"
  | facts => "facts"

def all : List Command := [run, facts]

end Command

inductive Parameter where
  | config
  | format
  | passes
  | factsIn
  | factsOut
deriving DecidableEq, Repr

namespace Parameter

def name : Parameter → String
  | config => "config"
  | format => "format"
  | passes => "passes"
  | factsIn => "facts-in"
  | factsOut => "facts-out"

def label : Parameter → String
  | config => "--config <CONFIG>"
  | format => "--format <FORMAT>"
  | passes => "--passes <PASSES>"
  | factsIn => "--facts-in <FACTS_IN>"
  | factsOut => "--facts-out <FACTS_OUT>"

def choices : Parameter → List String
  | format => ["text", "json"]
  | _ => []

end Parameter

inductive Switch where
  | verbose
  | trace
  | noColor
deriving DecidableEq, Repr

namespace Switch

def name : Switch → String
  | verbose => "verbose"
  | trace => "trace"
  | noColor => "no-color"

def letter? : Switch → Option Char
  | verbose => some 'v'
  | _ => none

end Switch

namespace Command

def parameters : Command → List Parameter
  | run => [.config, .format, .passes, .factsIn, .factsOut]
  | facts => [.config, .factsIn]

def switches : Command → List Switch
  | run => [.verbose, .trace, .noColor]
  | facts => []

end Command

structure Target where
  root : String
  /-- Patterns; none select all packages. -/
  packages : List String
  /-- A file with settings instead of the one in the root. -/
  config : Option String
deriving DecidableEq, Repr

structure RunOptions where
  format : Option OutputFormat
  passes : Option Nat
  trace : Bool
  noColor : Bool
  factsOut : Option String
deriving DecidableEq, Repr

inductive HelpTopic where
  | program
  | command (command : Command)
  | help
deriving DecidableEq, Repr

inductive Request where
  | run (target : Target) (factsIn : Option String) (options : RunOptions)
  | facts (target : Target) (factsIn : Option String)
  | help (topic : HelpTopic)
  | version
deriving DecidableEq, Repr

end Unclosed
