import Unclosed.Settings.Basic
import Unclosed.Toml.Document

/-!
Settings written in TOML.  Nothing unknown may be set, and what is left out
keeps its default.
-/

namespace Unclosed
namespace Toml

/-! ### What a setting accepts -/

def text? : Toml → Option String
  | .string text => some text
  | _ => none

def texts? : Toml → Option (List String)
  | .array items => items.mapM text?
  | _ => none

def count? : Toml → Option Nat
  | .integer (.ofNat value) => some value
  | _ => none

def flag? : Toml → Option Bool
  | .boolean value => some value
  | _ => none

def isHollow : Toml → Bool
  | .array [] | .tables [] | .table _ [] => true
  | _ => false

def namedFormat? : String → Option OutputFormat
  | "text" => some .text
  | "json" => some .json
  | _ => none

/-- A format is a name, or a table whose only entry has it as a key and is hollow. -/
def format? : Toml → Option OutputFormat
  | .string name => namedFormat? name
  | .table _ [(name, value)] => if value.isHollow then namedFormat? name else none
  | _ => none

/-! ### Groups of settings -/

/-- The values of the named settings of a group: by name in a table, by position
in an array. -/
def group? (names : List String) : Toml → Option (List (Option Toml))
  | .table _ entries =>
    if entries.all fun entry => names.contains entry.1 then some (names.map fun name => entries.lookup name)
    else none
  | .array items | .tables items => some ((List.range names.length).map (items[·]?))
  | _ => none

def setting? {α : Type} (accept : Toml → Option α) (fallback : α) (values : List (Option Toml))
    (index : Nat) : Option α :=
  match (values[index]?).join with
  | some value => accept value
  | none => some fallback

def analysis? (toml : Toml) : Option AnalysisSettings := do
  let defaults : AnalysisSettings := {}
  let values ← group?
    ["disposable-interface", "disposal-method", "nop-wrappers", "max-summary-passes", "trace"] toml
  some {
    disposableInterface := ← setting? text? defaults.disposableInterface values 0
    disposalMethod := ← setting? text? defaults.disposalMethod values 1
    nopWrappers := ← setting? texts? defaults.nopWrappers values 2
    maxSummaryPasses := ← setting? count? defaults.maxSummaryPasses values 3
    trace := ← setting? flag? defaults.trace values 4 }

def load? (toml : Toml) : Option LoadSettings := do
  let defaults : LoadSettings := {}
  let values ← group? ["exclude"] toml
  some { exclude := ← setting? texts? defaults.exclude values 0 }

def output? (toml : Toml) : Option OutputSettings := do
  let defaults : OutputSettings := {}
  let values ← group? ["format", "color"] toml
  some {
    format := ← setting? format? defaults.format values 0
    color := ← setting? flag? defaults.color values 1 }

def settings? (toml : Toml) : Option Settings := do
  let values ← group? ["analysis", "load", "output"] toml
  some {
    analysis := ← setting? analysis? {} values 0
    load := ← setting? load? {} values 1
    output := ← setting? output? {} values 2 }

end Toml

namespace Settings

def parse (path : Option String) (text : String) : Except SettingsError Settings :=
  match (Toml.parse? text).bind fun entries => Toml.settings? (.table .header entries) with
  | none => .error (.malformed path)
  | some settings => do
    settings.validate
    return settings

end Settings
end Unclosed
