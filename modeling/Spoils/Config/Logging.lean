/-! Levels and filters of the log. -/
namespace Spoils

inductive LogLevel where
  | trace | debug | info | warn | error
deriving DecidableEq, Repr, Inhabited

namespace LogLevel

def name : LogLevel → String
  | .trace => "trace"
  | .debug => "debug"
  | .info => "info"
  | .warn => "warn"
  | .error => "error"

def all : List LogLevel := [.trace, .debug, .info, .warn, .error]

/-- A text that is no level, in lower case. -/
structure Unknown where
  text : String
deriving DecidableEq, Repr

def Unknown.message (e : Unknown) : String := s!"unknown log level '{e.text}'"

/-- Reads a level in any case; warnings have a second name. -/
def parse (s : String) : Except Unknown LogLevel :=
  let s := s.map Char.toLower
  if s == "warning" then .ok .warn
  else
    match all.find? fun l => l.name == s with
    | some l => .ok l
    | none => .error ⟨s⟩

end LogLevel

structure Logging where
  level : LogLevel := .info
  /-- Levels of single modules. -/
  filters : List (String × LogLevel) :=
    [("loot_core::eval", .warn), ("loot_core::registry", .warn)]
  showTargets : Bool := true
  showPlaces : Bool := false
deriving DecidableEq

/-- The default level and the filters, joined by commas. -/
def Logging.filterText (l : Logging) : String :=
  ",".intercalate (l.level.name :: l.filters.map fun f => f.1 ++ "=" ++ f.2.name)

end Spoils
