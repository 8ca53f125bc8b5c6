import Spoils.Catalog.Issues
import Spoils.Codec.Load
import Spoils.Codec.Results
import Spoils.CommandLine.Wrap
import Spoils.Document.Files

/-! The command line: rolls or audits a loot table of a content file. -/
namespace Spoils

structure Invocation where
  content : String
  table : Nat
  seed : Option Nat
  level : Int
  audit : Bool
  config : Option String
deriving DecidableEq, Repr

/-- What a run leaves to the shell. -/
structure Report where
  code : Nat := 0
  output : String := ""
  complaints : List String := []
deriving DecidableEq, Repr

namespace CommandLine

/-- Why there is no invocation: a page was asked for, or the arguments are wrong. -/
inductive Refusal where
  | help
  | version
  | usage
deriving DecidableEq, Repr

structure Arguments where
  positions : List String := []
  audit : Bool := false
  config : Option String := none
deriving DecidableEq

/-- A whole number with an optional sign, in decimal digits only. -/
def integer? (s : String) : Option Int :=
  let (negative, ds) :=
    match s.toList with
    | '-' :: ds => (true, ds)
    | '+' :: ds => (false, ds)
    | ds => (false, ds)
  if ds.isEmpty then none
  else (ds.mapM digit?).map fun ds =>
    let n : Nat := numberOf 10 ds
    if negative then -n else n

/-- A 64-bit word; even zero has no minus sign. -/
def word? (s : String) : Option Nat :=
  if s.toList.head? == some '-' then none
  else ((integer? s).bind Bounds.word64.check?).map (·.toNat)

def level? (s : String) : Option Int :=
  (integer? s).bind Bounds.int32.check?

/-- Whether an argument starts like an option; a hyphen alone does not. -/
def isOption (s : String) : Bool :=
  match s.toList with
  | '-' :: _ :: _ => true
  | _ => false

/-- Whether an argument is written like a negative number; it may have a point and an exponent. -/
def isNegative (s : String) : Bool :=
  match s.toList with
  | '-' :: cs =>
    let (whole, rest) := leadingDigits cs
    let rest :=
      match rest with
      | '.' :: cs => (leadingDigits cs).2
      | cs => cs
    let rest :=
      match rest with
      | 'e' :: c :: cs | 'E' :: c :: cs => (leadingDigits (c :: cs)).2
      | cs => cs
    !whole.isEmpty && rest.isEmpty
  | _ => false

/-- What a group of short options asks for; the first letter decides. -/
def shortOptions (s : String) : Refusal :=
  match s.toList with
  | '-' :: 'h' :: _ => .help
  | '-' :: 'V' :: _ => .version
  | _ => .usage

/-- Whether the next position takes an argument. -/
def fits (position : Nat) (s : String) : Bool :=
  match position with
  | 0 => !s.isEmpty
  | 1 | 2 => (word? s).isSome
  | 3 => (level? s).isSome
  | _ => false

/-- Takes in an argument by its position. -/
def place (a : Arguments) (s : String) : Except Refusal Arguments :=
  if fits a.positions.length s then .ok { a with positions := a.positions ++ [s] }
  else .error .usage

/-- Takes in the file of the configuration, which comes at most once. -/
def placeConfig (a : Arguments) (path : String) : Except Refusal Arguments :=
  if path.isEmpty || a.config.isSome then .error .usage else .ok { a with config := some path }

/-- Takes in arguments that are no options any more. -/
def placeAll (a : Arguments) (args : List String) : Except Refusal Arguments := args.foldlM place a

/-- Whether an argument is an option; a negative number is none where a level is expected. -/
def isOptionFor (a : Arguments) (s : String) : Bool :=
  isOption s && !(a.positions.length == 3 && isNegative s)

/-- Takes in arguments from left to right. -/
def gather : List String → Arguments → Except Refusal Arguments
  | [], a => .ok a
  | "--" :: rest, a => placeAll a rest
  | "--audit" :: rest, a => if a.audit then .error .usage else gather rest { a with audit := true }
  | ["--config"], _ => .error .usage
  | "--config" :: path :: rest, a =>
    if isOptionFor a path then .error .usage
    else
      match placeConfig a path with
      | .ok a => gather rest a
      | .error e => .error e
  | "--help" :: _, _ => .error .help
  | "--version" :: _, _ => .error .version
  | s :: rest, a =>
    let file := "--config=".toList
    if file.isPrefixOf s.toList then
      match placeConfig a (String.ofList (s.toList.drop file.length)) with
      | .ok a => gather rest a
      | .error e => .error e
    else if isOptionFor a s then .error (shortOptions s)
    else
      match place a s with
      | .ok a => gather rest a
      | .error e => .error e

/-- Reads the arguments. Without an option for it the configuration is the one that the
environment names. -/
def parse (args : List String) (environment : Option String) : Except Refusal Invocation := do
  let a ← gather args {}
  let a ← match a.config, environment with
    | none, some path => placeConfig a path
    | _, _ => .ok a
  match a.positions with
  | content :: table :: rest =>
    return {
      content := content
      table := (word? table).getD 0
      seed := rest[0]?.bind word?
      level := (rest[1]?.bind level?).getD defaultLevel
      audit := a.audit
      config := a.config }
  | _ => .error .usage

def usageLine : String := "Usage: loot-core [OPTIONS] <CONTENT> <TABLE_ID> [SEED] [LEVEL]"

/-- The columns that come before the description of an option. -/
def optionMargin : Nat := 25

/-- The description of an option in the columns of the page that are left for it. -/
def describe (text : String) : String :=
  let margin := List.replicate optionMargin ' '
  let cs := Wrap.wrap (100 - optionMargin) text.toList
  String.ofList (cs.flatMap fun c => if c == '\n' then c :: margin else [c])

def helpPage (environment : Option String) : String :=
  let file := "Engine config file [env: LOOT_CORE_CONFIG=" ++ environment.getD "" ++ "]"
  let page := "\n".intercalate
    ["Roll or audit a loot table", "", usageLine, "", "Arguments:",
     "  <CONTENT>   Content database (\x60.ron\x60 or \x60.json\x60)",
     "  <TABLE_ID>  Loot table prototype id",
     "  [SEED]      Roll seed, defaults to the config's base seed",
     "  [LEVEL]     Requested loot level [default: 1]", "", "Options:",
     "      --audit            Run the Monte-Carlo drop audit instead of a single roll",
     "      --config <CONFIG>  " ++ describe file,
     "  -h, --help             Print help", "  -V, --version          Print version", ""]
  String.ofList (Terminal.shown page.toList)

def versionLine : String := "loot-procedural-core 0.1.0\n"

def refuse (environment : Option String) : Refusal → Report
  | .help => { output := helpPage environment }
  | .version => { output := versionLine }
  | .usage => { code := 2, complaints := [usageLine] }

end CommandLine

namespace Invocation

def loadConfig (i : Invocation) (read : String → Option String) : Except String Config :=
  match i.config with
  | none => .ok {}
  | some path => (Config.ofFile path (read path)).mapError fun _ => s!"loading config {path}"

def linesOf (text : String) : List String :=
  (Wrap.lines text.toList).map fun cs => String.ofList (cs.filter (· != '\n'))

/-- The list of content issues, under a line with their number. -/
def issueLines (issues : List Issue) : List String :=
  if issues.isEmpty then []
  else s!"{issues.length} content issue(s):" :: issues.map fun i => "  " ++ i.text

/-- Rolls or audits a table. -/
def execute (i : Invocation) (config : Config) (c : Catalog) (t : LootTable) : Json :=
  if i.audit then (t.audit config { catalog := c } {}).toJson
  else
    (t.root.roll {
      world := config.apply { catalog := c }
      settings := .forLevel i.level
      seed := .ofNat (i.seed.getD config.baseSeed) }).toJson

def run (i : Invocation) (read : String → Option String) : Report :=
  let failure (text : String) (issues : List String) : Report :=
    { code := 1, complaints := issues ++ linesOf ("Error: " ++ text) }
  match i.loadConfig read with
  | .error text => failure text []
  | .ok config =>
    match Catalog.ofFile i.content (read i.content) with
    | .error _ => failure s!"loading content {i.content}" []
    | .ok c =>
      let issues := issueLines c.issues
      match c.lootTable? ⟨i.table⟩ with
      | none => failure s!"no loot table {i.table}" issues
      | some t => { output := (i.execute config c t).pretty ++ "\n", complaints := issues }

def files (i : Invocation) : List String := i.config.toList ++ [i.content]

end Invocation

def CommandLine.run (args : List String) (environment : Option String)
    (read : String → Option String) : Report :=
  match parse args environment with
  | .ok i => i.run read
  | .error r => refuse environment r

/-- Runs the program in a directory that holds nothing but some files. -/
def CommandLine.runIn (files : Files) (args : List String) (environment : Option String) :
    Report :=
  run args environment files.read?

end Spoils
