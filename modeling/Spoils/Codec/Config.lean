import Spoils.Codec.Property
import Spoils.Config.Basic

/-! Documents of configurations. -/
namespace Spoils

namespace LogLevel

def names : List (String × LogLevel) := all.map fun l => (l.name, l)

def ofDoc? (d : Doc) : Option LogLevel := d.choice? names

end LogLevel

namespace Logging

def filterOfDoc? (d : Doc) : Option (String × LogLevel) := do
  match ← d.tuple? with
  | [path, level] => return (← path.text?, ← LogLevel.ofDoc? level)
  | _ => none

def ofDoc? (d : Doc) : Option Logging := do
  let fs ← d.fields? "TracingConfig" ["default_level", "module_filters", "show_targets",
    "show_file_line"]
  let usual : Logging := {}
  return {
    level := ← fs.get "default_level" usual.level LogLevel.ofDoc?
    filters := ← fs.get "module_filters" usual.filters (Doc.listOf? filterOfDoc?)
    showTargets := ← fs.get "show_targets" usual.showTargets Doc.bool?
    showPlaces := ← fs.get "show_file_line" usual.showPlaces Doc.bool? }

def toJson (l : Logging) : Json :=
  .object [("default_level", .text l.level.name),
    ("module_filters", .ofList (fun f => .array [.text f.1, .text f.2.name]) l.filters),
    ("show_targets", .bool l.showTargets), ("show_file_line", .bool l.showPlaces)]

def toRon (l : Logging) : Ron :=
  let truth (b : Bool) : Ron := .name (if b then "true" else "false")
  .record none [("default_level", .name l.level.name),
    ("module_filters",
      .list (l.filters.map fun f => .tuple none [.text f.1, .name f.2.name] false)),
    ("show_targets", truth l.showTargets), ("show_file_line", truth l.showPlaces)]

end Logging

namespace Config

def ofDoc? (d : Doc) : Option Config := do
  let fs ← d.fields? "LootEngineConfig" ["base_seed", "drop_rate_multiplier", "max_loot_tree_depth",
    "eval_epsilon", "audit_rolls", "tracing"]
  let usual : Config := {}
  return {
    baseSeed := ← fs.get "base_seed" usual.baseSeed Doc.nat64?
    dropMultiplier := ← fs.get "drop_rate_multiplier" usual.dropMultiplier Doc.single?
    maxDepth := ← fs.get "max_loot_tree_depth" usual.maxDepth Doc.nat32?
    epsilon := ← fs.get "eval_epsilon" usual.epsilon Doc.single?
    auditRolls := ← fs.get "audit_rolls" usual.auditRolls Doc.nat32?
    logging := ← fs.get "tracing" usual.logging Logging.ofDoc? }

def toRon (c : Config) : Ron :=
  .record none [("base_seed", .ofNat c.baseSeed),
    ("drop_rate_multiplier", .ofSingle c.dropMultiplier),
    ("max_loot_tree_depth", .ofNat c.maxDepth), ("eval_epsilon", .ofSingle c.epsilon),
    ("audit_rolls", .ofNat c.auditRolls), ("tracing", c.logging.toRon)]

end Config

end Spoils
