import Spoils.Config.Logging
import Spoils.Formula.Basic
import Spoils.Roll.World

/-! Configuration of rolls and audits. -/
namespace Spoils

structure Config where
  baseSeed : Nat := 42
  dropMultiplier : Single := 1
  maxDepth : Nat := maxTreeDepth
  epsilon : Single := Formula.defaultEpsilon
  auditRolls : Nat := 10000
  logging : Logging := {}

namespace Config

/-- The configuration with a default for every value that makes no sense. -/
def sanitize (c : Config) : Config :=
  { c with
    dropMultiplier :=
      if !c.dropMultiplier.isFinite || c.dropMultiplier < 0 then 1 else c.dropMultiplier
    maxDepth := if c.maxDepth = 0 then maxTreeDepth else c.maxDepth
    epsilon :=
      if c.epsilon.isNotANumber || c.epsilon < 0 then Formula.defaultEpsilon else c.epsilon }

def apply (c : Config) (w : World) : World :=
  { w with maxDepth := c.maxDepth }.withMultiplier c.dropMultiplier

end Config

end Spoils
