import Spoils.Property.Store

/-! Declarations of properties. -/
namespace Spoils

inductive ParamType where
  | invalid | integer | asset | prototype
deriving DecidableEq, Repr, Inhabited

inductive Aggregation where
  | none | sum | mul | min | max
deriving DecidableEq, Repr, Inhabited

structure PropertyInfo where
  prop : PropertyId
  name : String
  dataType : DataType
  paramCount : Nat := 0
  paramTypes : List ParamType := [.invalid, .invalid, .invalid, .invalid]
  defaultParams : Params := .zero
  aggregation : Aggregation := .none
deriving DecidableEq

namespace PropertyInfo

/-- Declares parameters; only the first four count. -/
def withParams (info : PropertyInfo) (types : List ParamType) : PropertyInfo :=
  { info with
    paramCount := min types.length 4
    paramTypes := types.take 4 ++ info.paramTypes.drop (min types.length 4) }

def withAggregation (info : PropertyInfo) (a : Aggregation) : PropertyInfo :=
  { info with aggregation := a }

/-- The key with the declared default parameters. -/
def defaultKey (info : PropertyInfo) : PropertyKey := ⟨info.prop, info.defaultParams⟩

/-- The properties that rolls read themselves. -/
def builtins : List PropertyInfo :=
  [{ prop := .difficultyTier, name := "DifficultyTier", dataType := .prototype },
   { prop := .loopPrototype, name := "EvalLoopVarProtoRef", dataType := .prototype
     paramCount := 1, paramTypes := [.integer, .invalid, .invalid, .invalid] },
   { prop := .showNextRank, name := "ShowNextRank", dataType := .boolean },
   { prop := .itemLevel, name := "ItemLevel", dataType := .integer },
   { prop := .itemRarity, name := "ItemRarity", dataType := .prototype },
   { prop := .itemSeed, name := "ItemSeed", dataType := .integer },
   { prop := .characterLevel, name := "CharacterLevel", dataType := .integer
     aggregation := .max }]

end PropertyInfo

end Spoils
