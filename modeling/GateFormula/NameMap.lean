import Std.Data.ExtTreeMap

/-!
# Finite maps keyed by name

Registries, stores and sessions are finite maps from names. Two maps with the same
bindings are equal, and a map is listed in ascending order of its names by code
point, whatever the order in which they were bound.
-/

namespace GateFormula

/-- A finite map from names. -/
abbrev NameMap (α : Type) := Std.ExtTreeMap String α compare

/-- The map that holds the bindings of a list, of which a later one wins. -/
def NameMap.ofBindings {α : Type} (bindings : List (String × α)) : NameMap α :=
  bindings.foldl (fun map binding => map.insert binding.1 binding.2) ∅

end GateFormula
