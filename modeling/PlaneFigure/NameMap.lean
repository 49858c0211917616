/-!
Maps from names: lists of entries in increasing order of their names. Names are texts, unless something
else is said.
-/

namespace PlaneFigure

abbrev NameMap (α : Type) (κ : Type := String) := List (κ × α)

namespace NameMap

variable {α κ : Type}

/-- Map `name` to `x`, in place of what it was mapped to before. -/
def put [LT κ] [DecidableLT κ] [DecidableEq κ] (name : κ) (x : α) : NameMap α κ → NameMap α κ
  | [] => [(name, x)]
  | (n, y) :: rest =>
    if name < n then (name, x) :: (n, y) :: rest
    else if name = n then (name, x) :: rest
    else (n, y) :: put name x rest

/-- The map with the given entries; of several with one name, the last counts. -/
def ofEntries (entries : List (String × α)) : NameMap α :=
  entries.foldl (fun m (name, x) => m.put name x) []

end NameMap

end PlaneFigure
