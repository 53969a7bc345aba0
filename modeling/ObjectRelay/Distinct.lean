import Std.Data.HashSet

namespace ObjectRelay

def distinctStep [BEq α] [Hashable α] (state : List α × Std.HashSet α)
    (item : α) : List α × Std.HashSet α :=
  if state.2.contains item then state
  else (item :: state.1, state.2.insert item)

def distinct [BEq α] [Hashable α] (items : List α) : List α :=
  (items.foldl distinctStep ([], ∅)).1.reverse

end ObjectRelay
