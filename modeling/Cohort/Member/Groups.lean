import Cohort.Text.Blank

/-!
Group lists. Two comma separated texts make one list: pieces are trimmed, empty pieces dropped and
later duplicates removed. Members compare group lists by value, so the rule is shared by all.
-/

namespace Cohort.Groups

/-- The trimmed, non-empty pieces of a comma separated text. -/
def split (text : String) : List String :=
  ((Text.pieces ',' text.toList).map Text.trim |>.filter (!·.isEmpty)).map String.ofList

/-- Adds a name at the end unless it is there already. -/
def add (groups : List String) (name : String) : List String :=
  if name ∈ groups then groups else groups ++ [name]

def merge (roles groups : String) : List String :=
  (split roles ++ split groups).foldl add []

end Cohort.Groups
