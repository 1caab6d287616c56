/-!
# Keyed values

Lists of pairs whose keys are distinct, either in the order in which the keys came or sorted.
-/

namespace Tabular.Keyed

variable {κ β : Type}

/-- Changes the value at `key`. A key that is new comes last, with the changed `fresh` value. -/
def update [DecidableEq κ] (key : κ) (fresh : β) (change : β → β) : List (κ × β) → List (κ × β)
  | [] => [(key, change fresh)]
  | (k, value) :: more =>
    if k = key then (k, change value) :: more else (k, value) :: update key fresh change more

/-- Puts a value at its key's place in a sorted list, instead of an earlier value of that key. -/
def insertSorted [Ord κ] (key : κ) (value : β) : List (κ × β) → List (κ × β)
  | [] => [(key, value)]
  | (k, old) :: more =>
    match compare key k with
    | .lt => (key, value) :: (k, old) :: more
    | .eq => (key, value) :: more
    | .gt => (k, old) :: insertSorted key value more

/-- The sorted list of the pairs; of two values at one key the later one stays. -/
def sorted [Ord κ] (pairs : List (κ × β)) : List (κ × β) :=
  pairs.foldl (fun list (key, value) => insertSorted key value list) []

def insertKey [Ord κ] (key : κ) : List κ → List κ
  | [] => [key]
  | k :: more =>
    match compare key k with
    | .lt => key :: k :: more
    | .eq => k :: more
    | .gt => k :: insertKey key more

end Tabular.Keyed
