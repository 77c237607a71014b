/-!
# Ascending lists without repetition

Any list is brought into ascending order, each value kept once.
-/

namespace ContentAddress

universe u

variable {α : Type u} [Ord α]

/-- Puts a value at its place in an ascending list, unless it is there already. -/
def insertAscending (a : α) : List α → List α
  | [] => [a]
  | b :: rest =>
      match compare a b with
      | .lt => a :: b :: rest
      | .eq => b :: rest
      | .gt => b :: insertAscending a rest

/-- The values of a list in ascending order, each once. -/
def ascending (values : List α) : List α :=
  values.foldr insertAscending []

def neighbours : List α → List Ordering
  | a :: b :: rest => compare a b :: neighbours (b :: rest)
  | _ => []

end ContentAddress
