/-! Runs between separators.

A text is taken apart at a separator into the runs between its occurrences, empty ones included. -/
namespace ItemStore.Text

variable {α : Type}

/-- Puts one more in front of the first run. -/
def prepend (c : α) : List (List α) → List (List α)
  | [] => [[c]]
  | run :: runs => (c :: run) :: runs

/-- The runs between separators; there is always at least one. -/
def split [DecidableEq α] (sep : α) : List α → List (List α)
  | [] => [[]]
  | c :: cs => if c = sep then [] :: split sep cs else prepend c (split sep cs)

end ItemStore.Text
