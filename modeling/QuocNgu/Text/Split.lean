import QuocNgu.Text

/-!
# Text.Split — cutting a list at one of its items, and a text into lines

* `splitAll` : the runs between separators, empty ones included; there is always one
* `lines`    : the lines of a text, each ended by a line feed, a carriage return or both
-/

namespace QuocNgu
namespace Text

def splitAll {α : Type} [DecidableEq α] (separator : α) : List α → List (List α)
  | [] => [[]]
  | a :: rest =>
      if a = separator then [] :: splitAll separator rest
      else
        match splitAll separator rest with
        | run :: runs => (a :: run) :: runs
        | [] => [[a]]

theorem splitAll_ne_nil {α : Type} [DecidableEq α] (separator : α) (items : List α) :
    splitAll separator items ≠ [] := by
  cases items with
  | nil =>
      simp [splitAll]
  | cons a rest =>
      unfold splitAll
      split
      · simp
      · split <;> simp

/-- Puts a carriage return and the line feed after it into one line feed. -/
def unifyBreaks : Text → Text
  | [] => []
  | .char '\r' :: .char '\n' :: t => '\n' :: unifyBreaks t
  | .char '\r' :: t => '\n' :: unifyBreaks t
  | p :: t => p :: unifyBreaks t

def lines (t : Text) : List Text := splitAll (.char '\n') (unifyBreaks t)

end Text
end QuocNgu
