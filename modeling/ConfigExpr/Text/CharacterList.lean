/-!
Lists of characters, as given to a function that strips them. In a list, two points between two
characters in ascending order stand for all characters from the one to the other; anywhere else a
point stands for itself.
-/
namespace ConfigExpr.Text

/-- Characters as intervals from a first to a last character. -/
abbrev Intervals := List (Char × Char)

namespace Intervals

def contains (intervals : Intervals) (c : Char) : Bool :=
  intervals.any fun interval => interval.1 ≤ c && c ≤ interval.2

/-- Reads a list from left to right; an interval takes four characters. -/
def ofList : List Char → Intervals
  | [] => []
  | a :: '.' :: '.' :: b :: rest =>
    if a ≤ b then (a, b) :: ofList rest else (a, a) :: ofList ('.' :: '.' :: b :: rest)
  | a :: rest => (a, a) :: ofList rest

end Intervals

end ConfigExpr.Text
