/-!
# Sets of characters given by spans

A character property of the Unicode standard is a set of code points, and a set of
code points is written as its maximal runs in ascending order. Membership walks the
runs and stops at the first one that starts beyond the character.
-/

namespace Slick.Text

/-- A set of code points as ascending, disjoint runs, each given by its first and
its last member. -/
abbrev Spans := List (Nat × Nat)

namespace Spans

/-- Whether a code point lies in one of the runs. Runs ascend, so the walk ends at the
first run that starts beyond the code point. -/
def contains : Spans → Nat → Bool
  | [], _ => false
  | (first, last) :: rest, point =>
    if point < first then false
    else if point ≤ last then true
    else contains rest point

end Spans

end Slick.Text
