/-! Classes of characters given as ranges of code points. -/
namespace TemplateSplice

/-- A class of characters as the closed ranges of their code points. -/
abbrev CharRanges := List (Nat × Nat)

/-- Whether a code point lies in one of the ranges. -/
def CharRanges.covers (ranges : CharRanges) (n : Nat) : Bool :=
  ranges.any fun (low, high) => low ≤ n && n ≤ high

end TemplateSplice
