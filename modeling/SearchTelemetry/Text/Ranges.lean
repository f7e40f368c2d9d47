/-!
# Ranges — sets of characters as runs of code points

A property of characters is a list of runs, each with its first and last code point.
-/
namespace SearchTelemetry
namespace Ranges

/-- A code point lies in one of the runs. -/
def contains (runs : List (Nat × Nat)) (c : Char) : Bool :=
  runs.any fun run => run.1 ≤ c.toNat && c.toNat ≤ run.2

end Ranges
end SearchTelemetry
