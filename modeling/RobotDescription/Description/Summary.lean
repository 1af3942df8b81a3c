/-!
# Summaries

The counts of a generation, which begin at zero and grow as it goes on.
-/

namespace RobotDescription

/-- How many decorations were generated and skipped, and how many mounts were generated. -/
structure Summary where
  decorations : Nat := 0
  skipped : Nat := 0
  mounts : Nat := 0
deriving DecidableEq, Repr

namespace Summary

/-- One more decoration. -/
def countDecoration (summary : Summary) : Summary :=
  { summary with decorations := summary.decorations + 1 }

/-- One more mount. -/
def countMount (summary : Summary) : Summary :=
  { summary with mounts := summary.mounts + 1 }

end Summary

end RobotDescription
