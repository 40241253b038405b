/-!
Texts made of lines.
-/

namespace TableReport

/-- The text of lines, each ended by a line break. -/
def unlines (lines : List String) : String := String.join (lines.map (· ++ "\n"))

end TableReport
