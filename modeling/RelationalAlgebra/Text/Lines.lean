/-!
# Lines of text
-/
namespace RelationalAlgebra.Text

/-- The pieces of a text between its line breaks, one more than there are breaks. -/
def lines (s : String) : List String := (s.toList.splitOnP (· = '\n')).map String.ofList

/-- The lines of an input, each with a line break behind it, which the last may lack. -/
def inputLines (s : String) : List String :=
  let pieces := lines s
  if pieces.getLast? = some "" then pieces.dropLast else pieces

end RelationalAlgebra.Text
