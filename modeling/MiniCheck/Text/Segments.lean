/-!
# Segments of a path
-/

namespace MiniCheck.Text

/-- What stands between the slashes of a path. Next to a slash at an end of it stands an empty
segment. -/
def segments (path : String) : List String := (path.toList.splitOn '/').map String.ofList

end MiniCheck.Text
