/-!
# Dotted Paths

Element paths written with points between their segments.  Splitting a text always gives at least one
segment, so the empty text is the path of the one empty segment.
-/

namespace DocMapping.Text

/-- The segments of a list of characters between points. -/
def splitDots : List Char → List (List Char)
  | [] => [[]]
  | c :: rest =>
    if c = '.' then [] :: splitDots rest
    else
      match splitDots rest with
      | [] => [[c]]
      | segment :: segments => (c :: segment) :: segments

/-- The segments of a dotted path. -/
def segments (path : String) : List String :=
  (splitDots path.toList).map String.ofList

/-- The characters of segments with points between them. -/
def joinDots : List (List Char) → List Char
  | [] => []
  | [segment] => segment
  | segment :: rest => segment ++ '.' :: joinDots rest

/-- The dotted path of segments. -/
def dotted (segments : List String) : String :=
  String.ofList (joinDots (segments.map String.toList))

end DocMapping.Text
