/-!
# Text Search

The three tests of one text against a part of it, on lists of characters.
-/

namespace DocMapping.Text

/-- The text begins with the part. -/
def startsWith (text part : String) : Bool :=
  part.toList.isPrefixOf text.toList

/-- The text ends with the part. -/
def endsWith (text part : String) : Bool :=
  part.toList.isSuffixOf text.toList

/-- The part occurs at the front of the list or of one of its tails. -/
def containsList (part : List Char) : List Char → Bool
  | [] => part.isEmpty
  | c :: rest => part.isPrefixOf (c :: rest) || containsList part rest

/-- The part occurs in the text. -/
def contains (text part : String) : Bool :=
  containsList part.toList text.toList

end DocMapping.Text
