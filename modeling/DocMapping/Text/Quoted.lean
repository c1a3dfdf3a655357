import DocMapping.Text.Printable

/-!
# Quoted Text

The quoted form of a text inside a displayed constant.  A quote and a backslash are escaped, the usual
controls have their short names, and characters that attach to another or leave no mark are written by
their number.
-/

namespace DocMapping.Text

/-- A character by its number. -/
def numbered (c : Char) : String :=
  "\\u\x7b" ++ String.ofList (Nat.toDigits 16 c.toNat) ++ "\x7d"

/-- A character inside quotes. -/
def escaped (c : Char) : String :=
  match c with
  | '\x00' => "\\0"
  | '\t' => "\\t"
  | '\r' => "\\r"
  | '\n' => "\\n"
  | '\\' => "\\\\"
  | '"' => "\\\""
  | c => if isAttaching c || !isMarked c then numbered c else String.singleton c

/-- A text in quotes. -/
def quoted (text : String) : String :=
  "\"" ++ String.join (text.toList.map escaped) ++ "\""

end DocMapping.Text
