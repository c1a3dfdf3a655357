import DocMapping.Expression
import DocMapping.Value.Text

/-!
# Displayed Expressions

Expressions as they read in messages.  Operations stand in parentheses, methods after their receiver,
and a text constant in quotes as it is.
-/

namespace DocMapping

namespace BinaryOperator

def symbol : BinaryOperator → String
  | equal => "=="
  | notEqual => "!="
  | lessThan => "<"
  | lessThanOrEqual => "<="
  | greaterThan => ">"
  | greaterThanOrEqual => ">="
  | andAlso => "&&"
  | orElse => "||"
  | add => "+"
  | subtract => "-"
  | multiply => "*"
  | divide => "/"

def name : BinaryOperator → String
  | equal => "Equal"
  | notEqual => "NotEqual"
  | lessThan => "LessThan"
  | lessThanOrEqual => "LessThanOrEqual"
  | greaterThan => "GreaterThan"
  | greaterThanOrEqual => "GreaterThanOrEqual"
  | andAlso => "AndAlso"
  | orElse => "OrElse"
  | add => "Add"
  | subtract => "Subtract"
  | multiply => "Multiply"
  | divide => "Divide"

/-- All operators. -/
def all : List BinaryOperator :=
  [equal, notEqual, lessThan, lessThanOrEqual, greaterThan, greaterThanOrEqual, andAlso, orElse, add,
    subtract, multiply, divide]

def ofSymbol? (symbol : String) : Option BinaryOperator := all.find? fun o ↦ o.symbol == symbol

end BinaryOperator

namespace Method

def text : Method → String
  | filter => "Where"
  | select => "Select"
  | orderBy => "OrderBy"
  | orderByDescending => "OrderByDescending"
  | thenBy => "ThenBy"
  | thenByDescending => "ThenByDescending"
  | skip => "Skip"
  | take => "Take"
  | first => "First"
  | firstOrDefault => "FirstOrDefault"
  | single => "Single"
  | singleOrDefault => "SingleOrDefault"
  | any => "Any"
  | count => "Count"
  | longCount => "LongCount"
  | contains => "Contains"
  | startsWith => "StartsWith"
  | endsWith => "EndsWith"
  | named name => name

/-- The methods with a meaning of their own. -/
def known : List Method :=
  [filter, select, orderBy, orderByDescending, thenBy, thenByDescending, skip, take, first,
    firstOrDefault, single, singleOrDefault, any, count, longCount, contains, startsWith, endsWith]

/-- The method of a name. -/
def ofText (text : String) : Method := (known.find? fun m ↦ m.text == text).getD (named text)

end Method

namespace Expression

def constantText : Value → String
  | .string text => "\"" ++ text ++ "\""
  | other => other.constantText

/-- What stands in front of the fields of a new record. -/
def opening : RecordShape → String
  | .anonymous => "new \x7b "
  | .tuple => "("
  | .constructor name => "new " ++ name ++ "("

def closing : RecordShape → String
  | .anonymous => " \x7d"
  | .tuple => ")"
  | .constructor _ => ")"

mutual

/-- The displayed text of an expression. -/
def text : Expression → String
  | entitySet entity => "Set<" ++ entity ++ ">"
  | parameter name => name
  | queryParameter name => "@" ++ name
  | constant value => constantText value
  | member target name => text target ++ "." ++ name
  | binary operator left right =>
    "(" ++ text left ++ " " ++ operator.symbol ++ " " ++ text right ++ ")"
  | not operand => "!" ++ text operand
  | call method [] => method.text ++ "()"
  | call method (receiver :: rest) =>
    text receiver ++ "." ++ method.text ++ "(" ++ listText rest ++ ")"
  | index target position => text target ++ "[" ++ text position ++ "]"
  | lambda argument body => argument ++ " => " ++ text body
  | record shape fields => opening shape ++ fieldsText fields ++ closing shape
  | array items => "new[] \x7b " ++ listText items ++ " \x7d"

def listText : List Expression → String
  | [] => ""
  | [item] => text item
  | item :: rest => text item ++ ", " ++ listText rest

def fieldsText : List (String × Expression) → String
  | [] => ""
  | [(_, value)] => text value
  | (_, value) :: rest => text value ++ ", " ++ fieldsText rest

end

end Expression

end DocMapping
