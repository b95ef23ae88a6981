import Microboard.Text.Hex
import Microboard.Text.Hidden

/-!
# Inspection text

Boards, cores and schedulers can be printed for a person to inspect. Every such text is built
from the same few shapes: a name, a name applied to arguments, a record of named fields, a list
in brackets and a quoted string.
-/

namespace Microboard.Text

/-- A word with its first letter kept and the others in lower case. -/
def titleCase (word : String) : String :=
  match word.toList with
  | [] => ""
  | first :: rest => String.ofList (first :: rest.map Char.toLower)

def commaSeparated (items : List String) : String := ", ".intercalate items

def bracketed (items : List String) : String := "[" ++ commaSeparated items ++ "]"

/-- A name followed by its arguments in parentheses; without arguments, the name alone. -/
def applied (name : String) : List String → String
  | [] => name
  | arguments => name ++ "(" ++ commaSeparated arguments ++ ")"

/-- A named record. An abridged record ends in two dots that stand for fields not shown. -/
def record (name : String) (fields : List (String × String)) (abridged : Bool := false) : String :=
  let shown := fields.map fun (label, value) => label ++ ": " ++ value
  name ++ " \x7b " ++ commaSeparated (if abridged then shown ++ [".."] else shown) ++ " \x7d"

/-- One character inside quotes. Quotes, backslashes and characters that cannot be shown on their
own are escaped. -/
def escaped (c : Char) : String :=
  if c = '"' then "\\\""
  else if c = '\\' then "\\\\"
  else if c = '\n' then "\\n"
  else if c = '\r' then "\\r"
  else if c = '\t' then "\\t"
  else if c.toNat = 0 then "\\0"
  else if isHidden c then
    "\\u\x7b" ++ Hex.lower 1 c.toNat ++ "\x7d"
  else String.singleton c

def quoted (s : String) : String :=
  "\"" ++ String.join (s.toList.map escaped) ++ "\""

end Microboard.Text
