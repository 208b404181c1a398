import QuocNgu.Binary64.Shortest
import QuocNgu.Text.Quoted
import QuocNgu.Value

/-!
# Value.Display — values inside messages

* `quoted`  : a value on one line, with its texts quoted
* `display` : the same, but a text on its own stands as it is
* `shown`   : the display as a string, for messages

Integers are written out whatever their length. A conversion that refuses more than 4300 digits is
left out: no integer of a configuration or of a layout is longer, as their reader has that limit.
-/

namespace QuocNgu
namespace Value

/-- Numbers whose leading digit is at `10 ^ -4` to `10 ^ 15` are positional. -/
def realStyle : Binary64.Style where
  leastPositional := -4
  greatestPositional := 15
  exponentWidth := 2
  infinityWord := "inf"
  nanWord := "nan"

mutual

def quoted : Value → String
  | null => "None"
  | boolean b => if b then "True" else "False"
  | integer n => toString n
  | real x => x.toText realStyle
  | text t => t.quote
  | list items => "[" ++ ", ".intercalate (quotedItems items) ++ "]"
  | object fields => "\x7b" ++ ", ".intercalate (quotedFields fields) ++ "\x7d"
  | table rows => "\x7b" ++ ", ".intercalate (quotedRows rows) ++ "\x7d"

def quotedItems : List Value → List String
  | [] => []
  | item :: rest => quoted item :: quotedItems rest

def quotedFields : List (Text × Value) → List String
  | [] => []
  | (k, v) :: rest => (k.quote ++ ": " ++ quoted v) :: quotedFields rest

def quotedRows : List (Value × Value) → List String
  | [] => []
  | (k, v) :: rest => (quoted k ++ ": " ++ quoted v) :: quotedRows rest

end

def display : Value → Text
  | text t => t
  | v => quoted v

def shown (v : Value) : String := v.display.shown

end Value
end QuocNgu
