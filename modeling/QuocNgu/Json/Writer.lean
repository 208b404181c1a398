import QuocNgu.Binary64.Shortest
import QuocNgu.Value

/-!
# Json.Writer — values as JSON texts

* `pieces` : the text of a value in the pieces in which it goes to a file
* `write`  : the text of a value
* `stored` : what of a value's text reaches a file, and whether that is all of it

Lists and mappings have one item a line, two spaces deeper than their brackets; empty ones stand on
one line. Only quotes, backslashes and control characters are escaped, so a text with half a
surrogate pair has no place in a file: writing ends before the piece that holds it.

Limits on the depth of a value and on the digits of an integer are left out. A value that was read
keeps to the second, and the first depends on the caller.
-/

namespace QuocNgu
namespace Json

/-! ## Scalars -/

def escape (c : Char) : List Char :=
  match c with
  | '"' => ['\\', '"']
  | '\\' => ['\\', '\\']
  | '\n' => ['\\', 'n']
  | '\r' => ['\\', 'r']
  | '\t' => ['\\', 't']
  | '\x0c' => ['\\', 'f']
  | '\x08' => ['\\', 'b']
  | c => if c.toNat < 0x20 then '\\' :: 'u' :: Text.hexDigits 4 c.toNat else [c]

def escapePoint : Point → Text
  | .char c => (escape c).map .char
  | .half offset => [.half offset]

def writeText (t : Text) : Text := "\"" ++ t.flatMap escapePoint ++ "\""

def realStyle : Binary64.Style where
  leastPositional := -4
  greatestPositional := 15
  exponentWidth := 2
  infinityWord := "Infinity"
  nanWord := "NaN"

def writeScalar : Value → Text
  | .null => "null"
  | .boolean true => "true"
  | .boolean false => "false"
  | .integer n => toString n
  | .real x => x.toText realStyle
  | .text t => writeText t
  | _ => []

/-- A key that is no text is written as the text of its value. -/
def writeKey : Value → Text
  | .text t => writeText t
  | key => "\"" ++ writeScalar key ++ "\""

/-! ## Values -/

def newline (level : Nat) : Text := .char '\n' :: List.replicate (2 * level) (.char ' ')

def leftBrace : Text := "\x7b"

def rightBrace : Text := "\x7d"

/-- A scalar is in one piece with what comes before it in a list. -/
def joinLead (lead : Text) (item : Value) (own : List Text) : List Text :=
  if item.isKey then [lead ++ own.flatten] else lead :: own

mutual

def pieces (level : Nat) : Value → List Text
  | .list items =>
      if items.isEmpty then ["[]"]
      else
        itemPieces (level + 1) ("[" ++ newline (level + 1)) items ++ [newline level, "]"]
  | .object fields =>
      if fields.isEmpty then [leftBrace ++ rightBrace]
      else
        leftBrace :: fieldPieces (level + 1) (newline (level + 1)) fields ++
          [newline level, rightBrace]
  | .table rows =>
      if rows.isEmpty then [leftBrace ++ rightBrace]
      else
        leftBrace :: rowPieces (level + 1) (newline (level + 1)) rows ++
          [newline level, rightBrace]
  | v => [writeScalar v]

def itemPieces (level : Nat) (lead : Text) : List Value → List Text
  | [] => []
  | item :: items =>
      joinLead lead item (pieces level item) ++ itemPieces level ("," ++ newline level) items

def fieldPieces (level : Nat) (lead : Text) : List (Text × Value) → List Text
  | [] => []
  | (k, v) :: fields =>
      lead :: writeText k :: ": " :: pieces level v ++
        fieldPieces level ("," ++ newline level) fields

def rowPieces (level : Nat) (lead : Text) : List (Value × Value) → List Text
  | [] => []
  | (k, v) :: rows =>
      lead :: writeKey k :: ": " :: pieces level v ++ rowPieces level ("," ++ newline level) rows

end

def write (v : Value) : Text := (pieces 0 v).flatten

/-! ## Files -/

/-- What reaches a file, and whether that is everything. -/
def store : List Text → String × Bool
  | [] => ("", true)
  | piece :: rest =>
      match piece.toString? with
      | some s =>
          let (stored, complete) := store rest
          (s ++ stored, complete)
      | none => ("", false)

def stored (v : Value) : String × Bool := store (pieces 0 v)

end Json
end QuocNgu
