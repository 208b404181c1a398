import QuocNgu.Text.Printable

/-!
# Text.Quoted — a text between quotes on one line

* `quoteFor` : single quotes, unless the text holds a single quote and no double quote
* `quote`    : the quoted text, with backslashes, the chosen quote and unprintable code points
  escaped
-/

namespace QuocNgu
namespace Text

def quoteFor (t : Text) : Char :=
  if t.contains '\'' && !t.contains '"' then '"' else '\''

def escapeCode (n : Nat) : List Char :=
  if n < 0x100 then '\\' :: 'x' :: hexDigits 2 n
  else if n < 0x10000 then '\\' :: 'u' :: hexDigits 4 n
  else '\\' :: 'U' :: hexDigits 8 n

def escapeQuoted (mark : Char) : Point → List Char
  | .half offset => escapeCode (Point.half offset).code
  | .char c =>
      if c = mark || c = '\\' then ['\\', c]
      else if c = '\t' then ['\\', 't']
      else if c = '\n' then ['\\', 'n']
      else if c = '\r' then ['\\', 'r']
      else if isPrintable c then [c]
      else escapeCode c.toNat

def quote (t : Text) : String :=
  let mark := quoteFor t
  String.ofList (mark :: t.flatMap (escapeQuoted mark) ++ [mark])

end Text
end QuocNgu
