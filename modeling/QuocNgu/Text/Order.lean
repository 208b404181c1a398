import QuocNgu.Text

/-!
# Text.Order — the order of texts by code point

* `precedes` : a text comes before another
* `sorted`   : the texts of a list in rising order, repeated ones kept
-/

namespace QuocNgu
namespace Text

/-- Texts are compared code point by code point; a start comes before what it starts. -/
def precedes (s t : Text) : Bool := decide (s.map Point.code < t.map Point.code)

def sorted (texts : List Text) : List Text := texts.mergeSort fun s t => !precedes t s

end Text
end QuocNgu
