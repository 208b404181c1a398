import QuocNgu.Value.Display

/-!
# Fault — the words for the ways in which a run can fail
-/

namespace QuocNgu

def Fault.message : Fault → String
  | .notText => "a text was expected"
  | .notMapping => "a mapping was expected"
  | .notIterable => "a value has no elements"
  | .notKey => "a list or a mapping cannot be a key"
  | .notIndexable => "a value cannot be indexed like this"
  | .notJoinable => "only texts can be joined"
  | .notOrdered => "a value cannot be compared with a number"
  | .notCount => "a whole number was expected"
  | .notPath => "a value cannot name a file"
  | .wrongArity => "wrong number of arguments"
  | .missingKey key => "missing key " ++ key.quoted
  | .outOfRange => "index out of range"
  | .longInteger => "an integer has too many digits"
  | .hugeHandle => "no file can have this number"
  | .unwritable => "a text has no written form"

end QuocNgu
