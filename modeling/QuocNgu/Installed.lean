import QuocNgu.FileSystem
import QuocNgu.Json.Writer

/-!
# Installed — the configuration and the layouts that come with the program
-/

namespace QuocNgu
namespace Installed

def config : Value := .object [
  ("input_method", .text "Telex"),
  ("dictionaries", .list []),
  ("require_dictionary", .boolean false),
  ("max_suggestions", .integer 10),
  ("logging_level", .text "WARNING")]

def specs (entries : List (Text × Text)) : Value :=
  .object (entries.map fun (key, spec) => (key, .text spec))

def telexTones : List (Text × Text) :=
  [("z", "XoaDauThanh"), ("s", "DauSac"), ("f", "DauHuyen"), ("r", "DauHoi"), ("x", "DauNga"),
    ("j", "DauNang")]

def telexMarks : List (Text × Text) :=
  [("a", "A_Â"), ("e", "E_Ê"), ("o", "O_Ô"), ("w", "UOA_ƯƠĂ__Ư"), ("d", "D_Đ")]

def brackets : List (Text × Text) :=
  [("]", "__ư"), ("[", "__ươ"), ("\x7d", "__Ư"), ("\x7b", "__ƯƠ")]

def vni : List (Text × Text) :=
  [("0", "XoaDauThanh"), ("1", "DauSac"), ("2", "DauHuyen"), ("3", "DauHoi"), ("4", "DauNga"),
    ("5", "DauNang"), ("6", "AEO_ÂÊÔ"), ("7", "UO_ƯƠ"), ("8", "A_Ă"), ("9", "D_Đ")]

def viqr : List (Text × Text) :=
  [("0", "XoaDauThanh"), ("'", "DauSac"), ("\x60", "DauHuyen"), ("?", "DauHoi"), ("~", "DauNga"),
    (".", "DauNang"), ("^", "AEO_ÂÊÔ"), ("+", "UO_ƯƠ"), ("*", "UO_ƯƠ"), ("(", "A_Ă"), ("d", "D_Đ")]

def layouts : Value := .object [
  ("Telex", specs (telexTones ++ telexMarks)),
  ("Telex 2", specs (telexTones ++ telexMarks ++ brackets)),
  ("VNI", specs vni),
  ("VIQR", specs viqr)]

/-- The files of the data directory and their contents. -/
def files : List (String × String) :=
  [("config.json", (Json.stored config).1), ("input_methods.json", (Json.stored layouts).1)]

end Installed
end QuocNgu
