/-!
# CommandLine.Help — the help texts of the program and of its commands
-/

namespace QuocNgu
namespace CommandLine
namespace Help

def text (lines : List String) : String := String.join (lines.map (· ++ "\n"))

def program : String := text [
  "usage: vn-ime-core [-h] [-v] \x7brules,im,check,complete\x7d ...",
  "",
  "Vietnamese input rule compiler and dictionary lookup",
  "",
  "positional arguments:",
  "  \x7brules,im,check,complete\x7d",
  "                        Available commands",
  "    rules               Compile one rule spec",
  "    im                  List input methods or show one",
  "    check               Check words against dictionaries",
  "    complete            Suggest words for a prefix",
  "",
  "options:",
  "  -h, --help            show this help message and exit",
  "  -v, --verbose         Enable verbose output"]

def rules : String := text [
  "usage: vn-ime-core rules [-h] key spec",
  "",
  "positional arguments:",
  "  key         Trigger key",
  "  spec        Rule spec, e.g. \"DauSac\" or \"UOA_ƯƠĂ__Ư\"",
  "",
  "options:",
  "  -h, --help  show this help message and exit"]

def im : String := text [
  "usage: vn-ime-core im [-h] [name]",
  "",
  "positional arguments:",
  "  name        Input method name",
  "",
  "options:",
  "  -h, --help  show this help message and exit"]

def check : String := text [
  "usage: vn-ime-core check [-h] [-d DICTIONARY] [--dictionary-only]",
  "                         words [words ...]",
  "",
  "positional arguments:",
  "  words                 Words to check",
  "",
  "options:",
  "  -h, --help            show this help message and exit",
  "  -d DICTIONARY, --dictionary DICTIONARY",
  "                        Dictionary file (repeatable; default: from",
  "                        config.json)",
  "  --dictionary-only     Only count dictionary entries as full matches"]

def complete : String := text [
  "usage: vn-ime-core complete [-h] [-d DICTIONARY] [-n NBEST] [--aliases] prefix",
  "",
  "positional arguments:",
  "  prefix                Prefix to complete",
  "",
  "options:",
  "  -h, --help            show this help message and exit",
  "  -d DICTIONARY, --dictionary DICTIONARY",
  "                        Dictionary file (repeatable; default: from",
  "                        config.json)",
  "  -n NBEST, --nbest NBEST",
  "                        Maximum number of suggestions (default:",
  "                        max_suggestions from config.json)",
  "  --aliases             Include spellings with diacritics stripped"]

/-- The usage lines stand before the first empty line. -/
def usage (help : String) : String :=
  text ((help.splitOn "\n").takeWhile (· != ""))

end Help
end CommandLine
end QuocNgu
