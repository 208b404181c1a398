import QuocNgu.Session

/-!
# Locations — the directories of the program and the names it goes by

* `dataDirectory` : where the default configuration and layouts are
* `userDirectory` : where the user's own are
-/

namespace QuocNgu

def packageName : String := "vn-ime-core"

def version : String := "0.0.1"

/-- Joins a path to a directory; an absolute path stands on its own. -/
def joinPath (directory path : String) : String :=
  if FileSystem.isAbsolute path then path
  else if directory.isEmpty || directory.toList.getLast? == some '/' then directory ++ path
  else directory ++ "/" ++ path

def dropSlashes (path : String) : String :=
  String.ofList (path.toList.reverse.dropWhile (· == '/')).reverse

namespace Environment

def dataDirectory (env : Environment) : String :=
  match env.dataOverride? with
  | some directory => if directory.isEmpty then env.installedData else directory
  | none => env.installedData

def defaultConfigPath (env : Environment) : String := joinPath env.dataDirectory "config.json"

def configHome (env : Environment) : String :=
  match env.configHome? with
  | some directory => directory
  | none => dropSlashes (env.home?.getD env.accountHome) ++ "/.config"

def userDirectory (env : Environment) : String := joinPath env.configHome packageName

def userConfigPath (env : Environment) : String := joinPath env.userDirectory "config.json"

end Environment
end QuocNgu
