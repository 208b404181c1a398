import QuocNgu.Text.Split

/-!
# FileSystem — directories and files as a value

* `FileSystem` : the entry at each place, a place being the names that lead to it from the root
* `locate`     : the place that a path leads to, through directories that exist
* `exists?`, `read`, `write`, `makeDirectories`, `remove` : the operations, with the reason of
  each failure

A path without a leading slash starts at the working directory. A path that ends in a slash can only
be a directory, and so can whatever stands before a dot.

A file that is written is emptied first and filled after that. The device may give up in between,
and then the file is left with the bytes that were taken. Links and permissions are left out, and so
are devices that fail in reading or in making an entry.
-/

namespace QuocNgu

namespace FileSystem

abbrev Place := List String

inductive Entry where
  | file (content : ByteArray)
  | directory

/-- Why an operation on a path fails. -/
inductive Problem where
  | notFound
  | notDirectory
  | isDirectory
  | alreadyExists
  | nameTooLong
  /-- A path holds a NUL. -/
  | notPath
  /-- The device gave up while a file was filled. -/
  | brokenOff
  deriving DecidableEq, Repr

end FileSystem

structure FileSystem where
  entries : List (List String × FileSystem.Entry)
  working : List String
  /-- After how many bytes the device gives up on a content at a place, if it does. -/
  breaksAfter : List String → ByteArray → Option Nat := fun _ _ => none

namespace FileSystem

/-! ## Entries -/

/-- The entry at a place; the root is always a directory. -/
def entry? (fs : FileSystem) (place : Place) : Option Entry :=
  if place.isEmpty then some .directory else fs.entries.lookup place

def content? (fs : FileSystem) (place : Place) : Option ByteArray :=
  match fs.entry? place with
  | some (.file content) => some content
  | _ => none

def assign (place : Place) (e : Entry) : List (Place × Entry) → List (Place × Entry)
  | [] => [(place, e)]
  | (p, old) :: rest => if p = place then (p, e) :: rest else (p, old) :: assign place e rest

def set (fs : FileSystem) (place : Place) (e : Entry) : FileSystem :=
  { fs with entries := assign place e fs.entries }

def erase (fs : FileSystem) (place : Place) : FileSystem :=
  { fs with entries := fs.entries.filter (·.1 != place) }

/-- A file system that holds its working directory alone, on a device that never gives up. -/
def empty (working : Place) : FileSystem where
  entries := (List.range working.length).map fun n => (working.take (n + 1), .directory)
  working := working

/-! ## Paths -/

/-- The names of a path; an empty name leads nowhere. -/
def names (path : String) : List String :=
  ((Text.splitAll '/' path.toList).map String.ofList).filter (· != "")

def isAbsolute (path : String) : Bool := path.toList.head? == some '/'

def endsAsDirectory (path : String) : Bool := path.toList.getLast? == some '/'

def holdsNul (path : String) : Bool := path.toList.contains '\x00'

/-- The place one step on; a dot stays and two dots go back. -/
def step (place : Place) (name : String) : Place :=
  if name = "." then place
  else if name = ".." then place.dropLast
  else place ++ [name]

def longestName : Nat := 255

def longestPath : Nat := 4095

/-- One step along a path; only directories can be stepped through. -/
def enter (fs : FileSystem) (place : Place) (name : String) : Except Problem Place :=
  if holdsNul name then .error .notPath
  else
    match fs.entry? place with
    | some .directory =>
        if longestName < name.utf8ByteSize then .error .nameTooLong else .ok (step place name)
    | some (.file _) => .error .notDirectory
    | none => .error .notFound

def start (fs : FileSystem) (path : String) : Place := if isAbsolute path then [] else fs.working

/-- The place of a path; there need not be an entry. -/
def locate (fs : FileSystem) (path : String) : Except Problem Place :=
  if path.isEmpty then .error .notFound
  else if holdsNul path then .error .notPath
  else if longestPath < path.utf8ByteSize then .error .nameTooLong
  else do
    let place ← (names path).foldlM fs.enter (fs.start path)
    match fs.entry? place with
    | some (.file _) => if endsAsDirectory path then .error .notDirectory else return place
    | _ => return place

/-! ## Operations -/

def exists? (fs : FileSystem) (path : String) : Bool :=
  match fs.locate path with
  | .ok place => (fs.entry? place).isSome
  | .error _ => false

def read (fs : FileSystem) (path : String) : Except Problem ByteArray := do
  let place ← fs.locate path
  match fs.entry? place with
  | some (.file content) => return content
  | some .directory => .error .isDirectory
  | none => .error .notFound

/-- The place of a file that can be written, in a directory that exists. -/
def opened (fs : FileSystem) (path : String) : Except Problem Place := do
  let place ← fs.locate path
  match fs.entry? place with
  | some .directory => .error .isDirectory
  | some (.file _) => return place
  | none => if endsAsDirectory path then .error .isDirectory else return place

/-- Fills an emptied file; a device that gives up has taken the first bytes of the content. -/
def fill (fs : FileSystem) (place : Place) (content : ByteArray) : FileSystem × Option Problem :=
  match fs.breaksAfter place content with
  | none => (fs.set place (.file content), none)
  | some taken => (fs.set place (.file (content.extract 0 taken)), some .brokenOff)

/-- Replaces or makes a file. What the file held is lost even if the device gives up. -/
def write (fs : FileSystem) (path : String) (content : ByteArray) :
    FileSystem × Option Problem :=
  match fs.opened path with
  | .error problem => (fs, some problem)
  | .ok place => fs.fill place content

/-- Makes the missing directories along a path; those made before a failure stay. Below a directory
that had to be made, dots at the end of the path are taken for granted, even after a file. -/
def makeAlong (fs : FileSystem) (place : Place) (made : Bool) :
    List String → FileSystem × Option Problem
  | [] => (fs, none)
  | name :: rest =>
      match fs.enter place name with
      | .error problem => (fs, some problem)
      | .ok next =>
          match fs.entry? next with
          | none => makeAlong (fs.set next .directory) next true rest
          | some .directory => makeAlong fs next made rest
          | some (.file _) =>
              if rest.isEmpty then (fs, some .alreadyExists)
              else if made && rest.all (· == ".") then (fs, none)
              else makeAlong fs next made rest

def makeDirectories (fs : FileSystem) (path : String) : FileSystem × Option Problem :=
  if path.isEmpty then (fs, some .notFound)
  else
    match fs.makeAlong (fs.start path) false (names path) with
    | (fs, some problem) => (fs, some problem)
    | (fs, none) =>
        if longestPath < path.utf8ByteSize then (fs, some .nameTooLong) else (fs, none)

def remove (fs : FileSystem) (path : String) : Except Problem FileSystem := do
  let place ← fs.locate path
  match fs.entry? place with
  | some (.file _) => return fs.erase place
  | some .directory => .error .isDirectory
  | none => .error .notFound

/-- The directory part of a path, empty if there is none. -/
def parent (path : String) : String :=
  String.ofList ((path.toList.reverse.dropWhile (· != '/')).dropWhile (· == '/')).reverse

/-- Writes a file after making the directories above it, which stay if the writing fails. -/
def put (fs : FileSystem) (path : String) (content : ByteArray) :
    FileSystem × Option Problem :=
  let above := parent path
  let (fs, problem) := if above.isEmpty then (fs, none) else fs.makeDirectories above
  match problem with
  | some problem => (fs, some problem)
  | none => fs.write path content

/-! ## Texts as paths -/

/-- The halves from U+DC80 to U+DCFF stand for the bytes from 80 to FF, and no others for any. -/
def pointBytes? : Point → Option (List UInt8)
  | .char c => some (String.utf8EncodeChar c)
  | p => if 0xDC80 ≤ p.code && p.code ≤ 0xDCFF then some [UInt8.ofNat (p.code - 0xDC00)] else none

/-- The path that a text spells, unless its bytes are not UTF-8. -/
def pathOf? (t : Text) : Option String := do
  let bytes ← t.mapM pointBytes?
  String.fromUTF8? ⟨bytes.flatten.toArray⟩

end FileSystem
end QuocNgu
