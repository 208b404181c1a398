import QuocNgu.Text.Lowercase

/-!
# Letter — Vietnamese letters as base, mark and tone

* `Base`, `Mark`, `Tone` : the three coordinates of a letter
* `Letter`               : a base letter in one case with a mark and a tone that it takes
* `toChar`, `ofChar?`    : letters and their precomposed characters, each other's inverse
* `withTone`, `withMark` : edits of one coordinate, without effect where the base does not take it

Every vowel takes all six tones with each of its marks; `d` takes the dash and no tone but the plain
one. Characters that are no such letter pass through every edit unchanged.
-/

namespace QuocNgu

/-! ## Coordinates -/

inductive Base where
  | a
  | e
  | i
  | o
  | u
  | y
  | d
  deriving DecidableEq, Repr

inductive Mark where
  | plain
  | hat
  | breve
  | horn
  | dash
  deriving DecidableEq, Repr

inductive Tone where
  | level
  | grave
  | acute
  | hook
  | tilde
  | dot
  deriving DecidableEq, Repr

namespace Mark

def all : List Mark := [plain, hat, breve, horn, dash]

def code : Mark → Int
  | plain => 0
  | hat => 1
  | breve => 2
  | horn => 3
  | dash => 4

/-- The code of the edit that takes every mark away. -/
def rawCode : Int := 5

/-- The mark that an edit with this code asks for. -/
def ofCode? (code : Int) : Option Mark :=
  if code = rawCode then some plain else all.find? (·.code = code)

theorem mem_all (m : Mark) : m ∈ all := by
  cases m <;> decide

theorem ofCode?_code (m : Mark) : ofCode? m.code = some m := by
  cases m <;> rfl

def codeName? (code : Int) : Option String :=
  match code with
  | 0 => some "NONE"
  | 1 => some "HAT"
  | 2 => some "BREVE"
  | 3 => some "HORN"
  | 4 => some "DASH"
  | 5 => some "RAW"
  | _ => none

end Mark

namespace Tone

def all : List Tone := [level, grave, acute, hook, tilde, dot]

def index : Tone → Nat
  | level => 0
  | grave => 1
  | acute => 2
  | hook => 3
  | tilde => 4
  | dot => 5

def code (t : Tone) : Int := t.index

def ofCode? (code : Int) : Option Tone := all.find? (·.code = code)

theorem mem_all (t : Tone) : t ∈ all := by
  cases t <;> decide

theorem ofCode?_code (t : Tone) : ofCode? t.code = some t := by
  cases t <;> rfl

def codeName? (code : Int) : Option String :=
  match code with
  | 0 => some "NONE"
  | 1 => some "GRAVE"
  | 2 => some "ACUTE"
  | 3 => some "HOOK"
  | 4 => some "TILDE"
  | 5 => some "DOT"
  | _ => none

end Tone

namespace Base

def all : List Base := [a, e, i, o, u, y, d]

theorem mem_all (b : Base) : b ∈ all := by
  cases b <;> decide

def marks : Base → List Mark
  | a => [.plain, .hat, .breve]
  | e => [.plain, .hat]
  | i => [.plain]
  | o => [.plain, .hat, .horn]
  | u => [.plain, .horn]
  | y => [.plain]
  | d => [.plain, .dash]

def tones : Base → List Tone
  | d => [.level]
  | _ => Tone.all

def admits (b : Base) (m : Mark) (t : Tone) : Bool :=
  b.marks.contains m && b.tones.contains t

def isVowel (b : Base) : Bool := b != d

/-- The lower-case characters with a mark, in the order of the tones. -/
def lowerRow : Base → Mark → List Char
  | a, .plain => ['a', 'à', 'á', 'ả', 'ã', 'ạ']
  | a, .hat => ['â', 'ầ', 'ấ', 'ẩ', 'ẫ', 'ậ']
  | a, .breve => ['ă', 'ằ', 'ắ', 'ẳ', 'ẵ', 'ặ']
  | e, .plain => ['e', 'è', 'é', 'ẻ', 'ẽ', 'ẹ']
  | e, .hat => ['ê', 'ề', 'ế', 'ể', 'ễ', 'ệ']
  | i, .plain => ['i', 'ì', 'í', 'ỉ', 'ĩ', 'ị']
  | o, .plain => ['o', 'ò', 'ó', 'ỏ', 'õ', 'ọ']
  | o, .hat => ['ô', 'ồ', 'ố', 'ổ', 'ỗ', 'ộ']
  | o, .horn => ['ơ', 'ờ', 'ớ', 'ở', 'ỡ', 'ợ']
  | u, .plain => ['u', 'ù', 'ú', 'ủ', 'ũ', 'ụ']
  | u, .horn => ['ư', 'ừ', 'ứ', 'ử', 'ữ', 'ự']
  | y, .plain => ['y', 'ỳ', 'ý', 'ỷ', 'ỹ', 'ỵ']
  | d, .plain => ['d']
  | d, .dash => ['đ']
  | _, _ => []

def upperRow : Base → Mark → List Char
  | a, .plain => ['A', 'À', 'Á', 'Ả', 'Ã', 'Ạ']
  | a, .hat => ['Â', 'Ầ', 'Ấ', 'Ẩ', 'Ẫ', 'Ậ']
  | a, .breve => ['Ă', 'Ằ', 'Ắ', 'Ẳ', 'Ẵ', 'Ặ']
  | e, .plain => ['E', 'È', 'É', 'Ẻ', 'Ẽ', 'Ẹ']
  | e, .hat => ['Ê', 'Ề', 'Ế', 'Ể', 'Ễ', 'Ệ']
  | i, .plain => ['I', 'Ì', 'Í', 'Ỉ', 'Ĩ', 'Ị']
  | o, .plain => ['O', 'Ò', 'Ó', 'Ỏ', 'Õ', 'Ọ']
  | o, .hat => ['Ô', 'Ồ', 'Ố', 'Ổ', 'Ỗ', 'Ộ']
  | o, .horn => ['Ơ', 'Ờ', 'Ớ', 'Ở', 'Ỡ', 'Ợ']
  | u, .plain => ['U', 'Ù', 'Ú', 'Ủ', 'Ũ', 'Ụ']
  | u, .horn => ['Ư', 'Ừ', 'Ứ', 'Ử', 'Ữ', 'Ự']
  | y, .plain => ['Y', 'Ỳ', 'Ý', 'Ỷ', 'Ỹ', 'Ỵ']
  | d, .plain => ['D']
  | d, .dash => ['Đ']
  | _, _ => []

end Base

/-! ## Letters -/

@[ext]
structure Letter where
  base : Base
  upper : Bool
  mark : Mark
  tone : Tone
  admitted : base.admits mark tone = true
  deriving DecidableEq

namespace Letter

def row (l : Letter) : List Char :=
  if l.upper then l.base.upperRow l.mark else l.base.lowerRow l.mark

def toChar (l : Letter) : Char := l.row.getD l.tone.index 'a'

def make? (base : Base) (upper : Bool) (mark : Mark) (tone : Tone) : Option Letter :=
  if h : base.admits mark tone = true then some ⟨base, upper, mark, tone, h⟩ else none

def all : List Letter :=
  Base.all.flatMap fun b =>
    [false, true].flatMap fun upper =>
      Mark.all.flatMap fun m =>
        Tone.all.filterMap fun t => make? b upper m t

theorem mem_all (l : Letter) : l ∈ all := by
  refine List.mem_flatMap.2 ⟨l.base, l.base.mem_all, List.mem_flatMap.2 ⟨l.upper, ?_, ?_⟩⟩
  · cases l.upper <;> simp
  · exact List.mem_flatMap.2 ⟨l.mark, l.mark.mem_all,
      List.mem_filterMap.2 ⟨l.tone, l.tone.mem_all, by simp [make?, l.admitted]⟩⟩

/-- Every letter beside its character. -/
def glyphs : List (Char × Letter) := all.map fun l => (l.toChar, l)

def ofChar? (c : Char) : Option Letter := (glyphs.find? (·.1 == c)).map (·.2)

theorem ofChar?_toChar (l : Letter) : ofChar? l.toChar = some l := by
  have look : ∀ l ∈ all, ofChar? l.toChar = some l := by decide +kernel
  exact look l l.mem_all

theorem toChar_of_ofChar? {c : Char} {l : Letter} (h : ofChar? c = some l) : l.toChar = c := by
  obtain ⟨g, found, rfl⟩ := Option.map_eq_some_iff.1 h
  have spelled := List.find?_some found
  obtain ⟨m, -, rfl⟩ := List.mem_map.1 (List.mem_of_find?_eq_some found)
  simpa using spelled

def ofPoint? : Point → Option Letter
  | .char c => ofChar? c
  | .half _ => none

/-- The letter that a text of one character spells. -/
def ofText? : Text → Option Letter
  | [p] => ofPoint? p
  | _ => none

def toText (l : Letter) : Text := [.char l.toChar]

/-! ## Edits -/

def withTone (l : Letter) (t : Tone) : Letter :=
  if h : l.base.admits l.mark t = true then ⟨l.base, l.upper, l.mark, t, h⟩ else l

def withMark (l : Letter) (m : Mark) : Letter :=
  if h : l.base.admits m l.tone = true then ⟨l.base, l.upper, m, l.tone, h⟩ else l

/-- The letter without its mark and its tone. -/
def bare (l : Letter) : Letter := (l.withMark .plain).withTone .level

/-! ## Edits of code points and texts -/

/-- Applies an edit to a code point that is a letter. -/
def onPoint (edit : Letter → Letter) (p : Point) : Point :=
  match ofPoint? p with
  | some l => .char (edit l).toChar
  | none => p

/-- Applies an edit to a text that is one letter. -/
def onText (edit : Letter → Letter) (t : Text) : Text :=
  match ofText? t with
  | some l => (edit l).toText
  | none => t

def untoned (p : Point) : Point := onPoint (·.withTone .level) p

def unmarked (p : Point) : Point := onPoint (·.withMark .plain) p

def stripped (p : Point) : Point := onPoint bare p

/-- A tone code outside the six leaves the text as it is. -/
def setTone (t : Text) (code : Int) : Text :=
  match Tone.ofCode? code with
  | some tone => onText (·.withTone tone) t
  | none => t

def setMark (t : Text) (code : Int) : Text :=
  match Mark.ofCode? code with
  | some m => onText (·.withMark m) t
  | none => t

def stripTones (word : Text) : Text := word.map untoned

def strip (word : Text) : Text := word.map stripped

/-! ## Questions -/

def isVowel (t : Text) : Bool := (ofText? t).any (·.base.isVowel)

def toneOf (t : Text) : Tone := ((ofText? t).map (·.tone)).getD .level

def markOf (t : Text) : Mark := ((ofText? t).map (·.mark)).getD .plain

/-- The mark that turns one letter into another with the same base, whatever their case and tone. -/
def markBetween? (source target : Text) : Option Mark :=
  match ofText? source.lower, ofText? target.lower with
  | some s, some t => if s.base = t.base && s.upper = t.upper then some t.mark else none
  | _, _ => none

end Letter
end QuocNgu
