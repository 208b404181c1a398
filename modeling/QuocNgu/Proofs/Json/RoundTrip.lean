import QuocNgu.Proofs.Json.Parsing
import QuocNgu.Proofs.Json.Stored

/-!
# Proofs.Json.RoundTrip — stored values read back

* `quoted_escapes`     : a text is written between quotes, with escapes
* `Numeral.ofInt`      : an integer is written as a number
* `written_laidItems`, `written_laidFields` : the lines between brackets are elements or members
* `Plain.written_laid` : wherever a plain value stands, it is written as the grammar says
* `read_stored`        : reading what was stored gives the value that was stored
* `read_long`          : an integer with too many digits is no document

Nothing here reads: what is laid out follows the grammar, and the reader reads what does.
-/

namespace QuocNgu
namespace Json

/-! ## Texts -/

/-- A control character is escaped with four hexadecimal digits, which stand for it. -/
theorem hexDigits_control : ∀ n < 0x20,
    (Text.hexDigits 4 n).length = 4 ∧ hexCode? (Text.hexDigits 4 n) = some n := by
  decide

theorem Units.cons_escape {units : List Nat} {cs : List Char} (hunits : Units units cs)
    (c : Char) : Units (c.toNat :: units) (escape c ++ cs) := by
  unfold escape
  split
  · exact .mark rfl hunits
  · exact .mark rfl hunits
  · exact .mark rfl hunits
  · exact .mark rfl hunits
  · exact .mark rfl hunits
  · exact .mark rfl hunits
  · exact .mark rfl hunits
  · next hquote hslash _ _ _ _ _ =>
      split
      · next hcontrol =>
          rcases hexDigits_control c.toNat hcontrol with ⟨hlength, hcode⟩
          rcases List.length_eq_four.1 hlength with ⟨p, q, r, s, hdigits⟩
          rw [hdigits] at hcode ⊢
          exact .code hcode hunits
      · next hcontrol => exact .plain hcontrol hquote hslash hunits

theorem units_escapes (cs : List Char) : Units (cs.map Char.toNat) (cs.flatMap escape) := by
  induction cs with
  | nil => exact .nil
  | cons c cs ih => exact ih.cons_escape c

theorem quoted_escapes (d : Dialect) (cs : List Char) :
    Quoted d (cs.map .char) ('"' :: (cs.flatMap escape ++ ['"'])) :=
  .quoted (units_escapes cs) (joins_toNat d cs)

theorem chars_writeText (s : String) :
    (writeText (Text.ofString s)).chars = '"' :: (s.toList.flatMap escape ++ ['"']) := by
  have hescapes : Text.chars ((Text.ofString s).flatMap escapePoint) = s.toList.flatMap escape := by
    simp [Text.ofString, Text.chars, List.flatMap_map, List.filterMap_flatMap, escapePoint,
      List.filterMap_map, Function.comp_def, Point.char?]
  rw [writeText, Text.chars_append, Text.chars_append, hescapes]
  rfl

theorem quoted_writeText (d : Dialect) (s : String) :
    Quoted d (Text.ofString s) (writeText (Text.ofString s)).chars := by
  rw [chars_writeText]
  exact quoted_escapes d s.toList

/-! ## Integers -/

theorem digitsValue_toDigits (n : Nat) : digitsValue (Nat.toDigits 10 n) = n :=
  Nat.ofDigitChars_toDigits (by decide) (by decide)

theorem isDigit_of_mem_toDigits {n : Nat} {c : Char} (hc : c ∈ Nat.toDigits 10 n) :
    isDigit c = true :=
  Nat.isDigit_of_mem_toDigits (by decide) (by decide) hc

/-- Only the number zero starts with a zero. -/
theorem exists_toDigits_cons {n : Nat} (hn : 0 < n) :
    ∃ c ds, Nat.toDigits 10 n = c :: ds ∧ c ≠ '0' := by
  induction n using Nat.strongRecOn with
  | ind n ih =>
      by_cases hsmall : n < 10
      · have hdigit : ∀ m < 10, 0 < m → m.digitChar ≠ '0' := by
          decide
        exact ⟨n.digitChar, [], Nat.toDigits_of_lt_base hsmall, hdigit n hsmall hn⟩
      · have hless : n / 10 < n := by
          omega
        have hpositive : 0 < n / 10 := by
          omega
        rcases ih (n / 10) hless hpositive with ⟨c, ds, hdigits, hc⟩
        have happend :
            Nat.toDigits 10 (n / 10) ++ Nat.toDigits 10 (n % 10) = Nat.toDigits 10 n := by
          rw [Nat.toDigits_append_toDigits (by decide) hpositive (by omega), Nat.div_add_mod]
        rw [hdigits] at happend
        exact ⟨c, ds ++ Nat.toDigits 10 (n % 10), happend.symm, hc⟩

namespace Numeral

/-- A number that is nothing but digits. -/
def ofDigits (negative : Bool) (ds : List Char) : Numeral := ⟨negative, ds, [], none⟩

theorem regular_ofDigits {negative : Bool} {ds : List Char} (hne : ds ≠ [])
    (hds : ∀ c ∈ ds, isDigit c = true) (hzero : ds.head? = some '0' → ds = ['0']) :
    (ofDigits negative ds).Regular :=
  ⟨hne, hds, hzero, by simp [ofDigits], by simp [ofDigits]⟩

def ofInt (n : Int) : Numeral := ofDigits (n < 0) (Nat.toDigits 10 n.natAbs)

theorem regular_ofInt (n : Int) : (ofInt n).Regular := by
  refine regular_ofDigits Nat.toDigits_ne_nil (fun _ => isDigit_of_mem_toDigits) fun hhead => ?_
  rcases Nat.eq_zero_or_pos n.natAbs with hzero | hpositive
  · rw [hzero]
    rfl
  · rcases exists_toDigits_cons hpositive with ⟨c, ds, hdigits, hc⟩
    rw [hdigits] at hhead
    exact absurd (Option.some.inj hhead) hc

theorem chars_ofInt (n : Int) : (ofInt n).chars = (toString n).toList := by
  cases n with
  | ofNat n =>
      have hsign : ¬Int.ofNat n < 0 := Int.not_lt.2 (Int.natCast_nonneg n)
      have hwritten : (toString (Int.ofNat n)).toList = Nat.toDigits 10 n := String.toList_ofList
      rw [hwritten]
      simp [ofInt, ofDigits, chars, signChars, fractionChars, pointed, exponentChars]
  | negSucc n =>
      have hwritten : (toString (Int.negSucc n)).toList = '-' :: Nat.toDigits 10 (n + 1) := by
        change ("-" ++ String.ofList (Nat.toDigits 10 (n + 1))).toList = _
        simp only [String.toList_append, String.toList_ofList, String.reduceToList,
          List.cons_append, List.nil_append]
      rw [hwritten]
      simp [ofInt, ofDigits, chars, signChars, fractionChars, pointed, exponentChars]

theorem toInt_ofInt (n : Int) : (ofInt n).toInt = n := by
  have hsigned : (if n < 0 then -(n.natAbs : Int) else n.natAbs) = n := by
    split <;> omega
  simp only [toInt, ofInt, ofDigits, decide_eq_true_eq, digitsValue_toDigits]
  exact hsigned

theorem value_ofInt (n : Int) : (ofInt n).value = .integer n := by
  have hinteger : (ofInt n).isInteger = true := rfl
  rw [value, if_pos hinteger, toInt_ofInt]

theorem fits_ofInt {n : Int} (hn : (Nat.toDigits 10 n.natAbs).length ≤ 4300) :
    (ofInt n).Fits lenient := by
  have hmost : ∀ m ∈ lenient.maxDigits, (Nat.toDigits 10 n.natAbs).length ≤ m := by
    rintro m ⟨⟩
    exact hn
  exact ⟨hmost, Or.inl rfl⟩

end Numeral

/-! ## Lines -/

theorem chars_newline (level : Nat) :
    (newline level).chars = '\n' :: List.replicate (2 * level) ' ' := by
  have hmap : newline level = ('\n' :: List.replicate (2 * level) ' ').map .char := by
    simp [newline]
  rw [hmap, Text.chars_map_char]

theorem spaces_newline (level : Nat) : Spaces (newline level).chars := by
  rw [chars_newline]
  intro c hc
  rcases List.mem_cons.1 hc with rfl | hc
  · rfl
  · rw [List.eq_of_mem_replicate hc]
    rfl

theorem spaces_nil : Spaces [] := fun c hc => by cases hc

section Lines

variable {level outer depth : Nat}

theorem chars_laidItems_singleton (item : Value) :
    (laidItems level [item]).chars = (newline level).chars ++ (laid level item).chars := by
  rw [laidItems_singleton, Text.chars_append]

theorem chars_laidItems_cons_cons (item next : Value) (items : List Value) :
    (laidItems level (item :: next :: items)).chars =
      (newline level).chars ++
        ((laid level item).chars ++ ',' :: (laidItems level (next :: items)).chars) := by
  rw [laidItems_cons_cons, Text.chars_append, Text.chars_append, List.append_assoc]
  rfl

/-- By induction on the items: each stands on a line of its own, up to a comma or the last line. -/
theorem written_laidItems {items : List Value}
    (hitems : ∀ item ∈ items, Written lenient depth (.value item) (laid level item).chars)
    (hne : items ≠ []) (outer : Nat) :
    Written lenient depth (.elements items)
      ((laidItems level items).chars ++ (newline outer).chars) := by
  induction items with
  | nil => exact absurd rfl hne
  | cons item more ih =>
      rcases List.forall_mem_cons.1 hitems with ⟨hitem, hmore⟩
      cases more with
      | nil =>
          -- The line end before the bracket is space behind the last item.
          rw [chars_laidItems_singleton, List.append_assoc]
          exact .oneElement (.element (spaces_newline level) hitem (spaces_newline outer))
      | cons next more =>
          -- The comma stands right behind the item.
          have hfirst : Written lenient depth (.element item)
              ((newline level).chars ++ ((laid level item).chars ++ [])) :=
            .element (spaces_newline level) hitem spaces_nil
          rw [List.append_nil] at hfirst
          have hwritten := Written.moreElements hfirst (ih hmore (List.cons_ne_nil next more))
          simpa [chars_laidItems_cons_cons] using hwritten

theorem chars_laidFields_singleton (k : Text) (v : Value) :
    (laidFields level [(k, v)]).chars =
      (newline level).chars ++ ((writeText k).chars ++ ':' :: ' ' :: (laid level v).chars) := by
  have hcolon : Text.chars (Text.ofString ": ") = [':', ' '] := rfl
  simp [laidFields_singleton, hcolon]

theorem chars_laidFields_cons_cons (k : Text) (v : Value) (next : Text × Value)
    (fields : List (Text × Value)) :
    (laidFields level ((k, v) :: next :: fields)).chars =
      (newline level).chars ++ ((writeText k).chars ++ ':' :: ' ' :: ((laid level v).chars ++
          ',' :: (laidFields level (next :: fields)).chars)) := by
  have hcolon : Text.chars (Text.ofString ": ") = [':', ' '] := rfl
  have hcomma : Text.chars (Text.ofString ",") = [','] := rfl
  simp [laidFields_cons_cons, hcolon, hcomma]

/-- A field on a line of its own, with the space that follows it. -/
theorem written_field {v : Value} (hv : Written lenient depth (.value v) (laid level v).chars)
    (s : String) {space : List Char} (hspace : Spaces space) :
    Written lenient depth (.member (Text.ofString s) v)
      ((newline level).chars ++ ((writeText (Text.ofString s)).chars ++
        ([] ++ ':' :: ([' '] ++ ((laid level v).chars ++ space))))) := by
  have hblank : Spaces [' '] := by
    rintro c hc
    rw [List.mem_singleton.1 hc]
    rfl
  exact .member (spaces_newline level) (quoted_writeText lenient s) spaces_nil
    (.element hblank hv hspace)

theorem written_laidFields {fields : List (Text × Value)}
    (hkeys : ∀ field ∈ fields, ∃ s, field.1 = Text.ofString s)
    (hvalues : ∀ field ∈ fields, Written lenient depth (.value field.2) (laid level field.2).chars)
    (hne : fields ≠ []) (outer : Nat) :
    Written lenient depth (.members fields)
      ((laidFields level fields).chars ++ (newline outer).chars) := by
  induction fields with
  | nil => exact absurd rfl hne
  | cons field more ih =>
      rcases field with ⟨key, v⟩
      rcases List.forall_mem_cons.1 hkeys with ⟨⟨s, hkey⟩, hmoreKeys⟩
      rcases List.forall_mem_cons.1 hvalues with ⟨hv, hmoreValues⟩
      dsimp only at hkey hv
      subst hkey
      cases more with
      | nil =>
          have hwritten := Written.oneMember (written_field hv s (spaces_newline outer))
          simpa [chars_laidFields_singleton] using hwritten
      | cons next more =>
          have hwritten := Written.moreMembers (written_field hv s spaces_nil)
            (ih hmoreKeys hmoreValues (List.cons_ne_nil next more))
          simpa [chars_laidFields_cons_cons] using hwritten

theorem chars_laid_list (item : Value) (items : List Value) :
    (laid level (.list (item :: items))).chars =
      '[' :: ((laidItems (level + 1) (item :: items)).chars ++ (newline level).chars ++ [']']) := by
  rw [laid_list, Text.chars_append, Text.chars_append, Text.chars_append]
  rfl

theorem chars_laid_object (field : Text × Value) (fields : List (Text × Value)) :
    (laid level (.object (field :: fields))).chars =
      '\x7b' :: ((laidFields (level + 1) (field :: fields)).chars ++ (newline level).chars ++
        ['\x7d']) := by
  rw [laid_object, Text.chars_append, Text.chars_append, Text.chars_append]
  rfl

end Lines

/-! ## Values -/

theorem assignField_new {key : Text} {fields : List (Text × Value)}
    (hkey : key ∉ fields.map Prod.fst) (v : Value) :
    Value.assignField key v fields = fields ++ [(key, v)] := by
  induction fields with
  | nil => rfl
  | cons field rest ih =>
      rw [List.map_cons, List.mem_cons, not_or] at hkey
      have hne : (field.1 == key) = false := beq_false_of_ne (Ne.symm hkey.1)
      have hrest : Value.assign (· == ·) key v rest = rest ++ [(key, v)] := ih hkey.2
      rw [Value.assignField, Value.assign, hne, if_neg Bool.false_ne_true, hrest]
      rfl

/-- Keys that are new when they are assigned go to the end of those that were there before. -/
theorem assignAll_of_nodup {entries earlier : List (Text × Value)}
    (hdistinct : ((earlier ++ entries).map Prod.fst).Nodup) :
    assignAll earlier entries = earlier ++ entries := by
  induction entries generalizing earlier with
  | nil => exact (List.append_nil earlier).symm
  | cons entry entries ih =>
      have hnew : entry.1 ∉ earlier.map Prod.fst := by
        rw [List.map_append, List.nodup_append] at hdistinct
        intro hmem
        exact hdistinct.2.2 _ hmem _ List.mem_cons_self rfl
      have happend : earlier ++ entry :: entries = earlier ++ [entry] ++ entries :=
        List.append_cons earlier entry entries
      rw [happend] at hdistinct ⊢
      have hassign : assignAll earlier (entry :: entries) =
          assignAll (Value.assignField entry.1 entry.2 earlier) entries := rfl
      rw [hassign, assignField_new hnew]
      exact ih hdistinct

theorem nests_lenient (depth : Nat) : Nests lenient depth := fun most hmost => by cases hmost

/-- By induction on how a plain value is made; a list or a mapping goes line by line. -/
theorem Plain.written_laid {v : Value} (hv : Plain v) (level depth : Nat) :
    Written lenient depth (.value v) (laid level v).chars := by
  induction hv generalizing level depth with
  | null =>
      have hchars : (laid level .null).chars = ['n', 'u', 'l', 'l'] := rfl
      exact .word (by simp [hchars, words])
  | boolean b =>
      cases b with
      | false =>
          have hchars : (laid level (.boolean false)).chars = ['f', 'a', 'l', 's', 'e'] := rfl
          exact .word (by simp [hchars, words])
      | true =>
          have hchars : (laid level (.boolean true)).chars = ['t', 'r', 'u', 'e'] := rfl
          exact .word (by simp [hchars, words])
  | integer n hn =>
      have hchars : (laid level (.integer n)).chars = (Numeral.ofInt n).chars := by
        rw [laid_of_isKey rfl, Numeral.chars_ofInt]
        exact Text.chars_map_char _
      rw [hchars, ← Numeral.value_ofInt n]
      exact .number (Numeral.regular_ofInt n) (Numeral.fits_ofInt hn)
  | text s =>
      rw [laid_of_isKey rfl, writeScalar]
      exact .text (quoted_writeText lenient s)
  | list items hitems ih =>
      cases items with
      | nil => exact .emptyList (nests_lenient _) spaces_nil
      | cons item more =>
          have hlines := written_laidItems
            (fun item' hitem' => ih item' hitem' (level + 1) (depth + 1))
            (List.cons_ne_nil item more) level
          rw [chars_laid_list]
          exact .list (nests_lenient _) hlines
  | object fields hkeys hdistinct hvalues ih =>
      cases fields with
      | nil => exact .emptyObject (nests_lenient _) spaces_nil
      | cons field more =>
          have hlines := written_laidFields hkeys
            (fun field' hfield' => ih field' hfield' (level + 1) (depth + 1))
            (List.cons_ne_nil field more) level
          -- Each key stands once, so assigning the members in turn gives them as they are.
          have hobject := Written.object (nests_lenient _) hlines
          rw [assignAll_of_nodup hdistinct, List.nil_append] at hobject
          rw [chars_laid_object]
          exact hobject

/-! ## Documents -/

/-- Reading what was stored gives the value that was stored. -/
theorem read_stored {v : Value} (hv : Plain v) : read lenient (stored v).1 = .ok v := by
  rw [stored_plain hv, read_eq_ok_iff, Document, String.toList_ofList]
  exact (hv.written_laid 0 0).bare

/-- An integer on its own is a document, but not with more digits than a reader accepts. -/
theorem read_long {c : Char} {ds : List Char} (hc : isDigit c = true) (hzero : c ≠ '0')
    (hds : ∀ d ∈ ds, isDigit d = true) (hlong : 4300 < (c :: ds).length) :
    read lenient (String.ofList (c :: ds)) = .error .longInteger := by
  have hregular : (Numeral.ofDigits false (c :: ds)).Regular := by
    refine Numeral.regular_ofDigits (List.cons_ne_nil c ds) (List.forall_mem_cons.2 ⟨hc, hds⟩) ?_
    exact fun hhead => absurd (Option.some.inj hhead) hzero
  have hchars : (Numeral.ofDigits false (c :: ds)).chars = c :: ds := by
    simp [Numeral.ofDigits, Numeral.chars, Numeral.signChars, Numeral.fractionChars, pointed,
      Numeral.exponentChars]
  have hread : (Numeral.ofDigits false (c :: ds)).read lenient = .error .longInteger :=
    if_pos (decide_eq_true hlong)
  have hscalar : readScalar lenient (c :: ds) = .error .longInteger := by
    have hnumber := readScalar_numeral (d := lenient) hregular []
    rw [readNumber_append hregular (fun c hc => by cases hc), hread, hchars, List.append_nil]
      at hnumber
    exact hnumber
  have hstart : c ≠ '"' ∧ c ≠ '[' ∧ c ≠ '\x7b' :=
    ⟨ne_of_isDigit hc rfl, ne_of_isDigit hc rfl, ne_of_isDigit hc rfl⟩
  rw [read, String.toList_ofList, readChars, readValue_scalar (isSpace_of_isDigit hc) hstart,
    hscalar]
  rfl

end Json
end QuocNgu
