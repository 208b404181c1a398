import QuocNgu.Proofs.Json.Tokens

/-!
# Proofs.Json.Parsing — the reader reads what is written, and nothing else

* `readsAs_of_written` : whatever is written in a form is read as that form
* `sound`              : whatever is read was written
* `read_eq_ok_iff`     : the values of a text are those that it is a document of
* `Document.unique`    : a text is a document of one value at most
* `Document.toStrict`  : within its limits the strict reader gives what the standard says

Reading a value leaves what follows it, so both directions speak of a run of characters with a rest
behind it. Every character is worth two units of fuel.
-/

namespace QuocNgu
namespace Json

/-! ## Space -/

theorem exists_space (cs : List Char) : ∃ space, Spaces space ∧ cs = space ++ skipSpace cs :=
  ⟨cs.takeWhile isSpace, fun _ hc => List.mem_takeWhile_imp hc,
    List.takeWhile_append_dropWhile.symm⟩

theorem exists_space_of_skipSpace {cs rest : List Char} (h : skipSpace cs = rest) :
    ∃ space, Spaces space ∧ cs = space ++ rest := by
  rw [← h]
  exact exists_space cs

theorem Spaces.stops_append {space rest : List Char} (hspace : Spaces space) (hrest : Stops rest) :
    Stops (space ++ rest) := by
  cases space with
  | nil => exact hrest
  | cons c space =>
      intro c' hc'
      cases hc'
      exact Or.inl (hspace c List.mem_cons_self)

theorem skipSpace_eq_nil_iff {cs : List Char} : skipSpace cs = [] ↔ Spaces cs :=
  List.dropWhile_eq_nil_iff

theorem tooDeep_eq_false_iff {d : Dialect} {depth : Nat} :
    tooDeep d depth = false ↔ Nests d depth := by
  cases hmost : d.maxDepth <;> simp [tooDeep, Nests, hmost]

/-! ## How what is written starts -/

/-- A scalar that is no text is told apart by how it starts. -/
def StartsScalar (cs : List Char) : Prop :=
  ∃ c after, cs = c :: after ∧ isSpace c = false ∧ c ≠ ']' ∧ c ≠ '"' ∧ c ≠ '[' ∧ c ≠ '\x7b'

section Starts

variable {d : Dialect} {depth : Nat} {cs : List Char}

theorem startsScalar_word {v : Value} (hword : (cs, v) ∈ words d) : StartsScalar cs := by
  have hmem := mem_words_lenient hword
  simp only [words, lenient, if_true, List.cons_append, List.nil_append, List.mem_cons,
    Prod.mk.injEq, List.not_mem_nil, or_false] at hmem
  rcases hmem with ⟨rfl, -⟩ | ⟨rfl, -⟩ | ⟨rfl, -⟩ | ⟨rfl, -⟩ | ⟨rfl, -⟩ | ⟨rfl, -⟩ <;>
    exact ⟨_, _, rfl, by decide⟩

theorem startsScalar_numeral {n : Numeral} (hn : n.Regular) : StartsScalar n.chars := by
  rcases hn.exists_whole with ⟨c, ds, hwhole, hc⟩
  rw [Numeral.chars, Numeral.signChars]
  cases n.negative with
  | true => exact ⟨_, _, rfl, by decide⟩
  | false =>
      rw [hwhole]
      exact ⟨c, _, rfl, isSpace_of_isDigit hc, ne_of_isDigit hc rfl, ne_of_isDigit hc rfl,
        ne_of_isDigit hc rfl, ne_of_isDigit hc rfl⟩

theorem StartsScalar.starts (hcs : StartsScalar cs) : Starts cs := by
  rcases hcs with ⟨c, after, hcs, hspace, hbracket, -⟩
  exact ⟨c, after, hcs, hspace, hbracket⟩

theorem Quoted.exists_eq_cons {t : Text} (ht : Quoted d t cs) : ∃ body, cs = '"' :: body := by
  cases ht with
  | quoted _ _ => exact ⟨_, rfl⟩

theorem Written.starts {v : Value} (hv : Written d depth (.value v) cs) : Starts cs := by
  cases hv with
  | word hword => exact (startsScalar_word hword).starts
  | number hn _ => exact (startsScalar_numeral hn).starts
  | text ht =>
      rcases ht.exists_eq_cons with ⟨body, rfl⟩
      exact ⟨'"', body, rfl, by decide, by decide⟩
  | emptyList _ _ => exact ⟨'[', _, rfl, by decide, by decide⟩
  | list _ _ => exact ⟨'[', _, rfl, by decide, by decide⟩
  | emptyObject _ _ => exact ⟨'\x7b', _, rfl, by decide, by decide⟩
  | object _ _ => exact ⟨'\x7b', _, rfl, by decide, by decide⟩

theorem Written.starts_element {v : Value} (hv : Written d depth (.element v) cs)
    (tail : List Char) : Starts (skipSpace (cs ++ tail)) := by
  cases hv with
  | element hbefore hv hafter =>
      rw [List.append_assoc, List.append_assoc, skipSpace_append hbefore]
      exact hv.starts.skipSpace_append _

theorem Written.starts_elements {vs : List Value} (hvs : Written d depth (.elements vs) cs)
    (tail : List Char) : Starts (skipSpace (cs ++ tail)) := by
  cases hvs with
  | oneElement hv => exact hv.starts_element tail
  | moreElements hv _ =>
      rw [List.append_assoc]
      exact hv.starts_element _

theorem Written.starts_member {key : Text} {v : Value} (hentry : Written d depth (.member key v) cs)
    (tail : List Char) : ∃ quoted, skipSpace (cs ++ tail) = '"' :: quoted := by
  cases hentry with
  | member hbefore hkey _ _ =>
      rcases hkey.exists_eq_cons with ⟨body, rfl⟩
      rw [List.append_assoc, skipSpace_append hbefore]
      exact ⟨_, rfl⟩

theorem Written.starts_members {entries : List (Text × Value)}
    (hentries : Written d depth (.members entries) cs) (tail : List Char) :
    ∃ quoted, skipSpace (cs ++ tail) = '"' :: quoted := by
  cases hentries with
  | oneMember hentry => exact hentry.starts_member tail
  | moreMembers hentry _ =>
      rw [List.append_assoc]
      exact hentry.starts_member _

end Starts

/-! ## What is written is read -/

/-- What a form means to the reader. -/
def ReadsAs (d : Dialect) (depth : Nat) : Form → List Char → Prop
  | .value v, cs => ∀ fuel rest, Stops rest → 2 * cs.length ≤ fuel →
      readValue d fuel depth (cs ++ rest) = .ok (v, rest)
  | .element v, cs => ∀ fuel rest, Stops rest → 2 * cs.length ≤ fuel →
      ∃ rest', readValue d fuel depth (cs ++ rest) = .ok (v, rest') ∧
        skipSpace rest' = skipSpace rest
  | .elements vs, cs => ∀ fuel rest, 2 * cs.length < fuel →
      readItems d fuel depth (cs ++ ']' :: rest) = .ok (vs, rest)
  | .member key v, cs => ∀ fuel rest, Stops rest → 2 * cs.length ≤ fuel →
      ∃ quoted unread colon rest', skipSpace (cs ++ rest) = '"' :: quoted ∧
        readText d quoted = .ok (key, unread) ∧ skipSpace unread = ':' :: colon ∧
        readValue d fuel depth colon = .ok (v, rest') ∧ skipSpace rest' = skipSpace rest
  | .members entries, cs => ∀ fuel rest fields, 2 * cs.length < fuel →
      readFields d fuel depth fields (cs ++ '\x7d' :: rest) =
        .ok (assignAll fields entries, rest)

theorem stops_cons {c : Char} (hc : c = ',' ∨ c = ']' ∨ c = '\x7d') (rest : List Char) :
    Stops (c :: rest) := by
  intro c' hc'
  cases hc'
  exact Or.inr hc

theorem readValue_startsScalar {d : Dialect} {cs : List Char} (hcs : StartsScalar cs)
    (fuel depth : Nat) (rest : List Char) :
    readValue d (fuel + 1) depth (cs ++ rest) = readScalar d (cs ++ rest) := by
  rcases hcs with ⟨c, after, rfl, hspace, -, hc⟩
  exact readValue_scalar hspace hc

theorem readValue_emptyList {d : Dialect} {depth : Nat} (hdepth : Nests d (depth + 1))
    {space : List Char} (hspace : Spaces space) (fuel : Nat) (rest : List Char) :
    readValue d (fuel + 1) depth ('[' :: (space ++ ']' :: rest)) = .ok (.list [], rest) := by
  have hskip : skipSpace ('[' :: (space ++ ']' :: rest)) = '[' :: (space ++ ']' :: rest) := rfl
  have hclose : skipSpace (space ++ ']' :: rest) = ']' :: rest :=
    (skipSpace_append hspace _).trans rfl
  simp [readValue, hskip, tooDeep_eq_false_iff.2 hdepth, hclose]

theorem readValue_emptyObject {d : Dialect} {depth : Nat} (hdepth : Nests d (depth + 1))
    {space : List Char} (hspace : Spaces space) (fuel : Nat) (rest : List Char) :
    readValue d (fuel + 1) depth ('\x7b' :: (space ++ '\x7d' :: rest)) =
      .ok (.object [], rest) := by
  have hskip : skipSpace ('\x7b' :: (space ++ '\x7d' :: rest)) =
      '\x7b' :: (space ++ '\x7d' :: rest) := rfl
  have hclose : skipSpace (space ++ '\x7d' :: rest) = '\x7d' :: rest :=
    (skipSpace_append hspace _).trans rfl
  simp [readValue, hskip, tooDeep_eq_false_iff.2 hdepth, hclose]

/-- By induction on how a form is written; each case reads one part and goes on with the rest. -/
theorem readsAs_of_written {d : Dialect} {depth : Nat} {form : Form} {cs : List Char}
    (hwritten : Written d depth form cs) : ReadsAs d depth form cs := by
  induction hwritten with
  | word hword =>
      intro fuel rest _ hfuel
      -- A word has a first character, so there is fuel for it.
      have hstarts := startsScalar_word hword
      obtain ⟨fuel, rfl⟩ : ∃ n, fuel = n + 1 := by
        rcases hstarts with ⟨c, after, rfl, -⟩
        rw [List.length_cons] at hfuel
        exact Nat.exists_eq_succ_of_ne_zero (by omega)
      rw [readValue_startsScalar hstarts]
      exact readScalar_word hword rest
  | number hn hfits =>
      intro fuel rest hrest hfuel
      have hstarts := startsScalar_numeral hn
      obtain ⟨fuel, rfl⟩ : ∃ n, fuel = n + 1 := by
        rcases hstarts with ⟨c, after, hchars, -⟩
        rw [hchars, List.length_cons] at hfuel
        exact Nat.exists_eq_succ_of_ne_zero (by omega)
      rw [readValue_startsScalar hstarts, readScalar_numeral hn, readNumber_append hn hrest,
        Numeral.read_eq_ok_iff.2 ⟨hfits, rfl⟩]
      rfl
  | text ht =>
      intro fuel rest _ hfuel
      rcases ht.exists_eq_cons with ⟨body, rfl⟩
      rw [List.length_cons] at hfuel
      obtain ⟨fuel, rfl⟩ : ∃ n, fuel = n + 1 := Nat.exists_eq_succ_of_ne_zero (by omega)
      exact readValue_text (readText_iff.2 ⟨body, ht, rfl⟩)
  | emptyList hdepth hspace =>
      intro fuel rest _ hfuel
      rw [List.length_cons] at hfuel
      obtain ⟨fuel, rfl⟩ : ∃ n, fuel = n + 1 := Nat.exists_eq_succ_of_ne_zero (by omega)
      rw [List.cons_append, List.append_assoc]
      exact readValue_emptyList hdepth hspace fuel rest
  | list hdepth hvs ih =>
      intro fuel rest _ hfuel
      simp only [List.length_cons, List.length_append, List.length_nil] at hfuel
      obtain ⟨fuel, rfl⟩ : ∃ n, fuel = n + 1 := Nat.exists_eq_succ_of_ne_zero (by omega)
      rw [List.cons_append, List.append_assoc]
      exact readValue_list (tooDeep_eq_false_iff.2 hdepth) (hvs.starts_elements _)
        (ih fuel rest (by omega))
  | emptyObject hdepth hspace =>
      intro fuel rest _ hfuel
      rw [List.length_cons] at hfuel
      obtain ⟨fuel, rfl⟩ : ∃ n, fuel = n + 1 := Nat.exists_eq_succ_of_ne_zero (by omega)
      rw [List.cons_append, List.append_assoc]
      exact readValue_emptyObject hdepth hspace fuel rest
  | object hdepth hentries ih =>
      intro fuel rest _ hfuel
      simp only [List.length_cons, List.length_append, List.length_nil] at hfuel
      obtain ⟨fuel, rfl⟩ : ∃ n, fuel = n + 1 := Nat.exists_eq_succ_of_ne_zero (by omega)
      rw [List.cons_append, List.append_assoc]
      obtain ⟨quoted, hquoted⟩ := hentries.starts_members (['\x7d'] ++ rest)
      exact readValue_object (tooDeep_eq_false_iff.2 hdepth) hquoted
        (ih fuel rest [] (by omega))
  | @element _ _ before cs after hbefore hv hafter ih =>
      -- The space before is skipped; the space after is left, and stops the value.
      intro fuel rest hrest hfuel
      rw [List.length_append, List.length_append] at hfuel
      refine ⟨after ++ rest, ?_, skipSpace_append hafter rest⟩
      rw [List.append_assoc, List.append_assoc,
        readValue_congr (skipSpace_append hbefore (cs ++ (after ++ rest)))]
      exact ih fuel (after ++ rest) (hafter.stops_append hrest) (by omega)
  | oneElement _ ih =>
      intro fuel rest hfuel
      obtain ⟨fuel, rfl⟩ : ∃ n, fuel = n + 1 := Nat.exists_eq_succ_of_ne_zero (by omega)
      -- The bracket is what follows the last element.
      rcases ih fuel (']' :: rest) (stops_cons (by simp) rest) (by omega) with
        ⟨rest', hread, hrest'⟩
      exact readItems_last hread (hrest'.trans rfl)
  | @moreElements _ _ _ cs more _ _ ihv ihvs =>
      intro fuel rest hfuel
      rw [List.length_append, List.length_cons] at hfuel
      obtain ⟨fuel, rfl⟩ : ∃ n, fuel = n + 1 := Nat.exists_eq_succ_of_ne_zero (by omega)
      rw [List.append_assoc, List.cons_append]
      rcases ihv fuel (',' :: (more ++ ']' :: rest)) (stops_cons (by simp) _) (by omega) with
        ⟨rest', hread, hrest'⟩
      exact readItems_more hread (hrest'.trans rfl) (ihvs fuel rest (by omega))
  | @member _ key _ before quoted after cs hbefore hkey hafter _ ih =>
      intro fuel rest hrest hfuel
      simp only [List.length_append, List.length_cons] at hfuel
      rcases hkey.exists_eq_cons with ⟨body, rfl⟩
      rcases ih fuel rest hrest (by omega) with ⟨rest', hread, hrest'⟩
      have htext : readText d (body ++ (after ++ ':' :: (cs ++ rest))) =
          .ok (key, after ++ ':' :: (cs ++ rest)) := readText_iff.2 ⟨body, hkey, rfl⟩
      -- There may be space in front of the key and in front of the colon.
      refine ⟨_, _, cs ++ rest, rest', ?_, htext, ?_, hread, hrest'⟩
      · simp only [List.append_assoc, List.cons_append]
        exact skipSpace_append hbefore _
      · exact skipSpace_append hafter _
  | oneMember _ ih =>
      intro fuel rest fields hfuel
      obtain ⟨fuel, rfl⟩ : ∃ n, fuel = n + 1 := Nat.exists_eq_succ_of_ne_zero (by omega)
      rcases ih fuel ('\x7d' :: rest) (stops_cons (by simp) rest) (by omega) with
        ⟨quoted, unread, colon, rest', hquoted, hkey, hcolon, hread, hrest'⟩
      exact readFields_last hquoted hkey hcolon hread (hrest'.trans rfl)
  | @moreMembers _ _ _ _ cs more _ _ ihentry ihentries =>
      intro fuel rest fields hfuel
      rw [List.length_append, List.length_cons] at hfuel
      obtain ⟨fuel, rfl⟩ : ∃ n, fuel = n + 1 := Nat.exists_eq_succ_of_ne_zero (by omega)
      rw [List.append_assoc, List.cons_append]
      rcases ihentry fuel (',' :: (more ++ '\x7d' :: rest)) (stops_cons (by simp) _) (by omega) with
        ⟨quoted, unread, colon, rest', hquoted, hkey, hcolon, hread, hrest'⟩
      rw [readFields_more hquoted hkey hcolon hread (hrest'.trans rfl)]
      exact ihentries fuel rest _ (by omega)

/-! ## What is read was written -/

/-- What the reader takes with some fuel is written as it says. -/
structure Sound (d : Dialect) (fuel : Nat) : Prop where
  value : ∀ {depth : Nat} {cs rest : List Char} {v : Value},
    readValue d fuel depth cs = .ok (v, rest) →
      ∃ space body, Spaces space ∧ cs = space ++ (body ++ rest) ∧ Written d depth (.value v) body
  elements : ∀ {depth : Nat} {cs rest : List Char} {vs : List Value},
    readItems d fuel depth cs = .ok (vs, rest) →
      ∃ body, cs = body ++ ']' :: rest ∧ Written d depth (.elements vs) body
  members : ∀ {depth : Nat} {cs rest : List Char} {old fields : List (Text × Value)},
    readFields d fuel depth old cs = .ok (fields, rest) →
      ∃ entries body, cs = body ++ '\x7d' :: rest ∧ fields = assignAll old entries ∧
        Written d depth (.members entries) body

section Sound

variable {d : Dialect} {fuel depth : Nat} {cs rest : List Char}

theorem Sound.readValue (hsound : Sound d fuel) {v : Value}
    (hread : readValue d (fuel + 1) depth cs = .ok (v, rest)) :
    ∃ space body, Spaces space ∧ cs = space ++ (body ++ rest) ∧
      Written d depth (.value v) body := by
  rw [Json.readValue] at hread
  split at hread
  · next after hskip =>
      rcases exists_space_of_skipSpace hskip with ⟨space, hspace, rfl⟩
      rcases exists_of_bind_eq_ok hread with ⟨⟨t, after'⟩, htext, hpair⟩
      cases hpair
      rcases readText_iff.1 htext with ⟨body, hquoted, rfl⟩
      exact ⟨space, '"' :: body, hspace, rfl, .text hquoted⟩
  · next after hskip =>
      rcases exists_space_of_skipSpace hskip with ⟨space, hspace, rfl⟩
      split at hread
      · cases hread
      · next hdeep =>
          have hdepth := tooDeep_eq_false_iff.1 (eq_false_of_ne_true hdeep)
          split at hread
          · next hclose =>
              cases hread
              rcases exists_space_of_skipSpace hclose with ⟨inner, hinner, rfl⟩
              exact ⟨space, _, hspace, by simp, .emptyList hdepth hinner⟩
          · rcases exists_of_bind_eq_ok hread with ⟨⟨vs, after'⟩, hitems, hpair⟩
            cases hpair
            rcases hsound.elements hitems with ⟨body, rfl, hvs⟩
            exact ⟨space, _, hspace, by simp, .list hdepth hvs⟩
  · next after hskip =>
      rcases exists_space_of_skipSpace hskip with ⟨space, hspace, rfl⟩
      split at hread
      · cases hread
      · next hdeep =>
          have hdepth := tooDeep_eq_false_iff.1 (eq_false_of_ne_true hdeep)
          split at hread
          · next hclose =>
              cases hread
              rcases exists_space_of_skipSpace hclose with ⟨inner, hinner, rfl⟩
              exact ⟨space, _, hspace, by simp, .emptyObject hdepth hinner⟩
          · rcases exists_of_bind_eq_ok hread with ⟨⟨fields, after'⟩, hfields, hpair⟩
            cases hpair
            rcases hsound.members hfields with ⟨entries, body, rfl, rfl, hentries⟩
            exact ⟨space, _, hspace, by simp, .object hdepth hentries⟩
  · -- Whatever starts no text, list or mapping is read as a scalar.
    rcases exists_space cs with ⟨space, hspace, hcs⟩
    rcases exists_written_of_readScalar hread with
      ⟨word, hword, hskip⟩ | ⟨n, hn, hfits, rfl, hskip⟩
    · exact ⟨space, word, hspace, by rw [← hskip]; exact hcs, .word hword⟩
    · exact ⟨space, n.chars, hspace, by rw [← hskip]; exact hcs, .number hn hfits⟩

theorem Sound.readItems (hsound : Sound d fuel) {vs : List Value}
    (hread : readItems d (fuel + 1) depth cs = .ok (vs, rest)) :
    ∃ body, cs = body ++ ']' :: rest ∧ Written d depth (.elements vs) body := by
  rw [Json.readItems] at hread
  rcases exists_of_bind_eq_ok hread with ⟨⟨v, after⟩, hv, hnext⟩
  rcases hsound.value hv with ⟨space, body, hspace, rfl, hwritten⟩
  dsimp only at hnext
  split at hnext
  · next hclose =>
      cases hnext
      rcases exists_space_of_skipSpace hclose with ⟨space', hspace', rfl⟩
      exact ⟨_, by simp, .oneElement (.element hspace hwritten hspace')⟩
  · next hcomma =>
      rcases exists_space_of_skipSpace hcomma with ⟨space', hspace', rfl⟩
      rcases exists_of_bind_eq_ok hnext with ⟨⟨more, after'⟩, hmore, hpair⟩
      cases hpair
      rcases hsound.elements hmore with ⟨body', rfl, hvs⟩
      exact ⟨_, by simp, .moreElements (.element hspace hwritten hspace') hvs⟩
  · cases hnext

theorem Sound.readFields (hsound : Sound d fuel) {old fields : List (Text × Value)}
    (hread : readFields d (fuel + 1) depth old cs = .ok (fields, rest)) :
    ∃ entries body, cs = body ++ '\x7d' :: rest ∧ fields = assignAll old entries ∧
      Written d depth (.members entries) body := by
  rw [Json.readFields] at hread
  split at hread
  · next quoted hskip =>
      rcases exists_space_of_skipSpace hskip with ⟨space, hspace, rfl⟩
      rcases exists_of_bind_eq_ok hread with ⟨⟨key, unread⟩, hkey, hcolon⟩
      rcases readText_iff.1 hkey with ⟨body, hquoted, rfl⟩
      dsimp only at hcolon
      split at hcolon
      · next colon hskip' =>
          rcases exists_space_of_skipSpace hskip' with ⟨space', hspace', rfl⟩
          rcases exists_of_bind_eq_ok hcolon with ⟨⟨v, after⟩, hv, hnext⟩
          rcases hsound.value hv with ⟨space'', body', hspace'', rfl, hwritten⟩
          dsimp only at hnext
          split at hnext
          · next hclose =>
              cases hnext
              rcases exists_space_of_skipSpace hclose with ⟨last, hlast, rfl⟩
              have hentry := Written.member hspace hquoted hspace'
                (.element hspace'' hwritten hlast)
              exact ⟨[(key, v)], _, by simp, rfl, .oneMember hentry⟩
          · next hcomma =>
              rcases exists_space_of_skipSpace hcomma with ⟨last, hlast, rfl⟩
              have hentry := Written.member hspace hquoted hspace'
                (.element hspace'' hwritten hlast)
              rcases hsound.members hnext with ⟨entries, body'', rfl, rfl, hentries⟩
              exact ⟨(key, v) :: entries, _, by simp, rfl, .moreMembers hentry hentries⟩
          · cases hnext
      · cases hcolon
  · cases hread

/-- By induction on the fuel: each part is read with less. -/
theorem sound (d : Dialect) (fuel : Nat) : Sound d fuel := by
  induction fuel with
  | zero =>
      constructor
      · intro depth cs rest v hread
        rw [Json.readValue] at hread
        cases hread
      · intro depth cs rest vs hread
        rw [Json.readItems] at hread
        cases hread
      · intro depth cs rest old fields hread
        rw [Json.readFields] at hread
        cases hread
  | succ fuel ih =>
      exact ⟨fun hread => ih.readValue hread, fun hread => ih.readItems hread,
        fun hread => ih.readFields hread⟩

end Sound

/-! ## Documents -/

theorem read_eq_ok_iff {d : Dialect} {text : String} {v : Value} :
    read d text = .ok v ↔ Document d text v := by
  constructor
  · intro hread
    unfold read readChars at hread
    rcases exists_of_bind_eq_ok hread with ⟨⟨v', rest⟩, hv, hdone⟩
    dsimp only at hdone
    split at hdone
    · next hempty =>
        cases hdone
        have hrest : Spaces rest := skipSpace_eq_nil_iff.1 (List.isEmpty_iff.1 hempty)
        rcases (sound d _).value hv with ⟨space, body, hspace, hcs, hwritten⟩
        rw [Document, hcs]
        exact .element hspace hwritten hrest
    · cases hdone
  · intro hdocument
    have hnothing : Stops [] := fun c hc => by cases hc
    rcases readsAs_of_written hdocument (2 * text.toList.length + 2) [] hnothing (by omega) with
      ⟨rest, hread, hrest⟩
    rw [List.append_nil] at hread
    unfold read readChars
    rw [hread]
    change (if (skipSpace rest).isEmpty then Except.ok v else _) = _
    rw [hrest]
    rfl

theorem Document.unique {d : Dialect} {text : String} {v v' : Value} (hv : Document d text v)
    (hv' : Document d text v') : v = v' := by
  have hread := read_eq_ok_iff.2 hv
  rw [read_eq_ok_iff.2 hv'] at hread
  exact (Except.ok.inj hread).symm

/-- Within the limits of the strict dialect, a standard document is a strict one of the same
value. -/
theorem Document.toStrict {text : String} {v : Value} (hv : Document standard text v)
    (hstrict : ∃ v', Document strict text v') : Document strict text v := by
  rcases hstrict with ⟨v', hv'⟩
  rw [hv.unique hv'.toStandard]
  exact hv'

end Json
end QuocNgu
