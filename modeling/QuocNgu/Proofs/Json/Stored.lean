import QuocNgu.Json.Writer
import QuocNgu.Proofs.Text.Whole

/-!
# Proofs.Json.Stored — what the file of a value holds

* `Plain`        : values that a file can give back as they are
* `Writable`     : values all of whose texts have a written form
* `laid`         : the text of a value that stands at some depth
* `laid_list`, `laid_object`, `laid_table` : its brackets and the lines between them
* `stored_writable`, `stored_plain` : all of such a value reaches its file

Pieces matter only where a text cannot be written. A writable value has no such text, and so has no
plain one, so its file holds its pieces put together.
-/

namespace QuocNgu
namespace Json

/-! ## Plain values -/

/-- Values that JSON writes without loss. -/
inductive Plain : Value → Prop
  | null : Plain .null
  | boolean (b : Bool) : Plain (.boolean b)
  | integer (n : Int) (hn : (Nat.toDigits 10 n.natAbs).length ≤ 4300) : Plain (.integer n)
  | text (s : String) : Plain (.text (Text.ofString s))
  | list (items : List Value) (hitems : ∀ item ∈ items, Plain item) : Plain (.list items)
  | object (fields : List (Text × Value))
      (hkeys : ∀ field ∈ fields, ∃ s, field.1 = Text.ofString s)
      (hdistinct : (fields.map Prod.fst).Nodup)
      (hvalues : ∀ field ∈ fields, Plain field.2) : Plain (.object fields)

theorem Plain.distinct {fields : List (Text × Value)} (hplain : Plain (.object fields)) :
    (fields.map Prod.fst).Nodup := by
  cases hplain with
  | object _ _ hdistinct _ => exact hdistinct

/-- Values all of whose texts have a written form, keys included. -/
inductive Writable : Value → Prop
  | null : Writable .null
  | boolean (b : Bool) : Writable (.boolean b)
  | integer (n : Int) : Writable (.integer n)
  | real (x : Binary64) : Writable (.real x)
  | text (s : String) : Writable (.text (Text.ofString s))
  | list (items : List Value) (hitems : ∀ item ∈ items, Writable item) : Writable (.list items)
  | object (fields : List (Text × Value))
      (hkeys : ∀ field ∈ fields, ∃ s, field.1 = Text.ofString s)
      (hvalues : ∀ field ∈ fields, Writable field.2) : Writable (.object fields)
  | table (rows : List (Value × Value)) (hkeys : ∀ row ∈ rows, Writable row.1)
      (hvalues : ∀ row ∈ rows, Writable row.2) : Writable (.table rows)

theorem Plain.writable {v : Value} (hv : Plain v) : Writable v := by
  induction hv with
  | null => exact .null
  | boolean b => exact .boolean b
  | integer n _ => exact .integer n
  | text s => exact .text s
  | list items _ ih => exact .list items ih
  | object fields hkeys _ _ ih => exact .object fields hkeys ih

/-! ## What is written -/

/-- The text of a value that stands at some depth. -/
def laid (level : Nat) (v : Value) : Text := (pieces level v).flatten

/-- The text of items, each on a line of its own. -/
def laidItems (level : Nat) (items : List Value) : Text :=
  (itemPieces level (newline level) items).flatten

def laidFields (level : Nat) (fields : List (Text × Value)) : Text :=
  (fieldPieces level (newline level) fields).flatten

def laidRows (level : Nat) (rows : List (Value × Value)) : Text :=
  (rowPieces level (newline level) rows).flatten

theorem flatten_itemPieces_cons (level : Nat) (lead : Text) (item : Value) (items : List Value) :
    (itemPieces level lead (item :: items)).flatten =
      lead ++ laid level item ++ (itemPieces level ("," ++ newline level) items).flatten := by
  have hlead : (joinLead lead item (pieces level item)).flatten = lead ++ laid level item := by
    unfold joinLead
    split <;> simp [laid]
  rw [itemPieces, List.flatten_append, hlead]

theorem flatten_fieldPieces_cons (level : Nat) (lead k : Text) (v : Value)
    (fields : List (Text × Value)) :
    (fieldPieces level lead ((k, v) :: fields)).flatten =
      lead ++ writeText k ++ ": " ++ laid level v ++
        (fieldPieces level ("," ++ newline level) fields).flatten := by
  simp [fieldPieces, laid]

theorem laidItems_singleton (level : Nat) (item : Value) :
    laidItems level [item] = newline level ++ laid level item := by
  rw [laidItems, flatten_itemPieces_cons, itemPieces, List.flatten_nil, List.append_nil]

theorem laidItems_cons_cons (level : Nat) (item next : Value) (items : List Value) :
    laidItems level (item :: next :: items) =
      newline level ++ laid level item ++ ("," ++ laidItems level (next :: items)) := by
  rw [laidItems, flatten_itemPieces_cons, laidItems, flatten_itemPieces_cons,
    flatten_itemPieces_cons]
  simp only [List.append_assoc]

theorem laidFields_singleton (level : Nat) (k : Text) (v : Value) :
    laidFields level [(k, v)] = newline level ++ writeText k ++ ": " ++ laid level v := by
  rw [laidFields, flatten_fieldPieces_cons, fieldPieces, List.flatten_nil, List.append_nil]

theorem laidFields_cons_cons (level : Nat) (k : Text) (v : Value) (next : Text × Value)
    (fields : List (Text × Value)) :
    laidFields level ((k, v) :: next :: fields) =
      newline level ++ writeText k ++ ": " ++ laid level v ++
        ("," ++ laidFields level (next :: fields)) := by
  rw [laidFields, flatten_fieldPieces_cons, laidFields, flatten_fieldPieces_cons,
    flatten_fieldPieces_cons]
  simp only [List.append_assoc]

theorem laid_table (level : Nat) (row : Value × Value) (rows : List (Value × Value)) :
    laid level (.table (row :: rows)) =
      leftBrace ++ laidRows (level + 1) (row :: rows) ++ newline level ++ rightBrace := by
  simp [laid, pieces, laidRows]

theorem laid_of_isKey {v : Value} (hv : v.isKey = true) (level : Nat) :
    laid level v = writeScalar v := by
  cases v with
  | list items => cases hv
  | object fields => cases hv
  | table rows => cases hv
  | _ => simp [laid, pieces]

theorem laid_list (level : Nat) (item : Value) (items : List Value) :
    laid level (.list (item :: items)) =
      "[" ++ laidItems (level + 1) (item :: items) ++ newline level ++ "]" := by
  simp [laid, pieces, laidItems, flatten_itemPieces_cons]

theorem laid_object (level : Nat) (field : Text × Value) (fields : List (Text × Value)) :
    laid level (.object (field :: fields)) =
      leftBrace ++ laidFields (level + 1) (field :: fields) ++ newline level ++ rightBrace := by
  simp [laid, pieces, laidFields]

/-! ## What a file holds -/

theorem isWhole_newline (level : Nat) : (newline level).isWhole = true := by
  rw [Text.isWhole_iff]
  intro p hp
  rcases List.mem_cons.1 hp with rfl | hp
  · exact ⟨_, rfl⟩
  · exact ⟨_, List.eq_of_mem_replicate hp⟩

theorem isWhole_writeText (s : String) : (writeText (Text.ofString s)).isWhole = true := by
  rw [Text.isWhole_iff]
  intro p hp
  rcases List.mem_append.1 hp with hp | hp
  · rcases List.mem_append.1 hp with hp | hp
    · exact Text.isWhole_iff.1 rfl p hp
    · rcases List.mem_flatMap.1 hp with ⟨q, hq, hp⟩
      rcases List.mem_map.1 hq with ⟨c, -, rfl⟩
      rcases List.mem_map.1 hp with ⟨c', -, rfl⟩
      exact ⟨c', rfl⟩
  · exact Text.isWhole_iff.1 rfl p hp

theorem isWhole_laidItems {level : Nat} {items : List Value}
    (hitems : ∀ item ∈ items, (laid level item).isWhole = true) :
    (laidItems level items).isWhole = true := by
  induction items with
  | nil =>
      rfl
  | cons item rest ih =>
      rcases List.forall_mem_cons.1 hitems with ⟨hitem, hrest⟩
      cases rest with
      | nil =>
          rw [laidItems_singleton, Text.isWhole_append]
          exact ⟨isWhole_newline level, hitem⟩
      | cons next rest =>
          simp only [laidItems_cons_cons, Text.isWhole_append]
          exact ⟨⟨isWhole_newline level, hitem⟩, rfl, ih hrest⟩

theorem isWhole_laidFields {level : Nat} {fields : List (Text × Value)}
    (hkeys : ∀ field ∈ fields, ∃ s, field.1 = Text.ofString s)
    (hvalues : ∀ field ∈ fields, (laid level field.2).isWhole = true) :
    (laidFields level fields).isWhole = true := by
  induction fields with
  | nil =>
      rfl
  | cons field rest ih =>
      rcases List.forall_mem_cons.1 hkeys with ⟨⟨s, hkey⟩, hkeys⟩
      rcases List.forall_mem_cons.1 hvalues with ⟨hvalue, hvalues⟩
      have hwhole : (newline level ++ writeText field.1 ++ ": " ++ laid level field.2).isWhole =
          true := by
        simp only [Text.isWhole_append, hkey]
        exact ⟨⟨⟨isWhole_newline level, isWhole_writeText s⟩, rfl⟩, hvalue⟩
      cases rest with
      | nil =>
          rw [laidFields_singleton]
          exact hwhole
      | cons next rest =>
          rw [laidFields_cons_cons]
          exact Text.isWhole_append.2
            ⟨hwhole, Text.isWhole_append.2 ⟨rfl, ih hkeys hvalues⟩⟩

theorem Writable.isWhole_writeKey {v : Value} (hv : Writable v) : (writeKey v).isWhole = true := by
  have hquoted : ∀ t : Text, t.isWhole = true → (("\"" : Text) ++ t ++ "\"").isWhole = true := by
    intro t ht
    exact Text.isWhole_append.2 ⟨Text.isWhole_append.2 ⟨rfl, ht⟩, rfl⟩
  cases hv with
  | null => rfl
  | boolean b => cases b <;> rfl
  | integer n => exact hquoted _ (Text.isWhole_ofString _)
  | real x => exact hquoted _ (Text.isWhole_ofString _)
  | text s => exact isWhole_writeText s
  | list | object | table => rfl

theorem isWhole_rowPieces {level : Nat} {lead : Text} {rows : List (Value × Value)}
    (hlead : lead.isWhole = true) (hkeys : ∀ row ∈ rows, Writable row.1)
    (hvalues : ∀ row ∈ rows, (laid level row.2).isWhole = true) :
    Text.isWhole (rowPieces level lead rows).flatten = true := by
  induction rows generalizing lead with
  | nil => rfl
  | cons row rest ih =>
      obtain ⟨hkey, hkeys⟩ := List.forall_mem_cons.1 hkeys
      obtain ⟨hvalue, hvalues⟩ := List.forall_mem_cons.1 hvalues
      have hnext : ("," ++ newline level : Text).isWhole = true :=
        Text.isWhole_append.2 ⟨rfl, isWhole_newline level⟩
      simp only [rowPieces, List.flatten_append, List.flatten_cons, Text.isWhole_append]
      exact ⟨⟨hlead, hkey.isWhole_writeKey, rfl, hvalue⟩, ih hnext hkeys hvalues⟩

theorem Writable.isWhole_laid {v : Value} (hv : Writable v) (level : Nat) :
    (laid level v).isWhole = true := by
  induction hv generalizing level with
  | null => rfl
  | boolean b => cases b <;> rfl
  | integer n =>
      rw [laid_of_isKey rfl]
      exact Text.isWhole_ofString (toString n)
  | real x =>
      rw [laid_of_isKey rfl]
      exact Text.isWhole_ofString (x.toText realStyle)
  | text s =>
      rw [laid_of_isKey rfl]
      exact isWhole_writeText s
  | list items _ ih =>
      cases items with
      | nil => rfl
      | cons item rest =>
          have hitems : (laidItems (level + 1) (item :: rest)).isWhole = true :=
            isWhole_laidItems fun item' hitem => ih item' hitem (level + 1)
          simp only [laid_list, Text.isWhole_append]
          exact ⟨⟨⟨rfl, hitems⟩, isWhole_newline level⟩, rfl⟩
  | object fields hkeys _ ih =>
      cases fields with
      | nil => rfl
      | cons field rest =>
          have hfields : (laidFields (level + 1) (field :: rest)).isWhole = true :=
            isWhole_laidFields hkeys fun field' hfield => ih field' hfield (level + 1)
          simp only [laid_object, Text.isWhole_append]
          exact ⟨⟨⟨rfl, hfields⟩, isWhole_newline level⟩, rfl⟩
  | table rows hkeys _ _ ih =>
      cases rows with
      | nil => rfl
      | cons row rest =>
          have hrows : (laidRows (level + 1) (row :: rest)).isWhole = true :=
            isWhole_rowPieces (isWhole_newline _) hkeys fun row' hrow => ih row' hrow (level + 1)
          simp only [laid_table, Text.isWhole_append]
          exact ⟨⟨⟨rfl, hrows⟩, isWhole_newline level⟩, rfl⟩

theorem store_of_isWhole {texts : List Text} (htexts : ∀ t ∈ texts, t.isWhole = true) :
    store texts = (String.ofList (Text.chars texts.flatten), true) := by
  induction texts with
  | nil =>
      rfl
  | cons t rest ih =>
      rcases List.forall_mem_cons.1 htexts with ⟨ht, hrest⟩
      rw [store, Text.toString?_of_isWhole ht, ih hrest, List.flatten_cons, Text.chars_append,
        String.ofList_append]

theorem stored_writable {v : Value} (hv : Writable v) :
    stored v = (String.ofList (laid 0 v).chars, true) := by
  apply store_of_isWhole
  intro t ht
  refine Text.isWhole_of_subset (hv.isWhole_laid 0) ?_
  intro p hp
  exact List.mem_flatten_of_mem ht hp

theorem stored_plain {v : Value} (hv : Plain v) :
    stored v = (String.ofList (laid 0 v).chars, true) := stored_writable hv.writable

theorem Writable.complete {v : Value} (hv : Writable v) : (stored v).2 = true := by
  rw [stored_writable hv]

/-- The file of a writable value holds its text. -/
theorem ofString_stored {v : Value} (hv : Writable v) :
    Text.ofString (stored v).1 = write v := by
  obtain ⟨s, hs⟩ := Text.exists_ofString (hv.isWhole_laid 0)
  have hwrite : write v = Text.ofString s := hs
  rw [stored_writable hv, hs, hwrite, Text.ofString, Text.ofString, Text.chars_map_char,
    String.toList_ofList]

end Json
end QuocNgu
