import TensorGraph.OpKind
import Mathlib.Data.List.Nodup

/-! # How operation kinds are stored

A kind is stored as its text, with the number of bytes of its qualifier, and the parts are cut out
of the text again. The text is interned: a table holds every text once and for good, and kinds are
compared by the addresses of their texts. That this compares the texts does not depend on which
other kinds are stored before, between or after them.
-/

namespace TensorGraph

/-- The interned texts, the latest last. The address of a text is its position. -/
structure InternTable where
  texts : List String
  distinct : texts.Nodup

namespace InternTable

def empty : InternTable := ⟨[], .nil⟩

/-- The text at an address. -/
def textAt? (table : InternTable) (address : Nat) : Option String := table.texts[address]?

theorem distinct_concat (table : InternTable) {text : String} (hnew : text ∉ table.texts) :
    (table.texts ++ [text]).Nodup := by
  rw [← List.concat_eq_append]
  exact table.distinct.concat hnew

/-- The address of the text, which is added if the table does not have it. -/
def intern (table : InternTable) (text : String) : Nat × InternTable :=
  if hknown : text ∈ table.texts then (table.texts.idxOf text, table)
  else (table.texts.length, ⟨table.texts ++ [text], table.distinct_concat hknown⟩)

def internAll (table : InternTable) (texts : List String) : InternTable :=
  texts.foldl (fun table text => (table.intern text).2) table

/-- Every address of the table has the same text in the later one. -/
def Within (table later : InternTable) : Prop :=
  ∀ address text, table.textAt? address = some text → later.textAt? address = some text

theorem address_eq_of_textAt? {table : InternTable} {address other : Nat} {text : String}
    (haddress : table.textAt? address = some text) (hother : table.textAt? other = some text) :
    address = other := by
  obtain ⟨hlt, _⟩ := List.getElem?_eq_some_iff.mp haddress
  exact (List.getElem?_inj hlt table.distinct).mp (haddress.trans hother.symm)

/-- An interned text is at its address. -/
theorem textAt?_intern (table : InternTable) (text : String) :
    (table.intern text).2.textAt? (table.intern text).1 = some text := by
  rw [intern]
  split
  next hknown => exact List.getElem?_idxOf hknown
  next => exact List.getElem?_concat_length

theorem within_intern (table : InternTable) (text : String) :
    table.Within (table.intern text).2 := by
  intro address stored hstored
  rw [intern]
  split
  next => exact hstored
  next =>
    obtain ⟨hlt, _⟩ := List.getElem?_eq_some_iff.mp hstored
    exact (List.getElem?_append_left hlt).trans hstored

theorem within_internAll (table : InternTable) (texts : List String) :
    table.Within (table.internAll texts) := by
  induction texts generalizing table with
  | nil => exact fun _ _ hstored => hstored
  | cons text texts ih =>
      exact fun address stored hstored =>
        ih (table.intern text).2 address stored (table.within_intern text address stored hstored)

/-- A text that is interned later has the address of an earlier one exactly if it is the same. -/
theorem intern_address_eq_iff {table later : InternTable} {text : String}
    (hwithin : (table.intern text).2.Within later) (other : String) :
    (table.intern text).1 = (later.intern other).1 ↔ text = other := by
  have hstored := hwithin _ _ (table.textAt?_intern text)
  have hkept := later.within_intern other _ _ hstored
  have hother := later.textAt?_intern other
  constructor
  · intro hsame
    rw [hsame] at hkept
    exact Option.some.inj (hkept.symm.trans hother)
  · rintro rfl
    exact address_eq_of_textAt? hkept hother

/-- The text of a kind is added once, whichever of its texts is interned again later. -/
example : (empty.internAll ["xla::add", "aten::add", "xla::add"]).texts =
    ["xla::add", "aten::add"] := by
  decide

end InternTable

namespace OpKind

theorem beq_iff_text_eq (kind other : OpKind) :
    (kind == other) = true ↔ kind.text = other.text := by
  change (kind.text == other.text) = true ↔ _
  exact beq_iff_eq

/-- A kind as one text, with the number of bytes of its qualifier. -/
structure Packed where
  text : String
  qualifierSize : Nat
  deriving DecidableEq

def packed (kind : OpKind) : Packed := ⟨kind.text, kind.qualifier.utf8ByteSize⟩

/-- The text up to the separator, unless this cuts a character or is not in the text. -/
def Packed.qualifier? (packed : Packed) : Option String :=
  (packed.text.pos? ⟨packed.qualifierSize⟩).map fun position =>
    (packed.text.sliceTo position).copy

/-- The text behind the two bytes of the separator, unless this cuts a character or is not in the
text. -/
def Packed.name? (packed : Packed) : Option String :=
  (packed.text.pos? ⟨packed.qualifierSize + 2⟩).map fun position =>
    (packed.text.sliceFrom position).copy

theorem pos?_offset {text : String} (position : text.Pos) :
    text.pos? position.offset = some position := by
  have hvalid : position.offset.isValidForSlice text.toSlice = true :=
    String.Pos.Raw.isValidForSlice_eq_true_iff.mpr position.isValid.toSlice
  rw [String.pos?, String.Slice.pos?, dif_pos hvalid]
  rfl

/-- A joined text is cut where its first part ends. -/
theorem exists_pos?_of_append {text front back : String} (htext : text = front ++ back) :
    ∃ position, text.pos? ⟨front.utf8ByteSize⟩ = some position ∧
      (text.sliceTo position).copy = front ∧ (text.sliceFrom position).copy = back := by
  have hsplits := String.Pos.splits_ofEqAppend htext
  refine ⟨String.Pos.ofEqAppend htext, ?_, hsplits.copy_sliceTo_eq, hsplits.copy_sliceFrom_eq⟩
  rw [← pos?_offset (String.Pos.ofEqAppend htext), hsplits.offset_eq_rawEndPos]
  rfl

theorem packed_qualifier? (kind : OpKind) : kind.packed.qualifier? = some kind.qualifier := by
  have htext : kind.text = kind.qualifier ++ ("::" ++ kind.name) := String.append_assoc
  obtain ⟨position, hposition, hqualifier, -⟩ := exists_pos?_of_append htext
  rw [Packed.qualifier?, packed, hposition, Option.map_some, hqualifier]

theorem packed_name? (kind : OpKind) : kind.packed.name? = some kind.name := by
  obtain ⟨position, hposition, -, hname⟩ :=
    exists_pos?_of_append (rfl : kind.text = kind.qualifier ++ "::" ++ kind.name)
  rw [String.utf8ByteSize_append] at hposition
  rw [Packed.name?, packed]
  change (kind.text.pos? ⟨kind.qualifier.utf8ByteSize + "::".utf8ByteSize⟩).map _ = _
  rw [hposition, Option.map_some, hname]

/-- The qualifier has two bytes and one character, and no character ends behind its first byte. -/
example : packed ⟨"é", "b"⟩ = ⟨"é::b", 2⟩ ∧ (packed ⟨"é", "b"⟩).name? = some "b" ∧
    (Packed.mk "é::b" 1).qualifier? = none := by
  decide +kernel

/-- A kind with the address of its text in place of the text. -/
structure Stored where
  address : Nat
  qualifierSize : Nat

/-- Stores a kind with its text interned. -/
def store (kind : OpKind) (table : InternTable) : Stored × InternTable :=
  let (address, later) := table.intern kind.text
  (⟨address, kind.qualifier.utf8ByteSize⟩, later)

/-- The stored kind with its text, if the table has one at the address. -/
def Stored.packed? (stored : Stored) (table : InternTable) : Option Packed :=
  (table.textAt? stored.address).map fun text => ⟨text, stored.qualifierSize⟩

/-- A stored kind is found in every later table. -/
theorem packed?_store (kind : OpKind) {table later : InternTable}
    (hwithin : (kind.store table).2.Within later) :
    (kind.store table).1.packed? later = some kind.packed := by
  have htext := hwithin _ _ (table.textAt?_intern kind.text)
  change (later.textAt? (table.intern kind.text).1).map _ = _
  rw [htext]
  rfl

/-- Kinds are the same exactly if they are stored with one address. -/
theorem store_address_eq_iff (kind other : OpKind) {table later : InternTable}
    (hwithin : (kind.store table).2.Within later) :
    (kind.store table).1.address = (other.store later).1.address ↔ (kind == other) = true := by
  rw [beq_iff_text_eq]
  exact InternTable.intern_address_eq_iff hwithin other.text

end OpKind

end TensorGraph
