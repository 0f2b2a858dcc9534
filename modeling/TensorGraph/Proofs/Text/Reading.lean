import Mathlib

/-! # Reading texts back

A piece of a text is read back where its end can be seen: at a mark that the piece does not contain,
or because no piece goes on as another one. Lists of such pieces, with a separator between them and
a closing mark behind, are read back piece by piece.
-/

namespace TensorGraph.Text

/-- The text goes on with one of the marks. -/
inductive GoesOn (marks : List Char) : List Char → Prop
  | intro {mark : Char} (hmark : mark ∈ marks) (rest : List Char) : GoesOn marks (mark :: rest)

/-- A text ends in front of the first mark. -/
theorem append_inj_of_goesOn {marks front front' rest rest' : List Char}
    (hfront : ∀ mark ∈ marks, mark ∉ front) (hfront' : ∀ mark ∈ marks, mark ∉ front')
    (hrest : GoesOn marks rest) (hrest' : GoesOn marks rest')
    (hsame : front ++ rest = front' ++ rest') : front = front' ∧ rest = rest' := by
  rcases List.append_eq_append_iff.mp hsame with ⟨between, rfl, rfl⟩ | ⟨between, rfl, rfl⟩
  · cases between with
    | nil => exact ⟨(List.append_nil _).symm, rfl⟩
    | cons mark between =>
        cases hrest with
        | intro hmark => exact absurd (by simp) (hfront' mark hmark)
  · cases between with
    | nil => exact ⟨List.append_nil _, rfl⟩
    | cons mark between =>
        cases hrest' with
        | intro hmark => exact absurd (by simp) (hfront mark hmark)

section Lists

variable {Item : Type} {write : Item → List Char} {items items' : List Item}
variable {separator close : Char} {gap rest rest' : List Char}

/-- Where a separator or the closing mark follows, the texts of the items tell them apart. -/
def ReadApart (separator close : Char) (write : Item → List Char) (item item' : Item) : Prop :=
  ∀ rest rest', GoesOn [separator, close] rest → GoesOn [separator, close] rest' →
    write item ++ rest = write item' ++ rest' → item = item' ∧ rest = rest'

theorem ReadApart.of_notMem (hinjective : Function.Injective write)
    (hmarks : ∀ item, separator ∉ write item ∧ close ∉ write item) (item item' : Item) :
    ReadApart separator close write item item' := by
  intro rest rest' hrest hrest' hsame
  have hfree (item : Item) : ∀ mark ∈ [separator, close], mark ∉ write item := by
    simpa using hmarks item
  obtain ⟨hitem, hafter⟩ := append_inj_of_goesOn (hfree item) (hfree item') hrest hrest' hsame
  exact ⟨hinjective hitem, hafter⟩

/-- Items behind separators, and then the closing mark. -/
def closing (separator : Char) (gap : List Char) (close : Char) (write : Item → List Char)
    (items : List Item) (rest : List Char) : List Char :=
  items.flatMap (fun item => separator :: (gap ++ write item)) ++ close :: rest

theorem closing_cons (item : Item) : closing separator gap close write (item :: items) rest =
    separator :: (gap ++ (write item ++ closing separator gap close write items rest)) := by
  simp [closing]

theorem goesOn_closing :
    GoesOn [separator, close] (closing separator gap close write items rest) := by
  cases items with
  | nil => exact .intro (by simp) rest
  | cons item items =>
      rw [closing_cons]
      exact .intro (by simp) _

theorem intercalate_append_close (item : Item) :
    (separator :: gap).intercalate ((item :: items).map write) ++ close :: rest =
      write item ++ closing separator gap close write items rest := by
  induction items generalizing item with
  | nil => simp [closing]
  | cons next items ih =>
      rw [List.map_cons, List.map_cons, List.intercalate_cons_cons, closing_cons, ← ih next]
      simp

theorem closing_inj (hmarks : separator ≠ close)
    (hread : ∀ item ∈ items, ∀ item' ∈ items', ReadApart separator close write item item')
    (hsame : closing separator gap close write items rest =
      closing separator gap close write items' rest') : items = items' ∧ rest = rest' := by
  induction items generalizing items' with
  | nil => cases items' with
    | nil => exact ⟨rfl, (List.cons.inj hsame).2⟩
    | cons item' items' =>
        rw [closing_cons] at hsame
        exact absurd (List.cons.inj hsame).1.symm hmarks
  | cons item items ih => cases items' with
    | nil =>
        rw [closing_cons] at hsame
        exact absurd (List.cons.inj hsame).1 hmarks
    | cons item' items' =>
        rw [closing_cons, closing_cons, List.cons_inj_right, List.append_cancel_left_eq] at hsame
        have hitems := fun other hother other' hother' =>
          hread other (List.mem_cons_of_mem item hother) other' (List.mem_cons_of_mem item' hother')
        obtain ⟨rfl, hothers⟩ := hread item List.mem_cons_self item' List.mem_cons_self _ _
          goesOn_closing goesOn_closing hsame
        obtain ⟨rfl, hrest⟩ := ih hitems hothers
        exact ⟨rfl, hrest⟩

/-- A separated list is read back up to its closing mark, which begins none of its items. -/
theorem intercalate_inj (hmarks : separator ≠ close)
    (hread : ∀ item ∈ items, ∀ item' ∈ items', ReadApart separator close write item item')
    (hopen : ∀ item ∈ items ++ items', ∃ head tail, write item = head :: tail ∧ head ≠ close)
    (hsame : (separator :: gap).intercalate (items.map write) ++ close :: rest =
      (separator :: gap).intercalate (items'.map write) ++ close :: rest') :
    items = items' ∧ rest = rest' := by
  cases items with
  | nil => cases items' with
    | nil => exact ⟨rfl, by simpa using hsame⟩
    | cons item' items' =>
        obtain ⟨head, tail, hwrite, hhead⟩ := hopen item' (by simp)
        rw [intercalate_append_close, hwrite] at hsame
        exact absurd (List.cons.inj hsame).1.symm hhead
  | cons item items => cases items' with
    | nil =>
        obtain ⟨head, tail, hwrite, hhead⟩ := hopen item (by simp)
        rw [intercalate_append_close, hwrite] at hsame
        exact absurd (List.cons.inj hsame).1 hhead
    | cons item' items' =>
        have hclosing : closing separator gap close write (item :: items) rest =
            closing separator gap close write (item' :: items') rest' := by
          rw [closing_cons, closing_cons, ← intercalate_append_close, hsame,
            intercalate_append_close]
        exact closing_inj hmarks hread hclosing

/-- Items that contain neither mark are read back. -/
theorem intercalate_inj_of_notMem (hmarks : separator ≠ close)
    (hinjective : Function.Injective write)
    (hclosed : ∀ item, separator ∉ write item ∧ close ∉ write item) (hne : ∀ item, write item ≠ [])
    (hsame : (separator :: gap).intercalate (items.map write) ++ close :: rest =
      (separator :: gap).intercalate (items'.map write) ++ close :: rest') :
    items = items' ∧ rest = rest' := by
  refine intercalate_inj hmarks
    (fun item _ item' _ => .of_notMem hinjective hclosed item item') (fun item _ => ?_) hsame
  obtain ⟨head, tail, hwrite⟩ := List.exists_cons_of_ne_nil (hne item)
  refine ⟨head, tail, hwrite, ?_⟩
  rintro rfl
  exact (hclosed item).2 (by simp [hwrite])

end Lists

section Numbers

theorem isDigit_of_mem_toString {number : Nat} {char : Char}
    (hmem : char ∈ (toString number).toList) : char.isDigit := by
  rw [Nat.toString_eq_ofList_toDigits, String.toList_ofList] at hmem
  exact Nat.isDigit_of_mem_toDigits (by decide) (by decide) hmem

theorem isDigit_or_minus_of_mem_toString {number : Int} {char : Char}
    (hmem : char ∈ (toString number).toList) : char.isDigit ∨ char = '-' := by
  rw [Int.toString_eq_repr, Int.repr_eq_if] at hmem
  split at hmem
  next => exact Or.inl (isDigit_of_mem_toString hmem)
  next =>
    rcases List.mem_append.mp (String.toList_append ▸ hmem) with hmem | hmem
    · exact Or.inr (List.mem_singleton.mp hmem)
    · exact Or.inl (isDigit_of_mem_toString hmem)

theorem toString_ne_empty (number : Int) : toString number ≠ "" := by
  rw [Int.toString_eq_repr, Int.repr_eq_if]
  split
  next => exact Nat.repr_ne_empty
  next => simp

end Numbers

section Lines

/-- The text contains no line break. -/
def OneLine (text : String) : Prop := '\n' ∉ text.toList

variable {lines lines' : List String}

theorem oneLine_append (left right : String) :
    OneLine (left ++ right) ↔ OneLine left ∧ OneLine right := by
  simp [OneLine]

theorem oneLine_intercalate {gap : String} (hgap : OneLine gap)
    (hlines : ∀ line ∈ lines, OneLine line) : OneLine (gap.intercalate lines) := by
  induction lines with
  | nil => simp [OneLine]
  | cons line lines ih =>
      obtain ⟨hline, hlines⟩ := List.forall_mem_cons.mp hlines
      cases lines with
      | nil => simpa using hline
      | cons next lines =>
          rw [String.intercalate_cons_cons, oneLine_append, oneLine_append]
          exact ⟨⟨hline, hgap⟩, ih hlines⟩

theorem oneLine_natural (number : Nat) : OneLine (toString number) :=
  fun hmem => absurd (isDigit_of_mem_toString hmem) (by decide)

theorem oneLine_integer (number : Int) : OneLine (toString number) :=
  fun hmem => absurd (isDigit_or_minus_of_mem_toString hmem) (by decide)

theorem intercalate_ne_empty {gap line : String} (hline : line ≠ "") (lines : List String) :
    gap.intercalate (line :: lines) ≠ "" := by
  cases lines with
  | nil => simpa using hline
  | cons next lines =>
      rw [String.intercalate_cons_cons]
      simp [hline]

/-- Lines are read back from a text, unless one is empty or contains a line break. -/
theorem lines_inj (hlines : ∀ line ∈ lines, line ≠ "" ∧ OneLine line)
    (hlines' : ∀ line ∈ lines', line ≠ "" ∧ OneLine line)
    (hsame : "\n".intercalate lines = "\n".intercalate lines') : lines = lines' := by
  have hread {lines : List String} (hlines : ∀ line ∈ lines, line ≠ "" ∧ OneLine line)
      (hne : lines ≠ []) :
      ("\n".intercalate lines).toList.splitOn '\n' = lines.map String.toList := by
    rw [String.toList_intercalate]
    refine List.splitOn_intercalate '\n' ?_ (by simpa using hne)
    exact List.forall_mem_map.mpr fun line hmem => (hlines line hmem).2
  cases lines with
  | nil => cases lines' with
    | nil => rfl
    | cons line' lines' =>
        exact absurd hsame.symm (intercalate_ne_empty (hlines' line' List.mem_cons_self).1 _)
  | cons line lines => cases lines' with
    | nil => exact absurd hsame (intercalate_ne_empty (hlines line List.mem_cons_self).1 _)
    | cons line' lines' =>
        have hchars := hread hlines (List.cons_ne_nil _ _)
        rw [hsame, hread hlines' (List.cons_ne_nil _ _)] at hchars
        exact (List.map_inj_right fun _ _ => String.toList_inj.mp).mp hchars.symm

end Lines

end TensorGraph.Text
