import TensorGraph.Node
import TensorGraph.Proofs.Digest
import TensorGraph.Proofs.Text.Reading

/-! # Reading shapes back

The text of a shape is read back from the front of any longer text: an element type ends at its
bracket, dimensions end at commas and at the bracket that closes them, and a tuple ends where the
last of its entries ends.
-/

namespace TensorGraph

namespace ElementType

variable {elementType other : ElementType}

/-- A name contains no mark that has a meaning in the text of a shape or of a line. -/
theorem notMem_name (hstandard : elementType ∈ standard) :
    ∀ mark ∈ ['[', '(', ')', '\n'], mark ∉ elementType.name.toList := by
  revert elementType
  simp [standard, pred, float16, bfloat16, float32, float64, int8, int16, int32, int64, uint8,
    uint16, uint32, uint64, token]

theorem name_ne_nil (hstandard : elementType ∈ standard) : elementType.name.toList ≠ [] := by
  have hnamed : ∀ elementType ∈ standard, elementType.name ≠ "" := by decide +kernel
  exact mt String.toList_eq_nil_iff.mp (hnamed elementType hstandard)

theorem eq_of_name (hstandard : elementType ∈ standard) (hother : other ∈ standard)
    (hname : elementType.name = other.name) : elementType = other := by
  have hdistinct : ∀ one ∈ standard, ∀ other ∈ standard, one.name = other.name → one = other := by
    decide +kernel
  exact hdistinct elementType hstandard other hother hname

end ElementType

namespace Shape

open Text

/-- Every array in the shape has an element type known by name. -/
inductive Standard : Shape → Prop
  | array {elementType : ElementType} {dims : List Int}
      (hstandard : elementType ∈ ElementType.standard) : Standard (.array elementType dims)
  | tuple {elements : List Shape} (helements : ∀ element ∈ elements, element.Standard) :
      Standard (.tuple elements)

section Dimensions

theorem mem_dimensionText {size : Int} {char : Char} (hmem : char ∈ (dimensionText size).toList) :
    char.isDigit ∨ char = '-' ∨ char = '?' := by
  rw [dimensionText] at hmem
  split at hmem
  next => exact Or.inr (Or.inr (List.mem_singleton.mp hmem))
  next => exact (isDigit_or_minus_of_mem_toString hmem).imp_right Or.inl

theorem dimensionText_ne_nil (size : Int) : (dimensionText size).toList ≠ [] := by
  rw [dimensionText]
  split
  next => decide
  next => exact mt String.toList_eq_nil_iff.mp (toString_ne_empty size)

theorem dimensionText_injective : Function.Injective fun size => (dimensionText size).toList := by
  have hmark {size : Int} : (toString size).toList ≠ "?".toList := by
    intro hsame
    have hmem : '?' ∈ (toString size).toList := by
      rw [hsame]
      exact List.mem_singleton_self '?'
    exact absurd (isDigit_or_minus_of_mem_toString hmem) (by decide)
  intro size size' hsame
  simp only [dimensionText] at hsame
  split at hsame <;> split at hsame
  next hsize hsize' => rw [hsize, hsize']
  next => exact absurd hsame.symm hmark
  next => exact absurd hsame hmark
  next => exact Int.repr_inj.mp (String.toList_inj.mp hsame)

end Dimensions

theorem textAll_eq_map (shapes : List Shape) : textAll shapes = shapes.map text := by
  induction shapes with
  | nil => rfl
  | cons shape shapes ih => rw [textAll, ih, List.map_cons]

theorem toList_text_array (elementType : ElementType) (dims : List Int) :
    (array elementType dims).text.toList = elementType.name.toList ++
      '[' :: ([','].intercalate (dims.map fun size => (dimensionText size).toList) ++ [']']) := by
  simp [text, String.toList_intercalate, Function.comp_def]

theorem toList_text_tuple (elements : List Shape) :
    (tuple elements).text.toList =
      '(' ::
        ([',', ' '].intercalate (elements.map fun element => element.text.toList) ++ [')']) := by
  simp [text, textAll_eq_map, String.toList_intercalate, Function.comp_def]

variable {shape other : Shape} {rest rest' : List Char}

theorem Standard.exists_text_eq_cons (hstandard : shape.Standard) :
    ∃ head tail, shape.text.toList = head :: tail ∧ head ≠ ')' := by
  cases hstandard with
  | @array elementType dims hstandard =>
      obtain ⟨head, tail, hname⟩ := List.exists_cons_of_ne_nil (ElementType.name_ne_nil hstandard)
      refine ⟨head, _, by rw [toList_text_array, hname, List.cons_append], ?_⟩
      rintro rfl
      exact ElementType.notMem_name hstandard ')' (by simp) (by simp [hname])
  | tuple _ => exact ⟨_, _, toList_text_tuple _, by decide⟩

/-- Dimensions are read back up to the bracket behind them. -/
theorem dims_append_inj {dims dims' : List Int}
    (hsame : [','].intercalate (dims.map fun size => (dimensionText size).toList) ++ ']' :: rest =
      [','].intercalate (dims'.map fun size => (dimensionText size).toList) ++ ']' :: rest') :
    dims = dims' ∧ rest = rest' := by
  have hclosed (size : Int) :
      ',' ∉ (dimensionText size).toList ∧ ']' ∉ (dimensionText size).toList :=
    ⟨fun hmem => absurd (mem_dimensionText hmem) (by decide),
      fun hmem => absurd (mem_dimensionText hmem) (by decide)⟩
  exact intercalate_inj_of_notMem (by decide) dimensionText_injective hclosed dimensionText_ne_nil
    hsame

/-- No tuple is written like an array. -/
theorem array_text_append_ne {elementType : ElementType} {dims : List Int} {elements : List Shape}
    (hstandard : elementType ∈ ElementType.standard) :
    (array elementType dims).text.toList ++ rest ≠ (tuple elements).text.toList ++ rest' := by
  obtain ⟨head, tail, hname⟩ := List.exists_cons_of_ne_nil (ElementType.name_ne_nil hstandard)
  rw [toList_text_array, toList_text_tuple, hname]
  intro hsame
  obtain rfl := (List.cons.inj hsame).1
  exact ElementType.notMem_name hstandard '(' (by simp) (by simp [hname])

/-- The text of a shape shows where it ends. -/
theorem Standard.text_append_inj (hstandard : shape.Standard) (hother : other.Standard)
    (hsame : shape.text.toList ++ rest = other.text.toList ++ rest') :
    shape = other ∧ rest = rest' := by
  induction hstandard generalizing other rest rest' with
  | @array elementType dims helement =>
      cases hother with
      | @array elementType' dims' helement' =>
          simp only [toList_text_array, List.append_assoc, List.cons_append,
            List.nil_append] at hsame
          have hbracket {elementType : ElementType}
              (hstandard : elementType ∈ ElementType.standard) :
              ∀ mark ∈ ['['], mark ∉ elementType.name.toList := by
            simpa using ElementType.notMem_name hstandard '[' (by simp)
          obtain ⟨hname, hdims⟩ := append_inj_of_goesOn (hbracket helement) (hbracket helement')
            (.intro List.mem_cons_self _) (.intro List.mem_cons_self _) hsame
          obtain rfl := ElementType.eq_of_name helement helement' (String.toList_inj.mp hname)
          obtain ⟨rfl, hrest⟩ := dims_append_inj (List.cons.inj hdims).2
          exact ⟨rfl, hrest⟩
      | tuple _ => exact absurd hsame (array_text_append_ne helement)
  | @tuple elements helements ih =>
      cases hother with
      | array helement' => exact absurd hsame.symm (array_text_append_ne helement')
      | @tuple elements' helements' =>
          simp only [toList_text_tuple, List.append_assoc, List.cons_append, List.nil_append,
            List.cons_inj_right] at hsame
          have hopen : ∀ element ∈ elements ++ elements', ∃ head tail,
              element.text.toList = head :: tail ∧ head ≠ ')' :=
            List.forall_mem_append.mpr
              ⟨fun element hmem => (helements element hmem).exists_text_eq_cons,
                fun element hmem => (helements' element hmem).exists_text_eq_cons⟩
          -- entries end by themselves, so what follows one of them does not matter
          obtain ⟨rfl, hrest⟩ := intercalate_inj (by decide) (fun element hmem element' hmem' =>
            fun _ _ _ _ hsame => ih element hmem (helements' element' hmem') hsame) hopen hsame
          exact ⟨rfl, hrest⟩

theorem oneLine_dimensionText (size : Int) : OneLine (dimensionText size) :=
  fun hmem => absurd (mem_dimensionText hmem) (by decide)

theorem Standard.oneLine_text (hstandard : shape.Standard) : OneLine shape.text := by
  induction hstandard with
  | @array elementType dims helement =>
      have hname : OneLine elementType.name := ElementType.notMem_name helement '\n' (by simp)
      have hdims : OneLine (",".intercalate (dims.map dimensionText)) :=
        oneLine_intercalate (by simp [OneLine])
          (List.forall_mem_map.mpr fun size _ => oneLine_dimensionText size)
      simp only [text, oneLine_append]
      exact ⟨⟨⟨hname, by simp [OneLine]⟩, hdims⟩, by simp [OneLine]⟩
  | @tuple elements _ ih =>
      have hentries : OneLine (", ".intercalate (elements.map text)) :=
        oneLine_intercalate (by simp [OneLine]) (List.forall_mem_map.mpr ih)
      simp only [text, textAll_eq_map, oneLine_append]
      exact ⟨⟨by simp [OneLine], hentries⟩, by simp [OneLine]⟩

/-- Shapes with standard element types have the same text only if they are equal, whatever their
dimensions and however they are nested. Given to nodes with the same kind and seed, different shapes
therefore lead to the same own digest only if the digests of two different texts agree. -/
theorem text_determines_shape (hshape : shape.Standard) (hother : other.Standard) :
    (shape.text = other.text ↔ shape = other) ∧
      ∀ kind seed,
        Node.digestOf kind seed (some shape) = Node.digestOf kind seed (some other) ↔
          shape = other ∨ shape.text ≠ other.text ∧
            (Digest.ofText shape.text).combine seed = (Digest.ofText other.text).combine seed := by
  have htext : shape.text = other.text ↔ shape = other := by
    constructor
    · intro hsame
      have hchars := congrArg (·.toList ++ ([] : List Char)) hsame
      exact (hshape.text_append_inj hother hchars).1
    · intro hequal
      rw [hequal]
  refine ⟨htext, fun kind seed => ?_⟩
  rw [Node.digestOf, Node.digestOf, Digest.combine_inj]
  by_cases hequal : shape = other
  · simp [hequal]
  · simp [hequal, htext]

/-- Nesting, empty tuples and the mark of an unbounded dimension are all seen in the text. -/
theorem text_determines_shape_nested :
    let array : Shape := .array .float32 [-2, unboundedSize]
    let inner : Shape := .tuple [.tuple [array, .token], .tuple []]
    let outer : Shape := .tuple [.tuple [array], .token, .tuple []]
    inner.Standard ∧ outer.Standard ∧ inner.text ≠ outer.text := by
  intro array inner outer
  have harray : array.Standard := .array (by simp [ElementType.standard])
  have htoken : Standard .token := .array (by simp [ElementType.standard])
  have hinner : inner.Standard := .tuple (by simp [harray, htoken, Standard.tuple])
  have houter : outer.Standard := .tuple (by simp [harray, htoken, Standard.tuple])
  exact ⟨hinner, houter, mt (text_determines_shape hinner houter).1.mp (by decide)⟩

end Shape

end TensorGraph
