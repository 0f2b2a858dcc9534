import Mathlib.Data.List.Forall2
import Mathlib.Data.List.Zip

/-! # Lists related position by position

What is known of two lists from what is known of their entries at the same
position, and pairs of such entries.
-/

namespace TensorGraph.ListRelations

variable {α β γ : Type}

theorem exists_forall₂ {R : α → β → Prop} {items : List α}
    (hitems : ∀ item ∈ items, ∃ answer, R item answer) :
    ∃ answers, List.Forall₂ R items answers := by
  induction items with
  | nil => exact ⟨[], .nil⟩
  | cons item items ih =>
      obtain ⟨answer, hanswer⟩ := hitems item List.mem_cons_self
      obtain ⟨answers, hrest⟩ := ih fun other hmem => hitems other (List.mem_cons_of_mem _ hmem)
      exact ⟨answer :: answers, .cons hanswer hrest⟩

theorem forall₂_getElem? {R : α → β → Prop} {items : List α} {answers : List β}
    (hall : List.Forall₂ R items answers) {position : Nat} {item : α}
    (hitem : items[position]? = some item) :
    ∃ answer, answers[position]? = some answer ∧ R item answer := by
  induction hall generalizing position with
  | nil => simp at hitem
  | cons hfirst _ ih =>
      cases position with
      | zero =>
          obtain rfl := Option.some.inj hitem
          exact ⟨_, rfl, hfirst⟩
      | succ position => exact ih hitem

theorem forall₂_concat_iff {R : α → β → Prop} (items : List α) (last : α) (answers : List β) :
    List.Forall₂ R (items ++ [last]) answers ↔
      ∃ front answer, List.Forall₂ R items front ∧ R last answer ∧ answers = front ++ [answer] := by
  constructor
  · intro hall
    induction items generalizing answers with
    | nil =>
        obtain ⟨answer, rest, hlast, hnil, rfl⟩ := List.forall₂_cons_left_iff.mp hall
        obtain rfl := List.forall₂_nil_left_iff.mp hnil
        exact ⟨[], answer, .nil, hlast, rfl⟩
    | cons item items ih =>
        obtain ⟨first, rest, hfirst, hrest, rfl⟩ := List.forall₂_cons_left_iff.mp hall
        obtain ⟨front, answer, hfront, hlast, rfl⟩ := ih rest hrest
        exact ⟨first :: front, answer, .cons hfirst hfront, hlast, rfl⟩
  · rintro ⟨front, answer, hfront, hlast, rfl⟩
    exact List.rel_append hfront (.cons hlast .nil)

/-- Items and answers that meet in a middle each are related through a list of these. -/
theorem exists_between {R : α → γ → Prop} {S : β → γ → Prop} {items : List α}
    {answers : List β}
    (hall : List.Forall₂ (fun item answer => ∃ middle, R item middle ∧ S answer middle)
      items answers) :
    ∃ middles, List.Forall₂ R items middles ∧ List.Forall₂ S answers middles := by
  induction hall with
  | nil => exact ⟨[], .nil, .nil⟩
  | cons hfirst _ ih =>
      obtain ⟨middle, hitem, hanswer⟩ := hfirst
      obtain ⟨middles, hitems, hanswers⟩ := ih
      exact ⟨middle :: middles, .cons hitem hitems, .cons hanswer hanswers⟩

/-- Answers are fixed position by position if any two of related items agree. -/
theorem forall₂_unique {R : α → γ → Prop} {S : β → γ → Prop} {items : List α}
    {others : List β} {answers answers' : List γ} (hanswers : List.Forall₂ R items answers)
    (hanswers' : List.Forall₂ S others answers')
    (hunique : List.Forall₂ (fun item other => ∀ answer answer', R item answer → S other answer' →
      answer = answer') items others) : answers = answers' := by
  induction hunique generalizing answers answers' with
  | nil =>
      cases hanswers
      cases hanswers'
      rfl
  | cons hfirst _ ih =>
      cases hanswers with | cons hanswer hrest => ?_
      cases hanswers' with | cons hanswer' hrest' => ?_
      rw [hfirst _ _ hanswer hanswer', ih hrest hrest']

/-- Items at the same position of lists with the same answers share an answer. -/
theorem exists_common_of_mem_zip {R : α → γ → Prop} {S : β → γ → Prop} {items : List α}
    {others : List β} {answers : List γ} (hanswers : List.Forall₂ R items answers)
    (hanswers' : List.Forall₂ S others answers) {item : α} {other : β}
    (hmem : (item, other) ∈ items.zip others) : ∃ answer, R item answer ∧ S other answer := by
  obtain ⟨position, hposition⟩ := List.getElem?_of_mem hmem
  obtain ⟨hitem, hother⟩ := List.getElem?_zip_eq_some.mp hposition
  obtain ⟨answer, hanswer, hleft⟩ := forall₂_getElem? hanswers hitem
  obtain ⟨answer', hanswer', hright⟩ := forall₂_getElem? hanswers' hother
  obtain rfl : answer = answer' := Option.some.inj (hanswer.symm.trans hanswer')
  exact ⟨answer, hleft, hright⟩

/-- Zipping the other way round pairs the same entries. -/
theorem mem_zip_swap {left : List α} {right : List β} {x : α} {y : β} :
    (y, x) ∈ right.zip left ↔ (x, y) ∈ left.zip right := by
  rw [← List.zip_swap left right, List.mem_map]
  constructor
  · rintro ⟨pair, hmem, hswap⟩
    obtain rfl : pair = (x, y) := by rw [← Prod.swap_swap pair, hswap, Prod.swap_prod_mk]
    exact hmem
  · exact fun hmem => ⟨(x, y), hmem, rfl⟩

/-- Zipped with its image, a list pairs its entries with their images. -/
theorem mem_zip_map {f : α → β} {items : List α} {x : α} {y : β} :
    (x, y) ∈ items.zip (items.map f) ↔ x ∈ items ∧ f x = y := by
  have hzip : items.zip (items.map f) = items.map fun item => (item, f item) := by
    rw [← List.zip_map', List.map_id']
  simp [hzip]

theorem exists_mem_zip {left : List α} {right : List β}
    (hlength : left.length = right.length) {x : α} (hmem : x ∈ left) :
    ∃ y, (x, y) ∈ left.zip right := by
  rw [← List.map_fst_zip (Nat.le_of_eq hlength)] at hmem
  obtain ⟨⟨x', y⟩, hzip, rfl⟩ := List.mem_map.mp hmem
  exact ⟨y, hzip⟩

/-- What stands in front of an entry of an increasing list is what is smaller. -/
theorem mem_front_iff {front rest : List Nat} {entry : Nat}
    (hsorted : (front ++ entry :: rest).Pairwise (· < ·)) (x : Nat) :
    x ∈ front ↔ x ∈ front ++ entry :: rest ∧ x < entry := by
  obtain ⟨_, hrest, hacross⟩ := List.pairwise_append.mp hsorted
  constructor
  · exact fun hx => ⟨List.mem_append_left _ hx, hacross x hx entry List.mem_cons_self⟩
  · rintro ⟨hx, hlt⟩
    rcases List.mem_append.mp hx with hx | hx
    · exact hx
    · rcases List.mem_cons.mp hx with rfl | hx
      · exact absurd hlt (Nat.lt_irrefl _)
      · exact absurd ((List.pairwise_cons.mp hrest).1 x hx) (Nat.lt_asymm hlt)

/-- If the first entries are related and the relation keeps the order, it covers the rest of one
list by the rest of the other. -/
theorem covered_tail {R : Nat → Nat → Prop} {x y : Nat} {left right : List Nat}
    (hfirst : R x y) (hleast : ∀ x' ∈ left, x < x')
    (horder : ∀ x y x' y', R x y → R x' y' → x < x' → y < y')
    (hcovered : ∀ x' ∈ x :: left, ∃ y' ∈ y :: right, R x' y') :
    ∀ x' ∈ left, ∃ y' ∈ right, R x' y' := by
  intro x' hx'
  obtain ⟨y', hy', hrelated⟩ := hcovered x' (List.mem_cons_of_mem _ hx')
  rcases List.mem_cons.mp hy' with rfl | hy'
  · have hlt := horder x y' x' y' hfirst hrelated (hleast x' hx')
    exact absurd hlt (Nat.lt_irrefl _)
  · exact ⟨y', hy', hrelated⟩

/-- Two increasing lists that a relation covers on both sides are related position by position if
the relation keeps the order. -/
theorem forall₂_of_sorted {R : Nat → Nat → Prop} {left right : List Nat}
    (hleft : left.Pairwise (· < ·)) (hright : right.Pairwise (· < ·))
    (hcovered : ∀ x ∈ left, ∃ y ∈ right, R x y) (hcovering : ∀ y ∈ right, ∃ x ∈ left, R x y)
    (horder : ∀ x y x' y', R x y → R x' y' → (x < x' ↔ y < y')) :
    List.Forall₂ R left right := by
  induction left generalizing right with
  | nil =>
      cases right with
      | nil => exact .nil
      | cons y right =>
          obtain ⟨x, hx, _⟩ := hcovering y List.mem_cons_self
          cases hx
  | cons x left ih =>
      cases right with
      | nil =>
          obtain ⟨y, hy, _⟩ := hcovered x List.mem_cons_self
          cases hy
      | cons y right =>
          obtain ⟨hx, hleft⟩ := List.pairwise_cons.mp hleft
          obtain ⟨hy, hright⟩ := List.pairwise_cons.mp hright
          -- the partner of the least number on either side has to be the least on the other
          have hfirst : R x y := by
            obtain ⟨y', hy', hxy'⟩ := hcovered x List.mem_cons_self
            obtain ⟨x', hx', hx'y⟩ := hcovering y List.mem_cons_self
            rcases List.mem_cons.mp hy' with rfl | hy'
            · exact hxy'
            rcases List.mem_cons.mp hx' with rfl | hx'
            · exact hx'y
            have hlt := (horder x' y x y' hx'y hxy').mpr (hy y' hy')
            exact absurd (hx x' hx') (Nat.lt_asymm hlt)
          refine .cons hfirst (ih hleft hright ?_ ?_)
          · exact covered_tail hfirst hx (fun _ _ _ _ h h' => (horder _ _ _ _ h h').mp) hcovered
          · exact covered_tail (R := fun y x => R x y) hfirst hy
              (fun _ _ _ _ h h' => (horder _ _ _ _ h h').mpr) hcovering

section Lookup

variable [BEq α] [LawfulBEq α] {entries : List (α × β)} {key : α} {value : β}

theorem mem_of_lookup (hlookup : entries.lookup key = some value) : (key, value) ∈ entries := by
  obtain ⟨front, rest, rfl, _⟩ := List.lookup_eq_some_iff.mp hlookup
  exact List.mem_append_right _ List.mem_cons_self

theorem exists_lookup (hkey : key ∈ entries.map Prod.fst) :
    ∃ value, entries.lookup key = some value := by
  obtain ⟨entry, hmem, rfl⟩ := List.mem_map.mp hkey
  exact Option.isSome_iff_exists.mp (List.lookup_isSome_iff.mpr ⟨entry, hmem, BEq.rfl⟩)

omit [BEq α] [LawfulBEq α] in
/-- With one entry for each key, all entries around one are of other keys. -/
theorem exists_around (hkeys : (entries.map Prod.fst).Nodup) (hmem : (key, value) ∈ entries) :
    ∃ front rest, entries = front ++ (key, value) :: rest ∧
      ∀ entry ∈ front ++ rest, entry.1 ≠ key := by
  obtain ⟨front, rest, rfl⟩ := List.append_of_mem hmem
  refine ⟨front, rest, rfl, fun entry hentry heq => ?_⟩
  rw [(List.perm_middle.map Prod.fst).nodup_iff, List.map_cons, List.nodup_cons] at hkeys
  exact hkeys.1 (List.mem_map.mpr ⟨entry, hentry, heq⟩)

theorem lookup_of_mem (hkeys : (entries.map Prod.fst).Nodup) (hmem : (key, value) ∈ entries) :
    entries.lookup key = some value := by
  obtain ⟨front, rest, rfl, hothers⟩ := exists_around hkeys hmem
  refine List.lookup_eq_some_iff.mpr ⟨front, rest, rfl, fun entry hentry => ?_⟩
  exact bne_iff_ne.mpr (hothers entry (List.mem_append_left _ hentry)).symm

end Lookup

end TensorGraph.ListRelations
