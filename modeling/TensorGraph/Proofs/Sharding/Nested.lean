import Mathlib.Data.List.Basic
import TensorGraph.Proofs.Graph.AnnotationSteps
import TensorGraph.Proofs.Graph.Identity
import TensorGraph.Proofs.Sharding.Words
import TensorGraph.Workspace

/-! # The words of nested annotations

The words of a tuple stand in front of those of its elements, and nothing says how many elements
there are. They give the forms in the order in which these occur and not the tuple to which an
element belongs, unless no tuple inside is followed by anything.
-/

namespace TensorGraph

namespace Sharding

/-- Tuples of replicated and manual annotations and of further tuples. -/
inductive Nested : Sharding → Prop
  | replicated : Nested replicated
  | manual : Nested manual
  | tuple {elements : List Sharding} (helements : ∀ element ∈ elements, element.Nested) :
      Nested (tuple elements)

mutual

/-- The forms that occur, each tuple in front of its elements. -/
def forms : Sharding → List ShardingKind
  | ⟨kind, _, _, _, _, elements⟩ => kind :: formsAll elements

def formsAll : List Sharding → List ShardingKind
  | [] => []
  | sharding :: shardings => sharding.forms ++ formsAll shardings

end

/-- The words of an annotation without numbers, flag and elements. -/
def formWords (kind : ShardingKind) : List Digest :=
  [(kindDatum kind).digest, (Datum.flag false).digest]

/-- An annotation of a form without anything else. -/
def bare (kind : ShardingKind) : Sharding := { kind }

@[simp]
theorem forms_bare (kind : ShardingKind) : (bare kind).forms = [kind] := rfl

@[simp]
theorem forms_tuple (elements : List Sharding) :
    (tuple elements).forms = .tuple :: formsAll elements := by
  rw [tuple, forms]

theorem forms_ne_nil (sharding : Sharding) : sharding.forms ≠ [] := by
  obtain ⟨_, _, _, _, _, _⟩ := sharding
  simp [forms]

theorem formsAll_eq_flatMap (shardings : List Sharding) :
    formsAll shardings = shardings.flatMap forms := by
  induction shardings with
  | nil => rfl
  | cons sharding shardings ih => rw [formsAll, ih, List.flatMap_cons]

theorem formsAll_cons (sharding : Sharding) (shardings : List Sharding) :
    formsAll (sharding :: shardings) = sharding.forms ++ formsAll shardings := rfl

theorem formsAll_eq_nil_iff (shardings : List Sharding) :
    formsAll shardings = [] ↔ shardings = [] := by
  cases shardings with
  | nil => simp [formsAll]
  | cons sharding shardings => simp [formsAll_cons, forms_ne_nil]

theorem formsAll_map_bare (kinds : List ShardingKind) : formsAll (kinds.map bare) = kinds := by
  rw [formsAll_eq_flatMap, List.flatMap_map]
  exact List.flatMap_singleton' kinds

section Words

/-- The words of nested annotations are those of the forms that occur. -/
theorem Nested.words_eq {sharding : Sharding} (hnested : sharding.Nested) :
    sharding.words = sharding.forms.flatMap formWords := by
  induction hnested with
  | replicated => rfl
  | manual => rfl
  | @tuple elements _ ih =>
      have hall : wordsAll elements = (formsAll elements).flatMap formWords := by
        rw [wordsAll_eq_flatMap, formsAll_eq_flatMap, List.flatMap_assoc]
        exact List.flatMap_congr ih
      rw [Sharding.words_eq, forms_tuple, List.flatMap_cons, ← hall]
      rfl

theorem flatMap_formWords_inj (kinds kinds' : List ShardingKind) :
    kinds.flatMap formWords = kinds'.flatMap formWords ↔ kinds = kinds' := by
  refine ⟨fun hsame => ?_, fun hkinds => by rw [hkinds]⟩
  induction kinds generalizing kinds' with
  | nil => cases kinds' with
    | nil => rfl
    | cons kind' kinds' => cases hsame
  | cons kind kinds ih => cases kinds' with
    | nil => cases hsame
    | cons kind' kinds' =>
        obtain ⟨hkind, hrest⟩ := List.cons.inj hsame
        rw [(digest_kindDatum_inj kind kind').mp hkind, ih kinds' (List.cons.inj hrest).2]

/-- Nested annotations have the same words exactly if the same forms occur in them in the same
order. -/
theorem Nested.words_eq_iff {left right : Sharding} (hleft : left.Nested)
    (hright : right.Nested) : left.words = right.words ↔ left.forms = right.forms := by
  rw [hleft.words_eq, hright.words_eq, flatMap_formWords_inj]

end Words

section Unique

/-- Every form that occurs in a nested annotation is one on its own. -/
theorem Nested.nested_bare {sharding : Sharding} (hnested : sharding.Nested) :
    ∀ kind ∈ sharding.forms, (bare kind).Nested := by
  induction hnested with
  | replicated =>
      intro kind hmem
      obtain rfl := List.mem_singleton.mp hmem
      exact .replicated
  | manual =>
      intro kind hmem
      obtain rfl := List.mem_singleton.mp hmem
      exact .manual
  | @tuple elements _ ih =>
      rw [forms_tuple, formsAll_eq_flatMap]
      intro kind hmem
      rcases List.mem_cons.mp hmem with rfl | hmem
      · exact .tuple fun _ hnone => absurd hnone List.not_mem_nil
      · obtain ⟨element, helement, hkind⟩ := List.mem_flatMap.mp hmem
        exact ih element helement kind hkind

/-- If no tuple is followed by anything, then none of the elements has elements. -/
theorem eq_map_bare {elements : List Sharding} (hnested : ∀ element ∈ elements, element.Nested)
    (hlast : .tuple ∉ (formsAll elements).dropLast) :
    elements = (formsAll elements).map bare := by
  induction elements with
  | nil => rfl
  | cons element elements ih =>
      have hrest := fun other hmem => hnested other (List.mem_cons_of_mem element hmem)
      -- without elements of its own, an element stands for its form and the rest is as before
      have hleaf (kind : ShardingKind) (helement : element = bare kind) :
          element :: elements = (formsAll (element :: elements)).map bare := by
        rw [formsAll_cons, helement, forms_bare, List.singleton_append, List.map_cons, ← ih hrest]
        rw [formsAll_cons, helement, forms_bare, List.singleton_append] at hlast
        exact fun hmem => hlast (List.mem_of_mem_tail (by rwa [List.tail_dropLast]))
      cases hnested element List.mem_cons_self with
      | replicated => exact hleaf .replicated rfl
      | manual => exact hleaf .manual rfl
      | @tuple children _ =>
          rw [formsAll_cons, forms_tuple, List.cons_append] at hlast
          have hnil : formsAll children ++ formsAll elements = [] := by
            by_contra hne
            rw [List.dropLast_cons_of_ne_nil hne] at hlast
            exact hlast List.mem_cons_self
          obtain ⟨hchildren, helements⟩ := List.append_eq_nil_iff.mp hnil
          obtain rfl := (formsAll_eq_nil_iff children).mp hchildren
          exact hleaf .tuple rfl

/-- What follows a tuple may belong to it or not. -/
theorem exists_ne_of_mem {kinds : List ShardingKind} (hbare : ∀ kind ∈ kinds, (bare kind).Nested)
    (hmem : .tuple ∈ kinds.dropLast) :
    ∃ elements elements' : List Sharding, elements ≠ elements' ∧
      (∀ element ∈ elements, element.Nested) ∧ (∀ element ∈ elements', element.Nested) ∧
      formsAll elements = kinds ∧ formsAll elements' = kinds := by
  obtain ⟨before, after, hsplit⟩ := List.append_of_mem hmem
  have hne : kinds ≠ [] := by
    rintro rfl
    cases hmem
  obtain ⟨follows, hfollows, rfl⟩ :
      ∃ follows, follows ≠ [] ∧ kinds = before ++ .tuple :: follows := by
    refine ⟨after ++ [kinds.getLast hne], by simp, ?_⟩
    rw [← List.cons_append, ← List.append_assoc, ← hsplit, List.dropLast_concat_getLast]
  have hmap : ∀ part ⊆ before ++ .tuple :: follows, ∀ element ∈ part.map bare, element.Nested := by
    intro part hpart element hmem
    obtain ⟨kind, hkind, rfl⟩ := List.mem_map.mp hmem
    exact hbare kind (hpart hkind)
  -- either nothing or everything behind the tuple belongs to it, so the lengths differ
  refine ⟨_, before.map bare ++ [tuple (follows.map bare)], ?_,
    hmap _ (List.Subset.refl _), ?_, formsAll_map_bare _, ?_⟩
  · intro hsame
    have hlength := congrArg List.length hsame
    simp [hfollows] at hlength
  · intro element hmem
    rcases List.mem_append.mp hmem with hmem | hmem
    · exact hmap before (List.subset_append_left _ _) element hmem
    · obtain rfl := List.mem_singleton.mp hmem
      refine .tuple (hmap follows ?_)
      exact List.subset_append_of_subset_right _ (List.subset_cons_self _ _)
  · rw [formsAll_eq_flatMap, List.flatMap_append, ← formsAll_eq_flatMap, formsAll_map_bare,
      List.flatMap_singleton, forms_tuple, formsAll_map_bare]

/-- A single form is that of an annotation without elements. -/
theorem Nested.eq_bare {sharding : Sharding} (hnested : sharding.Nested) (kind : ShardingKind)
    (hforms : sharding.forms = [kind]) : sharding = bare kind := by
  cases hnested with
  | replicated =>
      obtain rfl := List.singleton_inj.mp hforms
      rfl
  | manual =>
      obtain rfl := List.singleton_inj.mp hforms
      rfl
  | @tuple elements _ =>
      rw [forms_tuple] at hforms
      obtain ⟨rfl, hnil⟩ := List.cons.inj hforms
      obtain rfl := (formsAll_eq_nil_iff elements).mp hnil
      rfl

/-- The forms that occur determine nested annotations exactly if no tuple inside is followed by
anything. -/
theorem Nested.unique_iff {sharding : Sharding} (hnested : sharding.Nested) :
    (∀ other : Sharding, other.Nested → other.forms = sharding.forms → other = sharding) ↔
      .tuple ∉ sharding.forms.tail.dropLast := by
  constructor
  · intro hunique hmem
    cases hnested with
    | replicated => cases hmem
    | manual => cases hmem
    | @tuple elements helements =>
        rw [forms_tuple, List.tail_cons] at hmem
        have hbare : ∀ kind ∈ formsAll elements, (bare kind).Nested := by
          intro kind hkind
          refine (Nested.tuple helements).nested_bare kind ?_
          rw [forms_tuple]
          exact List.mem_cons_of_mem .tuple hkind
        obtain ⟨left, right, hne, hleft, hright, hforms, hforms'⟩ := exists_ne_of_mem hbare hmem
        have heq := hunique (.tuple left) (.tuple hleft) (by rw [forms_tuple, hforms, forms_tuple])
        have heq' :=
          hunique (.tuple right) (.tuple hright) (by rw [forms_tuple, hforms', forms_tuple])
        exact hne (congrArg Sharding.elements (heq.trans heq'.symm))
  · intro hlast other hother hsame
    cases hnested with
    | replicated => exact hother.eq_bare .replicated hsame
    | manual => exact hother.eq_bare .manual hsame
    | @tuple elements helements =>
        cases hother with
        | replicated => cases hsame
        | manual => cases hsame
        | @tuple elements' helements' =>
            rw [forms_tuple, forms_tuple, List.cons_inj_right] at hsame
            rw [forms_tuple, List.tail_cons] at hlast
            rw [eq_map_bare helements hlast, ← hsame,
              ← eq_map_bare helements' (by rwa [hsame])]

end Unique

end Sharding

namespace Annotations

variable {left right : Sharding}

/-- Of an annotation only its words are folded. -/
theorem foldShardings_set_congr (hwords : left.words = right.words) (state : Digest)
    (first : Nat) (shardings : List (Option Sharding)) (index : Nat) :
    foldShardings state first (shardings.set index (some left)) =
      foldShardings state first (shardings.set index (some right)) := by
  induction shardings generalizing state first index with
  | nil => rfl
  | cons sharding? shardings ih =>
      cases index with
      | zero =>
          simp only [List.set_cons_zero, foldShardings, Sharding.foldDigest_eq_combineAll, hwords]
      | succ index =>
          cases sharding? <;> exact ih _ _ index

theorem shardingDigest_setSharding_congr (hwords : left.words = right.words)
    (annotations : Annotations) (ownDigest : Digest) (outputs index : Nat) :
    (annotations.setSharding ownDigest outputs index left).shardingDigest =
      (annotations.setSharding ownDigest outputs index right).shardingDigest :=
  foldShardings_set_congr hwords _ _ _ _

end Annotations

namespace Graph

/-- Annotations with the same words leave a node with the same digests. -/
theorem setSharding_digests_congr {graph : Graph} {id : NodeId} {index : Nat}
    {left right : Sharding} (hwords : left.words = right.words) {found found' : Entry}
    (hfound : (graph.afterStep id (.setSharding left index)).entryAt? id = some found)
    (hfound' : (graph.afterStep id (.setSharding right index)).entryAt? id = some found') :
    found.shardingDigest = found'.shardingDigest ∧ found.identity = found'.identity := by
  rw [entryAt?_afterStep, if_pos rfl, Option.map_eq_some_iff] at hfound hfound'
  obtain ⟨entry, hentry, rfl⟩ := hfound
  obtain ⟨_, hentry', rfl⟩ := hfound'
  obtain rfl := Option.some.inj (hentry.symm.trans hentry')
  have hdigest :
      ((AnnotationStep.setSharding left index).change entry.node entry.annotations).shardingDigest =
        ((AnnotationStep.setSharding right index).change entry.node
          entry.annotations).shardingDigest := by
    simp only [AnnotationStep.change]
    split
    next => exact Annotations.shardingDigest_setSharding_congr hwords _ _ _ _
    next => rfl
  exact ⟨hdigest, Entry.identity_congr rfl hdigest⟩

end Graph

namespace Sharding

/-- Nested annotations have the same words exactly if the same forms occur in them in the same
order, and then no node tells them apart. The words determine an annotation exactly if no tuple
inside it is followed by anything. -/
theorem nested_words_determine_forms {left right : Sharding} (hleft : left.Nested)
    (hright : right.Nested) :
    (left.words = right.words ↔ left.forms = right.forms) ∧
      (left.forms = right.forms → ∀ (graph : Graph) id index found found',
        (graph.afterStep id (.setSharding left index)).entryAt? id = some found →
        (graph.afterStep id (.setSharding right index)).entryAt? id = some found' →
        found.shardingDigest = found'.shardingDigest ∧ found.identity = found'.identity) ∧
      ((∀ other : Sharding, other.Nested → other.words = left.words → other = left) ↔
        .tuple ∉ left.forms.tail.dropLast) := by
  have hwords := hleft.words_eq_iff hright
  refine ⟨hwords, fun hforms graph id index found found' hfound hfound' =>
    Graph.setSharding_digests_congr (hwords.mpr hforms) hfound hfound', ?_⟩
  rw [← hleft.unique_iff]
  refine forall₂_congr fun other hother => ?_
  rw [hother.words_eq_iff hleft]

/-- Different annotations with the same words: whether the replicated annotation stands inside the
inner tuple or behind it. -/
theorem grouping_shares_words :
    let left := tuple [tuple [replicated]]
    let right := tuple [tuple [], replicated]
    left.Nested ∧ right.Nested ∧ left ≠ right ∧ left.words = right.words := by
  intro left right
  have hinner : (tuple [replicated]).Nested := .tuple (by simpa using Nested.replicated)
  have hempty : (tuple []).Nested := .tuple (by simp)
  exact ⟨.tuple (by simpa using hinner), .tuple (by simpa using ⟨hempty, Nested.replicated⟩),
    by decide, rfl⟩

/-- Two groupings of the same forms have the same words, and a node annotated with them has the
same digests. Without anything behind an inner tuple there is only one grouping. -/
theorem nested_words_determine_forms_groupings :
    let left := tuple [replicated, tuple [manual, tuple []]]
    let right := tuple [replicated, tuple [manual], tuple []]
    let last := tuple [replicated, manual, tuple []]
    let request : Request :=
      { kind := ⟨"test", "leaf"⟩
        outputs := 1
        seed := .seed
        source := .given .token
        operation := .custom none }
    let graph := (request.construct { cache := ⟨1, []⟩ }).2.graph
    left ≠ right ∧ left.words = right.words ∧
      (∃ found found',
        (graph.afterStep 0 (.setSharding left 0)).entryAt? 0 = some found ∧
        (graph.afterStep 0 (.setSharding right 0)).entryAt? 0 = some found' ∧
        found.annotations.shardings = [some left] ∧ found'.annotations.shardings = [some right] ∧
        found.identity = found'.identity) ∧
      ∀ other : Sharding, other.Nested → other.words = last.words → other = last := by
  intro left right last request graph
  have hempty : (tuple []).Nested := .tuple (by simp)
  have hlong : (tuple [manual, tuple []]).Nested := .tuple (by simpa using ⟨.manual, hempty⟩)
  have hshort : (tuple [manual]).Nested := .tuple (by simpa using Nested.manual)
  have hleft : left.Nested := .tuple (by simpa using ⟨Nested.replicated, hlong⟩)
  have hright : right.Nested :=
    .tuple (by simpa using ⟨Nested.replicated, hshort, hempty⟩)
  have hlast : last.Nested :=
    .tuple (by simpa using ⟨Nested.replicated, Nested.manual, hempty⟩)
  obtain ⟨hwords, hsame, _⟩ := nested_words_determine_forms hleft hright
  obtain ⟨_, _, hunique⟩ := nested_words_determine_forms hlast hlast
  refine ⟨by decide, hwords.mpr rfl, ⟨_, _, rfl, rfl, rfl, rfl, ?_⟩, hunique.mpr (by decide)⟩
  exact (hsame rfl graph 0 0 _ _ rfl rfl).2

end Sharding

end TensorGraph
