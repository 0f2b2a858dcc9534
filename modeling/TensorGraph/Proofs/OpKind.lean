import TensorGraph.Graph
import TensorGraph.Proofs.OpKind.Storage
import Mathlib.Data.List.Infix

/-! # Parts of operation kinds

A kind is known by its full text. Neither part contains the separator, but a colon at the border
of the parts may belong to either of them: this is the only way in which different parts have the
same text.
-/

namespace TensorGraph

/-- A node is recovered under the kinds that are the same as its own. -/
theorem Graph.cast?_eq_some_iff (graph : Graph) (id : NodeId) (kind : OpKind) (form : OperationForm)
    (operation : Operation) :
    graph.cast? id kind form = some operation ↔
      ∃ entry, graph.entryAt? id = some entry ∧ entry.node.kind.text = kind.text ∧
        entry.operation.form? = some form ∧ entry.operation = operation := by
  rw [cast?]
  cases graph.entryAt? id with
  | none =>
      constructor
      · intro hnone
        cases hnone
      · rintro ⟨entry, hentry, _⟩
        cases hentry
  | some entry =>
      have hmatch : (entry.node.kind == kind && entry.operation.form? == some form) = true ↔
          entry.node.kind.text = kind.text ∧ entry.operation.form? = some form := by
        rw [Bool.and_eq_true, OpKind.beq_iff_text_eq, beq_iff_eq]
      change (guard _ >>= fun _ => some entry.operation) = some operation ↔ _
      cases hcase : entry.node.kind == kind && entry.operation.form? == some form with
      | false =>
          rw [hcase] at hmatch
          constructor
          · intro hnone
            cases hnone
          · rintro ⟨found, hfound, htext, hform, -⟩
            obtain rfl := Option.some.inj hfound
            cases hmatch.mpr ⟨htext, hform⟩
      | true =>
          obtain ⟨htext, hform⟩ := hmatch.mp hcase
          constructor
          · intro hsame
            exact ⟨entry, rfl, htext, hform, Option.some.inj hsame⟩
          · rintro ⟨found, hfound, -, -, hoperation⟩
            obtain rfl := Option.some.inj hfound
            exact congrArg some hoperation

namespace OpKind

/-- The characters of the separator. -/
def separator : List Char := [':', ':']

/-- The colon that ends the qualifier of the kind begins the name of the other one. -/
structure ColonMoved (kind other : OpKind) : Prop where
  qualifier : kind.qualifier = other.qualifier ++ ":"
  name : other.name = ":" ++ kind.name

section Separator

variable {left right left' right' : List Char}

theorem splitQualified_eq_none_iff (chars : List Char) :
    splitQualified chars = none ↔ ¬ separator <:+: chars := by
  unfold separator
  fun_induction splitQualified chars with
  | case1 rest => simpa using ⟨[], rest, rfl⟩
  | case2 char rest hother ih =>
      rw [Option.map_eq_none_iff, ih, List.infix_cons_iff, not_or]
      refine ⟨fun hrest => ⟨?_, hrest⟩, And.right⟩
      rintro ⟨after, hstart⟩
      injection hstart with hchar hafter
      exact hother after hchar.symm hafter.symm
  | case3 => simp

/-- A separator that ends with the last character is the only one that a colon can add. -/
theorem separator_infix_concat_iff :
    separator <:+: left ++ [':'] ↔ separator <:+: left ∨ [':'] <:+ left := by
  rw [List.infix_concat_iff, or_comm, List.suffix_concat_iff]
  refine or_congr_right ⟨?_, fun hsuffix => Or.inr ⟨[':'], rfl, hsuffix⟩⟩
  rintro (hempty | ⟨front, hfront, hsuffix⟩)
  · cases hempty
  · obtain rfl : front = [':'] := List.append_cancel_right hfront.symm
    exact hsuffix

/-- The text is divided at the separator if there is none that begins further left. -/
theorem splitQualified_append (hleft : ¬ separator <:+: left ++ [':']) :
    splitQualified (left ++ separator ++ right) = some (left, right) := by
  induction left with
  | nil => rfl
  | cons char left ih =>
      rw [List.cons_append, List.infix_cons_iff, not_or] at hleft
      obtain ⟨hstart, hrest⟩ := hleft
      rw [List.cons_append, List.cons_append, splitQualified, ih hrest]
      · rfl
      · intro rest hchar htail
        -- the rest begins with a colon, its own or the separator's
        cases left with
        | nil => exact hstart ⟨[], by rw [hchar]; rfl⟩
        | cons head left =>
            obtain ⟨rfl, -⟩ := List.cons.inj htail
            exact hstart ⟨left ++ [':'], by rw [hchar]; rfl⟩

/-- What stands between the ends of two left parts of a text is at most a colon: any more of it
would be a separator in the longer part. -/
theorem moved_cases {moved : List Char} (hlonger : left' = left ++ moved)
    (hleft' : ¬ separator <:+: left')
    (hrest : separator ++ right = moved ++ (separator ++ right')) :
    moved = [] ∧ right = right' ∨ moved = [':'] ∧ right = ':' :: right' := by
  match moved, hrest with
  | [], hrest => exact Or.inl ⟨rfl, List.append_cancel_left hrest⟩
  | [char], hrest =>
      obtain ⟨rfl, hright⟩ := List.cons.inj hrest
      exact Or.inr ⟨rfl, List.cons.inj hright |>.2⟩
  | first :: second :: moved, hrest =>
      obtain ⟨rfl, htail⟩ := List.cons.inj hrest
      obtain ⟨rfl, -⟩ := List.cons.inj htail
      exact absurd ⟨left, moved, by rw [hlonger]; simp [separator]⟩ hleft'

/-- Two texts of parts without separators are equal if the parts are, or if a colon has moved from
the one to the other. -/
theorem append_separator_eq_iff (hleft : ¬ separator <:+: left) (hleft' : ¬ separator <:+: left') :
    left ++ separator ++ right = left' ++ separator ++ right' ↔
      left = left' ∧ right = right' ∨ left = left' ++ [':'] ∧ right' = ':' :: right ∨
        left' = left ++ [':'] ∧ right = ':' :: right' := by
  constructor
  · intro hsame
    rw [List.append_assoc, List.append_assoc, List.append_eq_append_iff] at hsame
    rcases hsame with ⟨moved, hparts, hrest⟩ | ⟨moved, hparts, hrest⟩
    · rcases moved_cases hparts hleft' hrest with ⟨rfl, hright⟩ | ⟨rfl, hright⟩
      · exact Or.inl ⟨by rw [hparts, List.append_nil], hright⟩
      · exact Or.inr (Or.inr ⟨hparts, hright⟩)
    · rcases moved_cases hparts hleft hrest with ⟨rfl, hright⟩ | ⟨rfl, hright⟩
      · exact Or.inl ⟨by rw [hparts, List.append_nil], hright.symm⟩
      · exact Or.inr (Or.inl ⟨hparts, hright⟩)
  · rintro (⟨rfl, rfl⟩ | ⟨rfl, rfl⟩ | ⟨rfl, rfl⟩)
    · rfl
    · simp [separator]
    · simp [separator]

end Separator

section Text

variable {qualifier name : String} {kind other : OpKind}

theorem toList_text (kind : OpKind) :
    kind.text.toList = kind.qualifier.toList ++ separator ++ kind.name.toList := by
  rw [text, String.toList_append, String.toList_append]
  rfl

theorem hasSeparator_iff (text : String) :
    hasSeparator text = true ↔ separator <:+: text.toList := by
  rw [hasSeparator, ← not_iff_not, ← splitQualified_eq_none_iff, Bool.not_eq_true,
    Option.isSome_eq_false_iff, Option.isNone_iff_eq_none]

theorem ofParts_eq_ok_iff (qualifier name : String) (kind : OpKind) :
    ofParts qualifier name = .ok kind ↔
      ¬ separator <:+: qualifier.toList ∧ ¬ separator <:+: name.toList ∧
        kind = ⟨qualifier, name⟩ := by
  rw [ofParts, ← hasSeparator_iff, ← hasSeparator_iff]
  cases hasSeparator qualifier <;> cases hasSeparator name <;> simp [eq_comm]

theorem colonMoved_iff (kind other : OpKind) :
    kind.ColonMoved other ↔ kind.qualifier.toList = other.qualifier.toList ++ [':'] ∧
      other.name.toList = ':' :: kind.name.toList := by
  constructor
  · rintro ⟨hqualifier, hname⟩
    rw [hqualifier, hname, String.toList_append, String.toList_append]
    exact ⟨rfl, rfl⟩
  · rintro ⟨hqualifier, hname⟩
    refine ⟨String.toList_inj.mp ?_, String.toList_inj.mp ?_⟩
    · rw [hqualifier, String.toList_append]
      rfl
    · rw [hname, String.toList_append]
      rfl

/-- Reading the text of a kind divides it where its parts meet, unless its qualifier ends with a
colon. -/
theorem ofText_text (hkind : ofParts qualifier name = .ok kind)
    (hcolon : ∀ part, qualifier ≠ part ++ ":") : ofText kind.text = .ok kind := by
  obtain ⟨hqualifier, -, rfl⟩ := (ofParts_eq_ok_iff qualifier name kind).mp hkind
  have hsplit : ¬ separator <:+: qualifier.toList ++ [':'] := by
    rw [separator_infix_concat_iff, not_or]
    refine ⟨hqualifier, ?_⟩
    rintro ⟨part, hpart⟩
    apply hcolon (String.ofList part)
    rw [← String.toList_inj, String.toList_append, String.toList_ofList, ← hpart]
    rfl
  rw [ofText, toList_text, splitQualified_append hsplit]
  dsimp only
  rw [String.ofList_toList, String.ofList_toList, hkind]

/-- A colon at the end of the qualifier is read as the first one of the name. -/
theorem ofText_text_of_colon {part : String} (hkind : ofParts (part ++ ":") name = .ok kind) :
    ofText kind.text = ofParts part (":" ++ name) := by
  obtain ⟨hqualifier, -, rfl⟩ := (ofParts_eq_ok_iff _ name kind).mp hkind
  have hpart : (part ++ ":").toList = part.toList ++ [':'] := String.toList_append
  have hname : (":" ++ name).toList = ':' :: name.toList := String.toList_append
  have htext : (⟨part ++ ":", name⟩ : OpKind).text.toList =
      part.toList ++ separator ++ (":" ++ name).toList := by
    rw [toList_text, hpart, hname]
    simp [separator]
  rw [hpart] at hqualifier
  rw [ofText, htext, splitQualified_append hqualifier]
  dsimp only
  rw [String.ofList_toList, String.ofList_toList]

end Text

/-- Two kinds are the same if they have the same parts, or if a colon has moved from the qualifier
of one to the name of the other; then nothing tells them apart, they are stored with one address,
and a node is recovered under both.
Reading the text of a kind gives its parts back unless its qualifier ends with a colon, which is
then read as part of the name. -/
theorem parts_fixed_up_to_colon {qualifier name qualifier' name' : String} {kind other : OpKind}
    (hkind : ofParts qualifier name = .ok kind) (hother : ofParts qualifier' name' = .ok other) :
    ((kind == other) = true ↔ qualifier = qualifier' ∧ name = name' ∨
        kind.ColonMoved other ∨ other.ColonMoved kind) ∧
      ((kind == other) = true → kind.digest = other.digest) ∧
      (∀ (table : InternTable) (between : List String),
        let stored := kind.store table
        stored.1.address = (other.store (stored.2.internAll between)).1.address ↔
          (kind == other) = true) ∧
      (∀ (graph : Graph) id form operation, graph.cast? id kind form = some operation →
        (graph.cast? id other form = some operation ↔ (kind == other) = true)) ∧
      ((∀ part, qualifier ≠ part ++ ":") → ofText kind.text = .ok kind) ∧
      ∀ part, qualifier = part ++ ":" → ofText kind.text = ofParts part (":" ++ name) := by
  obtain ⟨hqualifier, -, hparts⟩ := (ofParts_eq_ok_iff qualifier name kind).mp hkind
  obtain ⟨hqualifier', -, hparts'⟩ := (ofParts_eq_ok_iff qualifier' name' other).mp hother
  refine ⟨?_, ?_, ?_, ?_, ofText_text hkind, ?_⟩
  · rw [beq_iff_text_eq, ← String.toList_inj, toList_text, toList_text, colonMoved_iff,
      colonMoved_iff, hparts, hparts', append_separator_eq_iff hqualifier hqualifier',
      String.toList_inj, String.toList_inj]
  · intro hsame
    rw [digest, (beq_iff_text_eq kind other).mp hsame, ← digest]
  · intro table between
    exact store_address_eq_iff kind other ((kind.store table).2.within_internAll between)
  · intro graph id form operation hcast
    obtain ⟨entry, hentry, htext, hform, hoperation⟩ :=
      (Graph.cast?_eq_some_iff graph id kind form operation).mp hcast
    rw [Graph.cast?_eq_some_iff, beq_iff_text_eq]
    constructor
    · rintro ⟨found, hfound, htext', -, -⟩
      obtain rfl : entry = found := Option.some.inj (hentry.symm.trans hfound)
      rw [← htext, htext']
    · intro hsame
      exact ⟨entry, hentry, htext.trans hsame, hform, hoperation⟩
  · rintro part rfl
    exact ofText_text_of_colon hkind

/-- The qualifier `a:` and the name `b` have the same text as `a` and `:b`. -/
theorem parts_fixed_up_to_colon_shared :
    let kind : OpKind := ⟨"a:", "b"⟩
    let other : OpKind := ⟨"a", ":b"⟩
    ofParts "a:" "b" = .ok kind ∧ ofParts "a" ":b" = .ok other ∧ (kind == other) = true ∧
      kind.digest = other.digest ∧
      (kind.store .empty).1.address = (other.store (kind.store .empty).2).1.address ∧
      ofText kind.text = ofParts "a" (":" ++ "b") ∧ ofText other.text = .ok other := by
  intro kind other
  have hkind : ofParts "a:" "b" = .ok kind := rfl
  have hother : ofParts "a" ":b" = .ok other := rfl
  obtain ⟨hiff, hdigest, hstored, -, -, hread⟩ := parts_fixed_up_to_colon hkind hother
  obtain ⟨-, -, -, -, hread', -⟩ := parts_fixed_up_to_colon hother hkind
  have hsame : (kind == other) = true := hiff.mpr (Or.inr (Or.inl ⟨rfl, rfl⟩))
  refine ⟨hkind, hother, hsame, hdigest hsame, (hstored .empty []).mpr hsame, hread "a" rfl,
    hread' fun part hpart => ?_⟩
  have hlast := congrArg (fun text => text.toList.getLast?) hpart
  simp at hlast

/-- Different parts make the same kind, and its text reads as the other ones. Another accepted kind
has a text that is refused. -/
theorem colon_belongs_to_either_part :
    ofParts "a:" "b" = .ok ⟨"a:", "b"⟩ ∧ ofParts "a" ":b" = .ok ⟨"a", ":b"⟩ ∧
      ((⟨"a:", "b"⟩ : OpKind) == ⟨"a", ":b"⟩) = true ∧ ("a:", "b") ≠ ("a", ":b") ∧
      ofText (text ⟨"a:", "b"⟩) = .ok ⟨"a", ":b"⟩ ∧
      ofParts "a:" ":b" = .ok ⟨"a:", ":b"⟩ ∧
      ofText (text ⟨"a:", ":b"⟩) = .error ⟨"a", "::b"⟩ :=
  ⟨rfl, rfl, by decide, by decide, rfl, rfl, rfl⟩

end OpKind

end TensorGraph
