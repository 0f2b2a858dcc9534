import TensorGraph.Proofs.OpKind

/-! # Reading operation kinds

A name is read by its first separator, behind the default qualifier if it has none. It is refused
exactly if a second separator follows, and what is read has a text that is read the same way.
-/

namespace TensorGraph.OpKind

/-- The text contains the separator. -/
def Separated (text : String) : Prop := ∃ front back, text = front ++ "::" ++ back

/-- The separator between `front` and `back` is the first one of the text. -/
structure DividesFirst (text front back : String) : Prop where
  eq_append : text = front ++ "::" ++ back
  first : ∀ front' back', text = front' ++ "::" ++ back' → front.length ≤ front'.length

section Division

variable {text front back front' back' : String}

theorem eq_append_iff :
    text = front ++ "::" ++ back ↔ text.toList = front.toList ++ separator ++ back.toList := by
  rw [← String.toList_inj, String.toList_append, String.toList_append]
  rfl

theorem separated_iff (text : String) : Separated text ↔ separator <:+: text.toList := by
  constructor
  · rintro ⟨front, back, htext⟩
    exact ⟨front.toList, back.toList, (eq_append_iff.mp htext).symm⟩
  · rintro ⟨front, back, htext⟩
    refine ⟨String.ofList front, String.ofList back, eq_append_iff.mpr ?_⟩
    rw [String.toList_ofList, String.toList_ofList, htext]

instance (text : String) : Decidable (Separated text) :=
  decidable_of_iff (hasSeparator text = true) (by rw [hasSeparator_iff, separated_iff])

/-- No separator begins further left exactly if none ends with the first colon of this one. -/
theorem not_infix_concat_iff (left right : List Char) :
    ¬ separator <:+: left ++ [':'] ↔ ∀ left' right',
      left ++ separator ++ right = left' ++ separator ++ right' → left.length ≤ left'.length := by
  constructor
  · intro hfirst left' right' hsame
    by_contra hshorter
    have hfront : left' ++ separator <+: left ++ separator ++ right := ⟨right', hsame.symm⟩
    have hcolon : left ++ [':'] <+: left ++ separator ++ right :=
      ⟨':' :: right, by simp [separator]⟩
    have hlength : (left' ++ separator).length ≤ (left ++ [':']).length := by
      simp only [List.length_append, separator, List.length_cons, List.length_nil]
      omega
    exact hfirst ((List.suffix_append left' separator).isInfix.trans
      (List.prefix_of_prefix_length_le hfront hcolon hlength).isInfix)
  · rintro hfirst ⟨before, behind, hinside⟩
    have hsame : left ++ separator ++ right = before ++ separator ++ (behind ++ ':' :: right) := by
      rw [← List.append_assoc, hinside]
      simp [separator]
    have hle := hfirst _ _ hsame
    have hlength := congrArg List.length hinside
    simp only [List.length_append, separator, List.length_cons, List.length_nil] at hlength
    omega

theorem dividesFirst_iff :
    DividesFirst text front back ↔
      text = front ++ "::" ++ back ∧ ¬ separator <:+: front.toList ++ [':'] := by
  refine ⟨fun ⟨htext, hfirst⟩ => ⟨htext, ?_⟩, fun ⟨htext, hfirst⟩ => ⟨htext, ?_⟩⟩
  · rw [not_infix_concat_iff front.toList back.toList]
    intro left' right' hsame
    have htext' : text = String.ofList left' ++ "::" ++ String.ofList right' := by
      rw [eq_append_iff, String.toList_ofList, String.toList_ofList, ← hsame,
        eq_append_iff.mp htext]
    simpa [String.length_toList] using hfirst _ _ htext'
  · rw [not_infix_concat_iff front.toList back.toList] at hfirst
    intro front' back' htext'
    have hsame : front.toList ++ separator ++ back.toList =
        front'.toList ++ separator ++ back'.toList := by
      rw [← eq_append_iff.mp htext, eq_append_iff.mp htext']
    simpa [String.length_toList] using hfirst _ _ hsame

theorem splitQualified_eq_some {chars left right : List Char}
    (hsplit : splitQualified chars = some (left, right)) :
    chars = left ++ separator ++ right ∧ ¬ separator <:+: left ++ [':'] := by
  fun_induction splitQualified chars generalizing left right with
  | case1 rest =>
      cases hsplit
      exact ⟨rfl, by decide⟩
  | case2 char rest hother ih =>
      obtain ⟨⟨front, back⟩, hrest, hparts⟩ := Option.map_eq_some_iff.mp hsplit
      obtain ⟨rfl, rfl⟩ := Prod.mk.inj hparts
      obtain ⟨rfl, hfront⟩ := ih hrest
      refine ⟨rfl, ?_⟩
      rw [List.cons_append, List.infix_cons_iff, not_or]
      refine ⟨?_, hfront⟩
      rintro ⟨after, hstart⟩
      obtain ⟨hchar, hcolon⟩ := List.cons.inj hstart
      apply hother (after ++ ':' :: back) hchar.symm
      calc front ++ separator ++ back
        _ = front ++ [':'] ++ ':' :: back := by simp [separator]
        _ = ':' :: (after ++ ':' :: back) := congrArg (· ++ ':' :: back) hcolon.symm
  | case3 => cases hsplit

theorem exists_dividesFirst (hseparated : Separated text) :
    ∃ front back, DividesFirst text front back := by
  rw [separated_iff, ← hasSeparator_iff, hasSeparator, Option.isSome_iff_exists] at hseparated
  obtain ⟨⟨left, right⟩, hsplit⟩ := hseparated
  obtain ⟨htext, hfirst⟩ := splitQualified_eq_some hsplit
  refine ⟨String.ofList left, String.ofList right, dividesFirst_iff.mpr ⟨?_, ?_⟩⟩
  · rw [eq_append_iff, String.toList_ofList, String.toList_ofList, htext]
  · rwa [String.toList_ofList]

theorem DividesFirst.unique (hdivides : DividesFirst text front back)
    (hdivides' : DividesFirst text front' back') : front = front' ∧ back = back' := by
  have hlength : front.toList.length = front'.toList.length := by
    have hle := hdivides.first _ _ hdivides'.eq_append
    have hle' := hdivides'.first _ _ hdivides.eq_append
    rw [String.length_toList, String.length_toList]
    omega
  have hsame := (eq_append_iff.mp hdivides.eq_append).symm.trans
    (eq_append_iff.mp hdivides'.eq_append)
  obtain ⟨hfront, hback⟩ := List.append_inj hsame (by simpa using hlength)
  exact ⟨String.toList_inj.mp (List.append_cancel_right hfront), String.toList_inj.mp hback⟩

theorem DividesFirst.not_separated (hdivides : DividesFirst text front back) :
    ¬ Separated front := by
  rw [separated_iff]
  exact fun hfront => (dividesFirst_iff.mp hdivides).2
    (separator_infix_concat_iff.mpr (Or.inl hfront))

theorem DividesFirst.ofText_eq (hdivides : DividesFirst text front back) :
    ofText text = ofParts front back := by
  obtain ⟨htext, hfirst⟩ := dividesFirst_iff.mp hdivides
  rw [ofText, eq_append_iff.mp htext, splitQualified_append hfirst]
  dsimp only
  rw [String.ofList_toList, String.ofList_toList]

end Division

/-- The text with the qualifier that it is read with. -/
def qualifiedText (text : String) : String := if Separated text then text else "aten::" ++ text

theorem separated_qualifiedText (text : String) : Separated (qualifiedText text) := by
  rw [qualifiedText]
  split
  next hseparated => exact hseparated
  next => exact ⟨"aten", text, rfl⟩

theorem dividesFirst_default (text : String) : DividesFirst ("aten::" ++ text) "aten" text :=
  dividesFirst_iff.mpr ⟨rfl, by decide⟩

/-- A text is read as if its qualifier were written. -/
theorem ofText_qualifiedText (text : String) : ofText (qualifiedText text) = ofText text := by
  rw [qualifiedText]
  split
  next => rfl
  next hnone =>
    have hsplit : splitQualified text.toList = none := by
      rwa [splitQualified_eq_none_iff, ← separated_iff]
    rw [(dividesFirst_default text).ofText_eq, ofText, hsplit]
    rfl

theorem ofParts_eq_error_iff (qualifier name : String) (refusal : SeparatorInside) :
    ofParts qualifier name = .error refusal ↔
      (Separated qualifier ∨ Separated name) ∧ refusal = ⟨qualifier, name⟩ := by
  rw [ofParts, separated_iff, separated_iff, ← hasSeparator_iff, ← hasSeparator_iff]
  cases hasSeparator qualifier <;> cases hasSeparator name <;> simp [eq_comm]

section Reading

variable {text : String} {kind : OpKind} {refusal : SeparatorInside}

theorem ofText_eq_ok_iff :
    ofText text = .ok kind ↔
      DividesFirst (qualifiedText text) kind.qualifier kind.name ∧ ¬ Separated kind.name := by
  obtain ⟨front, back, hdivides⟩ := exists_dividesFirst (separated_qualifiedText text)
  rw [← ofText_qualifiedText, hdivides.ofText_eq, ofParts_eq_ok_iff, ← separated_iff,
    ← separated_iff]
  constructor
  · rintro ⟨-, hname, rfl⟩
    exact ⟨hdivides, hname⟩
  · rintro ⟨hkind, hname⟩
    obtain ⟨rfl, rfl⟩ := hdivides.unique hkind
    exact ⟨hdivides.not_separated, hname, rfl⟩

theorem ofText_eq_error_iff :
    ofText text = .error refusal ↔
      DividesFirst text refusal.qualifier refusal.name ∧ Separated refusal.name := by
  constructor
  · intro hrefused
    have hseparated : Separated text := by
      by_contra hnone
      have haccepted : ofText text = .ok ⟨"aten", text⟩ := by
        refine ofText_eq_ok_iff.mpr ⟨?_, hnone⟩
        rw [qualifiedText, if_neg hnone]
        exact dividesFirst_default text
      cases hrefused.symm.trans haccepted
    obtain ⟨front, back, hdivides⟩ := exists_dividesFirst hseparated
    rw [hdivides.ofText_eq, ofParts_eq_error_iff] at hrefused
    obtain ⟨hparts, rfl⟩ := hrefused
    exact ⟨hdivides, hparts.resolve_left hdivides.not_separated⟩
  · rintro ⟨hdivides, hname⟩
    rw [hdivides.ofText_eq, ofParts_eq_error_iff]
    exact ⟨Or.inr hname, rfl⟩

end Reading

/-- A text is refused exactly if a second separator follows its first one. Every other text is read
as a kind whose text is the given one, behind the default qualifier unless it has its own. The parts
of the kind are cut out of its text without loss, contain no separator, and are what its text is
read as again. Texts are read as the same kind exactly if they are equal with their qualifiers, and
exactly then they are stored with one address, whatever else is stored before and between them. -/
theorem ofText_reads (text other : String) :
    (∀ refusal, ofText text = .error refusal ↔
        DividesFirst text refusal.qualifier refusal.name ∧ Separated refusal.name) ∧
      ((∃ front back, DividesFirst text front back ∧ Separated back) ∨
        ∃ kind, ofText text = .ok kind ∧ kind.text = qualifiedText text ∧
          kind.text = kind.qualifier ++ "::" ++ kind.name ∧
          kind.packed.qualifier? = some kind.qualifier ∧ kind.packed.name? = some kind.name ∧
          ¬ Separated kind.qualifier ∧ ¬ Separated kind.name ∧ ofText kind.text = .ok kind) ∧
      ∀ kind kind', ofText text = .ok kind → ofText other = .ok kind' →
        ((kind == kind') = true ↔ qualifiedText text = qualifiedText other) ∧
          ∀ (table : InternTable) (between : List String),
            let stored := kind.store table
            let later := stored.2.internAll between
            (stored.1.address = (kind'.store later).1.address ↔ (kind == kind') = true) ∧
              stored.1.packed? later = some kind.packed := by
  have htext {text : String} {kind : OpKind} (hkind : ofText text = .ok kind) :
      kind.text = qualifiedText text := (ofText_eq_ok_iff.mp hkind).1.eq_append.symm
  refine ⟨fun refusal => ofText_eq_error_iff, ?_, fun kind kind' hkind hkind' => ?_⟩
  · cases hread : ofText text with
    | error refusal => exact Or.inl ⟨_, _, ofText_eq_error_iff.mp hread⟩
    | ok kind =>
        obtain ⟨hdivides, hname⟩ := ofText_eq_ok_iff.mp hread
        refine Or.inr ⟨kind, rfl, htext hread, rfl, packed_qualifier? kind, packed_name? kind,
          hdivides.not_separated, hname, ?_⟩
        rw [htext hread, ofText_qualifiedText, hread]
  · refine ⟨by rw [beq_iff_text_eq, htext hkind, htext hkind'], fun table between => ?_⟩
    have hwithin := (kind.store table).2.within_internAll between
    exact ⟨store_address_eq_iff kind kind' hwithin, packed?_store kind hwithin⟩

/-- Of three colons the first two are the separator. Four of them are refused. -/
theorem ofText_reads_colons :
    let kind : OpKind := ⟨"aten", ":b"⟩
    ofText "aten:::b" = .ok kind ∧ ofText ":b" = .ok kind ∧
      qualifiedText "aten:::b" = qualifiedText ":b" ∧
      (kind.store .empty).1.packed? (kind.store .empty).2 = some ⟨"aten:::b", 4⟩ ∧
      ofText "a::::b" = .error ⟨"a", "::b"⟩ ∧ DividesFirst "a::::b" "a" "::b" ∧
      Separated "::b" := by
  intro kind
  have hwritten : ofText "aten:::b" = .ok kind := rfl
  have hbare : ofText ":b" = .ok kind := rfl
  have hrefused : ofText "a::::b" = .error ⟨"a", "::b"⟩ := rfl
  obtain ⟨hsame, hstored⟩ := (ofText_reads "aten:::b" ":b").2.2 kind kind hwritten hbare
  have hrefusal := ((ofText_reads "a::::b" "").1 ⟨"a", "::b"⟩).mp hrefused
  exact ⟨hwritten, hbare, hsame.mp (by decide), (hstored .empty []).2, hrefused, hrefusal⟩

end TensorGraph.OpKind
