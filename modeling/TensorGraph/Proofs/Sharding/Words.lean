import Mathlib.Algebra.Order.BigOperators.GroupWithZero.List
import Mathlib.Algebra.Order.Ring.Int
import TensorGraph.Proofs.Checked
import TensorGraph.Proofs.Digest
import TensorGraph.Sharding

/-! # The words of a sharding

A sharding enters a digest as a sequence of words. Neither the grid nor the devices are counted or
closed by a mark: that the grid has a device for every tile is what tells them apart.
-/

namespace TensorGraph

namespace Sharding

/-- The data of the annotation itself, without its elements. -/
def ownData (sharding : Sharding) : List Datum :=
  (sharding.tileDims ++ sharding.devices).map narrow ++
    sharding.trailingKinds.map kindDatum ++
    [kindDatum sharding.kind, .flag sharding.replicatesLast]

mutual

/-- The words that are folded into a digest, in order. -/
def words : Sharding → List Digest
  | ⟨kind, tileDims, devices, trailingKinds, replicatesLast, elements⟩ =>
    (ownData ⟨kind, tileDims, devices, trailingKinds, replicatesLast, elements⟩).map Datum.digest ++
      wordsAll elements

def wordsAll : List Sharding → List Digest
  | [] => []
  | sharding :: shardings => sharding.words ++ wordsAll shardings

end

theorem words_eq (sharding : Sharding) :
    sharding.words = sharding.ownData.map Datum.digest ++ wordsAll sharding.elements := by
  obtain ⟨_, _, _, _, _, _⟩ := sharding
  rw [words]

theorem wordsAll_eq_flatMap (shardings : List Sharding) :
    wordsAll shardings = shardings.flatMap words := by
  induction shardings with
  | nil => rfl
  | cons sharding shardings ih => rw [wordsAll, ih, List.flatMap_cons]

mutual

/-- An annotation is folded word by word. -/
theorem foldDigest_eq_combineAll (state : Digest) :
    (sharding : Sharding) → foldDigest state sharding = state.combineAll sharding.words
  | ⟨kind, tileDims, devices, trailingKinds, replicatesLast, elements⟩ => by
    rw [foldDigest, foldDigestAll_eq_combineAll, words, Digest.combineAll_append, ownData]
    simp only [Datum.digestItems_eq_combineAll, List.map_append, Digest.combineAll_append]
    rfl

theorem foldDigestAll_eq_combineAll (state : Digest) :
    (shardings : List Sharding) →
      foldDigestAll state shardings = state.combineAll (wordsAll shardings)
  | [] => rfl
  | sharding :: shardings => by
    rw [foldDigestAll, foldDigest_eq_combineAll, foldDigestAll_eq_combineAll, wordsAll,
      Digest.combineAll_append]

end

section Numbers

/-- Membership in the range of which the low bits lose nothing. -/
def FitsNarrow (value : Int) : Prop := 0 ≤ value ∧ value < 4294967296

theorem toNat_ofInt_of_fitsNarrow {value : Int} (hfits : FitsNarrow value) :
    ((BitVec.ofInt 32 value).toNat : Int) = value := by
  obtain ⟨hlow, hhigh⟩ := hfits
  rw [BitVec.toNat_ofInt]
  omega

/-- Numbers that fit are read off their words. -/
theorem map_narrow_inj {values values' : List Int} (hfits : ∀ value ∈ values, FitsNarrow value)
    (hfits' : ∀ value ∈ values', FitsNarrow value)
    (hsame : (values.map narrow).map Datum.digest = (values'.map narrow).map Datum.digest) :
    values = values' := by
  have hread {values : List Int} (hfits : ∀ value ∈ values, FitsNarrow value) :
      (values.map (BitVec.ofInt 32)).map (fun bits => (bits.toNat : Int)) = values := by
    rw [List.map_map]
    exact (List.map_congr_left fun value hmem => toNat_ofInt_of_fitsNarrow (hfits value hmem)).trans
      (List.map_id' values)
  have hdigests (values : List Int) : (values.map narrow).map Datum.digest =
      (values.map (BitVec.ofInt 32)).map (fun bits => (Datum.integer bits).digest) := by
    simp [narrow]
  rw [hdigests, hdigests, List.map_inj_right
    fun bits bits' => (Datum.digest_integer_inj (by decide) bits bits').mp] at hsame
  rw [← hread hfits, hsame, hread hfits']

theorem digest_kindDatum_inj (kind kind' : ShardingKind) :
    (kindDatum kind).digest = (kindDatum kind').digest ↔ kind = kind' := by
  rw [kindDatum, kindDatum, Datum.unsigned32, Datum.unsigned32,
    Datum.digest_integer_inj (by decide)]
  cases kind <;> cases kind' <;> decide

/-- Tiles whose number is that of the devices behind them end where the devices begin. -/
theorem eq_nil_of_prod_eq_length {tileDims extra devices : List Int}
    (hpositive : ∀ dim ∈ tileDims ++ extra, 0 < dim)
    (htiles : tileDims.prod = (extra ++ devices).length)
    (htiles' : (tileDims ++ extra).prod = devices.length) : extra = [] := by
  have hdims : 0 < tileDims.prod :=
    List.prod_pos fun dim hmem => hpositive dim (List.mem_append_left extra hmem)
  have hextra : 0 < extra.prod :=
    List.prod_pos fun dim hmem => hpositive dim (List.mem_append_right tileDims hmem)
  have hgrows : tileDims.prod ≤ (tileDims ++ extra).prod := by
    rw [List.prod_append]
    exact le_mul_of_one_le_right (Int.le_of_lt hdims) hextra
  rw [List.length_append] at htiles
  exact List.eq_nil_of_length_eq_zero (by omega)

/-- A grid and its devices are recovered from the numbers of both. -/
theorem append_devices_inj {tileDims tileDims' devices devices' : List Int}
    (hpositive : ∀ dim ∈ tileDims, 0 < dim) (hpositive' : ∀ dim ∈ tileDims', 0 < dim)
    (htiles : tileDims.prod = devices.length) (htiles' : tileDims'.prod = devices'.length)
    (hsame : tileDims ++ devices = tileDims' ++ devices') :
    tileDims = tileDims' ∧ devices = devices' := by
  rcases List.append_eq_append_iff.mp hsame with ⟨extra, rfl, rfl⟩ | ⟨extra, rfl, rfl⟩
  · obtain rfl := eq_nil_of_prod_eq_length hpositive' htiles htiles'
    exact ⟨(List.append_nil _).symm, rfl⟩
  · obtain rfl := eq_nil_of_prod_eq_length hpositive htiles' htiles
    exact ⟨List.append_nil _, rfl⟩

end Numbers

theorem tiled_eq_ok_iff (tileDims devices : List Int) (sharding : Sharding) :
    tiled tileDims devices = .ok sharding ↔
      Checked.product tileDims = .ok (devices.length : Int) ∧
        sharding = { kind := .tiled, tileDims, devices } := by
  rw [tiled]
  cases hproduct : Checked.product tileDims with
  | error cause => simp [Except.mapError, bind, Except.bind]
  | ok tiles =>
      by_cases htiles : tiles = devices.length
      · simp [Except.mapError, bind, Except.bind, pure, Except.pure, htiles, eq_comm]
      · simp [Except.mapError, bind, Except.bind, throw, throwThe, MonadExceptOf.throw, htiles]

theorem partiallyReplicated_eq_ok_iff (tileDims devices : List Int) (sharding : Sharding) :
    partiallyReplicated tileDims devices = .ok sharding ↔
      ∃ grid, tiled tileDims devices = .ok grid ∧
        sharding = { grid with replicatesLast := true } := by
  rw [partiallyReplicated]
  cases tiled tileDims devices <;> simp [bind, Except.bind, pure, Except.pure, eq_comm]

/-- An accepted annotation without elements whose numbers lose nothing in their words. -/
inductive Flat : Sharding → Prop
  | replicated : Flat replicated
  | manual : Flat manual
  | maximal {device : Int} (hdevice : FitsNarrow device) : Flat (maximal device)
  | tiled {tileDims devices : List Int} {sharding : Sharding}
      (hdims : ∀ dim ∈ tileDims, 0 < dim ∧ FitsNarrow dim)
      (hdevices : ∀ device ∈ devices, FitsNarrow device)
      (haccepted : tiled tileDims devices = .ok sharding) : Flat sharding
  | partiallyReplicated {tileDims devices : List Int} {sharding : Sharding}
      (hdims : ∀ dim ∈ tileDims, 0 < dim ∧ FitsNarrow dim)
      (hdevices : ∀ device ∈ devices, FitsNarrow device)
      (haccepted : partiallyReplicated tileDims devices = .ok sharding) : Flat sharding

/-- What the functions that make flat annotations have in common. -/
structure FlatLayout (sharding : Sharding) : Prop where
  trailingKinds : sharding.trailingKinds = []
  elements : sharding.elements = []
  fits : ∀ value ∈ sharding.tileDims ++ sharding.devices, FitsNarrow value
  positive : ∀ dim ∈ sharding.tileDims, 0 < dim
  /-- Only replicated and manual annotations have no grid. -/
  tiles : if sharding.kind = .replicated ∨ sharding.kind = .manual then
      sharding.tileDims = [] ∧ sharding.devices = []
    else sharding.tileDims.prod = sharding.devices.length

theorem FlatLayout.of_tiled {tileDims devices : List Int} {sharding : Sharding}
    (hdims : ∀ dim ∈ tileDims, 0 < dim ∧ FitsNarrow dim)
    (hdevices : ∀ device ∈ devices, FitsNarrow device)
    (haccepted : Sharding.tiled tileDims devices = .ok sharding) (replicatesLast : Bool) :
    FlatLayout { sharding with replicatesLast } := by
  obtain ⟨hproduct, rfl⟩ := (tiled_eq_ok_iff tileDims devices sharding).mp haccepted
  exact
    { trailingKinds := rfl
      elements := rfl
      fits := fun value hmem =>
        (List.mem_append.mp hmem).elim (fun hdim => (hdims value hdim).2) (hdevices value)
      positive := fun dim hmem => (hdims dim hmem).1
      tiles := (Checked.product_eq_ok_iff.mp hproduct).2.symm }

theorem Flat.layout {sharding : Sharding} (hflat : sharding.Flat) : FlatLayout sharding := by
  cases hflat with
  | replicated =>
      exact ⟨rfl, rfl, by simp [Sharding.replicated], by simp [Sharding.replicated], rfl, rfl⟩
  | manual => exact ⟨rfl, rfl, by simp [Sharding.manual], by simp [Sharding.manual], rfl, rfl⟩
  | maximal hdevice =>
      refine ⟨rfl, rfl, ?_, by simp [Sharding.maximal], rfl⟩
      simpa [Sharding.maximal, FitsNarrow] using hdevice
  | tiled hdims hdevices haccepted =>
      have hplain := FlatLayout.of_tiled hdims hdevices haccepted false
      obtain ⟨_, rfl⟩ := (tiled_eq_ok_iff _ _ _).mp haccepted
      exact hplain
  | partiallyReplicated hdims hdevices haccepted =>
      obtain ⟨_, hgrid, rfl⟩ := (partiallyReplicated_eq_ok_iff _ _ _).mp haccepted
      exact FlatLayout.of_tiled hdims hdevices hgrid true

namespace FlatLayout

variable {left right : Sharding}

theorem words_eq (hflat : left.FlatLayout) :
    left.words = ((left.tileDims ++ left.devices).map narrow).map Datum.digest ++
      [(kindDatum left.kind).digest, (Datum.flag left.replicatesLast).digest] := by
  rw [Sharding.words_eq, ownData, hflat.trailingKinds, hflat.elements]
  simp [wordsAll]

/-- The last two words are form and flag, and the others split into grid and devices. -/
theorem eq_of_words (hleft : left.FlatLayout) (hright : right.FlatLayout)
    (hsame : left.words = right.words) : left = right := by
  rw [hleft.words_eq, hright.words_eq] at hsame
  obtain ⟨hnumbers, hlast⟩ := List.append_inj' hsame (by simp only [List.length_cons])
  obtain ⟨hkindWord, hflagWord⟩ := List.cons.inj hlast
  have hkind := (digest_kindDatum_inj left.kind right.kind).mp hkindWord
  have hflag := (Datum.digest_flag_inj _ _).mp (List.singleton_inj.mp hflagWord)
  have happend := map_narrow_inj hleft.fits hright.fits hnumbers
  obtain ⟨hdims, hdevices⟩ : left.tileDims = right.tileDims ∧ left.devices = right.devices := by
    have htiles := hleft.tiles
    have htiles' := hright.tiles
    rw [← hkind] at htiles'
    split at htiles
    next hnone =>
      rw [if_pos hnone] at htiles'
      exact ⟨htiles.1.trans htiles'.1.symm, htiles.2.trans htiles'.2.symm⟩
    next hgrid =>
      rw [if_neg hgrid] at htiles'
      exact append_devices_inj hleft.positive hright.positive htiles htiles' happend
  obtain ⟨_, _, _, _, _, _⟩ := left
  obtain ⟨_, _, _, _, _, _⟩ := right
  obtain ⟨htrailing, helements, -, -, -⟩ := hleft
  obtain ⟨htrailing', helements', -, -, -⟩ := hright
  simp_all

end FlatLayout

/-- Every annotation is folded as the sequence of its words, and accepted flat annotations whose
numbers fit have the same words exactly if they are equal. -/
theorem flat_words_determine {left right : Sharding} (hleft : left.Flat) (hright : right.Flat) :
    (∀ state (sharding : Sharding), sharding.foldDigest state = state.combineAll sharding.words) ∧
      (left.words = right.words ↔ left = right) :=
  ⟨fun state sharding => foldDigest_eq_combineAll state sharding,
    fun hsame => hleft.layout.eq_of_words hright.layout hsame, fun hequal => by rw [hequal]⟩

/-- A grid of devices and the same grid with a replicated last dimension have different words. -/
theorem flat_words_determine_grids :
    let tileDims := [2, 1, 2]
    let devices := [0, 1, 2, 4294967295]
    ∃ left right, tiled tileDims devices = .ok left ∧
      partiallyReplicated tileDims devices = .ok right ∧ left.words ≠ right.words := by
  intro tileDims devices
  have hdims : ∀ dim ∈ tileDims, 0 < dim ∧ FitsNarrow dim := by
    simp [tileDims, FitsNarrow]
  have hdevices : ∀ device ∈ devices, FitsNarrow device := by
    simp [devices, FitsNarrow]
  refine ⟨_, _, rfl, rfl, ?_⟩
  have hsame := flat_words_determine (.tiled hdims hdevices rfl)
    (.partiallyReplicated hdims hdevices rfl)
  exact mt hsame.2.mp (by decide)

end Sharding

end TensorGraph
