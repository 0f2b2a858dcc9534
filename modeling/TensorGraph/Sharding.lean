import TensorGraph.Checked
import TensorGraph.Digest

/-!
# Shardings

A sharding describes how one output is laid out across devices: replicated on
all of them, placed on a single one, tiled over a grid of devices, or left to
manual partitioning. A tuple of shardings describes a tuple of values.

A sharding is folded into a digest field by field, and entry by entry for a
tuple; numbers of tiles and devices count by their low 32 bits. It is written in
braces: a word for the simple forms, the grid and its devices for a tiled one, and
the entries for a tuple.
-/

namespace TensorGraph

/-- The form of a sharding. -/
inductive ShardingKind where
  | replicated
  | maximal
  | tuple
  | tiled
  | manual
  | unknown
  deriving DecidableEq

/-- The number of the form, part of the sharding's digest. -/
def ShardingKind.code : ShardingKind → Nat
  | .replicated => 0
  | .maximal => 1
  | .tuple => 2
  | .tiled => 3
  | .manual => 4
  | .unknown => 5

/-- A placement of one output. Fields that the form does not use are empty in shardings made by
the functions below. -/
structure Sharding where
  kind : ShardingKind
  tileDims : List Int := []
  devices : List Int := []
  /-- The meaning of trailing tile dimensions that divide no data dimension. -/
  trailingKinds : List ShardingKind := []
  replicatesLast : Bool := false
  elements : List Sharding := []

namespace Sharding

mutual

def decideEq : (left right : Sharding) → Decidable (left = right)
  | ⟨kind, tileDims, devices, trailingKinds, replicatesLast, elements⟩,
    ⟨kind', tileDims', devices', trailingKinds', replicatesLast', elements'⟩ =>
    if same : kind = kind' ∧ tileDims = tileDims' ∧ devices = devices' ∧
        trailingKinds = trailingKinds' ∧ replicatesLast = replicatesLast' then
      match decideEqAll elements elements' with
      | .isTrue equal => .isTrue (by simp [same, equal])
      | .isFalse differ => .isFalse fun equal => differ (by injection equal)
    else
      .isFalse fun equal => same (by injection equal; simp [*])

def decideEqAll : (left right : List Sharding) → Decidable (left = right)
  | [], [] => .isTrue rfl
  | [], _ :: _ => .isFalse fun equal => by cases equal
  | _ :: _, [] => .isFalse fun equal => by cases equal
  | left :: lefts, right :: rights =>
    match decideEq left right, decideEqAll lefts rights with
    | .isTrue head, .isTrue tail => .isTrue (by rw [head, tail])
    | .isFalse differ, _ => .isFalse fun equal => differ (by injection equal)
    | _, .isFalse differ => .isFalse fun equal => differ (by injection equal)

end

instance : DecidableEq Sharding := decideEq

def replicated : Sharding := { kind := .replicated }

def manual : Sharding := { kind := .manual }

/-- The whole value on a single device. -/
def maximal (device : Int) : Sharding :=
  { kind := .maximal, tileDims := [1], devices := [device] }

/-- One sharding per entry of a tuple. -/
def tuple (elements : List Sharding) : Sharding := { kind := .tuple, elements }

/-- Why a grid of tiles is refused. -/
inductive TilingError where
  | overflow (cause : Overflow)
  | deviceCount (tileDims : List Int) (tiles : Int) (devices : Nat)
  deriving DecidableEq

def TilingError.message : TilingError → String
  | .overflow cause => cause.message
  | .deviceCount tileDims tiles devices =>
    let dims := ", ".intercalate (tileDims.map toString)
    s!"tile assignment [{dims}] ({tiles} tiles) does not match {devices} devices"

/-- Tiles over a grid of devices in row-major order, one device per tile. -/
def tiled (tileDims devices : List Int) : Except TilingError Sharding := do
  let tiles ← (Checked.product tileDims).mapError .overflow
  if tiles = devices.length then return { kind := .tiled, tileDims, devices }
  else throw (.deviceCount tileDims tiles devices.length)

/-- Tiles as `tiled` does, but the last tile dimension replicates. -/
def partiallyReplicated (tileDims devices : List Int) : Except TilingError Sharding := do
  return { ← tiled tileDims devices with replicatesLast := true }

def isReplicated (sharding : Sharding) : Bool := sharding.kind = .replicated

/-- A number of tiles or devices as data for a digest. -/
def narrow (value : Int) : Datum := .integer (BitVec.ofInt 32 value)

/-- The form as data for a digest. -/
def kindDatum (kind : ShardingKind) : Datum := .unsigned32 kind.code

mutual

/-- Folds the sharding into `state`: grid, devices, trailing forms, form, the replicate flag, and
then the entries. -/
def foldDigest (state : Digest) : Sharding → Digest
  | ⟨kind, tileDims, devices, trailingKinds, replicatesLast, elements⟩ =>
    let afterGrid := Datum.digestItems state (tileDims.map narrow ++ devices.map narrow)
    let afterKinds :=
      Datum.digestItems afterGrid (trailingKinds.map kindDatum ++ [kindDatum kind])
    foldDigestAll (afterKinds.combine (Datum.flag replicatesLast).digest) elements

def foldDigestAll (state : Digest) : List Sharding → Digest
  | [] => state
  | sharding :: shardings => foldDigestAll (foldDigest state sharding) shardings

end

/-- The grid of tiles and the devices in it. -/
def tilingText (tileDims devices : List Int) (replicatesLast : Bool) : String :=
  "devices=[" ++ ",".intercalate (tileDims.map toString) ++ "]" ++
    ",".intercalate (devices.map toString) ++
    if replicatesLast then " last_tile_dim_replicate" else ""

mutual

/-- A maximal sharding without a device counts as placed on device zero. -/
def text : Sharding → String
  | ⟨kind, tileDims, devices, _, replicatesLast, elements⟩ =>
    let body := match kind with
      | .replicated => "replicated"
      | .manual => "manual"
      | .unknown => "unknown"
      | .maximal => "maximal device=" ++ toString (devices.headD 0)
      | .tuple => ", ".intercalate (textAll elements)
      | .tiled => tilingText tileDims devices replicatesLast
    "\x7b" ++ body ++ "\x7d"

def textAll : List Sharding → List String
  | [] => []
  | sharding :: shardings => sharding.text :: textAll shardings

end

end Sharding

end TensorGraph
