import TensorGraph.Binary64
import TensorGraph.ShapeCache
import TensorGraph.Text.UpperCase

/-!
# Configuration

The settings of a process that constructs graphs are read from the variables of its
environment, whose values are bytes. Names are looked up in upper case, values are
trimmed, and a value that is not a text or cannot be read counts as absent. Blanks
are the characters with the Unicode property White_Space; the zero width space and
the byte order mark are not among them.
-/

namespace TensorGraph

namespace Text

/-- The characters that count as blank. -/
def isBlank (char : Char) : Bool :=
  let code := char.toNat
  (0x9 ≤ code ∧ code ≤ 0xd) ∨ code = 0x20 ∨ code = 0x85 ∨ code = 0xa0 ∨ code = 0x1680 ∨
    (0x2000 ≤ code ∧ code ≤ 0x200a) ∨ code = 0x2028 ∨ code = 0x2029 ∨ code = 0x202f ∨
    code = 0x205f ∨ code = 0x3000

/-- The text without the blanks at its ends. -/
def trim (text : String) : String :=
  String.ofList (((text.toList.dropWhile isBlank).reverse.dropWhile isBlank).reverse)

end Text

/-- The variables of a process with their values. -/
structure Environment where
  bindings : List (String × ByteArray) := []

namespace Environment

/-- The name can belong to a variable. -/
def isVariableName (name : String) : Bool :=
  name ≠ "" && !name.toList.contains '=' && !name.toList.contains '\x00'

/-- The text of the variable with exactly this name, if it is one. -/
def text? (environment : Environment) (name : String) : Option String := do
  guard (isVariableName name)
  let bytes ← environment.bindings.lookup name
  String.fromUTF8? bytes

/-- The trimmed text of a setting. -/
def setting? (environment : Environment) (name : String) : Option String :=
  (environment.text? (Text.upper name)).map Text.trim

/-- The value of a setting, or the default if it is not set or not readable. -/
def settingD {α : Type} (environment : Environment) (read? : String → Option α) (name : String)
    (default : α) : α :=
  ((environment.setting? name).bind read?).getD default

/-- The words that switch a flag on. Their letters have no upper-case forms outside ASCII. -/
def switchedOn : List String := ["1", "true", "yes", "on"]

/-- The flag is set to one of the words for on, in any case. -/
def flag (environment : Environment) (name : String) : Bool :=
  match environment.setting? name with
  | some text => switchedOn.contains (String.ofList (text.toList.map Char.toLower))
  | none => false

end Environment

namespace Reader

/-- An unsigned integer of the given width, with an optional plus sign. -/
def unsigned? (width : Nat) (text : String) : Option Nat := do
  let value ← match text.toList with
    | '+' :: digits => Binary64.readWhole? digits
    | digits => Binary64.readWhole? digits
  guard (value < Nat.pow 2 width)
  return value

/-- A signed integer of the given width, with an optional sign. -/
def signed? (width : Nat) (text : String) : Option Int := do
  let value : Int ← match text.toList with
    | '-' :: digits => (Binary64.readWhole? digits).map fun value => -value
    | '+' :: digits => (Binary64.readWhole? digits).map fun value => value
    | digits => (Binary64.readWhole? digits).map fun value => value
  let limit : Int := Nat.pow 2 (width - 1)
  guard (-limit ≤ value ∧ value < limit)
  return value

/-- Exactly one of the words `true` and `false`. -/
def bool? (text : String) : Option Bool :=
  if text = "true" then some true else if text = "false" then some false else none

/-- A text of exactly one character. -/
def char? (text : String) : Option Char :=
  match text.toList with
  | [char] => some char
  | _ => none

end Reader

/-- The settings in force. -/
structure Configuration where
  shapeCacheCapacity : Nat
  /-- Casts by kind verify the form of the operation. -/
  verifiesCasts : Bool := true

namespace Configuration

/-- The variable that sets the capacity of the shape cache. -/
def capacityVariable : String := "IR_SHAPE_CACHE_SIZE"

/-- The configuration that the environment asks for. The cache holds at least one shape. -/
def ofEnvironment (environment : Environment) : Configuration where
  shapeCacheCapacity :=
    max 1 (environment.settingD (Reader.unsigned? 64) capacityVariable ShapeCache.defaultCapacity)

end Configuration

end TensorGraph
