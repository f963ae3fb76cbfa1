import LightBridge.Json.Basic
import LightBridge.Double.Basic

/-!
Settings of a light or group.

A setter writes one or two fields of a pending request, with every value moved into the range that
a bridge accepts. The transition time that a bridge uses anyway is not written but taken out.
-/

namespace LightBridge

/-- One thing to set, with arguments as they come. -/
inductive Setter where
  | on (value : Bool)
  | brightness (value : UInt8)
  | hue (value : UInt16)
  | saturation (value : UInt8)
  | hueSaturation (hue : UInt16) (saturation : UInt8)
  | xy (x y : Double.Extended)
  | temperature (mired : UInt16)
  | colorLoop (running : Bool)
  | brightnessBy (amount : Int32)
  | saturationBy (amount : Int32)
  | hueBy (amount : Int32)
  | temperatureBy (amount : Int32)
  | xyBy (x y : Double.Extended)
  | transition (tenths : UInt16)
  | flash
  | longFlash
  | stopFlash
deriving DecidableEq

namespace Setter

/-- The name of the field that holds the transition time. -/
def transitionKey : String := "transitiontime"

/-- The transition time that a bridge uses when none is given, in tenths of a second. -/
def defaultTransition : UInt16 := 4

/-- The greatest brightness and saturation. -/
def maxLevel : UInt8 := 254

/-- `n` moved into the interval from `-bound` to `bound`. -/
def clampBy (bound : Int32) (n : Int32) : Int32 := max (-bound) (min n bound)

/-- A byte as a JSON value, at most the greatest level. -/
def level (n : UInt8) : Json := .number (.ofUInt8 (min n maxLevel))

/-- A word as a JSON value. -/
def word (n : UInt16) : Json := .number (.ofUInt16 n)

/-- An amount as a JSON value, within the bound on both sides. -/
def amount (bound : Int32) (n : Int32) : Json := .number (.ofInt32 (clampBy bound n))

/-- A coordinate as a JSON value: rounded to 32 bits, then moved into the interval. -/
def coordinate (low high : Double) (x : Double.Extended) : Json :=
  .ofExtended (x.toSingle.clamp low high)

/-- A pair of coordinates between 0 and 1. -/
def point (x y : Double.Extended) : Json :=
  .array [coordinate (Double.zero false) Double.unit x, coordinate (Double.zero false) Double.unit y]

/-- A pair of steps between -1/2 and 1/2. -/
def step (x y : Double.Extended) : Json :=
  .array [coordinate (Double.half true) (Double.half false) x,
    coordinate (Double.half true) (Double.half false) y]

/-- The fields that a setter writes, in order. -/
def fields : Setter → Fields
  | .on value => [("on", .bool value)]
  | .brightness value => [("bri", level value)]
  | .hue value => [("hue", word value)]
  | .saturation value => [("sat", level value)]
  | .hueSaturation h s => [("hue", word h), ("sat", level s)]
  | .xy x y => [("xy", point x y)]
  | .temperature mired => [("ct", word (max 153 (min mired 500)))]
  | .colorLoop running => [("effect", .string (if running then "colorloop" else "none"))]
  | .brightnessBy n => [("bri_inc", amount 254 n)]
  | .saturationBy n => [("sat_inc", amount 254 n)]
  | .hueBy n => [("hue_inc", amount 65534 n)]
  | .temperatureBy n => [("ct_inc", amount 65534 n)]
  | .xyBy x y => [("xy_inc", step x y)]
  | .transition tenths =>
    if tenths = defaultTransition then [] else [(transitionKey, word tenths)]
  | .flash => [("alert", .string "select")]
  | .longFlash => [("alert", .string "lselect")]
  | .stopFlash => [("alert", .string "none")]

/-- A pending request after a setter. -/
def apply (s : Setter) (request : Fields) : Fields :=
  match s with
  | .transition tenths =>
    if tenths = defaultTransition then Fields.remove request transitionKey
    else Fields.put request transitionKey (word tenths)
  | s => Fields.putAll request s.fields

/-- A pending request after several setters, in order. -/
def applyAll (setters : List Setter) (request : Fields) : Fields :=
  setters.foldl (fun request s => s.apply request) request

end Setter

end LightBridge
