import ScriptMachine.Script
import ScriptMachine.Value.Extract
import ScriptMachine.Variable.Scope

/-!
Live instances. An instance has built-in fields, which every instance has, and user variables, which
code creates by storing to them. The real-valued built-in fields are named by `RealField`, so that
one pair of functions reads and writes all of them.
-/

namespace ScriptMachine

/-- Variables and their values, by name. -/
abbrev Variables := Std.ExtTreeMap String Value compare

/-- The built-in fields that hold a real number. -/
inductive RealField where
  | x
  | y
  | xStart
  | yStart
  | xPrevious
  | yPrevious
  | depth
  | direction
  | speed
  | imageIndex
  | imageSpeed
  | imageXScale
  | imageYScale
  | imageAngle
  | imageAlpha
deriving DecidableEq, Repr

/-- Every real-valued field. -/
def RealField.all : List RealField :=
  [.x, .y, .xStart, .yStart, .xPrevious, .yPrevious, .depth, .direction, .speed,
    .imageIndex, .imageSpeed, .imageXScale, .imageYScale, .imageAngle, .imageAlpha]

/-- The name of a real-valued field. -/
def RealField.name : RealField → String
  | x => "x"
  | y => "y"
  | xStart => "xstart"
  | yStart => "ystart"
  | xPrevious => "xprevious"
  | yPrevious => "yprevious"
  | depth => "depth"
  | direction => "direction"
  | speed => "speed"
  | imageIndex => "image_index"
  | imageSpeed => "image_speed"
  | imageXScale => "image_xscale"
  | imageYScale => "image_yscale"
  | imageAngle => "image_angle"
  | imageAlpha => "image_alpha"

/-- The values of the real-valued fields. -/
structure RealFields where
  x : Float := 0
  y : Float := 0
  xStart : Float := 0
  yStart : Float := 0
  xPrevious : Float := 0
  yPrevious : Float := 0
  depth : Float := 0
  direction : Float := 0
  speed : Float := 0
  imageIndex : Float := 0
  imageSpeed : Float := 1
  imageXScale : Float := 1
  imageYScale : Float := 1
  imageAngle : Float := 0
  imageAlpha : Float := 1
deriving DecidableEq

/-- The value of one real-valued field. -/
def RealFields.get (r : RealFields) : RealField → Float
  | .x => r.x
  | .y => r.y
  | .xStart => r.xStart
  | .yStart => r.yStart
  | .xPrevious => r.xPrevious
  | .yPrevious => r.yPrevious
  | .depth => r.depth
  | .direction => r.direction
  | .speed => r.speed
  | .imageIndex => r.imageIndex
  | .imageSpeed => r.imageSpeed
  | .imageXScale => r.imageXScale
  | .imageYScale => r.imageYScale
  | .imageAngle => r.imageAngle
  | .imageAlpha => r.imageAlpha

/-- One real-valued field changed. -/
def RealFields.set (r : RealFields) (f : RealField) (v : Float) : RealFields :=
  match f with
  | .x => { r with x := v }
  | .y => { r with y := v }
  | .xStart => { r with xStart := v }
  | .yStart => { r with yStart := v }
  | .xPrevious => { r with xPrevious := v }
  | .yPrevious => { r with yPrevious := v }
  | .depth => { r with depth := v }
  | .direction => { r with direction := v }
  | .speed => { r with speed := v }
  | .imageIndex => { r with imageIndex := v }
  | .imageSpeed => { r with imageSpeed := v }
  | .imageXScale => { r with imageXScale := v }
  | .imageYScale => { r with imageYScale := v }
  | .imageAngle => { r with imageAngle := v }
  | .imageAlpha => { r with imageAlpha := v }

/-- A changed field reads as what was stored, and the others as before. -/
theorem RealFields.get_set (r : RealFields) (f g : RealField) (v : Float) :
    (r.set f v).get g = if f = g then v else r.get g := by
  cases f <;> cases g <;> rfl

/-- The built-in fields that hold a truth value. -/
inductive Flag where
  | visible
  | solid
  | persistent
deriving DecidableEq, Repr

/-- Every flag. -/
def Flag.all : List Flag :=
  [.visible, .solid, .persistent]

/-- The name of a flag. -/
def Flag.name : Flag → String
  | visible => "visible"
  | solid => "solid"
  | persistent => "persistent"

/-- The values of the flags. -/
structure Flags where
  visible : Bool := true
  solid : Bool := false
  persistent : Bool := false
deriving DecidableEq

/-- The value of one flag. -/
def Flags.get (s : Flags) : Flag → Bool
  | .visible => s.visible
  | .solid => s.solid
  | .persistent => s.persistent

/-- One flag changed. -/
def Flags.set (s : Flags) (f : Flag) (b : Bool) : Flags :=
  match f with
  | .visible => { s with visible := b }
  | .solid => { s with solid := b }
  | .persistent => { s with persistent := b }

/-- A changed flag reads as what was stored, and the others as before. -/
theorem Flags.get_set (s : Flags) (f g : Flag) (b : Bool) :
    (s.set f b).get g = if f = g then b else s.get g := by
  cases f <;> cases g <;> rfl

/-- The flags as the bits of a number: visible 1, solid 2, persistent 4. -/
def Flags.toNat (s : Flags) : Nat :=
  s.visible.toNat + 2 * s.solid.toNat + 4 * s.persistent.toNat

/-- One live object. -/
structure Instance where
  assetId : AssetId
  id : InstanceId
  /-- The user variables. -/
  members : Variables := ∅
  reals : RealFields := {}
  spriteIndex : Int32 := -1
  flags : Flags := {}

/-- The instance at a place, which also becomes its start and previous place. -/
def Instance.at (i : Instance) (x y : Float) : Instance :=
  { i with
    reals := { i.reals with
      x := x, y := y, xStart := x, yStart := y, xPrevious := x, yPrevious := y } }

end ScriptMachine
