import Chip8.Palette
import Chip8.Screen
import Chip8.TwosComplement

/-! Images made from bitmaps: every pixel value becomes one of two colours, and
every pixel a square of equal ones. A bitmap holds integers; all but zero are
on. -/

set_option autoImplicit false

namespace Chip8

structure Bitmap where
  width : Nat
  rows : List (List Int)
  deriving DecidableEq, Repr

structure Image where
  width : Nat
  rows : List (List Rgb)
  deriving DecidableEq, Repr

inductive ImageError where
  | componentOutOfRange (component : Int)
  | componentTooLarge
  | componentCount (count pixels : Nat)
  | tooFewAxes (count : Nat)
  | tooManyAxes
  deriving DecidableEq, Repr

namespace ImageError

def message : ImageError → String
  | componentOutOfRange component =>
      "Python integer " ++ toString component ++ " out of bounds for uint8"
  | componentTooLarge => "Python int too large to convert to C long"
  | componentCount count pixels =>
      "shape mismatch: value array of shape (" ++ toString count ++
        ",) could not be broadcast to indexing result of shape (" ++ toString pixels ++ ",3)"
  | tooFewAxes count => "not enough values to unpack (expected 2, got " ++ toString count ++ ")"
  | tooManyAxes => "too many values to unpack (expected 2)"

end ImageError

namespace Rgb

def grey (level : UInt8) : Rgb := ⟨level, level, level⟩

def components (c : Rgb) : List Int := [c.red.toNat, c.green.toNat, c.blue.toNat]

def isLevel (component : Int) : Bool := decide (0 ≤ component ∧ component ≤ 255)

/-- Integers of 64 bits are reported by their value, larger ones are not. -/
def levelError (component : Int) : ImageError :=
  if TwosComplement.fitsInWord component then .componentOutOfRange component
  else .componentTooLarge

/-- The colour for a number of pixels: three levels, or one for all three. It is
checked even when no pixel takes it. -/
def ofComponents (components : List Int) (pixels : Nat) : Except ImageError Rgb :=
  match components.find? fun component => !isLevel component with
  | some component => .error (levelError component)
  | none =>
      match components.map fun component => UInt8.ofNat component.toNat with
      | [level] => .ok (grey level)
      | [red, green, blue] => .ok ⟨red, green, blue⟩
      | levels => .error (.componentCount levels.length pixels)

end Rgb

namespace Bitmap

def zero (height width : Nat) : Bitmap := ⟨width, List.replicate height (List.replicate width 0)⟩

/-- A bitmap has exactly two axes, rows first. -/
def ofShape : List Nat → Except ImageError Bitmap
  | [height, width] => .ok (zero height width)
  | axes => .error (if axes.length < 2 then .tooFewAxes axes.length else .tooManyAxes)

def set (b : Bitmap) (row column : Nat) (value : Int) : Bitmap :=
  { b with rows := b.rows.modify row fun cells => cells.set column value }

def isOn (value : Int) : Bool := value != 0

def countOn (b : Bitmap) : Nat := b.rows.flatten.countP isOn

def countOff (b : Bitmap) : Nat := b.rows.flatten.countP fun v => !isOn v

/-- The integer at a row and a column. -/
def cell? (b : Bitmap) (row column : Nat) : Option Int := b.rows[row]? >>= fun cells => cells[column]?

end Bitmap

namespace Image

def height (i : Image) : Nat := i.rows.length

/-- Repeats every element in place. -/
def stretch {α : Type} (factor : Nat) (xs : List α) : List α := xs.flatMap (List.replicate factor)

theorem stretch_cons {α : Type} (factor : Nat) (x : α) (xs : List α) :
    stretch factor (x :: xs) = List.replicate factor x ++ stretch factor xs := rfl

theorem length_stretch {α : Type} (factor : Nat) (xs : List α) :
    (stretch factor xs).length = xs.length * factor := by
  induction xs with
  | nil => simp [stretch]
  | cons x xs ih =>
      rw [stretch_cons, List.length_append, ih, List.length_replicate, List.length_cons, Nat.succ_mul, Nat.add_comm]

theorem getElem?_stretch {α : Type} (factor : Nat) (positive : 0 < factor) (xs : List α) (i : Nat) :
    (stretch factor xs)[i]? = xs[i / factor]? := by
  induction xs generalizing i with
  | nil => simp [stretch]
  | cons x xs ih =>
      rw [stretch_cons]
      by_cases inside : i < factor
      · rw [List.getElem?_append_left (by simpa using inside), Nat.div_eq_of_lt inside]
        simp [inside]
      · obtain ⟨k, rfl⟩ : ∃ k, i = k + factor := ⟨i - factor, by omega⟩
        rw [List.getElem?_append_right (by simp)]
        simp [ih, Nat.add_div_right _ positive]

def enlarge (factor : Nat) (i : Image) : Image :=
  ⟨i.width * factor, stretch factor (i.rows.map (stretch factor))⟩

def solid (width height : Nat) (color : Rgb) : Image :=
  ⟨width, List.replicate height (List.replicate width color)⟩

/-- Recolours the pixels whose integers are selected. -/
def assign (i : Image) (b : Bitmap) (selects : Int → Bool) (color : Rgb) : Image :=
  let recolor (pixels : List Rgb) (cells : List Int) : List Rgb :=
    List.zipWith (fun pixel value => if selects value then color else pixel) pixels cells
  { i with rows := List.zipWith recolor i.rows b.rows }

/-- The colour at a row and a column. -/
def pixel? (i : Image) (row column : Nat) : Option Rgb := i.rows[row]? >>= fun cells => cells[column]?

theorem pixel?_enlarge (i : Image) (factor : Nat) (positive : 0 < factor) (row column : Nat) :
    (i.enlarge factor).pixel? row column = i.pixel? (row / factor) (column / factor) := by
  simp only [pixel?, enlarge, getElem?_stretch factor positive, List.getElem?_map]
  cases i.rows[row / factor]? with
  | none => rfl
  | some cells => exact getElem?_stretch factor positive cells column

/-- The rows turned into columns; without rows there are `width` empty columns. -/
def columns {α : Type} (width : Nat) (rows : List (List α)) : List (List α) :=
  rows.foldr (List.zipWith List.cons) (List.replicate width [])

/-- The two axes swapped. -/
def transpose (i : Image) : Image := ⟨i.height, columns i.width i.rows⟩

/-- Lays a row over the left end of another, whose length it keeps. -/
def lay (lower upper : List Rgb) : List Rgb :=
  (upper ++ lower.drop upper.length).take lower.length

/-- Lays `top` over the upper left corner; the result keeps the size of `base`. -/
def overlay (base top : Image) : Image :=
  ⟨base.width, List.zipWith lay base.rows (top.rows ++ List.replicate base.height [])⟩

end Image

/-- Over black, first what is on, then what is off. -/
def Bitmap.paint (b : Bitmap) (on off : Rgb) : Image :=
  ((Image.solid b.width b.rows.length (.grey 0)).assign b isOn on).assign b (fun v => !isOn v) off

namespace Image

/-- Paints a bitmap, the colour of what is on being checked first, and enlarges
it. A scale below one leaves the size alone. -/
def render (b : Bitmap) (scale : Int) (on off : List Int) : Except ImageError Image := do
  let on ← Rgb.ofComponents on b.countOn
  let off ← Rgb.ofComponents off b.countOff
  return (b.paint on off).enlarge (max scale 1).toNat

end Image

/-- The screen as ones and zeros. -/
def Screen.bitmap (s : Screen) : Bitmap :=
  ⟨Screen.width, s.toList.map fun row =>
    (List.range Screen.width).map fun column => if row.getMsbD column then 1 else 0⟩

end Chip8
