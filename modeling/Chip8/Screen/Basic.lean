/-!
# Screen

A screen of 64 by 32 pixels, each lit or not. The view of a screen is `lit`, the state of the pixel
at a point. `flip` changes it at one point; two screens that agree at every point are equal.
-/

namespace Chip8

/-- The number of pixels in a row. -/
abbrev Screen.width : Nat := 64

/-- The number of rows. -/
abbrev Screen.height : Nat := 32

/-- A place on the screen; rows are counted from the top, pixels in a row from the left. -/
structure Point where
  x : Fin Screen.width
  y : Fin Screen.height
  deriving DecidableEq, Repr

namespace Point

/-- The point that a pair of coordinates reaches by going around the edges. -/
def wrap (x y : Nat) : Point :=
  ⟨⟨x % Screen.width, Nat.mod_lt _ (by decide)⟩, ⟨y % Screen.height, Nat.mod_lt _ (by decide)⟩⟩

/-- The place of a point when the rows are put one after the other. -/
def index (point : Point) : Fin (Screen.width * Screen.height) :=
  ⟨point.y.val * Screen.width + point.x.val, by
    have left := point.x.isLt
    have top := point.y.isLt
    simp only [Screen.width, Screen.height] at *
    omega⟩

theorem val_index (point : Point) :
    point.index.val = point.y.val * Screen.width + point.x.val := rfl

theorem index_inj {left right : Point} : left.index = right.index ↔ left = right := by
  constructor
  · intro same
    have leftBound := left.x.isLt
    have rightBound := right.x.isLt
    have position := congrArg Fin.val same
    simp only [val_index, Screen.width] at position leftBound rightBound
    cases left
    cases right
    simp only [mk.injEq, Fin.ext_iff] at *
    omega
  · exact congrArg index

theorem index_wrap (place : Fin (Screen.width * Screen.height)) :
    (wrap place.val (place.val / Screen.width)).index = place := by
  have bound := place.isLt
  apply Fin.ext
  simp only [val_index, wrap, Screen.width, Screen.height] at *
  omega

end Point

/-- The pixels of a screen, row after row. -/
structure Screen where
  pixels : Vector Bool (Screen.width * Screen.height)
  deriving DecidableEq

namespace Screen

def blank : Screen := ⟨Vector.replicate (width * height) false⟩

def lit (screen : Screen) (point : Point) : Bool :=
  screen.pixels[point.index.val]

/-- Turn the pixel at a point on if it is off, and off if it is on. -/
def flip (screen : Screen) (point : Point) : Screen :=
  ⟨screen.pixels.set point.index.val (!screen.lit point)⟩

/-- Whether the pixel that a pair of coordinates reaches around the edges is lit. -/
def pixel (screen : Screen) (x y : Nat) : Bool :=
  screen.lit (.wrap x y)

def isBlank (screen : Screen) : Bool :=
  screen.pixels.all (!·)

/-- The rows from the top, each from the left. -/
def rows (screen : Screen) : List (List Bool) :=
  (List.finRange height).map fun y => (List.finRange width).map fun x => screen.lit ⟨x, y⟩

/-! ## The view -/

@[simp] theorem lit_blank (point : Point) : blank.lit point = false := by
  simp [blank, lit]

@[simp] theorem lit_flip (screen : Screen) (point other : Point) :
    (screen.flip point).lit other = if point = other then !screen.lit point else screen.lit other := by
  simp only [flip, lit, Vector.getElem_set, ← Fin.ext_iff, Point.index_inj]

@[ext] theorem ext {left right : Screen} (same : ∀ point, left.lit point = right.lit point) :
    left = right := by
  cases left
  cases right
  simp only [mk.injEq]
  apply Vector.ext
  intro place inside
  have agree := same (.wrap place (place / width))
  simp only [lit] at agree
  have position : (Point.wrap place (place / width)).index.val = place :=
    congrArg Fin.val (Point.index_wrap ⟨place, inside⟩)
  simpa only [position] using agree

end Screen

end Chip8
