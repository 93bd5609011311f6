import Chip8.Screen.Basic

/-!
# Sprites

A sprite is a list of rows, each a byte whose bits are eight pixels from the left. It stands for
the points under its set bits, each point wrapped around the edges by itself. Drawing flips those
points one after the other and reports a collision when a lit pixel goes off on the way.

A sprite taller than the screen covers some points more than once, so the list of points may hold
a point several times.
-/

namespace Chip8.Screen

/-- The points under the set bits of one row whose left end is at the coordinates. -/
def rowPoints (x y : Nat) (row : UInt8) : List Point :=
  ((List.range 8).filter fun column => row.toNat.testBit (7 - column)).map fun column =>
    .wrap (x + column) y

/-- The points under the set bits of a sprite whose upper left corner is at the coordinates. -/
def spritePoints (x y : Nat) (sprite : List UInt8) : List Point :=
  (sprite.zipIdx y).flatMap fun row => rowPoints x row.2 row.1

/-- A screen that is being drawn on, and whether a lit pixel went off so far. -/
structure Drawing where
  screen : Screen
  collision : Bool
  deriving DecidableEq

def Drawing.flip (drawing : Drawing) (point : Point) : Drawing where
  screen := drawing.screen.flip point
  collision := drawing.collision || drawing.screen.lit point

def flipAll (screen : Screen) (points : List Point) : Drawing :=
  points.foldl Drawing.flip ⟨screen, false⟩

/-- Draw a sprite with its upper left corner at the coordinates. -/
def draw (screen : Screen) (x y : UInt8) (sprite : List UInt8) : Drawing :=
  screen.flipAll (spritePoints x.toNat y.toNat sprite)

/-! ## The view -/

@[simp] theorem flipAll_nil (screen : Screen) : screen.flipAll [] = ⟨screen, false⟩ := rfl

theorem foldl_flip (points : List Point) (drawing : Drawing) :
    points.foldl Drawing.flip drawing =
      ⟨(drawing.screen.flipAll points).screen,
        drawing.collision || (drawing.screen.flipAll points).collision⟩ := by
  induction points generalizing drawing with
  | nil => simp
  | cons point rest ih =>
      simp only [flipAll, List.foldl_cons]
      rw [ih, ih (Drawing.flip _ point)]
      simp [Drawing.flip, Bool.or_assoc]

theorem flipAll_cons (screen : Screen) (point : Point) (rest : List Point) :
    screen.flipAll (point :: rest) =
      ⟨((screen.flip point).flipAll rest).screen,
        screen.lit point || ((screen.flip point).flipAll rest).collision⟩ := by
  rw [flipAll, List.foldl_cons, foldl_flip]
  simp [Drawing.flip]

/-- A pixel changes if its point is flipped an odd number of times. -/
theorem lit_flipAll (screen : Screen) (points : List Point) (point : Point) :
    (screen.flipAll points).screen.lit point =
      (screen.lit point ^^ decide (points.count point % 2 = 1)) := by
  induction points generalizing screen with
  | nil => simp
  | cons first rest ih =>
      rw [flipAll_cons]
      simp only [ih, lit_flip, List.count_cons]
      by_cases same : first = point
      · subst same
        have parity : decide ((rest.count first + 1) % 2 = 1) = !decide (rest.count first % 2 = 1) := by
          by_cases odd : rest.count first % 2 = 1 <;> simp [odd] <;> omega
        simp [parity]
      · simp [same]

end Chip8.Screen
