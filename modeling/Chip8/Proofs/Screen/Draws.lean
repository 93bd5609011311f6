import Chip8.Font
import Chip8.Proofs.Screen.Flips

/-!
# Drawing in any order

Sprites that are drawn one after the other flip the points of all of them, so what is shown in the
end, and whether one of the draws collided, does not depend on their order. Which of the draws
collides does. Drawing the same sprites a second time, in whichever order, erases them, and collides
unless there was nothing to draw.
-/

namespace Chip8

/-- A sprite and the coordinates of its upper left corner. -/
structure Placement where
  x : UInt8
  y : UInt8
  rows : List UInt8
  deriving DecidableEq, Repr

namespace Placement

/-- The bit of the sprite in a row and a column is set; the leftmost column is that of the most
significant bit. -/
def IsSet (placement : Placement) (row column : Nat) : Prop :=
  column < 8 ∧ ∃ byte, placement.rows[row]? = some byte ∧ byte.toNat.testBit (7 - column) = true

/-- The points under the set bits. -/
def points (placement : Placement) : List Point :=
  Screen.spritePoints placement.x.toNat placement.y.toNat placement.rows

theorem mem_points_iff {placement : Placement} {point : Point} :
    point ∈ placement.points ↔
      ∃ row column, placement.IsSet row column ∧
        point = .wrap (placement.x.toNat + column) (placement.y.toNat + row) := by
  rw [points, Screen.mem_spritePoints_iff]
  constructor
  · intro found
    rcases found with ⟨row, byte, there, column, inside, set, rfl⟩
    exact ⟨row, column, ⟨inside, byte, there, set⟩, rfl⟩
  · intro found
    rcases found with ⟨row, column, ⟨inside, byte, there, set⟩, rfl⟩
    exact ⟨row, byte, there, column, inside, set, rfl⟩

theorem exists_mem_points_iff {placement : Placement} :
    (∃ point, point ∈ placement.points) ↔ ∃ row column, placement.IsSet row column := by
  constructor
  · intro found
    rcases found with ⟨point, member⟩
    rcases mem_points_iff.mp member with ⟨row, column, set, _⟩
    exact ⟨row, column, set⟩
  · intro found
    rcases found with ⟨row, column, set⟩
    exact ⟨_, mem_points_iff.mpr ⟨row, column, set, rfl⟩⟩

end Placement

namespace Screen

def place (screen : Screen) (placement : Placement) : Drawing :=
  screen.draw placement.x placement.y placement.rows

/-- Draw sprites one after the other: the screen behind the last, and whether one of them
collided. -/
def placeAll (screen : Screen) : List Placement → Drawing
  | [] => ⟨screen, false⟩
  | first :: rest =>
      let drawn := screen.place first
      let later := drawn.screen.placeAll rest
      ⟨later.screen, drawn.collision || later.collision⟩

variable {first second : List Placement}

/-- Sprites drawn one after the other flip the points of one after the other. -/
theorem placeAll_eq_flipAll (screen : Screen) (placements : List Placement) :
    screen.placeAll placements = screen.flipAll (placements.flatMap Placement.points) := by
  induction placements generalizing screen with
  | nil => rfl
  | cons placement rest ih =>
      rw [List.flatMap_cons, flipAll_append, placeAll, ih]
      rfl

theorem placeAll_append (screen : Screen) (first second : List Placement) :
    screen.placeAll (first ++ second) =
      ⟨((screen.placeAll first).screen.placeAll second).screen,
        (screen.placeAll first).collision ||
          ((screen.placeAll first).screen.placeAll second).collision⟩ := by
  simp only [placeAll_eq_flipAll, List.flatMap_append, flipAll_append]

theorem placeAll_perm (same : second.Perm first) (screen : Screen) :
    screen.placeAll second = screen.placeAll first := by
  rw [placeAll_eq_flipAll, placeAll_eq_flipAll]
  exact flipAll_perm (same.flatMap_right _) screen

theorem screen_placeAll_again (same : second.Perm first) (screen : Screen) :
    ((screen.placeAll first).screen.placeAll second).screen = screen := by
  have both := congrArg Drawing.screen (screen.placeAll_append first second)
  rw [placeAll_eq_flipAll, List.flatMap_append] at both
  rw [← both]
  exact screen_flipAll_again (same.flatMap_right _) screen

/-- Of the draws of sprites and the draws of the same sprites again one collides, unless no bit of
the sprites is set. -/
theorem collision_placeAll_again (same : second.Perm first) (screen : Screen) :
    ((screen.placeAll first).collision ||
        ((screen.placeAll first).screen.placeAll second).collision) = true ↔
      ∃ placement ∈ first, ∃ row column, placement.IsSet row column := by
  have both := congrArg Drawing.collision (screen.placeAll_append first second)
  rw [placeAll_eq_flipAll, List.flatMap_append] at both
  change _ = (_ || _) at both
  rw [← both, collision_flipAll_again (same.flatMap_right _)]
  simp only [List.mem_flatMap, ← Placement.exists_mem_points_iff]
  constructor
  · intro found
    rcases found with ⟨point, placement, member, covered⟩
    exact ⟨placement, member, point, covered⟩
  · intro found
    rcases found with ⟨placement, member, point, covered⟩
    exact ⟨point, placement, member, covered⟩

theorem placeAll_singleton (screen : Screen) (placement : Placement) :
    screen.placeAll [placement] = screen.place placement := by
  simp only [placeAll, Bool.or_false]

/-- A sprite that is no taller than the screen is drawn without a collision where none of its set
bits is over a lit pixel. -/
theorem collision_place_of_dark {screen : Screen} {placement : Placement}
    (fits : placement.rows.length ≤ height)
    (dark : ∀ row column, placement.IsSet row column →
      screen.pixel (placement.x.toNat + column) (placement.y.toNat + row) = false) :
    (screen.place placement).collision = false := by
  apply collision_flipAll_of_nodup (nodup_spritePoints _ _ fits)
  intro point member
  rcases Placement.mem_points_iff.mp member with ⟨row, column, set, rfl⟩
  exact dark row column set

/-- Sprites drawn in another order leave the same screen, and one of the draws collides in the one
order when one does in the other. Drawing them again in any order erases them, and one of all these
draws collides unless no bit of the sprites is set. One sprite drawn twice is erased, and if it is no
taller than the screen and lies on dark pixels only, it is the second draw that collides. -/
theorem placeAll_order (screen : Screen) :
    (∀ placements other : List Placement, other.Perm placements →
      let drawn := screen.placeAll placements
      let again := drawn.screen.placeAll other
      (screen.placeAll other).screen = drawn.screen ∧
        (screen.placeAll other).collision = drawn.collision ∧
        again.screen = screen ∧
        ((drawn.collision || again.collision) = true ↔
          ∃ placement ∈ placements, ∃ row column, placement.IsSet row column)) ∧
    ∀ placement : Placement,
      let drawn := screen.place placement
      let again := drawn.screen.place placement
      again.screen = screen ∧
        (placement.rows.length ≤ 32 → (∃ row column, placement.IsSet row column) →
          (∀ row column, placement.IsSet row column →
            screen.pixel (placement.x.toNat + column) (placement.y.toNat + row) = false) →
          drawn.collision = false ∧ again.collision = true) := by
  constructor
  · intro placements other same
    have either := screen.placeAll_perm same
    refine ⟨congrArg Drawing.screen either, congrArg Drawing.collision either, ?_, ?_⟩
    · exact screen.screen_placeAll_again same
    · exact screen.collision_placeAll_again same
  · intro placement
    have erased := screen.screen_placeAll_again (List.Perm.refl [placement])
    have collides := screen.collision_placeAll_again (List.Perm.refl [placement])
    simp only [placeAll_singleton, List.mem_singleton, exists_eq_left] at erased collides
    refine ⟨erased, ?_⟩
    intro fits set dark
    have first := collision_place_of_dark fits dark
    have either := collides.mpr set
    rw [first, Bool.false_or] at either
    exact ⟨first, either⟩

theorem placeAll_order_of_glyph_and_bar :
    let glyph : Placement := ⟨62, 30, Font.glyph ⟨0, by decide⟩⟩
    let bar : Placement := ⟨60, 31, [0xFF]⟩
    let drawn := blank.placeAll [glyph, bar]
    let again := drawn.screen.placeAll [bar, glyph]
    [bar, glyph].Perm [glyph, bar] ∧ bar.IsSet 0 0 ∧
      (blank.placeAll [bar, glyph]).screen = drawn.screen ∧
      (blank.placeAll [bar, glyph]).collision = drawn.collision ∧
      again.screen = blank ∧ (drawn.collision || again.collision) = true ∧
      (blank.place bar).collision = false ∧
      ((blank.place bar).screen.place bar).collision = true := by
  intro glyph bar drawn again
  have same : [bar, glyph].Perm [glyph, bar] := .swap glyph bar []
  have set : bar.IsSet 0 0 := ⟨by decide, 0xFF, rfl, by decide⟩
  rcases placeAll_order blank with ⟨orders, twice⟩
  rcases orders _ _ same with ⟨screen, collision, erased, collides⟩
  rcases twice bar with ⟨_, second⟩
  have either : (drawn.collision || again.collision) = true :=
    collides.mpr ⟨bar, by simp, 0, 0, set⟩
  have dark : (blank.place bar).collision = false ∧
      ((blank.place bar).screen.place bar).collision = true :=
    second (by decide) ⟨0, 0, set⟩ fun _ _ _ => lit_blank _
  exact ⟨same, set, screen, collision, erased, either, dark⟩

end Screen

end Chip8
