import Mathlib.Data.Finset.Card
import Mathlib.Data.Finset.Prod
import Chip8.Proofs.Screen.Draws

/-!
# Drawing in closed form

A sprite hits a pixel once for each of its set bits that lands there around the edges. Drawing changes
the pixels that are hit an odd number of times, and collides if some pixel is hit twice, or once while
it is lit. Both hold however tall the sprite is. A sprite that is no taller than the screen hits no
pixel twice, so it changes just the pixels under its set bits and collides if one of them is lit.
-/

namespace Chip8

theorem Point.wrap_eq_wrap_iff {left top right bottom : Nat} :
    wrap left top = wrap right bottom ↔ left % 64 = right % 64 ∧ top % 32 = bottom % 32 := by
  simp only [wrap, mk.injEq, Fin.mk.injEq, Screen.width, Screen.height]

theorem Point.exists_eq_wrap (point : Point) : ∃ x < 64, ∃ y < 32, point = wrap x y := by
  refine ⟨point.x.val, point.x.isLt, point.y.val, point.y.isLt, ?_⟩
  have across : point.x.val % Screen.width = point.x.val := Nat.mod_eq_of_lt point.x.isLt
  have down : point.y.val % Screen.height = point.y.val := Nat.mod_eq_of_lt point.y.isLt
  simp only [wrap, across, down]

namespace Placement

instance (placement : Placement) (row column : Nat) : Decidable (placement.IsSet row column) :=
  decidable_of_iff
    (column < 8 ∧ (placement.rows[row]?).any (fun byte => byte.toNat.testBit (7 - column)) = true)
    (by simp only [IsSet, Option.any_eq_true])

/-- How many set bits of a sprite land on the pixel that coordinates reach around the edges: the
pairs of a row and a column of the sprite whose bit is set and that meet the coordinates modulo the
height and the width of the screen. -/
def hits (placement : Placement) (x y : Nat) : Nat :=
  ((Finset.range placement.rows.length ×ˢ Finset.range 8).filter fun cell =>
    placement.IsSet cell.1 cell.2 ∧ (placement.y.toNat + cell.1) % 32 = y % 32 ∧
      (placement.x.toNat + cell.2) % 64 = x % 64).card

/-- The set bits of a sprite, each by its row and its column. -/
def cells (placement : Placement) : List (Nat × Nat) :=
  placement.rows.zipIdx.flatMap fun row =>
    ((List.range 8).filter fun column => row.1.toNat.testBit (7 - column)).map fun column =>
      (row.2, column)

variable {placement : Placement} {cell : Nat × Nat} {row column : Nat}

theorem mem_cells_iff : cell ∈ placement.cells ↔ placement.IsSet cell.1 cell.2 := by
  rcases cell with ⟨row, column⟩
  simp only [cells, IsSet, List.mem_flatMap, List.mem_map, List.mem_filter, List.mem_range,
    Prod.exists, List.mk_mem_zipIdx_iff_getElem?, Prod.mk.injEq]
  constructor
  · intro found
    rcases found with ⟨byte, _, there, _, ⟨inside, set⟩, rfl, rfl⟩
    exact ⟨inside, byte, there, set⟩
  · intro found
    rcases found with ⟨inside, byte, there, set⟩
    exact ⟨byte, row, there, column, ⟨inside, set⟩, rfl, rfl⟩

theorem nodup_cells (placement : Placement) : placement.cells.Nodup := by
  apply List.nodup_flatMap.mpr
  constructor
  · intro row _
    apply List.Nodup.map _ (List.nodup_range.filter _)
    intro left right same
    exact (Prod.mk.inj same).2
  · rw [List.pairwise_iff_getElem]
    intro upper lower upperBound lowerBound above cell inUpper inLower
    rcases List.mem_map.mp inUpper with ⟨_, _, rfl⟩
    rcases List.mem_map.mp inLower with ⟨_, _, same⟩
    simp only [List.getElem_zipIdx, Prod.mk.injEq] at same
    omega

/-- The points of a sprite are the places where its set bits land, in order. -/
theorem points_eq_map_cells (placement : Placement) :
    placement.points = placement.cells.map fun cell =>
      .wrap (placement.x.toNat + cell.2) (placement.y.toNat + cell.1) := by
  rw [points, Screen.spritePoints, List.zipIdx_eq_map_add, List.flatMap_map, cells,
    List.map_flatMap]
  simp only [Screen.rowPoints, List.map_map, Function.comp_def, Nat.add_comm]

theorem IsSet.row_lt (set : placement.IsSet row column) : row < placement.rows.length := by
  rcases set with ⟨_, byte, there, _⟩
  exact (List.getElem?_eq_some_iff.mp there).1

/-- A point occurs among those of a sprite as often as its pixel is hit. -/
theorem count_points (placement : Placement) (x y : Nat) :
    placement.points.count (.wrap x y) = placement.hits x y := by
  rw [points_eq_map_cells, List.count, List.countP_map, List.countP_eq_length_filter,
    ← List.toFinset_card_of_nodup (placement.nodup_cells.filter _), hits]
  congr 1
  ext cell
  simp only [List.mem_toFinset, List.mem_filter, mem_cells_iff, Function.comp_apply, beq_iff_eq,
    Point.wrap_eq_wrap_iff, Finset.mem_filter, Finset.mem_product, Finset.mem_range]
  constructor
  · intro found
    rcases found with ⟨set, across, down⟩
    exact ⟨⟨set.row_lt, set.1⟩, set, down, across⟩
  · intro found
    rcases found with ⟨_, set, down, across⟩
    exact ⟨set, across, down⟩

/-- A sprite that is no taller than the screen covers no point twice, so it hits no pixel twice. -/
theorem nodup_points (fits : placement.rows.length ≤ 32) : placement.points.Nodup :=
  Screen.nodup_spritePoints _ _ fits

theorem hits_le_one (fits : placement.rows.length ≤ 32) (x y : Nat) : placement.hits x y ≤ 1 := by
  rw [← count_points]
  exact List.nodup_iff_count_le_one.mp (nodup_points fits) _

end Placement

namespace Screen

variable {placement : Placement}

theorem pixel_mod (screen : Screen) (x y : Nat) :
    screen.pixel (x % 64) (y % 32) = screen.pixel x y := by
  have same : Point.wrap (x % 64) (y % 32) = .wrap x y :=
    Point.wrap_eq_wrap_iff.mpr ⟨Nat.mod_mod x 64, Nat.mod_mod y 32⟩
  rw [pixel, pixel, same]

/-! ## Sprites of any height -/

/-- A pixel changes if it is hit an odd number of times. -/
theorem pixel_place (screen : Screen) (placement : Placement) (x y : Nat) :
    (screen.place placement).screen.pixel x y =
      (screen.pixel x y ^^ decide (placement.hits x y % 2 = 1)) := by
  rw [← Placement.count_points]
  exact lit_flipAll _ _ _

/-- A sprite collides if it hits a pixel twice, or a lit one. -/
theorem collision_place_iff (screen : Screen) (placement : Placement) :
    (screen.place placement).collision = true ↔
      ∃ x < 64, ∃ y < 32, 2 ≤ placement.hits x y ∨
        1 ≤ placement.hits x y ∧ screen.pixel x y = true := by
  change (screen.flipAll placement.points).collision = true ↔ _
  rw [collision_flipAll_iff]
  constructor
  · intro collides
    rcases collides with ⟨point, member, again⟩
    rcases point.exists_eq_wrap with ⟨x, across, y, down, rfl⟩
    have once := List.count_pos_iff.mpr member
    rw [Placement.count_points] at once again
    refine ⟨x, across, y, down, ?_⟩
    rcases again with lit | twice
    · exact .inr ⟨once, lit⟩
    · exact .inl twice
  · intro hit
    rcases hit with ⟨x, _, y, _, again⟩
    rw [← Placement.count_points] at again
    refine ⟨.wrap x y, ?_⟩
    rcases again with twice | ⟨once, lit⟩
    · exact ⟨List.count_pos_iff.mp (Nat.lt_of_succ_lt twice), .inr twice⟩
    · exact ⟨List.count_pos_iff.mp once, .inl lit⟩

/-! ## Sprites that are no taller than the screen -/

/-- A sprite that is no taller than the screen changes just the pixels under its set bits. -/
theorem pixel_place_ne_iff (screen : Screen) (fits : placement.rows.length ≤ 32) (x y : Nat) :
    (screen.place placement).screen.pixel x y ≠ screen.pixel x y ↔
      ∃ row column, placement.IsSet row column ∧
        x % 64 = (placement.x.toNat + column) % 64 ∧ y % 32 = (placement.y.toNat + row) % 32 := by
  have flipped : (screen.place placement).screen.pixel x y =
      (screen.pixel x y ^^ decide (.wrap x y ∈ placement.points)) :=
    lit_flipAll_of_nodup (Placement.nodup_points fits) _
  have changes : ∀ before flip : Bool, (before ^^ flip) ≠ before ↔ flip = true := by decide
  rw [flipped, changes, decide_eq_true_iff, Placement.mem_points_iff]
  simp only [Point.wrap_eq_wrap_iff]

/-- A sprite that is no taller than the screen collides if one of its set bits lies over a lit
pixel. -/
theorem collision_place_iff_of_fits (screen : Screen) (fits : placement.rows.length ≤ 32) :
    (screen.place placement).collision = true ↔
      ∃ row column, placement.IsSet row column ∧
        screen.pixel (placement.x.toNat + column) (placement.y.toNat + row) = true := by
  change (screen.flipAll placement.points).collision = true ↔ _
  rw [collision_flipAll_iff_of_nodup (Placement.nodup_points fits)]
  constructor
  · intro crossed
    rcases crossed with ⟨point, member, lit⟩
    rcases Placement.mem_points_iff.mp member with ⟨row, column, set, rfl⟩
    exact ⟨row, column, set, lit⟩
  · intro crossed
    rcases crossed with ⟨row, column, set, lit⟩
    exact ⟨_, Placement.mem_points_iff.mpr ⟨row, column, set, rfl⟩, lit⟩

/-- Drawing a sprite of any height changes the pixels that it hits an odd number of times, and
collides if it hits a pixel twice or a lit one. A sprite that is no taller than the screen hits no
pixel twice, so it collides if one of its set bits lies over a lit pixel. -/
theorem draw_counts_hits (screen : Screen) (placement : Placement) :
    let drawn := screen.draw placement.x placement.y placement.rows
    (∀ x y, drawn.screen.pixel x y =
      (screen.pixel x y ^^ decide (placement.hits x y % 2 = 1))) ∧
    (drawn.collision = true ↔
      ∃ x < 64, ∃ y < 32, 2 ≤ placement.hits x y ∨
        1 ≤ placement.hits x y ∧ screen.pixel x y = true) ∧
    (placement.rows.length ≤ 32 →
      (∀ x y, placement.hits x y ≤ 1) ∧
        (drawn.collision = true ↔
          ∃ row column, placement.IsSet row column ∧
            screen.pixel (placement.x.toNat + column) (placement.y.toNat + row) = true)) := by
  intro drawn
  refine ⟨screen.pixel_place placement, screen.collision_place_iff placement, ?_⟩
  intro fits
  exact ⟨placement.hits_le_one fits, screen.collision_place_iff_of_fits fits⟩

theorem draw_counts_hits_of_bar_and_pillar :
    let bar : Placement := ⟨60, 31, [0xFF]⟩
    let pillar : Placement := ⟨2, 0, List.replicate 33 0x80⟩
    let shown := (blank.place bar).screen
    let drawn := shown.draw pillar.x pillar.y pillar.rows
    bar.rows.length ≤ 32 ∧ (∀ x y, bar.hits x y ≤ 1) ∧
      (shown.draw bar.x bar.y bar.rows).collision = true ∧
      pillar.hits 2 0 = 2 ∧ drawn.screen.pixel 2 0 = false ∧
      pillar.hits 2 31 = 1 ∧ shown.pixel 2 31 = true ∧ drawn.screen.pixel 2 31 = false ∧
      drawn.collision = true := by
  intro bar pillar shown drawn
  have seen : (bar.IsSet 0 6 ∧ shown.pixel 66 31 = true) ∧
      (pillar.hits 2 0 = 2 ∧ shown.pixel 2 0 = false) ∧
      pillar.hits 2 31 = 1 ∧ shown.pixel 2 31 = true := by
    decide +kernel
  rcases seen with ⟨⟨set, under⟩, ⟨twice, dark⟩, once, lit⟩
  rcases draw_counts_hits shown bar with ⟨_, _, short⟩
  rcases short (by decide) with ⟨apart, collides⟩
  rcases draw_counts_hits shown pillar with ⟨pixels, crosses, _⟩
  refine ⟨by decide, apart, collides.mpr ⟨0, 6, set, under⟩, twice, ?_, once, lit, ?_, ?_⟩
  · rw [pixels, twice, dark]
    rfl
  · rw [pixels, once, lit]
    rfl
  · exact crosses.mpr ⟨2, by decide, 0, by decide, .inl twice.ge⟩

end Screen

end Chip8
