import Mathlib.Data.List.Nodup
import Mathlib.Data.List.Perm.Basic
import Chip8.Screen.Sprite

/-!
# Flipping points

What becomes of a screen when a list of points is flipped depends only on how often each point
occurs. A pixel changes when its point occurs an odd number of times, and there is a collision when
some point occurs twice, or once on a lit pixel. So the order of the flips does not matter, and
flipping the same points again undoes them.

A sprite of at most 32 rows covers no point twice, because its rows and columns stay apart when they
wrap around the edges.
-/

namespace Chip8.Screen

variable {screen : Screen} {points first second : List Point}

/-! ## The points of a sprite -/

theorem mem_rowPoints_iff {x y : Nat} {row : UInt8} {point : Point} :
    point ∈ rowPoints x y row ↔
      ∃ column < 8, row.toNat.testBit (7 - column) = true ∧ point = .wrap (x + column) y := by
  simp only [rowPoints, List.mem_map, List.mem_filter, List.mem_range]
  constructor
  · intro found
    rcases found with ⟨column, ⟨inside, set⟩, rfl⟩
    exact ⟨column, inside, set, rfl⟩
  · intro found
    rcases found with ⟨column, inside, set, rfl⟩
    exact ⟨column, ⟨inside, set⟩, rfl⟩

theorem mem_spritePoints_iff {x y : Nat} {sprite : List UInt8} {point : Point} :
    point ∈ spritePoints x y sprite ↔
      ∃ row byte, sprite[row]? = some byte ∧ ∃ column < 8,
        byte.toNat.testBit (7 - column) = true ∧ point = .wrap (x + column) (y + row) := by
  simp only [spritePoints, List.mem_flatMap, mem_rowPoints_iff, Prod.exists,
    List.mk_mem_zipIdx_iff_le_and_getElem?_sub]
  constructor
  · intro found
    rcases found with ⟨byte, place, ⟨below, there⟩, column, inside, set, rfl⟩
    refine ⟨place - y, byte, there, column, inside, set, ?_⟩
    rw [Nat.add_sub_cancel' below]
  · intro found
    rcases found with ⟨row, byte, there, column, inside, set, rfl⟩
    refine ⟨byte, y + row, ⟨Nat.le_add_right y row, ?_⟩, column, inside, set, rfl⟩
    rw [Nat.add_sub_cancel_left]
    exact there

/-- The eight columns of a row wrap to different points. -/
theorem nodup_rowPoints (x y : Nat) (row : UInt8) : (rowPoints x y row).Nodup := by
  apply List.Nodup.map_on _ (List.nodup_range.filter _)
  intro left leftIn right rightIn same
  have leftBound := List.mem_range.mp (List.mem_filter.mp leftIn).1
  have rightBound := List.mem_range.mp (List.mem_filter.mp rightIn).1
  simp only [Point.wrap, Point.mk.injEq, Fin.mk.injEq, width] at same
  omega

/-- A sprite that is no taller than the screen covers no point twice. -/
theorem nodup_spritePoints (x y : Nat) {sprite : List UInt8} (fits : sprite.length ≤ height) :
    (spritePoints x y sprite).Nodup := by
  apply List.nodup_flatMap.mpr
  constructor
  · intro row _
    exact nodup_rowPoints x row.2 row.1
  · rw [List.pairwise_iff_getElem]
    intro upper lower upperBound lowerBound above point inUpper inLower
    rcases mem_rowPoints_iff.mp inUpper with ⟨_, _, _, rfl⟩
    rcases mem_rowPoints_iff.mp inLower with ⟨_, _, _, same⟩
    -- Rows that are fewer than 32 apart do not wrap to the same row of the screen.
    simp only [List.getElem_zipIdx, Point.wrap, Point.mk.injEq, Fin.mk.injEq] at same
    simp only [List.length_zipIdx] at upperBound lowerBound
    simp only [height] at fits same
    omega

/-! ## Counting flips -/

theorem flipAll_append (screen : Screen) (first second : List Point) :
    screen.flipAll (first ++ second) =
      ⟨((screen.flipAll first).screen.flipAll second).screen,
        (screen.flipAll first).collision ||
          ((screen.flipAll first).screen.flipAll second).collision⟩ := by
  rw [flipAll, List.foldl_append, foldl_flip]
  rfl

/-- A lit pixel goes off on the way when its point is flipped at all, and a dark one when its point
is flipped twice. -/
theorem collision_flipAll_iff :
    (screen.flipAll points).collision = true ↔
      ∃ point ∈ points, screen.lit point = true ∨ 2 ≤ points.count point := by
  induction points generalizing screen with
  | nil => simp
  | cons point rest ih =>
      rw [flipAll_cons, Bool.or_eq_true, ih]
      constructor
      · intro collides
        rcases collides with lit | ⟨other, later, again⟩
        · exact ⟨point, List.mem_cons_self, .inl lit⟩
        · refine ⟨other, List.mem_cons_of_mem _ later, ?_⟩
          by_cases same : point = other
          · subst same
            right
            rw [List.count_cons_self]
            exact Nat.succ_le_succ (List.count_pos_iff.mpr later)
          · rw [lit_flip, if_neg same] at again
            rw [List.count_cons_of_ne same]
            exact again
      · intro collides
        rcases collides with ⟨other, member, again⟩
        by_cases same : point = other
        · subst same
          cases lit : screen.lit point with
          | true => exact .inl rfl
          | false =>
              rw [lit, List.count_cons_self] at again
              have later : 1 ≤ rest.count point := by
                rcases again with off | twice
                · cases off
                · exact Nat.le_of_succ_le_succ twice
              refine .inr ⟨point, List.count_pos_iff.mp later, .inl ?_⟩
              rw [lit_flip, if_pos rfl, lit]
              rfl
        · right
          refine ⟨other, List.mem_of_ne_of_mem (Ne.symm same) member, ?_⟩
          rw [lit_flip, if_neg same]
          rw [List.count_cons_of_ne same] at again
          exact again

/-- The order of flips matters neither to the screen nor to the collision. -/
theorem flipAll_perm (same : first.Perm second) (screen : Screen) :
    screen.flipAll first = screen.flipAll second := by
  rw [Drawing.mk.injEq]
  constructor
  · apply Screen.ext
    intro point
    rw [lit_flipAll, lit_flipAll, same.count_eq point]
  · rw [Bool.eq_iff_iff, collision_flipAll_iff, collision_flipAll_iff]
    constructor
    · intro collides
      rcases collides with ⟨point, member, again⟩
      rw [same.count_eq point] at again
      exact ⟨point, same.mem_iff.mp member, again⟩
    · intro collides
      rcases collides with ⟨point, member, again⟩
      rw [← same.count_eq point] at again
      exact ⟨point, same.mem_iff.mpr member, again⟩

theorem count_append_perm (same : second.Perm first) (point : Point) :
    (first ++ second).count point = 2 * first.count point := by
  rw [List.count_append, same.count_eq point, Nat.two_mul]

/-- Flipping the same points again, in whichever order, brings the screen back. -/
theorem screen_flipAll_again (same : second.Perm first) (screen : Screen) :
    (screen.flipAll (first ++ second)).screen = screen := by
  apply Screen.ext
  intro point
  have even : 2 * first.count point % 2 ≠ 1 := by omega
  rw [lit_flipAll, count_append_perm same, decide_eq_false even, Bool.xor_false]

/-- Flipping points and then the same points again collides, unless there are none. -/
theorem collision_flipAll_again (same : second.Perm first) (screen : Screen) :
    (screen.flipAll (first ++ second)).collision = true ↔ ∃ point, point ∈ first := by
  rw [collision_flipAll_iff]
  constructor
  · intro collides
    rcases collides with ⟨point, member, _⟩
    rcases List.mem_append.mp member with here | there
    · exact ⟨point, here⟩
    · exact ⟨point, same.mem_iff.mp there⟩
  · intro some
    rcases some with ⟨point, member⟩
    have once : 1 ≤ first.count point := List.count_pos_iff.mpr member
    refine ⟨point, List.mem_append_left _ member, .inr ?_⟩
    rw [count_append_perm same]
    exact Nat.mul_le_mul_left 2 once

/-! ## Points that all differ -/

/-- Flips of different points change just the pixels at these points. -/
theorem lit_flipAll_of_nodup (distinct : points.Nodup) (point : Point) :
    (screen.flipAll points).screen.lit point = (screen.lit point ^^ decide (point ∈ points)) := by
  rw [lit_flipAll, distinct.count]
  by_cases member : point ∈ points
  · rw [if_pos member, decide_eq_true member]
    rfl
  · rw [if_neg member, decide_eq_false member]
    rfl

/-- Flips of different points collide if one of these points is lit. -/
theorem collision_flipAll_iff_of_nodup (distinct : points.Nodup) :
    (screen.flipAll points).collision = true ↔ ∃ point ∈ points, screen.lit point = true := by
  rw [collision_flipAll_iff]
  constructor
  · intro collides
    rcases collides with ⟨point, member, lit | twice⟩
    · exact ⟨point, member, lit⟩
    · have once := List.nodup_iff_count_le_one.mp distinct point
      exact absurd (Nat.le_trans twice once) (by decide)
  · intro crossed
    rcases crossed with ⟨point, member, lit⟩
    exact ⟨point, member, .inl lit⟩

theorem collision_flipAll_of_nodup (distinct : points.Nodup)
    (dark : ∀ point ∈ points, screen.lit point = false) :
    (screen.flipAll points).collision = false := by
  apply Bool.eq_false_iff.mpr
  intro collides
  rcases (collision_flipAll_iff_of_nodup distinct).mp collides with ⟨point, member, lit⟩
  rw [dark point member] at lit
  cases lit

end Chip8.Screen
