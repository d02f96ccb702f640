import ArmBoard.Render.Color

/-!
# Images

A picture in memory, row by row. Drawing outside its bounds is dropped.
-/
namespace ArmBoard

structure Image where
  width : Nat
  height : Nat
  pixels : Vector Color (width * height)
  deriving DecidableEq, Repr

namespace Image

def blank (width height : Nat) : Image := ⟨width, height, Vector.replicate _ .black⟩

/-- A position within the bounds has a place in the row of pixels. -/
theorem index_lt {width height x y : Nat} (column : x < width) (row : y < height) :
    y * width + x < width * height := by
  calc y * width + x < y * width + width := by omega
    _ = (y + 1) * width := by rw [Nat.succ_mul]
    _ ≤ height * width := Nat.mul_le_mul_right _ row
    _ = width * height := Nat.mul_comm _ _

/-- Two positions within the same bounds have different places. -/
theorem index_inj {width x y column row : Nat} (left : x < width) (right : column < width) :
    y * width + x = row * width + column ↔ x = column ∧ y = row := by
  constructor
  · intro same
    have columns := congrArg (· % width) same
    simp only [Nat.mul_add_mod_self_right, Nat.mod_eq_of_lt left, Nat.mod_eq_of_lt right] at columns
    subst columns
    exact ⟨rfl, Nat.eq_of_mul_eq_mul_right (Nat.zero_lt_of_lt left) (Nat.add_right_cancel same)⟩
  · rintro ⟨rfl, rfl⟩
    rfl

/-- The color at a position, if it is within the bounds. -/
def get? (image : Image) (x y : Nat) : Option Color :=
  if inside : x < image.width ∧ y < image.height then
    have inRow := index_lt inside.1 inside.2
    some image.pixels[y * image.width + x]
  else none

/-- Colors a position; outside the bounds nothing happens. -/
def set (image : Image) (x y : Nat) (color : Color) : Image :=
  { image with
    pixels :=
      if inside : x < image.width ∧ y < image.height then
        image.pixels.set (y * image.width + x) color (index_lt inside.1 inside.2)
      else image.pixels }

/-- A position that was colored reads back, and every other position is as before. -/
theorem get?_set (image : Image) (x y column row : Nat) (color : Color) :
    (image.set x y color).get? column row =
      if x = column ∧ y = row ∧ x < image.width ∧ y < image.height then some color
      else image.get? column row := by
  by_cases drawn : x < image.width ∧ y < image.height
  · by_cases read : column < image.width ∧ row < image.height
    · simp only [set, get?, drawn, read, Vector.getElem_set, index_inj drawn.1 read.1, and_self,
        and_true, dif_pos]
      split <;> rfl
    · have apart : ¬ (x = column ∧ y = row ∧ x < image.width ∧ y < image.height) := by
        rintro ⟨rfl, rfl, inside⟩
        exact read inside
      rw [if_neg apart]
      simp [set, get?, read]
  · rw [if_neg fun both => drawn both.2.2]
    simp [set, get?, drawn]

end Image

end ArmBoard
