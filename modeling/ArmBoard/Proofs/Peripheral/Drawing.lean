import Mathlib.Algebra.Group.Nat.Defs
import ArmBoard.Peripheral.Gpu

/-!
# Drawing is exact

What drawing does is told by a list of positions in the order in which they
are drawn. It succeeds when the pixel at each of them can be read, and then
each of them that lies within the image has the color of its pixel. The nested
loops draw the rectangle of the framebuffer, line by line.
-/
namespace ArmBoard

/--
The color of a pixel stored as two bytes, the high half first: five bits of red, six of green and
five of blue, each stretched to 255 and rounded down.
-/
structure Color.Stretches (high low : Byte) (color : Color) : Prop where
  red : color.red.toNat = (high.toNat * 256 + low.toNat) / 2048 * 255 / 31
  green : color.green.toNat = (high.toNat * 256 + low.toNat) / 32 % 64 * 255 / 63
  blue : color.blue.toNat = (high.toNat * 256 + low.toNat) % 32 * 255 / 31

/-- A channel that is not above its greatest value is not stretched beyond a byte. -/
theorem Color.toNat_stretch {value top : Nat} (inside : value ≤ top) :
    (stretch value top).toNat = value * 255 / top := by
  have bound : value * 255 / top ≤ 255 := Nat.div_le_of_le_mul (Nat.mul_le_mul_right 255 inside)
  rw [stretch, BitVec.toNat_ofNat, Nat.mod_eq_of_lt (by omega)]

/-- A field as wide as a channel can be stretched. -/
theorem Color.toNat_stretch_field (pixel : Half) {low high top : Nat}
    (wide : 1 <<< (high + 1 - low) = top + 1) :
    (stretch (Bits.field pixel low high) top).toNat =
      pixel.toNat / 2 ^ low % (top + 1) * 255 / top := by
  have inside := Bits.field_lt pixel low high
  rw [wide] at inside
  rw [toNat_stretch (Nat.le_of_lt_succ inside), Bits.field_eq_shiftRight_mod, wide,
    Nat.shiftRight_eq_div_pow]

theorem Color.stretches_ofBytes (high low : Byte) : Stretches high low (ofBytes high low) := by
  have above := high.isLt
  have below := low.isLt
  have joined : (high.setWidth 16 <<< 8 ||| low.setWidth 16 : Half).toNat =
      high.toNat * 256 + low.toNat := by
    rw [BitVec.toNat_or, BitVec.toNat_shiftLeft, BitVec.toNat_setWidth, BitVec.toNat_setWidth,
      Nat.mod_eq_of_lt (by omega), Nat.mod_eq_of_lt (by omega), Nat.shiftLeft_eq,
      Nat.mod_eq_of_lt (by omega), ← Nat.shiftLeft_eq, ← Nat.shiftLeft_add_eq_or_of_lt below,
      Nat.shiftLeft_eq]
  have red := toNat_stretch_field (high.setWidth 16 <<< 8 ||| low.setWidth 16)
    (show 1 <<< (15 + 1 - 11) = 31 + 1 from rfl)
  have green := toNat_stretch_field (high.setWidth 16 <<< 8 ||| low.setWidth 16)
    (show 1 <<< (10 + 1 - 5) = 63 + 1 from rfl)
  have blue := toNat_stretch_field (high.setWidth 16 <<< 8 ||| low.setWidth 16)
    (show 1 <<< (4 + 1 - 0) = 31 + 1 from rfl)
  rw [joined] at red green blue
  -- Nothing is left above the five bits of red.
  rw [Nat.mod_eq_of_lt (by omega)] at red
  rw [Nat.pow_zero, Nat.div_one] at blue
  exact ⟨red, green, blue⟩

namespace Image

/-- Pixels are kept row by row. -/
theorem get?_eq_getElem? {image : Image} {width height x y : Nat} (wide : image.width = width)
    (tall : image.height = height) (column : x < width) (row : y < height) :
    image.get? x y = image.pixels.toList[y * width + x]? := by
  subst wide tall
  have inside := index_lt column row
  rw [get?, dif_pos ⟨column, row⟩]
  simp [inside]

end Image

namespace Framebuffer

/--
The address of the first byte of a pixel. The sum may exceed a word, and goes on at the start of
the address space then.
-/
def placeOf (frame : Framebuffer) (x y : Nat) : Word :=
  BitVec.ofNat 32 (frame.pointer.toNat + (y + frame.yOffset.toNat) * frame.pitch.toNat +
    2 * (x + frame.xOffset.toNat))

theorem pixelAddress_eq_placeOf (frame : Framebuffer) (x y : Nat) :
    frame.pixelAddress x y = frame.placeOf x y := by
  simp only [pixelAddress, placeOf, BitVec.ofNat_add, BitVec.ofNat_mul, BitVec.ofNat_toNat,
    BitVec.setWidth_eq]
  rw [BitVec.mul_comm 2#32]
  rfl

/-- Draws the pixels at some positions one after the other, up to the first that cannot be read. -/
def drawPoints (frame : Framebuffer) (memory : Memory) :
    List (Nat × Nat) → Image → Except Fault Unit × Image
  | [], image => (.ok (), image)
  | (x, y) :: rest, image =>
      match frame.pixel memory x y with
      | .error fault => (.error fault, image)
      | .ok color => drawPoints frame memory rest (image.set x y color)

/-- The positions of `count` pixels of a line from column `x` on. -/
def linePoints (y x count : Nat) : List (Nat × Nat) := (List.range' x count).map (·, y)

/-- The positions of `count` lines from line `y` on. -/
def points (width y count : Nat) : List (Nat × Nat) :=
  (List.range' y count).flatMap fun line => linePoints line 0 width

theorem mem_points {width count : Nat} {point : Nat × Nat} :
    point ∈ points width 0 count ↔ point.1 < width ∧ point.2 < count := by
  obtain ⟨x, y⟩ := point
  simp only [points, linePoints, List.mem_flatMap, List.mem_map, List.mem_range'_1, Prod.mk.injEq]
  constructor
  · rintro ⟨line, ⟨_, below⟩, column, ⟨_, inside⟩, rfl, rfl⟩
    omega
  · rintro ⟨inside, below⟩
    exact ⟨y, by omega, x, by omega, rfl, rfl⟩

section Loops

variable (frame : Framebuffer) (memory : Memory)

theorem drawPoints_append (first second : List (Nat × Nat)) (image : Image) :
    frame.drawPoints memory (first ++ second) image =
      match frame.drawPoints memory first image with
      | (.error fault, drawn) => (.error fault, drawn)
      | (.ok (), drawn) => frame.drawPoints memory second drawn := by
  induction first generalizing image with
  | nil => rfl
  | cons point first ih =>
    simp only [List.cons_append, drawPoints]
    cases frame.pixel memory point.1 point.2 with
    | error fault => rfl
    | ok color => exact ih _

theorem drawLine_eq (y count x : Nat) (image : Image) :
    frame.drawLine memory y count x image =
      frame.drawPoints memory (linePoints y x count) image := by
  induction count generalizing x image with
  | zero => rfl
  | succ count ih =>
    rw [drawLine, linePoints, List.range'_succ, List.map_cons, drawPoints]
    cases frame.pixel memory x y with
    | error fault => rfl
    | ok color => exact ih _ _

theorem drawLines_eq (count y : Nat) (image : Image) :
    frame.drawLines memory count y image =
      frame.drawPoints memory (points frame.physicalWidth.toNat y count) image := by
  induction count generalizing y image with
  | zero => rfl
  | succ count ih =>
    rw [drawLines, points, List.range'_succ, List.flatMap_cons, drawPoints_append, drawLine_eq]
    rcases frame.drawPoints memory (linePoints y 0 frame.physicalWidth.toNat) image with
      ⟨_ | _, drawn⟩
    · rfl
    · exact ih _ _

end Loops

section Points

variable {frame : Framebuffer} {memory : Memory} {image drawn : Image}

theorem drawPoints_succeeds_iff (points : List (Nat × Nat)) :
    (frame.drawPoints memory points image).1 = .ok () ↔
      ∀ point ∈ points, ∃ color, frame.pixel memory point.1 point.2 = .ok color := by
  induction points generalizing image with
  | nil => simp [drawPoints]
  | cons point points ih =>
    rw [drawPoints, List.forall_mem_cons]
    cases frame.pixel memory point.1 point.2 with
    | error fault => simp
    | ok color => simp [ih]

/-- The positions of a list have the colors of their pixels, and the others are as before. -/
structure Painted (frame : Framebuffer) (memory : Memory) (points : List (Nat × Nat))
    (image drawn : Image) : Prop where
  width : drawn.width = image.width
  height : drawn.height = image.height
  color : ∀ x y, (x, y) ∈ points → x < image.width → y < image.height →
    ∃ color, frame.pixel memory x y = .ok color ∧ drawn.get? x y = some color
  kept : ∀ x y, (x, y) ∉ points → drawn.get? x y = image.get? x y

theorem painted_of_drawPoints {points : List (Nat × Nat)}
    (succeeds : frame.drawPoints memory points image = (.ok (), drawn)) :
    Painted frame memory points image drawn := by
  induction points generalizing image with
  | nil =>
    cases succeeds
    exact ⟨rfl, rfl, by simp, fun _ _ _ => rfl⟩
  | cons point points ih =>
    obtain ⟨column, row⟩ := point
    rw [drawPoints] at succeeds
    cases read : frame.pixel memory column row with
    | error fault =>
      rw [read] at succeeds
      cases succeeds
    | ok color =>
      rw [read] at succeeds
      obtain ⟨width, height, painted, kept⟩ := ih succeeds
      refine ⟨width, height, fun x y member left above => ?_, fun x y other => ?_⟩
      · -- A position may be drawn again, with the same color.
        by_cases later : (x, y) ∈ points
        · exact painted x y later left above
        · rcases List.mem_cons.mp member with same | later'
          · cases same
            refine ⟨color, read, ?_⟩
            rw [kept _ _ later, Image.get?_set, if_pos ⟨rfl, rfl, left, above⟩]
          · exact absurd later' later
      · rw [List.mem_cons, not_or] at other
        rw [kept x y other.2, Image.get?_set, if_neg]
        rintro ⟨same, alsoSame, _⟩
        exact other.1 (by rw [same, alsoSame])

end Points

/-- A pixel is read when both its bytes are, and has the color that they stand for. -/
theorem pixel_eq_ok_iff {frame : Framebuffer} {memory : Memory} {x y : Nat} {color : Color} :
    frame.pixel memory x y = .ok color ↔
      ∃ high low, memory.read 1 (frame.placeOf x y) = .ok high ∧
        memory.read 1 (frame.placeOf x y + 1) = .ok low ∧ color = .ofBytes high low := by
  rw [pixel, pixelAddress_eq_placeOf]
  constructor
  · intro found
    obtain ⟨high, first, found⟩ := Fault.eq_ok_of_bind found
    obtain ⟨low, second, found⟩ := Fault.eq_ok_of_bind found
    cases found
    exact ⟨high, low, first, second, rfl⟩
  · rintro ⟨high, low, first, second, rfl⟩
    rw [first, second]
    rfl

end Framebuffer

/--
An image after a framebuffer was drawn on it: a position within both has the color of the two
bytes of its pixel, and every other position is as it was. Positions lie row by row.
-/
structure Image.ShowsDrawn (frame : Framebuffer) (memory : Memory) (image drawn : Image) :
    Prop where
  width : drawn.width = image.width
  height : drawn.height = image.height
  room : drawn.pixels.toList.length = image.width * image.height
  shown : ∀ x y, x < min image.width frame.physicalWidth.toNat →
    y < min image.height frame.physicalHeight.toNat → ∃ high low color,
      memory.read 1 (frame.placeOf x y) = .ok high ∧
      memory.read 1 (frame.placeOf x y + 1) = .ok low ∧ Color.Stretches high low color ∧
      drawn.pixels.toList[y * image.width + x]? = some color
  kept : ∀ x y, x < image.width → y < image.height →
    ¬ (x < frame.physicalWidth.toNat ∧ y < frame.physicalHeight.toNat) →
      drawn.pixels.toList[y * image.width + x]? = image.pixels.toList[y * image.width + x]?

/--
Drawing a framebuffer of sixteen bits succeeds exactly if both bytes of all its pixels can be read,
whether or not they lie within the image, and then the image shows it.
-/
theorem Gpu.draws_exactly_its_framebuffer {gpu : Gpu} {frame : Framebuffer}
    (agreed : gpu.framebuffer? = some frame) (deep : frame.depth = 16) (memory : Memory)
    (image : Image) :
    ((gpu.draw memory image).1 = .ok () ↔
      ∀ x y, x < frame.physicalWidth.toNat → y < frame.physicalHeight.toNat →
        (∃ high, memory.read 1 (frame.placeOf x y) = .ok high) ∧
        ∃ low, memory.read 1 (frame.placeOf x y + 1) = .ok low) ∧
    ∀ drawn, gpu.draw memory image = (.ok (), drawn) → image.ShowsDrawn frame memory drawn := by
  have loops : gpu.draw memory image = frame.drawPoints memory
      (Framebuffer.points frame.physicalWidth.toNat 0 frame.physicalHeight.toNat) image := by
    rw [draw, agreed]
    dsimp only
    rw [Framebuffer.draw, if_pos deep, Framebuffer.drawLines_eq]
  rw [loops]
  constructor
  · rw [Framebuffer.drawPoints_succeeds_iff]
    constructor
    · intro colored x y inside above
      obtain ⟨color, read⟩ := colored (x, y) (Framebuffer.mem_points.mpr ⟨inside, above⟩)
      obtain ⟨high, low, first, second, _⟩ := Framebuffer.pixel_eq_ok_iff.mp read
      exact ⟨⟨high, first⟩, low, second⟩
    · intro readable point member
      obtain ⟨inside, above⟩ := Framebuffer.mem_points.mp member
      obtain ⟨⟨high, first⟩, low, second⟩ := readable point.1 point.2 inside above
      exact ⟨_, Framebuffer.pixel_eq_ok_iff.mpr ⟨high, low, first, second, rfl⟩⟩
  · intro drawn succeeds
    obtain ⟨width, height, painted, kept⟩ := Framebuffer.painted_of_drawPoints succeeds
    refine ⟨width, height, ?_, fun x y left above => ?_, fun x y left above other => ?_⟩
    · rw [Vector.length_toList, width, height]
    · obtain ⟨column, inside⟩ := Nat.lt_min.mp left
      obtain ⟨row, below⟩ := Nat.lt_min.mp above
      obtain ⟨color, read, shown⟩ :=
        painted x y (Framebuffer.mem_points.mpr ⟨inside, below⟩) column row
      obtain ⟨high, low, first, second, rfl⟩ := Framebuffer.pixel_eq_ok_iff.mp read
      refine ⟨high, low, _, first, second, Color.stretches_ofBytes high low, ?_⟩
      rw [← shown, Image.get?_eq_getElem? width height column row]
    · rw [← Image.get?_eq_getElem? width height left above,
        ← Image.get?_eq_getElem? rfl rfl left above]
      exact kept x y (mt Framebuffer.mem_points.mp other)

/-- A request for two lines of two pixels, of which the second one is to be shown. -/
def secondLine : Framebuffer where
  physicalWidth := 2
  physicalHeight := 1
  virtualWidth := 2
  virtualHeight := 2
  pitch := 0
  depth := 16
  xOffset := 0
  yOffset := 1
  pointer := 0
  size := 0

/-- The request at address zero, and a red and a green pixel at the end of memory. -/
def secondLineMemory : Memory :=
  let words := secondLine.words.flatMap (Bytes.ofValue 4)
  ((Memory.blank 64 4).setBytes 0 words).setBytes 60 [0xF8, 0x00, 0x07, 0xE0]

/-- On an image one pixel wide and two high only the red pixel has a place. -/
theorem red_pixel_has_a_place :
    ∃ gpu frame stored drawn, (Gpu.create (some 0) (some 64)).allocate secondLineMemory 8 =
        .ok (gpu, stored) ∧ gpu.framebuffer? = some frame ∧
      gpu.draw stored (.blank 1 2) = (.ok (), drawn) ∧
      (Image.blank 1 2).ShowsDrawn frame stored drawn ∧
      drawn.pixels.toList = [.pureRed, .black] := by
  obtain ⟨gpu, frame, stored, drawn, granted, agreed, deep, succeeds, shown⟩ :
      ∃ gpu frame stored drawn, (Gpu.create (some 0) (some 64)).allocate secondLineMemory 8 =
          .ok (gpu, stored) ∧ gpu.framebuffer? = some frame ∧ frame.depth = 16 ∧
        gpu.draw stored (.blank 1 2) = (.ok (), drawn) ∧
        drawn.pixels.toList = [.pureRed, .black] :=
    ⟨_, _, _, _, rfl, rfl, rfl, rfl, rfl⟩
  have shows := (Gpu.draws_exactly_its_framebuffer agreed deep stored (.blank 1 2)).2 drawn succeeds
  exact ⟨gpu, frame, stored, drawn, granted, agreed, succeeds, shows, shown⟩

end ArmBoard
