import Chip8.Window

/-! What a picture shows: every integer of a bitmap as a square of one colour, rows
first in an image and columns first in the surface handed to a window. A window shows the
surface where it reaches, and what it showed before everywhere else. -/

set_option autoImplicit false

namespace Chip8

/-- So many rows, each of `width` elements. -/
inductive Rectangle {α : Type} (width : Nat) : Nat → List (List α) → Prop where
  | nil : Rectangle width 0 []
  | cons {height : Nat} {row : List α} {rows : List (List α)} :
      row.length = width → Rectangle width height rows → Rectangle width (height + 1) (row :: rows)

namespace Rectangle

section
variable {α β γ : Type} {rows : List (List α)} {height width : Nat}

theorem length (rect : Rectangle width height rows) : rows.length = height := by
  induction rect with
  | nil => rfl
  | cons _ _ ih => exact congrArg Nat.succ ih

theorem replicate {row : List α} (full : row.length = width) (height : Nat) :
    Rectangle width height (List.replicate height row) := by
  induction height with
  | zero => exact .nil
  | succ height ih => exact .cons full ih

theorem map {xs : List β} (f : β → List α) (full : ∀ x ∈ xs, (f x).length = width) :
    Rectangle width xs.length (xs.map f) := by
  induction xs with
  | nil => exact .nil
  | cons x xs ih =>
      apply cons
      · exact full x List.mem_cons_self
      · exact ih fun y member => full y (List.mem_cons_of_mem x member)

theorem append {more : List (List α)} {count : Nat} (rect : Rectangle width height rows)
    (rest : Rectangle width count more) : Rectangle width (height + count) (rows ++ more) := by
  induction rect with
  | nil =>
      rw [Nat.zero_add]
      exact rest
  | @cons height row rows full _ ih =>
      rw [Nat.succ_add]
      exact .cons full ih

/-- Beyond the width there is nothing in any row. -/
theorem getElem?_beyond (rect : Rectangle width height rows) (r : Nat) {c : Nat}
    (beyond : width ≤ c) : (rows[r]? >>= fun cells => cells[c]?) = none := by
  induction rect generalizing r with
  | nil => rfl
  | cons full _ ih =>
      cases r with
      | zero => exact List.getElem?_eq_none (full ▸ beyond)
      | succ r => exact ih r

theorem exists_element (rect : Rectangle width height rows) {r c : Nat} (row : r < height)
    (column : c < width) : ∃ value, (rows[r]? >>= fun cells => cells[c]?) = some value := by
  induction rect generalizing r with
  | nil => exact absurd row (Nat.not_lt_zero r)
  | cons full _ ih =>
      cases r with
      | zero => exact ⟨_, List.getElem?_eq_getElem (full ▸ column)⟩
      | succ r => exact ih (Nat.lt_of_succ_lt_succ row)

theorem zipWith {others : List (List β)} (f : α → β → γ) (rect : Rectangle width height rows)
    (other : Rectangle width height others) :
    Rectangle width height (List.zipWith (List.zipWith f) rows others) := by
  induction rect generalizing others with
  | nil => exact .nil
  | cons full _ ih =>
      cases other with
      | cons also rest =>
          apply cons _ (ih rest)
          rw [List.length_zipWith, full, also, Nat.min_self]

theorem stretch (factor : Nat) (rect : Rectangle width height rows) :
    Rectangle (width * factor) (height * factor)
      (Image.stretch factor (rows.map (Image.stretch factor))) := by
  induction rect with
  | nil =>
      rw [Nat.zero_mul]
      exact .nil
  | @cons height row rows full _ ih =>
      have wide : (Image.stretch factor row).length = width * factor := by
        rw [Image.length_stretch, full]
      rw [List.map_cons, Image.stretch_cons, Nat.succ_mul, Nat.add_comm]
      exact append (replicate wide factor) ih

/-- One more element at the head of every row. -/
theorem zipWith_cons {column : List α} (full : column.length = height)
    (rect : Rectangle width height rows) :
    Rectangle (width + 1) height (List.zipWith List.cons column rows) := by
  induction rect generalizing column with
  | nil =>
      rw [List.zipWith_nil_right]
      exact .nil
  | cons wide _ ih =>
      cases column with
      | nil => cases full
      | cons value column => exact .cons (congrArg Nat.succ wide) (ih (Nat.succ.inj full))

theorem columns (rect : Rectangle width height rows) :
    Rectangle height width (Image.columns width rows) := by
  induction rect with
  | nil => exact replicate List.length_nil width
  | cons full _ ih => exact zipWith_cons full ih

end

end Rectangle

namespace Image

section
variable {α : Type} {rows : List (List α)} {height width : Nat}

theorem columns_cons (width : Nat) (row : List α) (rows : List (List α)) :
    columns width (row :: rows) = List.zipWith List.cons row (columns width rows) := rfl

theorem getElem?_columns (rect : Rectangle width height rows) {x : Nat} (inside : x < width)
    (y : Nat) :
    ((columns width rows)[x]? >>= fun column => column[y]?) =
      rows[y]? >>= fun row => row[x]? := by
  induction rect generalizing y with
  | nil =>
      change ((List.replicate width [])[x]? >>= fun column => column[y]?) = none
      rw [List.getElem?_replicate, if_pos inside]
      rfl
  | @cons height row rows full rect ih =>
      obtain ⟨value, first⟩ : ∃ value, row[x]? = some value :=
        ⟨_, List.getElem?_eq_getElem (full ▸ inside)⟩
      obtain ⟨column, rest⟩ : ∃ column, (columns width rows)[x]? = some column :=
        ⟨_, List.getElem?_eq_getElem (rect.columns.length.symm ▸ inside)⟩
      rw [columns_cons, List.getElem?_zipWith, first, rest]
      cases y with
      | zero => exact first.symm
      | succ y =>
          have below := ih y
          rw [rest] at below
          exact below

end

structure HasShape (i : Image) (height width : Nat) : Prop where
  across : i.width = width
  rect : Rectangle width height i.rows

end Image

structure Bitmap.HasShape (b : Bitmap) (height width : Nat) : Prop where
  across : b.width = width
  rect : Rectangle width height b.rows

namespace Image

section
variable {i : Image} {b : Bitmap} {height width : Nat}

theorem HasShape.transpose (shape : i.HasShape height width) :
    i.transpose.HasShape width height := by
  constructor
  · exact shape.rect.length
  · unfold Image.transpose
    rw [shape.across]
    exact shape.rect.columns

theorem HasShape.pixel?_beyond (shape : i.HasShape height width) (r : Nat) {c : Nat}
    (beyond : width ≤ c) : i.pixel? r c = none :=
  shape.rect.getElem?_beyond r beyond

theorem pixel?_transpose (shape : i.HasShape height width) (x y : Nat) :
    i.transpose.pixel? x y = i.pixel? y x := by
  by_cases inside : x < width
  · unfold transpose
    rw [shape.across]
    exact getElem?_columns shape.rect inside y
  · have beyond : width ≤ x := Nat.le_of_not_lt inside
    have none : i.transpose.rows[x]? = none :=
      List.getElem?_eq_none (shape.transpose.rect.length.symm ▸ beyond)
    rw [shape.pixel?_beyond y beyond, pixel?, none]
    rfl

theorem HasShape.enlarge (factor : Nat) (shape : i.HasShape height width) :
    (i.enlarge factor).HasShape (height * factor) (width * factor) :=
  ⟨congrArg (· * factor) shape.across, shape.rect.stretch factor⟩

theorem HasShape.solid (width height : Nat) (color : Rgb) :
    (Image.solid width height color).HasShape height width :=
  ⟨rfl, .replicate List.length_replicate height⟩

theorem HasShape.assign (shape : i.HasShape height width) (bitmap : b.HasShape height width)
    (selects : Int → Bool) (color : Rgb) : (i.assign b selects color).HasShape height width :=
  ⟨shape.across, shape.rect.zipWith _ bitmap.rect⟩

theorem pixel?_assign (i : Image) (b : Bitmap) (selects : Int → Bool) (color : Rgb) (r c : Nat) :
    (i.assign b selects color).pixel? r c = (do
      let pixel ← i.pixel? r c
      let value ← b.cell? r c
      return if selects value then color else pixel) := by
  unfold pixel? Bitmap.cell? assign
  simp only [List.getElem?_zipWith]
  cases i.rows[r]? with
  | none => rfl
  | some pixels =>
      cases b.rows[r]? with
      | none => cases found : pixels[c]? <;> simp [found]
      | some cells =>
          simp only [Option.bind_eq_bind, Option.bind_some, List.getElem?_zipWith]
          cases pixels[c]? with
          | none => rfl
          | some pixel => cases cells[c]? <;> rfl

theorem pixel?_solid {color : Rgb} {r c : Nat} (row : r < height) (column : c < width) :
    (solid width height color).pixel? r c = some color := by
  unfold pixel? solid
  rw [List.getElem?_replicate, if_pos row]
  change (List.replicate width color)[c]? = some color
  rw [List.getElem?_replicate, if_pos column]

end

end Image

namespace Bitmap

section
variable {b : Bitmap} {height width : Nat}

theorem HasShape.paint (shape : b.HasShape height width) (on off : Rgb) :
    (b.paint on off).HasShape height width := by
  unfold Bitmap.paint
  rw [shape.across, shape.rect.length]
  exact ((Image.HasShape.solid width height _).assign shape _ on).assign shape _ off

/-- The two assignments together reach every pixel. -/
theorem HasShape.pixel?_paint (shape : b.HasShape height width) (on off : Rgb) {r c : Nat}
    (row : r < height) (column : c < width) : ∃ value, b.cell? r c = some value ∧
      (b.paint on off).pixel? r c = some (if value ≠ 0 then on else off) := by
  obtain ⟨value, there⟩ : ∃ value, b.cell? r c = some value := shape.rect.exists_element row column
  refine ⟨value, there, ?_⟩
  unfold Bitmap.paint
  rw [Image.pixel?_assign, Image.pixel?_assign, there, shape.across, shape.rect.length,
    Image.pixel?_solid row column]
  by_cases zero : value = 0 <;> simp [isOn, zero]

theorem HasShape.pixel?_enlarge (shape : b.HasShape height width) (on off : Rgb)
    {factor r c : Nat} (row : r < height * factor) (column : c < width * factor) :
    ∃ value, b.cell? (r / factor) (c / factor) = some value ∧
      ((b.paint on off).enlarge factor).pixel? r c = some (if value ≠ 0 then on else off) := by
  have positive : 0 < factor := Nat.pos_of_lt_mul_left row
  rw [Image.pixel?_enlarge _ factor positive]
  apply shape.pixel?_paint on off
  · exact Nat.div_lt_of_lt_mul (Nat.mul_comm height factor ▸ row)
  · exact Nat.div_lt_of_lt_mul (Nat.mul_comm width factor ▸ column)

end

end Bitmap

namespace Rgb

theorem isLevel_toNat (level : UInt8) : isLevel level.toNat = true := by
  have below : level.toNat < 256 := level.toNat_lt
  unfold isLevel
  rw [decide_eq_true_eq]
  omega

theorem ofComponents_components (c : Rgb) (pixels : Nat) :
    ofComponents c.components pixels = .ok c := by
  have none : c.components.find? (fun component => !isLevel component) = none := by
    rw [List.find?_eq_none]
    intro component member
    simp only [components, List.mem_cons, List.not_mem_nil, or_false] at member
    rcases member with rfl | rfl | rfl <;> simp [isLevel_toNat]
  unfold ofComponents
  rw [none]
  simp [components]

end Rgb

theorem Image.render_components (b : Bitmap) (scale : Int) (on off : Rgb) :
    Image.render b scale on.components off.components =
      .ok ((b.paint on off).enlarge (max scale 1).toNat) := by
  unfold Image.render
  rw [Rgb.ofComponents_components, Rgb.ofComponents_components]
  rfl

namespace Image

theorem length_lay (lower upper : List Rgb) : (lay lower upper).length = lower.length := by
  simp only [lay, List.length_take, List.length_append, List.length_drop]
  omega

theorem getElem?_lay {lower : List Rgb} (upper : List Rgb) {c : Nat} (inside : c < lower.length) :
    (lay lower upper)[c]? = upper[c]?.or lower[c]? := by
  rw [lay, List.getElem?_take_of_lt inside, List.getElem?_append]
  by_cases above : c < upper.length
  · rw [if_pos above, List.getElem?_eq_getElem above, Option.some_or]
  · have beyond : upper.length ≤ c := Nat.le_of_not_lt above
    rw [if_neg above, List.getElem?_drop, Nat.add_sub_cancel' beyond,
      List.getElem?_eq_none beyond, Option.none_or]

theorem zipWith_lay {lower : List (List Rgb)} {height width : Nat}
    (below : Rectangle width height lower) {upper : List (List Rgb)}
    (long : height ≤ upper.length) :
    Rectangle width height (List.zipWith lay lower upper) := by
  induction below generalizing upper with
  | nil => exact .nil
  | cons full _ ih =>
      cases upper with
      | nil => exact absurd long (Nat.not_succ_le_zero _)
      | cons row upper =>
          exact .cons ((length_lay _ row).trans full) (ih (Nat.le_of_succ_le_succ long))

section
variable {base : Image} {height width : Nat}

theorem HasShape.overlay (shape : base.HasShape height width) (top : Image) :
    (base.overlay top).HasShape height width := by
  refine ⟨shape.across, zipWith_lay shape.rect ?_⟩
  rw [List.length_append, List.length_replicate, Image.height, shape.rect.length]
  exact Nat.le_add_left height _

/-- A pixel is that of the upper image, or of the lower one where the upper does not reach. -/
theorem pixel?_overlay (shape : base.HasShape height width) (top : Image) {r c : Nat}
    (row : r < height) (column : c < width) :
    (base.overlay top).pixel? r c = (top.pixel? r c).or (base.pixel? r c) := by
  have tall : base.height = height := shape.rect.length
  obtain ⟨lower, under⟩ : ∃ lower, base.rows[r]? = some lower :=
    ⟨_, List.getElem?_eq_getElem (shape.rect.length.symm ▸ row)⟩
  have full : c < lower.length := by
    obtain ⟨value, there⟩ := shape.rect.exists_element row column
    rw [under] at there
    exact (List.getElem?_eq_some_iff.mp there).1
  unfold overlay pixel?
  rw [List.getElem?_zipWith, under, tall]
  cases above : top.rows[r]? with
  | none =>
      have beyond : top.rows.length ≤ r := List.getElem?_eq_none_iff.mp above
      have filled : (top.rows ++ List.replicate height [])[r]? = some [] := by
        rw [List.getElem?_append_right beyond, List.getElem?_replicate, if_pos (by omega)]
      rw [filled]
      exact getElem?_lay [] full
  | some upper =>
      have inside : r < top.rows.length := (List.getElem?_eq_some_iff.mp above).1
      rw [List.getElem?_append_left inside, above]
      exact getElem?_lay upper full

end

end Image

namespace Window

section
variable {w : Window} {b : Bitmap} {height width rows columns : Nat}

/-- Rendering in the colours of a scheme never fails. -/
theorem render_eq_picture (w : Window) (b : Bitmap) :
    Image.render b w.scale w.scheme.on.components w.scheme.off.components = .ok (w.picture b) :=
  Image.render_components b w.scale w.scheme.on w.scheme.off

/-- What a window has shown before is in its image only, whose size stays. -/
theorem foldl_present_eq (w : Window) (frames : List Bitmap) :
    ∃ image, frames.foldl present w = { w with image } ∧
      ∀ rows columns, w.image.HasShape rows columns → image.HasShape rows columns := by
  induction frames generalizing w with
  | nil => exact ⟨w.image, rfl, fun _ _ shape => shape⟩
  | cons frame frames ih =>
      obtain ⟨image, shown, keeps⟩ := ih (w.present frame)
      exact ⟨image, shown, fun rows columns shape => keeps rows columns (shape.overlay _)⟩

/-- What a window is handed does not depend on what it shows. -/
theorem surface_foldl_present (w : Window) (frames : List Bitmap) (b : Bitmap) :
    (frames.foldl present w).surface b = (w.picture b).transpose := by
  obtain ⟨image, shown, -⟩ := w.foldl_present_eq frames
  rw [shown]
  rfl

theorem shape_picture (large : 1 ≤ w.scale) (shape : b.HasShape height width) :
    (w.picture b).HasShape (height * w.scale.toNat) (width * w.scale.toNat) := by
  unfold picture
  rw [Int.max_eq_left large]
  exact (shape.paint _ _).enlarge _

theorem pixel?_picture (large : 1 ≤ w.scale) (shape : b.HasShape height width) {r c : Nat}
    (row : r < height * w.scale.toNat) (column : c < width * w.scale.toNat) :
    ∃ value, b.cell? (r / w.scale.toNat) (c / w.scale.toNat) = some value ∧
      (w.picture b).pixel? r c = some (if value ≠ 0 then w.scheme.on else w.scheme.off) := by
  unfold picture
  rw [Int.max_eq_left large]
  exact shape.pixel?_enlarge _ _ row column

/-- The picture shows where it reaches, and around it what was there before. -/
theorem pixel?_present (large : 1 ≤ w.scale) (bitmap : b.HasShape height width)
    (shape : w.image.HasShape rows columns) {r c : Nat} (row : r < rows) (column : c < columns) :
    (w.present b).image.pixel? r c = ((w.picture b).pixel? r c).or (w.image.pixel? r c) := by
  have picture := shape_picture large bitmap
  rw [← Image.pixel?_transpose picture c r, ← Image.pixel?_transpose picture.transpose r c]
  exact Image.pixel?_overlay shape _ row column

theorem pixel?_foldl_present (large : 1 ≤ w.scale) (bitmap : b.HasShape height width)
    (shape : w.image.HasShape rows columns) (frames : List Bitmap) {r c : Nat} (row : r < rows)
    (column : c < columns) :
    ((frames.foldl present w).present b).image.pixel? r c =
      ((w.picture b).pixel? r c).or ((frames.foldl present w).image.pixel? r c) := by
  obtain ⟨image, shown, keeps⟩ := w.foldl_present_eq frames
  rw [shown]
  exact pixel?_present (w := { w with image }) large bitmap (keeps _ _ shape) row column

theorem sizeFor_of_large {scale : Int} (large : 1 ≤ scale) :
    sizeFor scale = (Screen.width * scale.toNat, Screen.height * scale.toNat) := by
  unfold sizeFor
  obtain ⟨factor, rfl⟩ := Int.eq_ofNat_of_zero_le (Int.le_trans (by decide) large)
  rw [if_neg (Int.ne_of_gt large)]
  rfl

/-- A new window is as large as the pictures of its screens. -/
theorem shape_create {scale : Int} {scheme caption : String}
    (created : create scale scheme caption = .ok w) (large : 1 ≤ scale) :
    w.scale = scale ∧
      w.image.HasShape (Screen.height * scale.toNat) (Screen.width * scale.toNat) := by
  unfold create at created
  rw [sizeFor_of_large large] at created
  split at created
  · cases created
  · split at created
    · cases created
    · split at created
      · cases created
      · cases created
        exact ⟨rfl, .solid _ _ _⟩

end

end Window

namespace Screen

theorem hasShape_bitmap (s : Screen) : s.bitmap.HasShape height width := by
  constructor
  · rfl
  · have full : ∀ row ∈ s.toList, ((List.range width).map fun column =>
        if row.getMsbD column then (1 : Int) else 0).length = width := by
      intro row _
      rw [List.length_map, List.length_range]
    have rows : Rectangle width s.toList.length s.bitmap.rows := .map _ full
    rwa [Vector.length_toList] at rows

theorem cell?_bitmap (s : Screen) (r : Fin height) (c : Fin width) :
    s.bitmap.cell? r c = some (if s.pixel r c then 1 else 0) := by
  simp [bitmap, Bitmap.cell?, pixel]
  rfl

end Screen

namespace Image

theorem inside_square {n k factor offset : Nat} (below : k < n) (near : offset < factor) :
    k * factor + offset < n * factor :=
  calc k * factor + offset < k * factor + factor := Nat.add_lt_add_left near _
    _ = (k + 1) * factor := (Nat.succ_mul k factor).symm
    _ ≤ n * factor := Nat.mul_le_mul_right factor below

theorem square_div {k factor offset : Nat} (near : offset < factor) :
    (k * factor + offset) / factor = k := by
  rw [Nat.mul_comm, Nat.mul_add_div (Nat.zero_lt_of_lt near), Nat.div_eq_of_lt near, Nat.add_zero]

end Image

/-- After any screens, a new window shows every pixel of the last one as a square. -/
theorem Window.pixel?_foldl_draw {w : Window} {scale : Int} {scheme caption : String}
    (created : create scale scheme caption = .ok w) (large : 1 ≤ scale) (screens : List Screen)
    (screen : Screen) (r : Fin Screen.height) (c : Fin Screen.width) {down right : Nat}
    (low : down < scale.toNat) (near : right < scale.toNat) :
    ((screens.foldl draw w).draw screen).image.pixel? (r * scale.toNat + down)
        (c * scale.toNat + right) =
      some (if screen.pixel r c then w.scheme.on else w.scheme.off) := by
  obtain ⟨rfl, shape⟩ := shape_create created large
  have bitmap := screen.hasShape_bitmap
  have row := Image.inside_square r.isLt low
  have column := Image.inside_square c.isLt near
  obtain ⟨value, there, shown⟩ := pixel?_picture large bitmap row column
  rw [Image.square_div low, Image.square_div near, screen.cell?_bitmap] at there
  have last := pixel?_foldl_present large bitmap shape (screens.map Screen.bitmap) row column
  rw [List.foldl_map, shown, Option.some_or, ← Option.some.inj there] at last
  refine last.trans ?_
  cases screen.pixel r c <;> rfl

/-- Images are indexed by row and column, surfaces by column and row. The first part is about
the image itself, the second about what a window is handed and shows after any frames, and
the last about the screens of a new window. -/
theorem Bitmap.HasShape.scales_by_nearest {b : Bitmap} {height width : Nat}
    (shape : b.HasShape height width) :
    (∀ (scale : Int) (on off : Rgb),
      let s := (max scale 1).toNat
      ∃ image, Image.render b scale on.components off.components = .ok image ∧
        image.HasShape (height * s) (width * s) ∧
        ∀ i < height * s, ∀ j < width * s, ∃ value, b.cell? (i / s) (j / s) = some value ∧
          image.pixel? i j = some (if value ≠ 0 then on else off)) ∧
    (∀ (w : Window) (frames : List Bitmap), 1 ≤ w.scale →
      let s := w.scale.toNat
      let before := frames.foldl Window.present w
      ∃ image, Image.render b w.scale w.scheme.on.components w.scheme.off.components =
          .ok image ∧
        let surface := image.transpose
        before.present b = before.blit surface ∧
        surface.HasShape (width * s) (height * s) ∧
        (∀ x < width * s, ∀ y < height * s, ∃ value, b.cell? (y / s) (x / s) = some value ∧
          surface.pixel? x y = some (if value ≠ 0 then w.scheme.on else w.scheme.off)) ∧
        ∀ rows columns, w.image.HasShape rows columns → ∀ i < rows, ∀ j < columns,
          (before.present b).image.pixel? i j =
            (surface.pixel? j i).or (before.image.pixel? i j)) ∧
    ∀ (scale : Int) (scheme caption : String) (w : Window),
      Window.create scale scheme caption = .ok w → 1 ≤ scale →
      ∀ (screens : List Screen) (screen : Screen) (r : Fin Screen.height) (c : Fin Screen.width),
        ∀ down < scale.toNat, ∀ right < scale.toNat,
          ((screens.foldl Window.draw w).draw screen).image.pixel? (r * scale.toNat + down)
              (c * scale.toNat + right) =
            some (if screen.pixel r c then w.scheme.on else w.scheme.off) := by
  refine ⟨?_, ?_, ?_⟩
  · intro scale on off s
    refine ⟨_, Image.render_components b scale on off, (shape.paint on off).enlarge s, ?_⟩
    intro i row j column
    exact shape.pixel?_enlarge _ _ row column
  · intro w frames large s before
    have picture := Window.shape_picture large shape
    have handed : before.surface b = (w.picture b).transpose := w.surface_foldl_present frames b
    refine ⟨_, w.render_eq_picture b, ?_, picture.transpose, ?_, ?_⟩
    · rw [← handed]
      rfl
    · intro x column y row
      rw [Image.pixel?_transpose picture]
      exact Window.pixel?_picture large shape row column
    · intro rows columns fits i row j column
      rw [Image.pixel?_transpose picture]
      exact Window.pixel?_foldl_present large shape fits frames row column
  · intro scale scheme caption w created large screens screen r c down low right near
    exact Window.pixel?_foldl_draw created large screens screen r c low near

/-- Three columns of two rows, at a scale below one, and tripled in a window that has shown
something else, where nothing changes to the right of them. Then a new window. -/
theorem Bitmap.HasShape.scales_by_nearest_tripled :
    let b : Bitmap := ⟨3, [[0, 1, -2], [5, 0, 0]]⟩
    let w : Window := ⟨3, .retro, "", Image.solid 192 96 Scheme.retro.off⟩
    let before := [Bitmap.zero 32 64].foldl Window.present w
    let lit : Screen := Screen.sprite [0x80] 31 63
    b.HasShape 2 3 ∧ 1 ≤ w.scale ∧ w.image.HasShape 96 192 ∧
      (∃ image, Image.render b (-3) Scheme.blue.on.components Scheme.blue.off.components =
        .ok image ∧ image.HasShape 2 3 ∧ image.pixel? 0 2 = some Scheme.blue.on) ∧
      (∃ surface, before.present b = before.blit surface ∧
        surface.pixel? 8 2 = some Scheme.retro.on ∧
        surface.pixel? 8 3 = some Scheme.retro.off) ∧
      (before.present b).image.pixel? 2 8 = some Scheme.retro.on ∧
      (before.present b).image.pixel? 2 9 = before.image.pixel? 2 9 ∧
      ∃ new, Window.create 2 "amber" "CHIP-8" = .ok new ∧
        (([lit, .blank].foldl Window.draw new).draw lit).image.pixel? 63 127 =
          some Scheme.amber.on ∧
        (([lit].foldl Window.draw new).draw .blank).image.pixel? 63 127 =
          some Scheme.amber.off := by
  intro b w before lit
  have shape : b.HasShape 2 3 := ⟨rfl, .cons rfl (.cons rfl .nil)⟩
  have large : 1 ≤ w.scale := by decide
  have fits : w.image.HasShape 96 192 := .solid 192 96 _
  obtain ⟨rendered, windows, screens⟩ := scales_by_nearest shape
  obtain ⟨image, ok, size, pixels⟩ := rendered (-3) Scheme.blue.on Scheme.blue.off
  obtain ⟨picture, -, handed, across, columns, shown⟩ := windows w [Bitmap.zero 32 64] large
  obtain ⟨value, there, corner⟩ := pixels 0 (by decide) 2 (by decide)
  obtain ⟨above, first, upper⟩ := columns 8 (by decide) 2 (by decide)
  obtain ⟨below, second, lower⟩ := columns 8 (by decide) 3 (by decide)
  obtain rfl : value = -2 := Option.some.inj (there.symm.trans (by decide))
  obtain rfl : above = -2 := Option.some.inj (first.symm.trans (by decide))
  obtain rfl : below = 0 := Option.some.inj (second.symm.trans (by decide))
  have inside := shown 96 192 fits 2 (by decide) 8 (by decide)
  have outside := shown 96 192 fits 2 (by decide) 9 (by decide)
  have none : picture.transpose.pixel? 9 2 = none :=
    congrArg (· >>= fun cells => cells[2]?) (List.getElem?_eq_none (Nat.le_of_eq across.rect.length))
  rw [upper] at inside
  rw [none, Option.none_or] at outside
  let new : Window := ⟨2, .amber, "CHIP-8", Image.solid 128 64 Scheme.amber.off⟩
  have created : Window.create 2 "amber" "CHIP-8" = .ok new := by
    have named : Scheme.ofName "amber" = .ok .amber := rfl
    have written : "CHIP-8".contains '\x00' = false := by simp
    rw [Window.create, named]
    simp only [written]
    rfl
  have last := screens 2 "amber" "CHIP-8" new created (by decide)
  have on : lit.pixel 31 63 = true := by decide +kernel
  have lights := last [lit, .blank] lit 31 63 1 (by decide) 1 (by decide)
  have clears := last [lit] .blank 31 63 1 (by decide) 1 (by decide)
  rw [on] at lights
  rw [Screen.pixel_blank] at clears
  exact ⟨shape, large, fits, ⟨image, ok, size, corner⟩, ⟨_, handed, upper, lower⟩, inside, outside,
    new, created, lights, clears⟩

end Chip8
