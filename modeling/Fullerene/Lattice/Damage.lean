import Fullerene.Lattice.WindowManager

/-!
# Damage tracking

The window manager tells the compositor what to redraw by pushing dirty
rectangles, and `Compositor::render` repaints only the box that merges them.
`window_dirty_rect` grows a window by its own `BORDER` of 2 and `TITLE_BAR_H`
of 20, while the compositor draws the client area `TITLE_BAR_HEIGHT` = 28
below the window's top.  The last six rows of a titled window's client area are
therefore drawn but never marked (`windowDirtyRect_misses_client_bottom`):
minimizing a lone window leaves them on the screen
(`minimize_leaves_client_rows_stale`).

The compositor's arithmetic is taken on integers here: the window positions
and framebuffer sizes involved are far from the `i32` and `u32` bounds.
-/

namespace Fullerene.Lattice

/-- Whether the rectangle holds the pixel. -/
def DirtyRect.contains (r : DirtyRect) (col row : Int) : Bool :=
  decide (r.x ≤ col ∧ col < r.x + r.width ∧ r.y ≤ row ∧ row < r.y + r.height)

/-- `DirtyRect::merge`: the bounding box of two rectangles. -/
def DirtyRect.merge (r other : DirtyRect) : DirtyRect :=
  let x1 := min r.x other.x
  let y1 := min r.y other.y
  let x2 := max (r.x + r.width) (other.x + other.width)
  let y2 := max (r.y + r.height) (other.y + other.height)
  ⟨x1, y1, x2 - x1, y2 - y1⟩

/-- The rectangle `Compositor::render` repaints for a list of dirty rects: their merged box, or the
whole framebuffer when there are none, cut at the framebuffer's right and bottom edges. -/
def redrawArea (fbw fbh : Nat) (rects : List DirtyRect) : DirtyRect :=
  let merged : DirtyRect := match rects with
    | [] => ⟨0, 0, fbw, fbh⟩
    | first :: rest => rest.foldl DirtyRect.merge first
  ⟨merged.x, merged.y, min merged.width (fbw - merged.x), min merged.height (fbh - merged.y)⟩

/-- Whether `draw_window_clipped` writes the framebuffer pixel at `(col, row)` under the clip
`(cx, cy, cw, ch)`: the loops run over the surface rows `sys..sye` and columns `sxs..sxe` of the
client area that fall on the framebuffer, and skip the pixels outside the clip. -/
def drawsClientPixel (fbw fbh : Nat) (win : Window) (cx cy cw ch : Nat) (col row : Int) : Bool :=
  -- `to`, the client area's offset below the window's top
  let offset : Int := if win.titled then titleBarHeight else 0
  let wdx := win.x
  let wdy := win.y + offset
  let sxs := max 0 (-wdx)
  let sys := max 0 (-wdy)
  let sxe := max 0 (min (win.width : Int) (fbw - wdx))
  let sye := max 0 (min (win.height : Int) (fbh - wdy))
  decide (sys ≤ row - wdy ∧ row - wdy < sye ∧ cy ≤ row ∧ row < cy + ch ∧
    sxs ≤ col - wdx ∧ col - wdx < sxe ∧ cx ≤ col ∧ col < cx + cw)

/-- The rows of a window's dirty rect end `TITLE_BAR_H + BORDER` below its bottom edge. -/
theorem windowDirtyRect_bottom {w : Window} {r : DirtyRect} (placed : 2 ≤ w.y) (fits : w.y < 2 ^ 31)
    (rect : windowDirtyRect w = some r) : (r.y : Int) + r.height = w.y + w.height + 22 := by
  unfold windowDirtyRect at rect
  simp only [Option.bind_eq_bind, Option.bind_eq_some_iff, Option.pure_def, Option.some.injEq] at rect
  obtain ⟨ww, -, tall, stacked, wh, widened, rfl⟩ := rect
  obtain ⟨-, rfl⟩ := Word.checkedAdd_eq_some_iff.mp stacked
  obtain ⟨-, rfl⟩ := Word.checkedAdd_eq_some_iff.mp widened
  -- `y - BORDER` neither saturates nor goes below zero
  have corner : max (Word.saturatingSubInt 32 w.y border) 0 = w.y - 2 := by
    unfold Word.saturatingSubInt border
    norm_num
    omega
  have cornerNat : ((max (Word.saturatingSubInt 32 w.y border) 0).toNat : Int) = w.y - 2 := by
    rw [corner, Int.toNat_of_nonneg (by omega)]
  dsimp only
  rw [cornerNat]
  simp only [titleBarH, border]
  omega

/-- The rows from `y + height + 22` on lie outside a window's dirty rect; a titled window's client
area reaches down to `y + height + 27`. -/
theorem windowDirtyRect_misses_client_bottom {w : Window} {r : DirtyRect} (placed : 2 ≤ w.y) (fits : w.y < 2 ^ 31)
    (rect : windowDirtyRect w = some r) {col row : Int} (low : w.y + w.height + 22 ≤ row) :
    r.contains col row = false := by
  have bottom := windowDirtyRect_bottom placed fits rect
  unfold DirtyRect.contains
  simp only [decide_eq_false_iff_not, not_and]
  intro _ _ _
  omega

/-- The last row of a titled window that lies on the framebuffer is drawn, and it is six rows past
the window's dirty rect. -/
theorem drawsClientPixel_last_row {fbw fbh : Nat} {w : Window} (titled : w.titled = true)
    (left : 0 ≤ w.x) (right : w.x < fbw) (top : 0 ≤ w.y) (bottom : w.y + titleBarHeight + w.height ≤ fbh)
    (wide : 0 < w.width) (tall : 0 < w.height) :
    drawsClientPixel fbw fbh w 0 0 fbw fbh w.x (w.y + titleBarHeight + w.height - 1) = true := by
  unfold drawsClientPixel
  simp only [titled, if_true, decide_eq_true_eq]
  unfold titleBarHeight at bottom ⊢
  omega

/-- Every titled window on the framebuffer, clear of the top edge, has a drawn client pixel that its
dirty rect does not cover. -/
theorem exists_drawn_pixel_outside_windowDirtyRect {fbw fbh : Nat} {w : Window} {r : DirtyRect}
    (titled : w.titled = true) (left : 0 ≤ w.x) (right : w.x < fbw) (placed : 2 ≤ w.y) (fits : w.y < 2 ^ 31)
    (bottom : w.y + titleBarHeight + w.height ≤ fbh) (wide : 0 < w.width) (tall : 0 < w.height)
    (rect : windowDirtyRect w = some r) :
    ∃ col row, drawsClientPixel fbw fbh w 0 0 fbw fbh col row = true ∧ r.contains col row = false := by
  refine ⟨w.x, w.y + titleBarHeight + w.height - 1,
    drawsClientPixel_last_row titled left right (by omega) bottom wide tall, ?_⟩
  refine windowDirtyRect_misses_client_bottom placed fits rect ?_
  unfold titleBarHeight
  omega

open WindowManager in
/-- Minimizing the only window, a titled one at `(100, 100)` of 100 by 100, pushes one dirty rect
that ends at row 221, while the compositor had drawn its client area down to row 227: the pixel
`(100, 225)` is drawn before, hidden after, and not repainted. -/
theorem minimize_leaves_client_rows_stale :
    ∃ before after, machine.run machine.init [.createTitledWindow 100 100 100 100 0x00FF00] =
        some ([.created 1], before) ∧
      before.step (.minimizeWindow 1) = some (.acted true, after) ∧
      before.windows.map (fun w => (w.minimized, drawsClientPixel 640 480 w 0 0 640 480 100 225)) = [(false, true)] ∧
      after.windows.map (·.minimized) = [true] ∧
      after.dirtyRects.drop before.dirtyRects.length = [⟨98, 98, 104, 124⟩] ∧
      (redrawArea 640 480 [⟨98, 98, 104, 124⟩]).contains 100 225 = false :=
  ⟨_, _, rfl, rfl, rfl, rfl, rfl, rfl⟩

end Fullerene.Lattice
