import Fullerene.Lib.Machine
import Fullerene.Lib.Word

/-!
# The Lattice window manager

`WindowManager` of the `lattice` crate: a list of windows in Z-order (bottom
first), the focused window's id, the next id to hand out, a drag in progress,
the dirty rectangles pushed since the compositor last took them, and the
tiling state.  Focus is kept twice, in `focused` and in each window's own flag.

The kernel is built with overflow checks, so every `+`, `-` and `*` on `i32`,
`u32` and `u64` values panics on overflow; such a call returns `none`, and
so does a division by zero.  `as` casts never panic: `u32 as i32` is
`Word.toSigned 32` and `i32 as u32` is `Word.ofSigned 32`.  An `&&` chain stops
at its first false comparison, so an addition after it is only evaluated, and
can only panic, when the comparisons before it held.

A window's surface is only ever built by `Surface::new` here, which fills it
with one colour, so a surface is its size and that colour.  A title is only
tested for presence, so a window records whether it has one.
-/

namespace Fullerene.Lattice

/-! ## Surfaces and windows -/

/-- A `Surface` as `Surface::new` builds it: every pixel has the same colour. -/
structure Surface where
  width : Nat
  height : Nat
  color : Nat
deriving DecidableEq, Repr

namespace Surface

/-- `Surface::MAX_AREA`. -/
def maxArea : Nat := 4096 * 2160

/-- `Surface::new`: an area above `MAX_AREA` is refused with an empty surface. -/
def new (width height color : Nat) : Surface :=
  if width * height > maxArea then ⟨0, 0, color⟩ else ⟨width, height, color⟩

/-- `Surface::get_pixel`. -/
def getPixel (s : Surface) (x y : Nat) : Option Nat :=
  if x < s.width ∧ y < s.height then some s.color else none

end Surface

/-- `compositor::TITLE_BAR_HEIGHT`, the height the compositor draws and hit-tests. -/
def titleBarHeight : Nat := 28

/-- `compositor::WINDOW_BORDER`. -/
def windowBorder : Nat := 1

/-- `RESIZE_HANDLE_SIZE`. -/
def resizeHandleSize : Nat := 16

/-- `MIN_WINDOW_W`. -/
def minWindowW : Nat := 80

/-- `MIN_WINDOW_H`. -/
def minWindowH : Nat := 40

/-- `TITLE_BAR_H`, the window manager's own copy of the title bar height. -/
def titleBarH : Nat := 20

/-- `BORDER`, the window manager's own border width. -/
def border : Nat := 2

/-- A `Window`; `titled` is `title.is_some()`. -/
structure Window where
  id : Nat
  x : Int
  y : Int
  width : Nat
  height : Nat
  surface : Surface
  titled : Bool
  focused : Bool
  minimized : Bool
  maximized : Bool
  restoreRect : Option (Int × Int × Nat × Nat)
deriving DecidableEq, Repr

namespace Window

/-- `Window::new`. -/
def new (id : Nat) (x y : Int) (width height color : Nat) : Window :=
  ⟨id, x, y, width, height, Surface.new width height color, false, false, false, false, none⟩

/-- `Window::new_with_title`. -/
def newWithTitle (id : Nat) (x y : Int) (width height color : Nat) : Window :=
  { new id x y width height color with titled := true }

/-- `Window::contains`: the client area, below the title bar when there is one. -/
def contains (w : Window) (px py : Int) : Option Bool :=
  let titleH : Int := if w.titled then titleBarHeight else 0
  if px < w.x then some false
  else do
    let top ← Word.checkedAddInt 32 w.y titleH
    if py < top then some false
    else do
      let right ← Word.checkedAddInt 32 w.x (Word.toSigned 32 w.width)
      if right ≤ px then some false
      else do
        -- `self.y + title_h` again: the same sum, which has not overflowed
        let bottom ← Word.checkedAddInt 32 top (Word.toSigned 32 w.height)
        pure (decide (py < bottom))

/-- `Window::contains_title_bar`. -/
def containsTitleBar (w : Window) (px py : Int) : Option Bool :=
  if !w.titled then some false
  else if px < w.x ∨ py < w.y then some false
  else do
    let right ← Word.checkedAddInt 32 w.x (Word.toSigned 32 w.width)
    if right ≤ px then some false
    else do
      let bottom ← Word.checkedAddInt 32 w.y titleBarHeight
      pure (decide (py < bottom))

end Window

/-! ## Dirty rectangles -/

/-- A `DirtyRect`. -/
structure DirtyRect where
  x : Nat
  y : Nat
  width : Nat
  height : Nat
deriving DecidableEq, Repr

/-- `window_dirty_rect`: the window grown by `BORDER` on each side and by `TITLE_BAR_H`.  The
corner is clamped at zero, so `as u32` keeps its value. -/
def windowDirtyRect (w : Window) : Option DirtyRect := do
  let x0 := (max (Word.saturatingSubInt 32 w.x border) 0).toNat
  let y0 := (max (Word.saturatingSubInt 32 w.y border) 0).toNat
  let ww ← Word.checkedAdd 32 w.width (border * 2)
  let tall ← Word.checkedAdd 32 w.height titleBarH
  let wh ← Word.checkedAdd 32 tall (border * 2)
  pure ⟨x0, y0, ww, wh⟩

/-! ## The window manager -/

/-- `TilingMode`. -/
inductive TilingMode where
  | floating
  | masterStack
deriving DecidableEq, Repr

/-- `DragState`. -/
inductive DragState where
  | none
  | moving (window : Nat) (offsetX offsetY : Int)
  | resizing (window : Nat) (origX origY : Int) (origWidth origHeight : Nat)
deriving DecidableEq, Repr

/-- A `WindowManager`; `floatingRestore` is the `BTreeMap`, as its entries in key order. -/
structure WindowManager where
  windows : List Window
  focused : Option Nat
  nextId : Nat
  drag : DragState
  resizeHandle : Nat
  dirtyRects : List DirtyRect
  tilingMode : TilingMode
  floatingRestore : List (Nat × Int × Int × Nat × Nat)
  workArea : Option (Nat × Nat)
deriving DecidableEq, Repr

/-- `windows.iter_mut().find(|w| w.id == id)` followed by a change of the window found: the first
window with the id is changed. -/
def updateFirst (id : Nat) (change : Window → Window) : List Window → List Window
  | [] => []
  | w :: ws => if w.id = id then change w :: ws else w :: updateFirst id change ws

/-- `BTreeMap::entry(key).or_insert(value)` on a map kept in key order. -/
def orInsert (key : Nat) (value : Int × Int × Nat × Nat) :
    List (Nat × Int × Int × Nat × Nat) → List (Nat × Int × Int × Nat × Nat)
  | [] => [(key, value)]
  | (k, v) :: rest =>
      if key = k then (k, v) :: rest
      else if key < k then (key, value) :: (k, v) :: rest
      else (k, v) :: orInsert key value rest

namespace WindowManager

/-- `WindowManager::new`. -/
def new : WindowManager := ⟨[], none, 1, .none, resizeHandleSize, [], .floating, [], none⟩

/-- The window with the id, as `windows.iter().find(|w| w.id == id)` finds it. -/
def find (wm : WindowManager) (id : Nat) : Option Window := wm.windows.find? (·.id == id)

/-- `self.dirty_rects.push(window_dirty_rect(w))`. -/
def pushDirty (wm : WindowManager) (w : Window) : Option WindowManager := do
  let rect ← windowDirtyRect w
  pure { wm with dirtyRects := wm.dirtyRects ++ [rect] }

/-- `if let Some(w) = self.windows.iter_mut().find(|w| w.id == id)`: change the window and mark it
dirty, as every focus change and geometry restore of the window manager does. -/
def updateAndMark (wm : WindowManager) (id : Nat) (change : Window → Window) : Option WindowManager :=
  match wm.find id with
  | none => some wm
  | some w => { wm with windows := updateFirst id change wm.windows }.pushDirty (change w)

/-- `set_work_area`. -/
def setWorkArea (wm : WindowManager) (width height : Nat) : WindowManager :=
  { wm with workArea := some (width, height) }

/-! ### Tiling -/

/-- The saved geometry of `retile`'s `or_insert_with`: the window's, or `(0, 0, 80, 40)`. -/
def floatingGeometry (wm : WindowManager) (id : Nat) : Int × Int × Nat × Nat :=
  ((wm.find id).map fun w => (w.x, w.y, w.width, w.height)).getD (0, 0, 80, 40)

/-- The loop of `retile` that places the stack windows below each other on the right. -/
def placeStack (stackLeft : Int) (stackW eachH gap top : Nat) (windows : List Window) :
    List (Nat × Nat) → Option (List Window)
  | [] => some windows
  | (id, i) :: rest => do
      let pitch ← Word.checkedAdd 32 eachH gap
      let offset ← Word.checkedMul 32 (i % 2 ^ 32) pitch
      let stackY ← Word.checkedAddInt 32 top (Word.toSigned 32 offset)
      let windows := updateFirst id (fun w => { w with x := stackLeft, y := stackY, width := stackW, height := eachH })
        windows
      placeStack stackLeft stackW eachH gap top windows rest

/-- The stack part of `retile`: the visible windows other than the master share the right-hand
column, each `each_h` high. -/
def tileStack (stackLeft : Int) (stackW usableH gap top : Nat) (stackIds : List Nat) (windows : List Window) :
    Option (List Window) :=
  if stackIds.isEmpty then some windows
  else do
    let count := stackIds.length % 2 ^ 32
    let spacing ← Word.checkedMul 32 gap (count - 1)
    -- `/ count` panics on zero, which `as u32` gives for a multiple of `2 ^ 32` windows
    let eachH ← (if count = 0 then none else some ((usableH - spacing) / count))
    placeStack stackLeft stackW eachH gap top windows stackIds.zipIdx

/-- `retile`: in master-stack mode the top visible window takes the left three fifths of the work
area, less a margin, and the other visible windows share the rest. -/
def retile (wm : WindowManager) (workWidth workHeight : Nat) : Option WindowManager :=
  if wm.tilingMode ≠ .masterStack then some wm
  else
    let visible := (wm.windows.filter fun w => !w.minimized).map (·.id)
    match visible.getLast? with
    | none => some wm
    | some masterId => do
      let saved := visible.foldl (fun saved id => orInsert id (wm.floatingGeometry id) saved) wm.floatingRestore
      let margin := 4
      let gap := 4
      let usableW := workWidth - margin * 2
      let usableH := workHeight - margin * 2
      let tripled ← Word.checkedMul 32 usableW 3
      let masterW := tripled / 5
      let rest ← Word.checkedSub usableW masterW
      let stackW ← Word.checkedSub rest gap
      let besideMaster ← Word.checkedAddInt 32 margin (Word.toSigned 32 masterW)
      let stackLeft ← Word.checkedAddInt 32 besideMaster (Word.toSigned 32 gap)
      let windows := updateFirst masterId
        (fun w => { w with x := margin, y := margin, width := masterW, height := usableH }) wm.windows
      let windows ← tileStack stackLeft stackW usableH gap margin (visible.filter (· ≠ masterId)) windows
      pure { wm with floatingRestore := saved, windows,
                     dirtyRects := wm.dirtyRects ++ [⟨margin, margin, usableW, usableH⟩] }

/-- `maybe_retile`, and the same test inlined at the end of `remove_window`, `raise_to_top` and
`minimize_window`. -/
def maybeRetile (wm : WindowManager) : Option WindowManager :=
  if wm.tilingMode = .masterStack then
    match wm.workArea with
    | some (ww, wh) => wm.retile ww wh
    | none => some wm
  else some wm

/-- `restore_floating`: every saved window gets its floating geometry back, in key order. -/
def restoreFloating (wm : WindowManager) : Option WindowManager :=
  if wm.floatingRestore.isEmpty then some wm
  else do
    let restored ← wm.floatingRestore.foldlM
      (fun wm (id, x, y, w, h) => wm.updateAndMark id fun win => { win with x, y, width := w, height := h }) wm
    pure { restored with floatingRestore := [] }

/-- `toggle_tiling`. -/
def toggleTiling (wm : WindowManager) : Option WindowManager :=
  match wm.tilingMode with
  | .floating => some { wm with tilingMode := .masterStack }
  | .masterStack => { wm with tilingMode := .floating }.restoreFloating

/-! ### Creating, removing and raising windows -/

/-- `push_window`: the previously focused window loses its flag and the new one goes on top with
the focus. -/
def pushWindow (wm : WindowManager) (window : Window) : Option WindowManager := do
  let wm ← (match wm.focused with
    | none => some wm
    | some prev => wm.updateAndMark prev fun w => { w with focused := false })
  let window := { window with focused := true }
  let wm ← { wm with focused := some window.id }.pushDirty window
  pure { wm with windows := wm.windows ++ [window] }

/-- `create_window_impl`: the window gets the next id. -/
def createWindowImpl (wm : WindowManager) (make : Nat → Window) : Option (Nat × WindowManager) := do
  let id := wm.nextId
  let nextId ← Word.checkedAdd 64 wm.nextId 1
  let wm ← { wm with nextId }.pushWindow (make id)
  let wm ← wm.maybeRetile
  pure (id, wm)

/-- `create_window`. -/
def createWindow (wm : WindowManager) (x y : Int) (width height color : Nat) : Option (Nat × WindowManager) :=
  wm.createWindowImpl fun id => Window.new id x y width height color

/-- `create_titled_window`. -/
def createTitledWindow (wm : WindowManager) (x y : Int) (width height color : Nat) :
    Option (Nat × WindowManager) :=
  wm.createWindowImpl fun id => Window.newWithTitle id x y width height color

/-- `remove_window`: when the focused window goes, the focus passes to the window now on top,
whether it is minimized or not. -/
def removeWindow (wm : WindowManager) (id : Nat) : Option (Bool × WindowManager) := do
  let wm ← (match wm.find id with
    | none => some wm
    | some w => wm.pushDirty w)
  let kept := wm.windows.filter (·.id != id)
  let removed := kept.length != wm.windows.length
  let wm := { wm with windows := kept }
  let wm ← (if removed && wm.focused == some id then
      match kept.getLast? with
      | some last => updateAndMark { wm with focused := some last.id } last.id fun w => { w with focused := true }
      | none => some { wm with focused := none }
    else some wm)
  let wm ← (if removed then wm.maybeRetile else some wm)
  pure (removed, wm)

/-- `close_window`. -/
def closeWindow (wm : WindowManager) (id : Nat) : Option (Bool × WindowManager) := wm.removeWindow id

/-- `raise_to_top`: `position` and `remove` take out the first window with the id, which goes
back on top with the focus. -/
def raiseToTop (wm : WindowManager) (id : Nat) : Option WindowManager :=
  match wm.find id with
  | none => some wm
  | some window => do
      let prevFocus := wm.focused
      let window := { window with focused := true }
      let wm := { wm with windows := wm.windows.eraseP (·.id == id) }
      let wm ← (match prevFocus with
        | some prev => if prev ≠ id then wm.updateAndMark prev fun w => { w with focused := false } else some wm
        | none => some wm)
      let wm ← { wm with focused := some id }.pushDirty window
      { wm with windows := wm.windows ++ [window] }.maybeRetile

/-! ### The mouse -/

/-- `window_at`: the topmost window whose client area or title bar holds the point. -/
def windowAt (wm : WindowManager) (x y : Int) : Option (Option Nat) := do
  let hit ← wm.windows.reverse.findM? fun w => do
    let inside ← w.contains x y
    if inside then pure true else w.containsTitleBar x y
  pure (hit.map (·.id))

/-- `resize_handle_at`: the topmost window whose bottom-right square of `resize_handle` pixels
holds the point. -/
def resizeHandleAt (wm : WindowManager) (x y : Int) : Option (Option Nat) := do
  let hit ← wm.windows.reverse.findM? fun w => do
    let rw ← Word.checkedAddInt 32 w.x (Word.toSigned 32 w.width)
    let rh ← Word.checkedAddInt 32 w.y (Word.toSigned 32 w.height)
    let left ← Word.checkedSubInt 32 rw (Word.toSigned 32 wm.resizeHandle)
    if x < left ∨ rw ≤ x then pure false
    else do
      let top ← Word.checkedSubInt 32 rh (Word.toSigned 32 wm.resizeHandle)
      pure (decide (top ≤ y ∧ y < rh))
  pure (hit.map (·.id))

/-- The loop of `on_mouse_down` for a press on the desktop: no window keeps the focus, and each is
marked dirty. -/
def unfocusAll (wm : WindowManager) : Option WindowManager := do
  let windows := wm.windows.map fun w => { w with focused := false }
  let rects ← windows.mapM windowDirtyRect
  pure { wm with focused := none, windows, dirtyRects := wm.dirtyRects ++ rects, drag := .none }

/-- `on_mouse_down`: a press on a resize handle starts a resize, one on a title bar starts a move,
one elsewhere in a window raises it, and one on the desktop drops the focus. -/
def onMouseDown (wm : WindowManager) (x y : Int) : Option WindowManager := do
  match ← wm.resizeHandleAt x y with
  | some hit =>
      let wm ← wm.raiseToTop hit
      match wm.find hit with
      | some w => pure { wm with drag := .resizing hit w.x w.y w.width w.height }
      | none => pure wm
  | none =>
      match ← wm.windows.reverse.findM? fun w => w.containsTitleBar x y with
      | some titleHit =>
          let id := titleHit.id
          let wm ← wm.raiseToTop id
          match wm.find id with
          | some w => do
              let offsetX ← Word.checkedSubInt 32 x w.x
              let offsetY ← Word.checkedSubInt 32 y w.y
              pure { wm with drag := .moving id offsetX offsetY }
          | none => pure wm
      | none =>
          match ← wm.windowAt x y with
          | some hit => do
              let wm ← wm.raiseToTop hit
              pure { wm with drag := .none }
          | none => wm.unfocusAll

/-- The dirty rect of the window with the id, if there is one: `find(..).map(window_dirty_rect)`. -/
def dirtyRectOf (wm : WindowManager) (id : Nat) : Option (List DirtyRect) :=
  match wm.find id with
  | none => some []
  | some w => (windowDirtyRect w).map ([·])

/-- The two arms of `on_mouse_move`: mark the window dirty, change it, and mark it dirty again. -/
def dragUpdate (wm : WindowManager) (id : Nat) (change : Window → Option Window) : Option WindowManager := do
  let before ← wm.dirtyRectOf id
  let windows ← (match wm.find id with
    | none => some wm.windows
    | some w => (change w).map fun changed => updateFirst id (fun _ => changed) wm.windows)
  let after ← { wm with windows }.dirtyRectOf id
  pure { wm with windows, dirtyRects := wm.dirtyRects ++ before ++ after }

/-- The move arm of `on_mouse_move`: the window's corner follows the pointer. -/
def moveTo (x y offsetX offsetY : Int) (w : Window) : Option Window := do
  let nx ← Word.checkedSubInt 32 x offsetX
  let ny ← Word.checkedSubInt 32 y offsetY
  pure { w with x := nx, y := ny }

/-- The resize arm of `on_mouse_move`: the size is the pointer's offset from the corner saved at the
press, cast to `u32` and raised to the minimum, with a fresh surface of that size. -/
def resizeTo (x y origX origY : Int) (w : Window) : Option Window := do
  let dx ← Word.checkedSubInt 32 x origX
  let dy ← Word.checkedSubInt 32 y origY
  let nw := max (Word.ofSigned 32 dx) minWindowW
  let nh := max (Word.ofSigned 32 dy) minWindowH
  pure { w with width := nw, height := nh, surface := Surface.new nw nh ((w.surface.getPixel 0 0).getD 0) }

/-- `on_mouse_move`. -/
def onMouseMove (wm : WindowManager) (x y : Int) : Option WindowManager :=
  match wm.drag with
  | .moving window offsetX offsetY => wm.dragUpdate window (moveTo x y offsetX offsetY)
  | .resizing window origX origY _ _ => wm.dragUpdate window (resizeTo x y origX origY)
  | .none => some wm

/-- `on_mouse_up`. -/
def onMouseUp (wm : WindowManager) : WindowManager := { wm with drag := .none }

/-! ### Window actions -/

/-- `minimize_window`: a focused window hands the focus to the topmost other visible window. -/
def minimizeWindow (wm : WindowManager) (id : Nat) : Option (Bool × WindowManager) :=
  match wm.find id with
  | none => some (false, wm)
  | some w =>
      if w.minimized then some (false, wm)
      else do
        let hide : Window → Window := fun w => { w with minimized := true, focused := false }
        let wm ← { wm with windows := updateFirst id hide wm.windows }.pushDirty (hide w)
        let wm ← (if wm.focused = some id then
            let newFocus := (wm.windows.reverse.find? fun w => !w.minimized && w.id != id).map (·.id)
            let wm := { wm with focused := newFocus }
            match newFocus with
            | some nid => wm.updateAndMark nid fun w => { w with focused := true }
            | none => some wm
          else some wm)
        let wm ← wm.maybeRetile
        pure (true, wm)

/-- `restore_window`: the window is shown again and raised. -/
def restoreWindow (wm : WindowManager) (id : Nat) : Option (Bool × WindowManager) :=
  match wm.find id with
  | none => some (false, wm)
  | some w =>
      if !w.minimized then some (false, wm)
      else do
        let wm ← { wm with windows := updateFirst id (fun w => { w with minimized := false }) wm.windows }.raiseToTop id
        pure (true, wm)

/-- The change `toggle_maximize` makes to the window: fill the work area and remember the old
geometry, or take the remembered geometry back. -/
def Window.toggleMaximized (workX workY : Int) (workWidth workHeight : Nat) (w : Window) : Window :=
  if !w.maximized then
    { w with restoreRect := some (w.x, w.y, w.width, w.height), x := workX, y := workY,
             width := workWidth, height := workHeight, maximized := true }
  else
    match w.restoreRect with
    | some (rx, ry, rw, rh) => { w with x := rx, y := ry, width := rw, height := rh, restoreRect := none,
                                        maximized := false }
    | none => { w with maximized := false }

/-- `toggle_maximize`. -/
def toggleMaximize (wm : WindowManager) (id : Nat) (workX workY : Int) (workWidth workHeight : Nat) :
    Option (Bool × WindowManager) :=
  match wm.find id with
  | none => some (false, wm)
  | some _ => do
      let wm ← wm.updateAndMark id (Window.toggleMaximized workX workY workWidth workHeight)
      pure (true, wm)

/-! ## The window manager as a machine -/

/-- The public calls of `WindowManager`; a titled window's text is not modelled. -/
inductive WmCall where
  | createWindow (x y : Int) (width height color : Nat)
  | createTitledWindow (x y : Int) (width height color : Nat)
  | removeWindow (id : Nat)
  | closeWindow (id : Nat)
  | raiseToTop (id : Nat)
  | onMouseDown (x y : Int)
  | onMouseMove (x y : Int)
  | onMouseUp
  | minimizeWindow (id : Nat)
  | restoreWindow (id : Nat)
  | toggleMaximize (id : Nat) (workX workY : Int) (workWidth workHeight : Nat)
  | toggleTiling
  | setWorkArea (width height : Nat)
  | retile (workWidth workHeight : Nat)
deriving DecidableEq, Repr

/-- What a call returns: nothing, a new window's id, or whether it acted. -/
inductive WmReply where
  | done
  | created (id : Nat)
  | acted (result : Bool)
deriving DecidableEq, Repr

/-- One call. -/
def step (wm : WindowManager) : WmCall → Option (WmReply × WindowManager)
  | .createWindow x y width height color =>
      (wm.createWindow x y width height color).map fun (id, wm) => (.created id, wm)
  | .createTitledWindow x y width height color =>
      (wm.createTitledWindow x y width height color).map fun (id, wm) => (.created id, wm)
  | .removeWindow id => (wm.removeWindow id).map fun (removed, wm) => (.acted removed, wm)
  | .closeWindow id => (wm.closeWindow id).map fun (removed, wm) => (.acted removed, wm)
  | .raiseToTop id => (wm.raiseToTop id).map (.done, ·)
  | .onMouseDown x y => (wm.onMouseDown x y).map (.done, ·)
  | .onMouseMove x y => (wm.onMouseMove x y).map (.done, ·)
  | .onMouseUp => some (.done, wm.onMouseUp)
  | .minimizeWindow id => (wm.minimizeWindow id).map fun (acted, wm) => (.acted acted, wm)
  | .restoreWindow id => (wm.restoreWindow id).map fun (acted, wm) => (.acted acted, wm)
  | .toggleMaximize id workX workY workWidth workHeight =>
      (wm.toggleMaximize id workX workY workWidth workHeight).map fun (acted, wm) => (.acted acted, wm)
  | .toggleTiling => (wm.toggleTiling).map (.done, ·)
  | .setWorkArea width height => some (.done, wm.setWorkArea width height)
  | .retile workWidth workHeight => (wm.retile workWidth workHeight).map (.done, ·)

/-- The window manager from `WindowManager::new`. -/
def machine : Machine WindowManager WmCall WmReply := ⟨new, step⟩

end WindowManager

end Fullerene.Lattice
