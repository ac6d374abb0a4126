import Fullerene.Lattice.WindowManager

/-!
# Focus in the window manager

The window manager keeps its focus twice, in `focused` and in a flag on each
window, and every call has to move both.  `FocusConsistent` says that they
agree and that ids are distinct: it holds in every reachable state
(`focusConsistent_of_reachable`).

It does not follow that the focused window is visible.  `remove_window` hands
the focus to the top window and `window_at` hit-tests hidden windows, so
closing the focused window, or pressing the mouse over a minimized one,
focuses a minimized window.  A resize drag to the left of the corner casts
the negative offset to `u32` and leaves a window about `2 ^ 32` pixels wide,
whose surface `Surface::new` then refuses (`resizeTo_width_of_lt`).

Calls that only move or resize windows are `SameFocus` steps, which no focus
argument needs to look into.
-/

namespace Fullerene.Lattice

/-! ## Changing the first window with an id -/

section UpdateFirst

variable {id : Nat} {change : Window → Window}

theorem updateFirst_of_forall_ne {ws : List Window} (absent : ∀ w ∈ ws, w.id ≠ id) :
    updateFirst id change ws = ws := by
  induction ws with
  | nil => rfl
  | cons w ws ih =>
      rw [updateFirst, if_neg (absent w List.mem_cons_self),
        ih fun v mem => absent v (List.mem_cons_of_mem _ mem)]

/-- No window after the first one with an id has it, when ids are distinct. -/
theorem forall_ne_of_nodup_cons {w : Window} {ws : List Window} (nodup : ((w :: ws).map (·.id)).Nodup) :
    ∀ v ∈ ws, v.id ≠ w.id := by
  rw [List.map_cons, List.nodup_cons] at nodup
  intro v mem same
  exact nodup.1 (same ▸ List.mem_map_of_mem mem)

/-- With distinct ids, changing the first window with the id changes every window with it. -/
theorem updateFirst_eq_map {ws : List Window} (nodup : (ws.map (·.id)).Nodup) :
    updateFirst id change ws = ws.map fun w => if w.id = id then change w else w := by
  induction ws with
  | nil => rfl
  | cons w ws ih =>
      have later := forall_ne_of_nodup_cons nodup
      rw [List.map_cons, List.nodup_cons] at nodup
      by_cases same : w.id = id
      · -- the later windows do not have the id, so the map leaves them as they are
        rw [updateFirst, if_pos same, List.map_cons, if_pos same,
          List.map_congr_left fun v mem => if_neg (same ▸ later v mem), List.map_id']
      · rw [updateFirst, if_neg same, List.map_cons, if_neg same, ih nodup.2]

theorem map_updateFirst {β : Type} (f : Window → β) (keep : ∀ w, f (change w) = f w) (ws : List Window) :
    (updateFirst id change ws).map f = ws.map f := by
  induction ws with
  | nil => rfl
  | cons w ws ih =>
      rw [updateFirst]
      split <;> simp only [List.map_cons, keep, ih]

/-- A change that only keeps what `f` reads of the window `find?` returns keeps the whole list's. -/
theorem map_updateFirst_of_find {β : Type} (f : Window → β) {w : Window} {ws : List Window}
    (found : ws.find? (·.id == id) = some w) (keep : f (change w) = f w) :
    (updateFirst id change ws).map f = ws.map f := by
  induction ws with
  | nil => cases found
  | cons v ws ih =>
      rw [List.find?_cons] at found
      rw [updateFirst]
      by_cases same : v.id = id
      · rw [beq_iff_eq.mpr same] at found
        cases found
        rw [if_pos same, List.map_cons, List.map_cons, keep]
      · rw [beq_false_of_ne same] at found
        rw [if_neg same, List.map_cons, List.map_cons, ih found]

theorem eraseP_eq_filter {ws : List Window} (nodup : (ws.map (·.id)).Nodup) :
    ws.eraseP (·.id == id) = ws.filter (·.id != id) := by
  induction ws with
  | nil => rfl
  | cons w ws ih =>
      have later := forall_ne_of_nodup_cons nodup
      rw [List.map_cons, List.nodup_cons] at nodup
      by_cases same : w.id = id
      · have kept : ws.filter (·.id != id) = ws :=
          List.filter_eq_self.mpr fun v mem => bne_iff_ne.mpr (same ▸ later v mem)
        simp [same, kept]
      · simp [same, ih nodup.2]

/-- Equal images under `f` give every window of one list a partner in the other. -/
theorem exists_of_map_eq {β : Type} {f : Window → β} {ws ws' : List Window} (images : ws'.map f = ws.map f)
    {w' : Window} (mem : w' ∈ ws') : ∃ w ∈ ws, f w = f w' := by
  have image : f w' ∈ ws.map f := images ▸ List.mem_map_of_mem mem
  exact List.mem_map.mp image

end UpdateFirst

/-! ## What the calls do to the window list -/

namespace WindowManager

variable {wm wm' : WindowManager}

theorem find_eq_none {id : Nat} : wm.find id = none ↔ ∀ w ∈ wm.windows, w.id ≠ id := by
  simp [find, List.find?_eq_none]

theorem id_of_find {id : Nat} {w : Window} (found : wm.find id = some w) : w.id = id := by
  unfold find at found
  have matched := List.find?_some found
  exact beq_iff_eq.mp matched

theorem mem_of_find {id : Nat} {w : Window} (found : wm.find id = some w) : w ∈ wm.windows :=
  List.mem_of_find?_eq_some found

theorem pushDirty_eq_some {w : Window} (pushed : wm.pushDirty w = some wm') :
    ∃ rect, wm' = { wm with dirtyRects := wm.dirtyRects ++ [rect] } := by
  unfold pushDirty at pushed
  simp only [Option.bind_eq_bind, Option.bind_eq_some_iff, Option.pure_def, Option.some.injEq] at pushed
  obtain ⟨rect, -, rfl⟩ := pushed
  exact ⟨rect, rfl⟩

/-- `updateAndMark` changes the first window with the id and adds dirty rects, nothing else. -/
theorem updateAndMark_eq_some {id : Nat} {change : Window → Window} (marked : wm.updateAndMark id change = some wm') :
    ∃ rects, wm' = { wm with windows := updateFirst id change wm.windows, dirtyRects := wm.dirtyRects ++ rects } := by
  unfold updateAndMark at marked
  cases found : wm.find id with
  | none =>
      rw [found, Option.some.injEq] at marked
      subst marked
      refine ⟨[], ?_⟩
      rw [updateFirst_of_forall_ne (find_eq_none.mp found), List.append_nil]
  | some w =>
      rw [found] at marked
      obtain ⟨rect, rfl⟩ := pushDirty_eq_some marked
      exact ⟨[rect], rfl⟩

end WindowManager

/-! ## Calls that keep the focus -/

/-- What the focus bookkeeping reads of a window: its id, its flag, and whether it is hidden. -/
def Window.focusEntry (w : Window) : Nat × Bool × Bool := (w.id, w.focused, w.minimized)

/-- Two states that agree on focus: the same windows in the same order with the same flags, the
same focused id and the same next id. -/
structure SameFocus (wm wm' : WindowManager) : Prop where
  entries : wm'.windows.map Window.focusEntry = wm.windows.map Window.focusEntry
  focused : wm'.focused = wm.focused
  nextId : wm'.nextId = wm.nextId

namespace SameFocus

variable {wm wm' wm'' : WindowManager}

@[refl]
theorem refl (wm : WindowManager) : SameFocus wm wm := ⟨rfl, rfl, rfl⟩

theorem trans (first : SameFocus wm wm') (second : SameFocus wm' wm'') : SameFocus wm wm'' :=
  ⟨second.entries.trans first.entries, second.focused.trans first.focused, second.nextId.trans first.nextId⟩

theorem of_eq (same : wm = wm') : SameFocus wm wm' := same ▸ refl wm

theorem ids (same : SameFocus wm wm') : wm'.windows.map (·.id) = wm.windows.map (·.id) := by
  have firsts := congrArg (List.map Prod.fst) same.entries
  simpa only [List.map_map, Function.comp_def, Window.focusEntry] using firsts

theorem flags (same : SameFocus wm wm') :
    wm'.windows.map (fun w => (w.id, w.focused)) = wm.windows.map (fun w => (w.id, w.focused)) := by
  have pairs := congrArg (List.map fun entry => (entry.1, entry.2.1)) same.entries
  simpa only [List.map_map, Function.comp_def, Window.focusEntry] using pairs

end SameFocus

namespace WindowManager

variable {wm wm' : WindowManager}

/-- A change of one window that keeps its focus entry. -/
def KeepsFocus (change : Window → Window) : Prop := ∀ w, (change w).focusEntry = w.focusEntry

theorem updateAndMark_sameFocus {id : Nat} {change : Window → Window} (keep : KeepsFocus change)
    (marked : wm.updateAndMark id change = some wm') : SameFocus wm wm' := by
  obtain ⟨rects, rfl⟩ := updateAndMark_eq_some marked
  exact ⟨map_updateFirst _ keep _, rfl, rfl⟩

/-- Placing the stack windows moves them and nothing else. -/
theorem placeStack_entries {stackLeft : Int} {stackW eachH gap top : Nat} :
    ∀ {windows windows' : List Window} (ids : List (Nat × Nat)),
      placeStack stackLeft stackW eachH gap top windows ids = some windows' →
        windows'.map Window.focusEntry = windows.map Window.focusEntry
  | windows, windows', [], placed => by
      rw [placeStack, Option.some.injEq] at placed
      rw [placed]
  | windows, windows', (id, i) :: rest, placed => by
      simp only [placeStack, Option.bind_eq_bind, Option.bind_eq_some_iff] at placed
      obtain ⟨pitch, -, offset, -, stackY, -, placed⟩ := placed
      exact (placeStack_entries rest placed).trans (map_updateFirst _ (by intro; rfl) _)

theorem tileStack_entries {stackLeft : Int} {stackW usableH gap top : Nat} {stackIds : List Nat}
    {windows windows' : List Window} (tiled : tileStack stackLeft stackW usableH gap top stackIds windows = some windows') :
    windows'.map Window.focusEntry = windows.map Window.focusEntry := by
  unfold tileStack at tiled
  split at tiled
  · rw [← Option.some.inj tiled]
  · simp only [Option.bind_eq_bind, Option.bind_eq_some_iff] at tiled
    obtain ⟨spacing, -, eachH, -, placed⟩ := tiled
    exact placeStack_entries _ placed

theorem retile_sameFocus {workWidth workHeight : Nat} (retiled : wm.retile workWidth workHeight = some wm') :
    SameFocus wm wm' := by
  unfold retile at retiled
  split at retiled
  · exact .of_eq (Option.some.inj retiled)
  · dsimp only at retiled
    split at retiled
    · exact .of_eq (Option.some.inj retiled)
    · simp only [Option.bind_eq_bind, Option.bind_eq_some_iff, Option.pure_def, Option.some.injEq] at retiled
      obtain ⟨tripled, -, rest, -, stackW, -, besideMaster, -, stackLeft, -, windows, tiled, rfl⟩ := retiled
      -- the master window is moved first, then the stack windows one by one
      exact ⟨(tileStack_entries tiled).trans (map_updateFirst _ (by intro; rfl) _), rfl, rfl⟩

theorem maybeRetile_sameFocus (retiled : wm.maybeRetile = some wm') : SameFocus wm wm' := by
  unfold maybeRetile at retiled
  split at retiled
  · split at retiled
    · exact retile_sameFocus retiled
    · exact .of_eq (Option.some.inj retiled)
  · exact .of_eq (Option.some.inj retiled)

/-- A fold of calls that each keep the focus keeps it. -/
theorem foldlM_sameFocus {α : Type} {f : WindowManager → α → Option WindowManager}
    (each : ∀ wm a wm', f wm a = some wm' → SameFocus wm wm') :
    ∀ (l : List α) {wm wm' : WindowManager}, l.foldlM f wm = some wm' → SameFocus wm wm'
  | [], wm, wm', folded => .of_eq (Option.some.inj folded)
  | a :: l, wm, wm', folded => by
      rw [List.foldlM_cons] at folded
      simp only [Option.bind_eq_bind, Option.bind_eq_some_iff] at folded
      obtain ⟨middle, stepped, rest⟩ := folded
      exact (each _ _ _ stepped).trans (foldlM_sameFocus each l rest)

theorem restoreFloating_sameFocus (restored : wm.restoreFloating = some wm') : SameFocus wm wm' := by
  unfold restoreFloating at restored
  split at restored
  · exact .of_eq (Option.some.inj restored)
  · simp only [Option.bind_eq_bind, Option.bind_eq_some_iff, Option.pure_def, Option.some.injEq] at restored
    obtain ⟨middle, folded, rfl⟩ := restored
    refine (foldlM_sameFocus ?_ _ folded).trans ⟨rfl, rfl, rfl⟩
    -- each saved entry restores one window's geometry
    rintro wm ⟨id, x, y, w, h⟩ wm' marked
    exact updateAndMark_sameFocus (by intro; rfl) marked

theorem toggleTiling_sameFocus (toggled : wm.toggleTiling = some wm') : SameFocus wm wm' := by
  unfold toggleTiling at toggled
  split at toggled
  · rw [← Option.some.inj toggled]
    exact ⟨rfl, rfl, rfl⟩
  · -- the mode is not part of the focus
    have restored := restoreFloating_sameFocus toggled
    exact ⟨restored.entries, restored.focused, restored.nextId⟩

theorem toggleMaximized_keepsFocus (workX workY : Int) (workWidth workHeight : Nat) :
    KeepsFocus (Window.toggleMaximized workX workY workWidth workHeight) := by
  intro w
  unfold Window.toggleMaximized
  split
  · rfl
  · split <;> rfl

theorem toggleMaximize_sameFocus {id : Nat} {workX workY : Int} {workWidth workHeight : Nat} {acted : Bool}
    (toggled : wm.toggleMaximize id workX workY workWidth workHeight = some (acted, wm')) : SameFocus wm wm' := by
  unfold toggleMaximize at toggled
  split at toggled
  · exact .of_eq (Prod.mk.inj (Option.some.inj toggled)).2
  · simp only [Option.bind_eq_bind, Option.bind_eq_some_iff, Option.pure_def, Option.some.injEq,
      Prod.mk.injEq] at toggled
    obtain ⟨middle, marked, -, rfl⟩ := toggled
    exact updateAndMark_sameFocus (toggleMaximized_keepsFocus _ _ _ _) marked

/-- A drag changes the dragged window by `change`, which keeps its focus entry. -/
theorem dragUpdate_sameFocus {id : Nat} {change : Window → Option Window}
    (keep : ∀ w w', change w = some w' → w'.focusEntry = w.focusEntry)
    (dragged : wm.dragUpdate id change = some wm') : SameFocus wm wm' := by
  unfold dragUpdate at dragged
  simp only [Option.bind_eq_bind, Option.bind_eq_some_iff, Option.pure_def, Option.some.injEq] at dragged
  obtain ⟨before, -, windows, changed, after, -, rfl⟩ := dragged
  refine ⟨?_, rfl, rfl⟩
  split at changed
  · rw [← Option.some.inj changed]
  · rename_i w found
    obtain ⟨w', changedW, rfl⟩ := Option.map_eq_some_iff.mp changed
    exact map_updateFirst_of_find _ found (keep w w' changedW)

theorem moveTo_focusEntry {x y offsetX offsetY : Int} {w w' : Window} (moved : moveTo x y offsetX offsetY w = some w') :
    w'.focusEntry = w.focusEntry := by
  unfold moveTo at moved
  simp only [Option.bind_eq_bind, Option.bind_eq_some_iff, Option.pure_def, Option.some.injEq] at moved
  obtain ⟨nx, -, ny, -, rfl⟩ := moved
  rfl

theorem resizeTo_focusEntry {x y origX origY : Int} {w w' : Window} (resized : resizeTo x y origX origY w = some w') :
    w'.focusEntry = w.focusEntry := by
  unfold resizeTo at resized
  simp only [Option.bind_eq_bind, Option.bind_eq_some_iff, Option.pure_def, Option.some.injEq] at resized
  obtain ⟨dx, -, dy, -, rfl⟩ := resized
  rfl

theorem onMouseMove_sameFocus {x y : Int} (moved : wm.onMouseMove x y = some wm') : SameFocus wm wm' := by
  unfold onMouseMove at moved
  split at moved
  · exact dragUpdate_sameFocus (fun _ _ => moveTo_focusEntry) moved
  · exact dragUpdate_sameFocus (fun _ _ => resizeTo_focusEntry) moved
  · exact .of_eq (Option.some.inj moved)

/-! ### Calls that move the focus to the top window -/

/-- What `create_window_impl` does to the focus: the new window gets the next id and goes on top
with the flag, over the old windows with the old focus's flag cleared. -/
theorem createWindowImpl_spec {make : Nat → Window} {id : Nat} (created : wm.createWindowImpl make = some (id, wm')) :
    id = wm.nextId ∧ ∃ pushed, SameFocus pushed wm' ∧ pushed.focused = some (make id).id ∧
      pushed.nextId = wm.nextId + 1 ∧ ∃ cleared, pushed.windows = cleared ++ [{ make id with focused := true }] ∧
        (wm.focused = none ∧ cleared = wm.windows ∨
          ∃ prev, wm.focused = some prev ∧ cleared = updateFirst prev (fun w => { w with focused := false }) wm.windows) := by
  unfold createWindowImpl at created
  simp only [Option.bind_eq_bind, Option.bind_eq_some_iff, Option.pure_def, Option.some.injEq,
    Prod.mk.injEq] at created
  obtain ⟨nextId, counted, pushed, pushedEq, retiled, retiledEq, rfl, rfl⟩ := created
  obtain ⟨-, rfl⟩ := Word.checkedAdd_eq_some_iff.mp counted
  unfold pushWindow at pushedEq
  simp only [Option.bind_eq_bind, Option.bind_eq_some_iff, Option.pure_def, Option.some.injEq] at pushedEq
  obtain ⟨cleared, clearedEq, marked, markedEq, rfl⟩ := pushedEq
  obtain ⟨rect, rfl⟩ := pushDirty_eq_some markedEq
  refine ⟨rfl, _, maybeRetile_sameFocus retiledEq, rfl, ?_, cleared.windows, rfl, ?_⟩
  all_goals split at clearedEq
  · rw [← Option.some.inj clearedEq]
  · obtain ⟨rects, rfl⟩ := updateAndMark_eq_some clearedEq
    rfl
  · rename_i none
    rw [← Option.some.inj clearedEq]
    exact .inl ⟨none, rfl⟩
  · rename_i prev focused
    obtain ⟨rects, rfl⟩ := updateAndMark_eq_some clearedEq
    exact .inr ⟨prev, focused, rfl⟩

/-- What `raise_to_top` does to the focus when it finds the window: the window goes on top with the
flag, and the old focus loses its flag unless it was this window. -/
theorem raiseToTop_spec {id : Nat} {window : Window} (found : wm.find id = some window)
    (raised : wm.raiseToTop id = some wm') :
    ∃ pushed, SameFocus pushed wm' ∧ pushed.focused = some id ∧ pushed.nextId = wm.nextId ∧
      ∃ cleared, pushed.windows = cleared ++ [{ window with focused := true }] ∧
        (cleared = wm.windows.eraseP (·.id == id) ∧ (wm.focused = none ∨ wm.focused = some id) ∨
          ∃ prev, wm.focused = some prev ∧ prev ≠ id ∧
            cleared = updateFirst prev (fun w => { w with focused := false }) (wm.windows.eraseP (·.id == id))) := by
  unfold raiseToTop at raised
  rw [found] at raised
  simp only [Option.bind_eq_bind, Option.bind_eq_some_iff] at raised
  obtain ⟨cleared, clearedEq, marked, markedEq, retiled⟩ := raised
  obtain ⟨rect, rfl⟩ := pushDirty_eq_some markedEq
  refine ⟨_, maybeRetile_sameFocus retiled, rfl, ?_, cleared.windows, rfl, ?_⟩
  all_goals split at clearedEq
  all_goals try split at clearedEq
  · obtain ⟨rects, rfl⟩ := updateAndMark_eq_some clearedEq
    rfl
  · rw [← Option.some.inj clearedEq]
  · rw [← Option.some.inj clearedEq]
  · rename_i prev focused other
    obtain ⟨rects, rfl⟩ := updateAndMark_eq_some clearedEq
    exact .inr ⟨prev, focused, other, rfl⟩
  · rename_i prev focused same
    rw [← Option.some.inj clearedEq]
    exact .inl ⟨rfl, .inr (not_not.mp same ▸ focused)⟩
  · rename_i none
    rw [← Option.some.inj clearedEq]
    exact .inl ⟨rfl, .inl none⟩

end WindowManager

/-! ## The focus invariant -/

/-- The window manager's two records of the focus agree: ids are distinct and below the next id,
the focused id names a window, and a window's flag is set exactly when it is the focused one. -/
structure FocusConsistent (wm : WindowManager) : Prop where
  nodup : (wm.windows.map (·.id)).Nodup
  fresh : ∀ w ∈ wm.windows, w.id < wm.nextId
  focusedExists : ∀ id, wm.focused = some id → ∃ w ∈ wm.windows, w.id = id
  flag : ∀ w ∈ wm.windows, w.focused = true ↔ wm.focused = some w.id

/-- Clearing the flag of the one window that may have it leaves no flag set. -/
theorem unflag_windows {ws : List Window} {prev : Nat} {change : Window → Window}
    (clears : ∀ w, (change w).focused = false) (nodup : (ws.map (·.id)).Nodup)
    (flags : ∀ w ∈ ws, w.focused = true → w.id = prev) :
    ∀ w ∈ updateFirst prev change ws, w.focused = false := by
  rw [updateFirst_eq_map nodup]
  intro w mem
  obtain ⟨v, memV, rfl⟩ := List.mem_map.mp mem
  split
  · exact clears v
  · rename_i other
    cases flag : v.focused
    · rfl
    · exact absurd (flags v memV flag) other

namespace FocusConsistent

variable {wm wm' : WindowManager}

theorem of_flags (inv : FocusConsistent wm)
    (flags : wm'.windows.map (fun w => (w.id, w.focused)) = wm.windows.map (fun w => (w.id, w.focused)))
    (focused : wm'.focused = wm.focused) (nextId : wm'.nextId = wm.nextId) : FocusConsistent wm' where
  nodup := by
    have ids := congrArg (List.map Prod.fst) flags
    simp only [List.map_map, Function.comp_def] at ids
    rw [ids]
    exact inv.nodup
  fresh w' mem := by
    obtain ⟨w, mem, same⟩ := exists_of_map_eq flags mem
    rw [nextId, ← (Prod.mk.inj same).1]
    exact inv.fresh w mem
  focusedExists id isFocused := by
    obtain ⟨w, mem, rfl⟩ := inv.focusedExists id (focused ▸ isFocused)
    obtain ⟨w', mem', same⟩ := exists_of_map_eq flags.symm mem
    exact ⟨w', mem', (Prod.mk.inj same).1⟩
  flag w' mem := by
    obtain ⟨w, mem, same⟩ := exists_of_map_eq flags mem
    obtain ⟨sameId, sameFlag⟩ := Prod.mk.inj same
    rw [focused, ← sameId, ← sameFlag]
    exact inv.flag w mem

theorem of_sameFocus (inv : FocusConsistent wm) (same : SameFocus wm wm') : FocusConsistent wm' :=
  inv.of_flags same.flags same.focused same.nextId

/-- Only the focused window has its flag. -/
theorem unflagged_of_ne (inv : FocusConsistent wm) {w : Window} (mem : w ∈ wm.windows)
    (other : wm.focused ≠ some w.id) : w.focused = false := by
  cases flag : w.focused
  · rfl
  · exact absurd ((inv.flag w mem).mp flag) other

/-- Distinct ids below the next one, no flag and no focus. -/
theorem of_unflagged (nodup : (wm.windows.map (·.id)).Nodup) (fresh : ∀ w ∈ wm.windows, w.id < wm.nextId)
    (unflagged : ∀ w ∈ wm.windows, w.focused = false) (focused : wm.focused = none) : FocusConsistent wm where
  nodup := nodup
  fresh := fresh
  focusedExists id isFocused := by rw [focused] at isFocused; cases isFocused
  flag w mem := by simp [unflagged w mem, focused]

/-- A top window with the focus over windows without a flag. -/
theorem of_top {ws : List Window} {top : Window} (windows : wm.windows = ws ++ [top])
    (nodup : (wm.windows.map (·.id)).Nodup) (fresh : ∀ w ∈ wm.windows, w.id < wm.nextId)
    (unflagged : ∀ w ∈ ws, w.focused = false) (flagged : top.focused = true) (focused : wm.focused = some top.id) :
    FocusConsistent wm where
  nodup := nodup
  fresh := fresh
  focusedExists id isFocused :=
    ⟨top, by simp [windows], Option.some.inj (focused.symm.trans isFocused)⟩
  flag w mem := by
    rw [windows, List.mem_append, List.mem_singleton] at mem
    rcases mem with below | rfl
    · -- a lower window has another id than the top one
      rw [windows, List.map_append, List.nodup_append] at nodup
      have other : w.id ≠ top.id := nodup.2.2 _ (List.mem_map_of_mem below) _ (by simp)
      simp [unflagged w below, focused, Ne.symm other]
    · simp [flagged, focused]

/-- Windows without a flag, of which the one with id `nid` gets it along with the focus. -/
theorem of_flagOne {ws : List Window} {nid : Nat}
    (windows : wm.windows = updateFirst nid (fun w => { w with focused := true }) ws)
    (nodup : (ws.map (·.id)).Nodup) (fresh : ∀ w ∈ ws, w.id < wm.nextId) (unflagged : ∀ w ∈ ws, w.focused = false)
    (present : ∃ w ∈ ws, w.id = nid) (focused : wm.focused = some nid) : FocusConsistent wm := by
  have ids : wm.windows.map (·.id) = ws.map (·.id) := by
    rw [windows]
    exact map_updateFirst _ (by intro; rfl) ws
  rw [updateFirst_eq_map nodup] at windows
  refine ⟨ids ▸ nodup, ?_, ?_, ?_⟩
  · intro w mem
    rw [windows] at mem
    obtain ⟨v, memV, rfl⟩ := List.mem_map.mp mem
    split <;> exact fresh v memV
  · intro id isFocused
    obtain ⟨v, memV, rfl⟩ := present
    refine ⟨{ v with focused := true }, ?_, Option.some.inj (focused.symm.trans isFocused)⟩
    rw [windows]
    exact List.mem_map.mpr ⟨v, memV, if_pos rfl⟩
  · intro w mem
    rw [windows] at mem
    obtain ⟨v, memV, rfl⟩ := List.mem_map.mp mem
    rw [focused]
    split
    · rename_i same
      simp [same]
    · rename_i other
      simp [unflagged v memV, Ne.symm other]

/-! ### The calls that move the focus -/

/-- The new window has an id above all others, and goes on top with the focus. -/
theorem createWindowImpl (inv : FocusConsistent wm) {make : Nat → Window} (made : ∀ id, (make id).id = id)
    {id : Nat} (created : wm.createWindowImpl make = some (id, wm')) : FocusConsistent wm' := by
  obtain ⟨rfl, pushed, same, focused, counted, cleared, windows, earlier⟩ :=
    WindowManager.createWindowImpl_spec created
  refine of_sameFocus ?_ same
  -- the earlier windows keep their ids and have no flag
  have below : cleared.map (·.id) = wm.windows.map (·.id) ∧ ∀ w ∈ cleared, w.focused = false := by
    rcases earlier with ⟨none, rfl⟩ | ⟨prev, focusedPrev, rfl⟩
    · exact ⟨rfl, fun w mem => inv.unflagged_of_ne mem (by rw [none]; simp)⟩
    · refine ⟨map_updateFirst _ (by intro; rfl) _, unflag_windows (fun _ => rfl) inv.nodup fun w mem flag => ?_⟩
      exact Option.some.inj (((inv.flag w mem).mp flag).symm.trans focusedPrev)
  obtain ⟨ids, unflagged⟩ := below
  have older : ∀ w ∈ cleared, w.id < wm.nextId := fun w mem => by
    obtain ⟨v, memV, same⟩ := exists_of_map_eq ids mem
    exact same ▸ inv.fresh v memV
  refine of_top windows ?_ ?_ unflagged rfl focused
  · rw [windows, List.map_append, ids, List.nodup_append]
    refine ⟨inv.nodup, List.nodup_cons.mpr ⟨List.not_mem_nil, List.nodup_nil⟩, ?_⟩
    rintro _ memOld _ memNew rfl
    obtain ⟨v, memV, rfl⟩ := List.mem_map.mp memOld
    rw [List.map_singleton, List.mem_singleton, made] at memNew
    exact absurd (inv.fresh v memV) (by omega)
  · intro w mem
    rw [windows, List.mem_append, List.mem_singleton] at mem
    rcases mem with mem | rfl
    · exact counted ▸ Nat.lt_succ_of_lt (older w mem)
    · rw [counted, made]
      exact Nat.lt_succ_self _

/-- `raise_to_top` takes the window out, clears the old focus and puts the window on top with the
focus. -/
theorem raiseToTop (inv : FocusConsistent wm) {id : Nat} (raised : wm.raiseToTop id = some wm') :
    FocusConsistent wm' := by
  cases found : wm.find id with
  | none =>
      unfold WindowManager.raiseToTop at raised
      rw [found] at raised
      rwa [← Option.some.inj raised]
  | some window =>
  obtain ⟨pushed, same, focused, sameNext, cleared, windows, earlier⟩ := WindowManager.raiseToTop_spec found raised
  refine of_sameFocus ?_ same
  have windowId : window.id = id := WindowManager.id_of_find found
  have rest : wm.windows.eraseP (·.id == id) = wm.windows.filter (·.id != id) := eraseP_eq_filter inv.nodup
  have restNodup : ((wm.windows.filter (·.id != id)).map (·.id)).Nodup :=
    inv.nodup.sublist (List.filter_sublist.map _)
  -- the windows left below keep their ids and have no flag
  have below : cleared.map (·.id) = (wm.windows.filter (·.id != id)).map (·.id) ∧ ∀ w ∈ cleared, w.focused = false := by
    rcases earlier with ⟨rfl, unfocusedOrSelf⟩ | ⟨prev, focusedPrev, other, rfl⟩
    · refine ⟨by rw [rest], fun w mem => ?_⟩
      rw [rest, List.mem_filter, bne_iff_ne] at mem
      refine inv.unflagged_of_ne mem.1 fun isFocused => ?_
      rcases unfocusedOrSelf with none | self
      · rw [none] at isFocused
        cases isFocused
      · exact mem.2 (Option.some.inj (isFocused.symm.trans self))
    · refine ⟨by rw [map_updateFirst _ (by intro; rfl), rest], ?_⟩
      rw [rest]
      refine unflag_windows (fun _ => rfl) restNodup fun w mem flag => ?_
      exact Option.some.inj (((inv.flag w (List.mem_filter.mp mem).1).mp flag).symm.trans focusedPrev)
  obtain ⟨ids, unflagged⟩ := below
  refine of_top windows ?_ ?_ unflagged rfl (by rw [focused, windowId])
  · rw [windows, List.map_append, ids, List.nodup_append]
    refine ⟨restNodup, List.nodup_cons.mpr ⟨List.not_mem_nil, List.nodup_nil⟩, ?_⟩
    rintro _ memRest _ memTop rfl
    obtain ⟨v, memV, rfl⟩ := List.mem_map.mp memRest
    rw [List.map_singleton, List.mem_singleton, windowId] at memTop
    exact (bne_iff_ne.mp (List.mem_filter.mp memV).2) memTop
  · intro w mem
    rw [windows, List.mem_append, List.mem_singleton] at mem
    rcases mem with mem | rfl
    · obtain ⟨v, memV, same⟩ := exists_of_map_eq ids mem
      exact sameNext ▸ same ▸ inv.fresh v (List.mem_filter.mp memV).1
    · exact sameNext ▸ inv.fresh window (WindowManager.mem_of_find found)

/-- `remove_window` keeps the others in order; when the focused window goes, the new top window gets
the focus. -/
theorem removeWindow (inv : FocusConsistent wm) {id : Nat} {removed : Bool}
    (done : wm.removeWindow id = some (removed, wm')) : FocusConsistent wm' := by
  unfold WindowManager.removeWindow at done
  simp only [Option.bind_eq_bind, Option.bind_eq_some_iff, Option.pure_def, Option.some.injEq,
    Prod.mk.injEq] at done
  obtain ⟨marked, markedEq, refocused, refocusedEq, retiled, retiledEq, -, rfl⟩ := done
  have same : SameFocus refocused retiled := by
    split at retiledEq
    · exact WindowManager.maybeRetile_sameFocus retiledEq
    · exact .of_eq (Option.some.inj retiledEq)
  refine of_sameFocus ?_ same
  -- marking the window dirty changes no window
  have unchanged : marked.windows = wm.windows ∧ marked.focused = wm.focused ∧ marked.nextId = wm.nextId := by
    split at markedEq
    · rw [← Option.some.inj markedEq]
      exact ⟨rfl, rfl, rfl⟩
    · obtain ⟨rect, rfl⟩ := WindowManager.pushDirty_eq_some markedEq
      exact ⟨rfl, rfl, rfl⟩
  obtain ⟨windows, focused, nextId⟩ := unchanged
  rw [windows] at refocusedEq
  have keptNodup : ((wm.windows.filter (·.id != id)).map (·.id)).Nodup :=
    inv.nodup.sublist (List.filter_sublist.map _)
  have keptFresh : ∀ w ∈ wm.windows.filter (·.id != id), w.id < wm.nextId :=
    fun w mem => inv.fresh w (List.mem_filter.mp mem).1
  split at refocusedEq
  · rename_i gone
    simp only [Bool.and_eq_true, bne_iff_ne, ne_eq, beq_iff_eq] at gone
    -- no window left has a flag, since the focused one is gone
    have unflagged : ∀ w ∈ wm.windows.filter (·.id != id), w.focused = false := by
      intro w mem
      rw [List.mem_filter, bne_iff_ne] at mem
      refine inv.unflagged_of_ne mem.1 fun isFocused => mem.2 ?_
      exact Option.some.inj (isFocused.symm.trans (focused ▸ gone.2))
    split at refocusedEq
    · rename_i last isLast
      obtain ⟨rects, rfl⟩ := WindowManager.updateAndMark_eq_some refocusedEq
      obtain ⟨init, kept⟩ := List.getLast?_eq_some_iff.mp isLast
      exact of_flagOne rfl keptNodup (nextId ▸ keptFresh) unflagged
        ⟨last, by rw [kept]; simp, rfl⟩ rfl
    · rename_i empty
      rw [← Option.some.inj refocusedEq]
      refine of_unflagged keptNodup (nextId ▸ keptFresh) unflagged rfl
  · rename_i kept
    rw [← Option.some.inj refocusedEq]
    refine ⟨keptNodup, nextId ▸ keptFresh, fun f isFocused => ?_, fun w mem => ?_⟩
    · obtain ⟨w, mem, rfl⟩ := inv.focusedExists f (focused ▸ isFocused)
      refine ⟨w, List.mem_filter.mpr ⟨mem, bne_iff_ne.mpr fun gone => kept ?_⟩, rfl⟩
      -- the focused window would have been removed, so the list would be shorter
      have shorter : (wm.windows.filter (·.id != id)).length < wm.windows.length :=
        List.length_filter_lt_length_iff_exists.mpr ⟨w, mem, by simp [gone]⟩
      simp only [Bool.and_eq_true, bne_iff_ne, ne_eq, beq_iff_eq]
      exact ⟨shorter.ne, gone ▸ focused ▸ isFocused⟩
    · rw [focused]
      exact inv.flag w (List.mem_filter.mp mem).1

/-- `minimize_window` hides the window; if it had the focus, the topmost other visible window gets
it. -/
theorem minimizeWindow (inv : FocusConsistent wm) {id : Nat} {acted : Bool}
    (done : wm.minimizeWindow id = some (acted, wm')) : FocusConsistent wm' := by
  unfold WindowManager.minimizeWindow at done
  split at done
  · rwa [← (Prod.mk.inj (Option.some.inj done)).2]
  rename_i w found
  split at done
  · rwa [← (Prod.mk.inj (Option.some.inj done)).2]
  simp only [Option.bind_eq_bind, Option.bind_eq_some_iff, Option.pure_def, Option.some.injEq,
    Prod.mk.injEq] at done
  obtain ⟨hidden, hiddenEq, refocused, refocusedEq, retiled, retiledEq, -, rfl⟩ := done
  obtain ⟨rect, rfl⟩ := WindowManager.pushDirty_eq_some hiddenEq
  refine of_sameFocus ?_ (WindowManager.maybeRetile_sameFocus retiledEq)
  have ids : (updateFirst id (fun w => { w with minimized := true, focused := false }) wm.windows).map (·.id) =
      wm.windows.map (·.id) := map_updateFirst _ (by intro; rfl) _
  have hiddenFresh : ∀ v ∈ updateFirst id (fun w => { w with minimized := true, focused := false }) wm.windows,
      v.id < wm.nextId := fun v mem => by
    obtain ⟨u, memU, same⟩ := exists_of_map_eq ids mem
    exact same ▸ inv.fresh u memU
  split at refocusedEq
  · rename_i wasFocused
    -- the hidden window loses its flag and no other window had one
    have unflagged : ∀ v ∈ updateFirst id (fun w => { w with minimized := true, focused := false }) wm.windows,
        v.focused = false := unflag_windows (fun _ => rfl) inv.nodup fun v mem flag =>
      Option.some.inj (((inv.flag v mem).mp flag).symm.trans wasFocused)
    split at refocusedEq
    · rename_i nid picked
      obtain ⟨v, chosen, named⟩ := Option.map_eq_some_iff.mp picked
      obtain ⟨rects, rfl⟩ := WindowManager.updateAndMark_eq_some refocusedEq
      exact of_flagOne rfl (ids ▸ inv.nodup) hiddenFresh unflagged
        ⟨v, List.mem_reverse.mp (List.mem_of_find?_eq_some chosen), named⟩ picked
    · rename_i nobody
      rw [← Option.some.inj refocusedEq]
      exact of_unflagged (ids ▸ inv.nodup) hiddenFresh unflagged nobody
  · rename_i notFocused
    rw [← Option.some.inj refocusedEq]
    -- the hidden window had no flag to lose
    have unflagged : w.focused = false :=
      inv.unflagged_of_ne (WindowManager.mem_of_find found) (by rw [WindowManager.id_of_find found]; exact notFocused)
    refine inv.of_flags (map_updateFirst_of_find _ found ?_) rfl rfl
    simp [unflagged]

/-- `restore_window` shows the window again and raises it. -/
theorem restoreWindow (inv : FocusConsistent wm) {id : Nat} {acted : Bool}
    (done : wm.restoreWindow id = some (acted, wm')) : FocusConsistent wm' := by
  unfold WindowManager.restoreWindow at done
  split at done
  · rwa [← (Prod.mk.inj (Option.some.inj done)).2]
  split at done
  · rwa [← (Prod.mk.inj (Option.some.inj done)).2]
  simp only [Option.bind_eq_bind, Option.bind_eq_some_iff, Option.pure_def, Option.some.injEq,
    Prod.mk.injEq] at done
  obtain ⟨raised, raisedEq, -, rfl⟩ := done
  have shown : FocusConsistent { wm with windows := updateFirst id (fun w => { w with minimized := false }) wm.windows } :=
    inv.of_flags (map_updateFirst _ (by intro; rfl) _) rfl rfl
  exact shown.raiseToTop raisedEq

/-- A press on the desktop leaves no window with the focus. -/
theorem unfocusAll (inv : FocusConsistent wm) (done : wm.unfocusAll = some wm') : FocusConsistent wm' := by
  unfold WindowManager.unfocusAll at done
  simp only [Option.bind_eq_bind, Option.bind_eq_some_iff, Option.pure_def, Option.some.injEq] at done
  obtain ⟨rects, -, rfl⟩ := done
  have ids : (wm.windows.map fun w => { w with focused := false }).map (·.id) = wm.windows.map (·.id) := by
    simp only [List.map_map, Function.comp_def]
  refine of_unflagged (ids ▸ inv.nodup) (fun w mem => ?_) (fun w mem => ?_) rfl
  · obtain ⟨v, memV, rfl⟩ := List.mem_map.mp mem
    exact inv.fresh v memV
  · obtain ⟨v, memV, rfl⟩ := List.mem_map.mp mem
    rfl

/-- Recording a drag changes nothing the focus reads. -/
theorem withDrag (inv : FocusConsistent wm) (drag : DragState) : FocusConsistent { wm with drag } :=
  inv.of_flags rfl rfl rfl

/-- `on_mouse_down` raises the window it hits, or drops the focus on the desktop. -/
theorem onMouseDown (inv : FocusConsistent wm) {x y : Int} (done : wm.onMouseDown x y = some wm') :
    FocusConsistent wm' := by
  unfold WindowManager.onMouseDown at done
  simp only [Option.bind_eq_bind, Option.bind_eq_some_iff, Option.pure_def] at done
  obtain ⟨handle, -, done⟩ := done
  -- the three hit tests are tried in turn; each hit raises its window
  rcases handle with _ | hit
  · simp only [Option.bind_eq_some_iff] at done
    obtain ⟨titleHit, -, done⟩ := done
    rcases titleHit with _ | titleHit
    · simp only [Option.bind_eq_some_iff] at done
      obtain ⟨hit, -, done⟩ := done
      rcases hit with _ | hit
      · exact inv.unfocusAll done
      · simp only [Option.bind_eq_some_iff, Option.some.injEq] at done
        obtain ⟨raised, raisedEq, rfl⟩ := done
        exact (inv.raiseToTop raisedEq).withDrag _
    · simp only [Option.bind_eq_some_iff] at done
      obtain ⟨raised, raisedEq, done⟩ := done
      have raisedInv := inv.raiseToTop raisedEq
      split at done
      · simp only [Option.bind_eq_some_iff, Option.some.injEq] at done
        obtain ⟨offsetX, -, offsetY, -, rfl⟩ := done
        exact raisedInv.withDrag _
      · rwa [← Option.some.inj done]
  · simp only [Option.bind_eq_some_iff] at done
    obtain ⟨raised, raisedEq, done⟩ := done
    have raisedInv := inv.raiseToTop raisedEq
    split at done
    · rw [← Option.some.inj done]
      exact raisedInv.withDrag _
    · rwa [← Option.some.inj done]

/-- Every call keeps the focus consistent. -/
theorem step (inv : FocusConsistent wm) {call : WindowManager.WmCall} {reply : WindowManager.WmReply}
    (stepped : wm.step call = some (reply, wm')) : FocusConsistent wm' := by
  cases call with
  | createWindow x y width height color =>
      obtain ⟨⟨id, created⟩, createdEq, same⟩ := Option.map_eq_some_iff.mp stepped
      cases same
      exact inv.createWindowImpl (fun _ => rfl) createdEq
  | createTitledWindow x y width height color =>
      obtain ⟨⟨id, created⟩, createdEq, same⟩ := Option.map_eq_some_iff.mp stepped
      cases same
      exact inv.createWindowImpl (fun _ => rfl) createdEq
  | removeWindow id | closeWindow id =>
      obtain ⟨⟨removed, rest⟩, removedEq, same⟩ := Option.map_eq_some_iff.mp stepped
      cases same
      exact inv.removeWindow removedEq
  | raiseToTop id =>
      obtain ⟨raised, raisedEq, same⟩ := Option.map_eq_some_iff.mp stepped
      cases same
      exact inv.raiseToTop raisedEq
  | onMouseDown x y =>
      obtain ⟨pressed, pressedEq, same⟩ := Option.map_eq_some_iff.mp stepped
      cases same
      exact inv.onMouseDown pressedEq
  | onMouseMove x y =>
      obtain ⟨moved, movedEq, same⟩ := Option.map_eq_some_iff.mp stepped
      cases same
      exact inv.of_sameFocus (WindowManager.onMouseMove_sameFocus movedEq)
  | onMouseUp =>
      cases Option.some.inj stepped
      exact inv.withDrag _
  | minimizeWindow id =>
      obtain ⟨⟨acted, hidden⟩, hiddenEq, same⟩ := Option.map_eq_some_iff.mp stepped
      cases same
      exact inv.minimizeWindow hiddenEq
  | restoreWindow id =>
      obtain ⟨⟨acted, shown⟩, shownEq, same⟩ := Option.map_eq_some_iff.mp stepped
      cases same
      exact inv.restoreWindow shownEq
  | toggleMaximize id workX workY workWidth workHeight =>
      obtain ⟨⟨acted, toggled⟩, toggledEq, same⟩ := Option.map_eq_some_iff.mp stepped
      cases same
      exact inv.of_sameFocus (WindowManager.toggleMaximize_sameFocus toggledEq)
  | toggleTiling =>
      obtain ⟨toggled, toggledEq, same⟩ := Option.map_eq_some_iff.mp stepped
      cases same
      exact inv.of_sameFocus (WindowManager.toggleTiling_sameFocus toggledEq)
  | setWorkArea width height =>
      cases Option.some.inj stepped
      exact inv.of_flags rfl rfl rfl
  | retile workWidth workHeight =>
      obtain ⟨retiled, retiledEq, same⟩ := Option.map_eq_some_iff.mp stepped
      cases same
      exact inv.of_sameFocus (WindowManager.retile_sameFocus retiledEq)

end FocusConsistent

theorem focusConsistent_new : FocusConsistent WindowManager.new :=
  FocusConsistent.of_unflagged List.nodup_nil (fun _ mem => by cases mem) (fun _ mem => by cases mem) rfl

/-- The window manager's account of focus is an invariant of every run. -/
theorem focusConsistent_inductive : WindowManager.machine.Inductive FocusConsistent where
  init := focusConsistent_new
  step := fun inv stepped => inv.step stepped

theorem focusConsistent_of_reachable {wm : WindowManager} (reached : WindowManager.machine.Reachable wm) :
    FocusConsistent wm :=
  focusConsistent_inductive.reachable reached

/-! ## Resizing -/

namespace WindowManager

variable {x y origX origY : Int} {w w' : Window}

/-- A resize drag to the right of the saved corner gives the offset, raised to `MIN_WINDOW_W`. -/
theorem resizeTo_width_of_le (resized : resizeTo x y origX origY w = some w') (right : origX ≤ x) :
    w'.width = max (x - origX).toNat minWindowW := by
  unfold resizeTo at resized
  simp only [Option.bind_eq_bind, Option.bind_eq_some_iff, Option.pure_def, Option.some.injEq] at resized
  obtain ⟨dx, subtracted, dy, -, rfl⟩ := resized
  obtain ⟨⟨-, fits⟩, rfl⟩ := Word.checkedSubInt_eq_some_iff.mp subtracted
  rw [Word.ofSigned_of_nonneg (by omega) (by omega)]

/-- A resize drag to the left of the saved corner casts the negative offset to `u32`: the window
becomes `2 ^ 32` less the distance wide, far above `MIN_WINDOW_W`. -/
theorem resizeTo_width_of_lt (resized : resizeTo x y origX origY w = some w') (left : x < origX) :
    w'.width = (x - origX + 2 ^ 32).toNat := by
  unfold resizeTo at resized
  simp only [Option.bind_eq_bind, Option.bind_eq_some_iff, Option.pure_def, Option.some.injEq] at resized
  obtain ⟨dx, subtracted, dy, -, rfl⟩ := resized
  obtain ⟨⟨above, -⟩, rfl⟩ := Word.checkedSubInt_eq_some_iff.mp subtracted
  have wrapped : Word.ofSigned 32 (x - origX) = (x - origX + 2 ^ 32).toNat :=
    Word.ofSigned_of_neg (by omega) (by omega)
  show max (Word.ofSigned 32 (x - origX)) minWindowW = _
  rw [wrapped, minWindowW]
  norm_num at above
  omega

end WindowManager

open WindowManager in
/-- Three runs from a fresh window manager.  Minimizing the top window moves the focus to the one
below, and closing that one hands the focus back to the minimized window.  A press inside a
minimized window raises and focuses it.  Dragging a window's resize handle 50 pixels left of its
corner makes it `2 ^ 32 - 50` pixels wide, with an empty surface. -/
theorem window_manager_focuses_minimized_windows :
    (∃ final, machine.run machine.init
        [.createWindow 0 0 100 100 0, .createWindow 200 200 100 100 0, .minimizeWindow 2, .closeWindow 1] =
          some ([.created 1, .created 2, .acted true, .acted true], final) ∧
        final.focused = some 2 ∧ final.windows.map (fun w => (w.id, w.minimized)) = [(2, true)]) ∧
    (∃ final, machine.run machine.init
        [.createWindow 0 0 100 100 0, .createWindow 200 200 100 100 0, .minimizeWindow 1, .onMouseDown 50 50] =
          some ([.created 1, .created 2, .acted true, .done], final) ∧
        final.focused = some 1 ∧ final.windows.map (fun w => (w.id, w.minimized)) = [(2, false), (1, true)]) ∧
    (∃ final, machine.run machine.init [.createWindow 0 0 100 100 0, .onMouseDown 95 95, .onMouseMove (-50) 50] =
          some ([.created 1, .done, .done], final) ∧
        final.windows.map (fun w => (w.width, w.surface.width)) = [(2 ^ 32 - 50, 0)]) :=
  ⟨⟨_, rfl, rfl, rfl⟩, ⟨_, rfl, rfl, rfl⟩, ⟨_, rfl, rfl⟩⟩

end Fullerene.Lattice
