import FrostByte.Lib.Run
import FrostByte.Lib.Word
import Mathlib.Data.List.Basic
import Mathlib.Tactic.Linarith

/-!
# The window server

The windows of `frostywm.c`, the messages of its clients, and what `composite_windows` reads and
writes. Positions are 32-bit numbers that a client may choose, and sums of them wrap. What is drawn
is cut off at the screen, and a window is never larger than its buffer.

## Main definitions

* `Server`, `Window`, `Message` — the state of the server, and what its clients send.
* `compositeWindows` — the bytes that a repaint reads and writes.
* `DrawsInside` — all of them are inside their buffers.

## Main results

* `fits_act` — every step keeps the windows inside their buffers.
* `draws_inside` — drawing stays inside in every run.
-/

namespace FrostByte.Compositor

open Word

/-- The value of a signed 32-bit number after an operation. -/
def wrap (z : ℤ) : ℤ := z.bmod (2 ^ 32)

/-- The framebuffer, as `init_framebuffer` leaves it. -/
structure Screen where
  width : ℕ
  height : ℕ
  pitch : ℕ
  bytesPerPixel : ℕ
  pos : 0 < bytesPerPixel

/-- `fwm_window_t`, with its buffer; `none` is a null pointer. -/
structure Window where
  id : ℕ
  clientId : ℕ
  x : ℤ
  y : ℤ
  width : ℕ
  height : ℕ
  visible : Bool
  buffer : Option (ℕ × ℕ)
  dirty : Bool

/-- `dirty_rect`, with the corners `(x1, y1)` and `(x2, y2)`. -/
structure Rect where
  x1 : ℤ
  y1 : ℤ
  x2 : ℤ
  y2 : ℤ

/-- The fields of `g_server` that decide what is drawn, and where the mouse is. -/
structure Server where
  windows : List Window
  nextWindowId : ℕ
  dirtyRect : Option Rect
  firstFrame : Bool
  mouseX : ℤ
  mouseY : ℤ

variable {scr : Screen} {sv sv' : Server}

/-! ## Dirty regions -/

/-- `mark_dirty_region`: the part on the screen is joined to what is dirty. -/
def markDirtyRegion (scr : Screen) (x y : ℤ) (w h : ℕ) (sv : Server) : Server :=
  let x2 := wrap (x + wrap w)
  let y2 := wrap (y + wrap h)
  let r : Rect := ⟨max x 0, max y 0, min x2 (wrap scr.width), min y2 (wrap scr.height)⟩
  if w = 0 ∨ h = 0 ∨ x2 ≤ x ∨ y2 ≤ y ∨ r.x2 ≤ r.x1 ∨ r.y2 ≤ r.y1 then sv
  else { sv with dirtyRect := some (sv.dirtyRect.elim r fun d =>
    ⟨min r.x1 d.x1, min r.y1 d.y1, max r.x2 d.x2, max r.y2 d.y2⟩) }

/-- `mark_window_area`. -/
def markWindowArea (scr : Screen) (win : Window) (sv : Server) : Server :=
  markDirtyRegion scr win.x win.y win.width win.height sv

/-- `mark_cursor_dirty_area`, with `get_cursor_visible_rect`: the cursor has 14 columns and 18
rows. -/
def markCursorDirtyArea (scr : Screen) (x y : ℤ) (sv : Server) : Server :=
  let x1 := wrap (x + 14)
  let y1 := wrap (y + 18)
  if x1 ≤ 0 ∨ y1 ≤ 0 ∨ wrap scr.width ≤ x ∨ wrap scr.height ≤ y then sv
  else
    let rw := wrap (min x1 (wrap scr.width) - max x 0)
    let rh := wrap (min y1 (wrap scr.height) - max y 0)
    if rw ≤ 0 ∨ rh ≤ 0 then sv else markDirtyRegion scr (max x 0) (max y 0) rw.toNat rh.toNat sv

/-- A coordinate of the mouse is kept between zero and the size of the screen. -/
def clampMouse (size : ℕ) (z : ℤ) : ℤ :=
  if wrap size ≤ max z 0 then wrap (size - 1) else max z 0

/-- A motion event in `process_mouse_events`. -/
def Server.moveMouse (scr : Screen) (relX relY : ℤ) (sv : Server) : Server :=
  let x := clampMouse scr.width (wrap (sv.mouseX + relX))
  let y := clampMouse scr.height (wrap (sv.mouseY - relY))
  markCursorDirtyArea scr x y
    (markCursorDirtyArea scr sv.mouseX sv.mouseY { sv with mouseX := x, mouseY := y })

/-! ## Messages -/

/-- A message, with what `shmget` and `shmat` do for a new window. The title that
`FWM_MSG_SET_TITLE` stores is not drawn and is left out. -/
inductive Message
  | createWindow (x y : ℤ) (width height : ℕ) (shm : Bool)
  | destroyWindow (id : ℕ)
  | showWindow (id : ℕ)
  | hideWindow (id : ℕ)
  | moveWindow (id : ℕ) (x y : ℤ)
  | resizeWindow (id width height : ℕ)
  | setTitle (id : ℕ)
  | damage (id : ℕ) (x y : ℤ) (width height : ℕ)
  | commit (id : ℕ)

namespace Server

/-- A change to the window that `find_window` finds for the client. -/
def onWindow (client id : ℕ) (f : ℕ → Window → Server) (sv : Server) : Server :=
  match sv.windows.findIdx? fun win => win.id == id with
  | none => sv
  | some i => (sv.windows[i]?).elim sv fun win => if win.clientId = client then f i win else sv

/-- One window replaced. -/
def setWindow (i : ℕ) (win : Window) (sv : Server) : Server :=
  { sv with windows := sv.windows.set i win }

/-- A window is changed, with its area marked before and after. -/
def change (scr : Screen) (i : ℕ) (win win' : Window) (sv : Server) : Server :=
  markWindowArea scr win' ((markWindowArea scr win sv).setWindow i { win' with dirty := true })

/-- `MAX_WINDOWS` and `MAX_WINDOW_DIM`. -/
def maxWindows : ℕ := 64

/-- The largest width and height of a window. -/
@[inherit_doc maxWindows]
def maxWindowDim : ℕ := 16384

/-- `FWM_MSG_CREATE_WINDOW`, with the checks of the size. -/
def handleCreate (scr : Screen) (client : ℕ) (x y : ℤ) (w h : ℕ) (shm : Bool) (sv : Server) :
    Server :=
  if maxWindows ≤ sv.windows.length then sv
  else if w = 0 ∨ h = 0 ∨ maxWindowDim < w ∨ maxWindowDim < h then sv
  else if 0xFFFFFFFF / 4 / h < w then sv
  else if shm = false then sv
  else
    let win : Window := ⟨sv.nextWindowId, client, x, y, w, h, false, some (w, h), true⟩
    markWindowArea scr win
      { sv with windows := sv.windows ++ [win], nextWindowId := w32 (sv.nextWindowId + 1) }

/-- `FWM_MSG_RESIZE_WINDOW`: the window never grows. -/
def handleResize (scr : Screen) (w h i : ℕ) (win : Window) (sv : Server) : Server :=
  if w = 0 ∨ h = 0 ∨ maxWindowDim < w ∨ maxWindowDim < h then sv
  else sv.change scr i win { win with width := min w win.width, height := min h win.height }

/-- `handle_client_message`. -/
def handle (scr : Screen) (client : ℕ) (sv : Server) : Message → Server
  | .createWindow x y w h shm => sv.handleCreate scr client x y w h shm
  | .destroyWindow id => sv.onWindow client id fun i win =>
      let sv := markWindowArea scr win sv
      { sv with windows := sv.windows.eraseIdx i }
  | .showWindow id => sv.onWindow client id fun i win =>
      (markWindowArea scr win sv).setWindow i { win with visible := true, dirty := true }
  | .hideWindow id => sv.onWindow client id fun i win =>
      (markWindowArea scr win sv).setWindow i { win with visible := false, dirty := true }
  | .moveWindow id x y => sv.onWindow client id fun i win =>
      sv.change scr i win { win with x := x, y := y }
  | .resizeWindow id w h => sv.onWindow client id fun i win => sv.handleResize scr w h i win
  | .setTitle id => sv.onWindow client id fun i win =>
      (markWindowArea scr win sv).setWindow i { win with dirty := true }
  | .damage id x y w h => sv.onWindow client id fun i win =>
      (markDirtyRegion scr (wrap (win.x + x)) (wrap (win.y + y)) w h sv).setWindow i
        { win with dirty := true }
  | .commit id => sv.onWindow client id fun i win =>
      (markWindowArea scr win (markWindowArea scr win sv)).setWindow i { win with dirty := true }

end Server

/-! ## Compositing -/

/-- The numbers of a loop from `a` to `b`. -/
def loop (a b : ℤ) : List ℤ := (List.range (b - a).toNat).map fun i : ℕ => a + i

/-- The offsets that `write_pixel` stores to for the pixel at `(x, y)`. -/
def pixelBytes (scr : Screen) (x y : ℤ) : List ℕ :=
  let n := if scr.bytesPerPixel = 2 ∨ scr.bytesPerPixel = 3 ∨ scr.bytesPerPixel = 4
    then scr.bytesPerPixel else 1
  (List.range n).map fun i => w32 (y.toNat * scr.pitch) + w32 (x.toNat * scr.bytesPerPixel) + i

/-- Bytes of the backbuffer, and windows with indices in their buffers. -/
structure Access where
  writes : List ℕ
  reads : List (Window × ℕ)

/-- The bytes of the dirty rectangle, which are cleared first. -/
def background (scr : Screen) (r : Rect) : List ℕ :=
  (loop r.y1 r.y2).flatMap fun y => (loop r.x1 r.x2).flatMap fun x => pixelBytes scr x y

/-- The pixel at `(x, y)` of the screen is copied from a window. -/
def copyPixel (scr : Screen) (win : Window) (x y : ℤ) : Access :=
  let srcX := wrap (x - win.x)
  let srcY := wrap (y - win.y)
  if srcY < 0 ∨ wrap win.height ≤ srcY ∨ srcX < 0 ∨ wrap win.width ≤ srcX then ⟨[], []⟩
  else ⟨pixelBytes scr x y, [(win, w32 (srcY.toNat * win.width + srcX.toNat))]⟩

/-- The part of a window in the region `r`, if there is one. -/
def copyWindow (scr : Screen) (r : Rect) (win : Window) : Option (List Access) :=
  let x2 := wrap (win.x + wrap win.width)
  let y2 := wrap (win.y + wrap win.height)
  if r.x2 ≤ win.x ∨ x2 ≤ r.x1 ∨ r.y2 ≤ win.y ∨ y2 ≤ r.y1 then none
  else some ((loop (max win.y r.y1) (min y2 r.y2)).flatMap fun y =>
    (loop (max win.x r.x1) (min x2 r.x2)).map fun x => copyPixel scr win x y)

/-- One round of the loop: what is accessed, and the window. -/
def drawWindow (scr : Screen) (r : Rect) (win : Window) : List Access × Window :=
  if win.visible = false then ([], win)
  else if win.buffer = none then ([], { win with dirty := false })
  else (copyWindow scr r win).elim ([], win) fun drawn => (drawn, { win with dirty := false })

/-- The region for a full repaint, if none is marked. -/
def Server.markAll (scr : Screen) (sv : Server) : Server :=
  if sv.dirtyRect.isNone then markDirtyRegion scr 0 0 scr.width scr.height sv else sv

/-- The repaint of a region, after it has been cut off at the screen. -/
def repaint (scr : Screen) (sv : Server) (d : Rect) : List Access × Server :=
  let r : Rect := ⟨max d.x1 0, max d.y1 0, min d.x2 (wrap scr.width), min d.y2 (wrap scr.height)⟩
  if r.x2 ≤ r.x1 ∨ r.y2 ≤ r.y1 then ([], { sv with dirtyRect := none })
  else
    let drawn := sv.windows.map (drawWindow scr r)
    (⟨background scr r, []⟩ :: drawn.flatMap (·.1),
      { sv with windows := drawn.map (·.2), dirtyRect := none, firstFrame := false })

/-- `composite_windows`, without the cursor. Where nothing can be marked the region is empty. -/
def compositeWindows (scr : Screen) (sv : Server) : List Access × Server :=
  if sv.firstFrame ∨ sv.windows.any (·.dirty) then
    ((sv.markAll scr).dirtyRect).elim ([], sv) (repaint scr (sv.markAll scr))
  else ([], sv)

/-! ## Runs -/

/-- A message of a client, a motion of the mouse, or a call of `composite_windows`. -/
inductive Event
  | message (client : ℕ) (m : Message)
  | mouse (relX relY : ℤ)
  | composite

/-- What an event does to the server. -/
def Server.act (scr : Screen) (sv : Server) : Event → Server
  | .message client m => sv.handle scr client m
  | .mouse relX relY => sv.moveMouse scr relX relY
  | .composite => (compositeWindows scr sv).2

/-- All runs of the server, from a table without windows. -/
def windowServer (scr : Screen) : System Server Event where
  init sv := sv.windows = []
  guard _ _ := True
  step sv e sv' := sv' = sv.act scr e

instance (sv : Server) (e : Event) : Decidable ((windowServer scr).guard sv e) :=
  inferInstanceAs (Decidable True)

/-- The bytes are in the backbuffer, and the pixels in their buffers. -/
def Access.Inside (scr : Screen) (a : Access) : Prop :=
  (∀ o ∈ a.writes, o < scr.pitch * scr.height) ∧
    ∀ x ∈ a.reads, ∃ w h, x.1.buffer = some (w, h) ∧ x.2 < w * h

/-- Everything that is accessed is inside. -/
def DrawsInside (scr : Screen) (sv : Server) : Prop := ∀ a ∈ (compositeWindows scr sv).1,
    a.Inside scr

/-- A window is not larger than its buffer. -/
def Window.Fits (win : Window) : Prop :=
  ∃ w h, win.buffer = some (w, h) ∧ win.width ≤ w ∧ win.height ≤ h

/-! ## Bounds -/

lemma wrap_le (n : ℕ) : wrap n ≤ n := by
  rw [wrap, Int.bmod_def]
  split_ifs
  · omega
  · omega

lemma mem_loop {a b z : ℤ} : z ∈ loop a b ↔ a ≤ z ∧ z < b := by
  simp only [loop, List.mem_map, List.mem_range]
  constructor
  · rintro ⟨i, hi, rfl⟩
    omega
  · intro h
    exact ⟨(z - a).toNat, by omega, by omega⟩

lemma pixelBytes_lt (hfit : scr.width * scr.bytesPerPixel ≤ scr.pitch) {x y : ℤ}
    (hx : x < scr.width) (hx0 : 0 ≤ x) (hy0 : 0 ≤ y) (hy : y < scr.height) :
    ∀ o ∈ pixelBytes scr x y, o < scr.pitch * scr.height := by
  intro o ho
  simp only [pixelBytes, List.mem_map, List.mem_range] at ho
  obtain ⟨i, hi, rfl⟩ := ho
  have hbytes : i < scr.bytesPerPixel := by
    have := scr.pos
    split_ifs at hi
    · exact hi
    · omega
  have hrow : x.toNat * scr.bytesPerPixel + scr.bytesPerPixel ≤ scr.pitch := by
    refine le_trans ?_ hfit
    rw [← Nat.succ_mul]
    exact Nat.mul_le_mul_right _ (by omega)
  have hrows : y.toNat * scr.pitch + scr.pitch ≤ scr.pitch * scr.height := by
    rw [← Nat.succ_mul, Nat.mul_comm scr.pitch]
    exact Nat.mul_le_mul_right _ (by omega)
  have h1 : w32 (y.toNat * scr.pitch) ≤ y.toNat * scr.pitch := Nat.mod_le _ _
  have h2 : w32 (x.toNat * scr.bytesPerPixel) ≤ x.toNat * scr.bytesPerPixel := Nat.mod_le _ _
  omega

/-- A region that has been cut off at the screen. -/
def Rect.Inside (scr : Screen) (r : Rect) : Prop :=
  0 ≤ r.x1 ∧ 0 ≤ r.y1 ∧ r.x2 ≤ scr.width ∧ r.y2 ≤ scr.height

lemma drawWindow_inside (hfit : scr.width * scr.bytesPerPixel ≤ scr.pitch) {r : Rect}
    (hr : r.Inside scr)
    {win : Window} (hwin : win.Fits) : ∀ a ∈ (drawWindow scr r win).1, a.Inside scr := by
  intro a ha
  unfold drawWindow at ha
  split_ifs at ha
  · simp at ha
  · simp at ha
  unfold copyWindow at ha
  dsimp only at ha
  split_ifs at ha
  · simp at ha
  simp only [Option.elim_some, List.mem_flatMap, List.mem_map, mem_loop] at ha
  obtain ⟨y, hy, x, hx, rfl⟩ := ha
  simp only [copyPixel]
  obtain ⟨hx1, hy1, hx2, hy2⟩ := hr
  split_ifs with hout
  · exact ⟨nofun, nofun⟩
  refine ⟨pixelBytes_lt hfit (by omega) (by omega) (by omega) (by omega), fun z hz => ?_⟩
  obtain rfl := List.mem_singleton.mp hz
  obtain ⟨w, h, hbuffer, hw, hh⟩ := hwin
  refine ⟨w, h, hbuffer, ?_⟩
  simp only [not_or] at hout
  obtain ⟨h1, h2, h3, h4⟩ := hout
  have hsrcX := (Int.toNat_lt (not_lt.mp h3)).mpr ((not_le.mp h4).trans_le (wrap_le _))
  have hsrcY := (Int.toNat_lt (not_lt.mp h1)).mpr ((not_le.mp h2).trans_le (wrap_le _))
  calc w32 ((wrap (y - win.y)).toNat * win.width + (wrap (x - win.x)).toNat)
      ≤ (wrap (y - win.y)).toNat * win.width + (wrap (x - win.x)).toNat := Nat.mod_le _ _
    _ < ((wrap (y - win.y)).toNat + 1) * win.width := by rw [Nat.succ_mul]; omega
    _ ≤ h * w := Nat.mul_le_mul (hsrcY.trans_le hh) hw
    _ = w * h := Nat.mul_comm _ _

/-! ## Windows fit into their buffers -/

@[simp] lemma windows_markDirtyRegion (x y : ℤ) (w h : ℕ) :
    (markDirtyRegion scr x y w h sv).windows = sv.windows := by
  simp only [markDirtyRegion]
  split_ifs
  · rfl
  · rfl

@[simp] lemma windows_markWindowArea (win : Window) :
    (markWindowArea scr win sv).windows = sv.windows :=
  windows_markDirtyRegion _ _ _ _

lemma windows_markCursorDirtyArea (x y : ℤ) :
    (markCursorDirtyArea scr x y sv).windows = sv.windows := by
  simp only [markCursorDirtyArea]
  split_ifs
  · rfl
  · rfl
  · exact windows_markDirtyRegion _ _ _ _

lemma windows_moveMouse (relX relY : ℤ) : (sv.moveMouse scr relX relY).windows = sv.windows :=
  (windows_markCursorDirtyArea _ _).trans (windows_markCursorDirtyArea _ _)

@[simp] lemma windows_markAll : (sv.markAll scr).windows = sv.windows := by
  unfold Server.markAll
  split_ifs
  · exact windows_markDirtyRegion _ _ _ _
  · rfl

lemma fits_onWindow {client id : ℕ} {f : ℕ → Window → Server} (h : ∀ win ∈ sv.windows, win.Fits)
    (hf : ∀ i win, win.Fits → ∀ win' ∈ (f i win).windows, win' ∈ sv.windows ∨ win'.Fits) :
    ∀ win ∈ (sv.onWindow client id f).windows, win.Fits := by
  intro win hwin
  unfold Server.onWindow at hwin
  split at hwin
  · exact h win hwin
  next i _ =>
    rcases hi : sv.windows[i]? with _ | found
    · rw [hi] at hwin
      exact h win hwin
    · simp only [hi, Option.elim_some] at hwin
      split_ifs at hwin
      · exact (hf i found (h found (List.mem_of_getElem? hi)) win hwin).elim (h win) fun h => h
      · exact h win hwin

lemma fits_setWindow {i : ℕ} {win new : Window} (hsv : sv'.windows = sv.windows) (hwin : win.Fits)
    (hbuffer : new.buffer = win.buffer) (hw : new.width ≤ win.width)
    (hh : new.height ≤ win.height) :
    ∀ win' ∈ (sv'.setWindow i new).windows, win' ∈ sv.windows ∨ win'.Fits := by
  intro win' hmem
  obtain ⟨w, h, hold, hw', hh'⟩ := hwin
  rw [Server.setWindow, hsv] at hmem
  rcases List.mem_or_eq_of_mem_set hmem with hmem | rfl
  · exact .inl hmem
  · exact .inr ⟨w, h, hbuffer.trans hold, hw.trans hw', hh.trans hh'⟩

lemma fits_handle (h : ∀ win ∈ sv.windows, win.Fits) (client : ℕ) (m : Message) :
    ∀ win ∈ (sv.handle scr client m).windows, win.Fits := by
  cases m with
  | createWindow x y w h' shm =>
    intro win hwin
    simp only [Server.handle, Server.handleCreate] at hwin
    split_ifs at hwin
    · exact h win hwin
    · exact h win hwin
    · exact h win hwin
    · exact h win hwin
    rw [windows_markWindowArea, List.mem_append, List.mem_singleton] at hwin
    rcases hwin with hwin | rfl
    · exact h win hwin
    · exact ⟨w, h', rfl, le_rfl, le_rfl⟩
  | destroyWindow id =>
    refine fits_onWindow h fun i found _ win hwin => .inl ?_
    simp only [windows_markWindowArea] at hwin
    exact List.mem_of_mem_eraseIdx hwin
  | showWindow id =>
    exact fits_onWindow h fun i found hfound =>
      fits_setWindow (windows_markWindowArea _) hfound rfl le_rfl le_rfl
  | hideWindow id =>
    exact fits_onWindow h fun i found hfound =>
      fits_setWindow (windows_markWindowArea _) hfound rfl le_rfl le_rfl
  | moveWindow id x y =>
    refine fits_onWindow h fun i found hfound => ?_
    rw [Server.change, windows_markWindowArea]
    exact fits_setWindow (windows_markWindowArea _) hfound rfl le_rfl le_rfl
  | resizeWindow id w h' =>
    refine fits_onWindow h fun i found hfound => ?_
    unfold Server.handleResize
    split_ifs
    · exact fun win hwin => .inl hwin
    · rw [Server.change, windows_markWindowArea]
      exact fits_setWindow (windows_markWindowArea _) hfound rfl (Nat.min_le_right _ _)
        (Nat.min_le_right _ _)
  | setTitle id =>
    exact fits_onWindow h fun i found hfound =>
      fits_setWindow (windows_markWindowArea _) hfound rfl le_rfl le_rfl
  | damage id x y w h' =>
    exact fits_onWindow h fun i found hfound =>
      fits_setWindow (windows_markDirtyRegion _ _ _ _) hfound rfl le_rfl le_rfl
  | commit id =>
    exact fits_onWindow h fun i found hfound =>
      fits_setWindow (by simp) hfound rfl le_rfl le_rfl

lemma fits_drawWindow (r : Rect) {win : Window} (h : win.Fits) : (drawWindow scr r win).2.Fits := by
  unfold drawWindow
  split_ifs
  · exact h
  · exact h
  · cases copyWindow scr r win with
    | none => exact h
    | some drawn => exact h

lemma compositeWindows_cases (scr : Screen) (sv : Server) :
    ((compositeWindows scr sv).1 = [] ∧ (compositeWindows scr sv).2.windows = sv.windows) ∨
      ∃ r : Rect, r.Inside scr ∧ (compositeWindows scr sv).1 = ⟨background scr r, []⟩ ::
        sv.windows.flatMap (fun win => (drawWindow scr r win).1) ∧
        (compositeWindows scr sv).2.windows = sv.windows.map fun win =>
        (drawWindow scr r win).2 := by
  unfold compositeWindows
  split_ifs
  · cases (sv.markAll scr).dirtyRect with
    | none => exact .inl ⟨rfl, rfl⟩
    | some d =>
      simp only [Option.elim_some, repaint, windows_markAll]
      split_ifs
      · exact .inl ⟨rfl, rfl⟩
      · refine .inr
          ⟨⟨max d.x1 0, max d.y1 0, min d.x2 (wrap scr.width), min d.y2 (wrap scr.height)⟩,
          ⟨le_max_right _ _, le_max_right _ _, ?_, ?_⟩, ?_, ?_⟩
        · exact (min_le_right _ _).trans (wrap_le _)
        · exact (min_le_right _ _).trans (wrap_le _)
        · rw [List.flatMap_map]
        · rw [List.map_map]
          rfl
  · exact .inl ⟨rfl, rfl⟩

/-- No event makes a window larger than its buffer: a window is created with the size of its buffer,
and `handle_resize_window` only makes it smaller. -/
lemma fits_act (h : ∀ win ∈ sv.windows, win.Fits) (e : Event) :
    ∀ win ∈ (sv.act scr e).windows, win.Fits := by
  cases e with
  | message client m => exact fits_handle h client m
  | mouse relX relY =>
    rw [Server.act, windows_moveMouse]
    exact h
  | composite =>
    rw [Server.act]
    rcases compositeWindows_cases scr sv with ⟨-, hsame⟩ | ⟨r, -, -, hdrawn⟩
    · rwa [hsame]
    · simpa [hdrawn] using fun win hwin => fits_drawWindow r (h win hwin)

/-- **Drawing stays inside** the backbuffer and the window buffers, in every run. -/
theorem draws_inside (hfit : scr.width * scr.bytesPerPixel ≤ scr.pitch)
    (hreach : (windowServer scr).Reach sv) : DrawsInside scr sv := by
  have hinv : ∀ win ∈ sv.windows, win.Fits := by
    refine hreach.invariant (I := fun sv => ∀ win ∈ sv.windows, win.Fits) ?_ ?_
    · rintro sv (h0 : sv.windows = [])
      simp [h0]
    · rintro sv e sv' hi - (rfl : sv' = _)
      exact fits_act hi e
  intro a ha
  rcases compositeWindows_cases scr sv with ⟨hnone, -⟩ | ⟨r, hr, hdrawn, -⟩
  · simp [hnone] at ha
  rw [hdrawn, List.mem_cons, List.mem_flatMap] at ha
  rcases ha with rfl | ⟨win, hwin, ha⟩
  · refine ⟨fun o ho => ?_, nofun⟩
    simp only [background, List.mem_flatMap, mem_loop] at ho
    obtain ⟨y, hy, x, hx, ho⟩ := ho
    obtain ⟨hx1, hy1, hx2, hy2⟩ := hr
    exact pixelBytes_lt hfit (by omega) (by omega) (by omega) (by omega) o ho
  · exact drawWindow_inside hfit hr (hinv win hwin) a ha

/-- A screen of four rows with four pixels each. -/
def smallScreen : Screen := ⟨4, 4, 16, 4, by decide⟩

/-- A window that begins left of the screen is created, the mouse moves, and the window is shown. -/
def shownServer : Server :=
  [.message 1 (.createWindow (-1) 2 3 3 true), .mouse 1 (-1), .message 1 (.showWindow 1)].foldl
    (Server.act smallScreen) ⟨[], 1, none, true, 2, 2⟩

/-- The repaint copies the four pixels of the window that are on the screen. -/
theorem draws_inside_shown :
    ((compositeWindows smallScreen shownServer).1.flatMap Access.reads).map Prod.snd =
    [1, 2, 4, 5] ∧
      DrawsInside smallScreen shownServer :=
  ⟨by decide +kernel, draws_inside (by decide) (System.Reach.foldl (fun _ _ => rfl) (.init rfl) _
    rfl)⟩

end FrostByte.Compositor
