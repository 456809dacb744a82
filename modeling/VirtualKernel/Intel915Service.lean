/-
The ring-1 part of the Intel 915 graphics driver.

`intel915_driver_service` is called through a call gate by the task that asks
for graphics; it compares the task register with the owner word of the shared
state.  The driver runs on the words of its window and on a device of which
nothing is known: a read of a register, of the status page or of the frame
buffer takes its value from `Gpu.reads`, an arbitrary sequence of answers.

* **`intel915DriverService_denied`** — a task that is not the owner gets
  `I915_ACCESS_DENIED` and changes nothing;
* **`keeps_intel915DriverService`** — the driver never writes the owner word.
-/
import VirtualKernel.Intel915

namespace VirtualKernel

open Lib

/-! ### The window and the device -/

/-- The words of the driver window, and the answers that the device will
give. -/
structure Gpu where
  mem : ℕ → ℕ
  reads : ℕ → ℕ

/-- Programs of the driver. -/
abbrev GM (α : Type) : Type := StateT Gpu Option α

/-- Read a word of RAM. -/
def gpuLoad (a : ℕ) : GM ℕ := modifyGet fun g => (g.mem a % 2 ^ 32, g)

/-- Write a word of the window. -/
def gpuStore (a v : ℕ) : GM Unit := modify fun g => { g with mem := Function.update g.mem a v }

/-- Read a word that the device has written. -/
def gpuAnswer : GM ℕ :=
  modifyGet fun g => (g.reads 0 % 2 ^ 32, { g with reads := fun n => g.reads (n + 1) })

abbrev i915MmioOffset : ℕ := 0x400000
abbrev i915GttOffset : ℕ := 0x500000

/-- The linear address of an offset in the data segment of the driver. -/
def driverAddress (offset : ℕ) : ℕ := (i915Base + offset % 2 ^ 32) % 2 ^ 32

/-- `read_register`; the answer is the device's. -/
def readRegister (_offset : ℕ) : GM ℕ := gpuAnswer

/-- `write_register`, which reads the register back. -/
def writeRegister (offset value : ℕ) : GM Unit := do
  gpuStore (driverAddress (i915MmioOffset + offset)) value
  let _ ← readRegister offset

abbrev pgtblCtlReg : ℕ := 0x02020
abbrev ringTailReg : ℕ := 0x02030
abbrev ringHeadReg : ℕ := 0x02034
abbrev ringStartReg : ℕ := 0x02038
abbrev ringCtlReg : ℕ := 0x0203C
abbrev hwsPgaReg : ℕ := 0x02080
abbrev miModeReg : ℕ := 0x0209C
abbrev planeControlReg : ℕ := 0x70180
abbrev planeBaseReg : ℕ := 0x70184
abbrev planeStrideReg : ℕ := 0x70188
abbrev planePositionReg : ℕ := 0x7018C
abbrev planeSizeReg : ℕ := 0x70190
abbrev vgaControlReg : ℕ := 0x71400

abbrev i915Enable : ℕ := 0x80000000
abbrev completionWord : ℕ := 0x20
abbrev completionTag : ℕ := 0x915D0001
abbrev pollLimit : ℕ := 10000000
abbrev ringMask : ℕ := 0x001FFFFC
abbrev stopRing : ℕ := 1 <<< 8
abbrev modeIdle : ℕ := 1 <<< 9
abbrev cursorArgb64 : ℕ := 0x27
abbrev i915Rectangle : ℕ := 0x00246C80
abbrev i915CursorWidth : ℕ := 12
abbrev i915CursorHeight : ℕ := 16

/-! ### The scene -/

/-- `intel915_mode_layout`: the pitch and the size of the frame buffer. -/
def intel915ModeLayout (width height : ℕ) : Option (ℕ × ℕ) :=
  if width < 320 ∨ 2048 < width ∨ height < 200 ∨ 2048 < height then none
  else
    let row := (width * 4 + 63) / 64 * 64
    let size := (row * height + 4095) / 4096 * 4096
    if 0x00800000 < size then none else some (row, size)

/-- `struct command_buffer`; the commands lie at the address `words`. -/
structure CommandBuffer where
  words : ℕ
  count : ℕ
  capacity : ℕ
  width : ℕ
  height : ℕ
  pitch : ℕ
  destination : ℕ
  failed : Bool

/-- Append one word to the commands. -/
def CommandBuffer.put (buffer : CommandBuffer) (v : ℕ) : GM CommandBuffer := do
  gpuStore (buffer.words + 4 * buffer.count) (v % 2 ^ 32)
  return { buffer with count := buffer.count + 1 }

/-- `fill_rectangle`. -/
def fillRectangle (buffer : CommandBuffer) (x y width height color : ℕ) : GM CommandBuffer :=
  if buffer.width ≤ x ∨ buffer.height ≤ y ∨ width = 0 ∨ height = 0 then return buffer
  else
    let width := if buffer.width - x < width then buffer.width - x else width
    let height := if buffer.height - y < height then buffer.height - y else height
    if buffer.capacity - buffer.count < 6 then return { buffer with failed := true }
    else do
      let buffer ← buffer.put 0x54300004
      let buffer ← buffer.put (3 <<< 24 ||| 0xF0 <<< 16 ||| buffer.pitch)
      let buffer ← buffer.put (y <<< 16 ||| x)
      let buffer ← buffer.put ((y + height) <<< 16 ||| (x + width))
      let buffer ← buffer.put buffer.destination
      buffer.put color

/-- `intel915_build_scene`: the bytes of the commands, or 0. -/
def intel915BuildScene (commands capacity width height pitch framebuffer : ℕ) : GM ℕ :=
  match intel915ModeLayout width height with
  | none => return 0
  | some (expectedPitch, bytes) =>
    if pitch ≠ expectedPitch ∨ framebuffer &&& 4095 ≠ 0 ∨ 0x10000000 - bytes < framebuffer ∨
        capacity < 8 ∨ 1024 < capacity then return 0
    else do
      let buffer ← fillRectangle ⟨commands, 0, capacity - 8, width, height, pitch, framebuffer, false⟩
        0 0 width height i915Rectangle
      if buffer.failed then return 0
      else
        let buffer ← buffer.put 0x02000000
        let buffer ← buffer.put 0x10800001
        let buffer ← buffer.put (completionWord <<< 2)
        let buffer ← buffer.put completionTag
        let buffer ← (if buffer.count % 2 = 1 then buffer.put 0 else pure buffer)
        return buffer.count * 4

/-! ### The cursor -/

/-- The colour of a pixel of the arrow. -/
def cursorColor (x y : ℕ) : ℕ :=
  if y < 12 ∧ x ≤ y then
    if 1 < y ∧ y < 11 ∧ 0 < x ∧ x < y then 0xFFFFFFFF else 0xFF000000
  else if 12 ≤ y ∧ y < 16 then
    let left := 5 + (y - 12) / 2
    if left ≤ x ∧ x < left + 4 then
      if y < 15 ∧ left < x ∧ x < left + 3 then 0xFFFFFFFF else 0xFF000000
    else 0
  else 0

/-- The window with the pixels of the arrow. -/
def cursorPixels (mem : ℕ → ℕ) (a : ℕ) : ℕ :=
  if i915Cursor ≤ a ∧ a < i915Cursor + 0x4000 ∧ a % 4 = 0 then
    cursorColor ((a - i915Cursor) / 4 % 64) ((a - i915Cursor) / 4 / 64)
  else mem a

/-- `intel915_build_cursor` on the pixels of the driver window. -/
def intel915BuildCursor : GM Unit := modify fun g => { g with mem := cursorPixels g.mem }

/-- Switch the cursor of a pipe off. -/
def disableCursor (pipe : ℕ) : GM Unit := do
  writeRegister (cursorControlReg + pipe * cursorStride) 0
  writeRegister (cursorBaseReg + pipe * cursorStride) 0

/-- `enable_cursor`; the pipe is read once, as nothing here writes it. -/
def enableCursor : GM ℕ := do
  let physical ← gpuLoad cursorPhysical
  let pipe ← gpuLoad i915Pipe
  if physical = 0 ∨ physical &&& 4095 ≠ 0 ∨ 1 < pipe then return i915CursorFailed
  else
    intel915BuildCursor
    disableCursor 0
    disableCursor 1
    let offset := pipe * cursorStride
    gpuStore cursorX (sub32 (← gpuLoad i915Width) i915CursorWidth / 2)
    gpuStore cursorY (sub32 (← gpuLoad i915Height) i915CursorHeight / 2)
    writeRegister (cursorBaseReg + offset) (← gpuLoad cursorPhysical)
    writeRegister (cursorControlReg + offset) (cursorArgb64 ||| pipe <<< 28)
    writeRegister (cursorPositionReg + offset)
      ((← gpuLoad cursorY) <<< 16 % 2 ^ 32 ||| (← gpuLoad cursorX))
    writeRegister (cursorBaseReg + offset) (← gpuLoad cursorPhysical)
    let control ← readRegister (cursorControlReg + offset)
    let base ← readRegister (cursorBaseReg + offset)
    if control &&& 0x27 ≠ cursorArgb64 ∨ base ≠ (← gpuLoad cursorPhysical) then
      return i915CursorFailed
    else
      gpuStore cursorEnabled 1
      return i915Drawn

/-! ### Drawing -/

/-- `driver_error`. -/
def driverError (error : ℕ) : GM ℕ := do
  gpuStore i915Status error
  return error

/-- `wait_for_ring`, with the tries that are left. -/
def waitForRing : ℕ → GM Bool
  | 0 => return false
  | tries + 1 => do
    gpuStore ringHead ((← readRegister ringHeadReg) &&& ringMask)
    gpuStore ringTail ((← readRegister ringTailReg) &&& ringMask)
    if (← gpuLoad ringHead) = (← gpuLoad ringTail) then return true else waitForRing tries

/-- The loop of `draw_desktop` that waits for the parser to stop. -/
def waitForIdle : ℕ → GM Bool
  | 0 => return false
  | tries + 1 => do
    if (← readRegister miModeReg) &&& modeIdle ≠ 0 then return true else waitForIdle tries

/-- The loop of `draw_desktop` that waits for the completion tag. -/
def waitForCompletion : ℕ → GM Bool
  | 0 => return false
  | tries + 1 => do
    gpuStore i915Completion (← gpuAnswer)
    if (← gpuLoad i915Completion) = completionTag then return true else waitForCompletion tries

/-- `gtt[index] = value`. -/
def writeGtt (index value : ℕ) : GM Unit :=
  gpuStore (driverAddress (i915GttOffset + 4 * index)) value

/-- The loop of `draw_desktop` over the pages of the frame buffer. -/
def mapFramebuffer : ℕ → ℕ → GM Unit
  | 0, _ => return ()
  | fuel + 1, index => do
    if index < (← gpuLoad framebufferBytes) / 4096 then
      writeGtt ((← gpuLoad framebufferGtt) / 4096 + index)
        ((← gpuLoad (i915PageList + 4 * index)) ||| 1)
      mapFramebuffer fuel (index + 1)
    else return ()

/-- The part of `draw_desktop` that stops the parser: whether the ring is idle. -/
def stopParser : GM Bool := do
  writeRegister miModeReg (stopRing <<< 16 ||| stopRing)
  if ← waitForIdle pollLimit then return true else waitForRing pollLimit

/-- The part of `draw_desktop` that maps the buffers and restarts the ring. -/
def startRing (bytes : ℕ) : GM Unit := do
  writeRegister ringCtlReg 0
  mapFramebuffer (2 ^ 20) 0
  writeGtt ((← gpuLoad ringGtt) / 4096) ((← gpuLoad ringPhysical) ||| 1)
  let _ ← gpuAnswer
  writeRegister pgtblCtlReg (← gpuLoad pgtblControl)
  gpuStore (i915Hws + 4 * completionWord) 0
  writeRegister hwsPgaReg (← gpuLoad hwsPhysical)
  writeRegister ringTailReg 0
  writeRegister ringHeadReg 0
  writeRegister ringStartReg (← gpuLoad ringGtt)
  writeRegister miModeReg (stopRing <<< 16)
  writeRegister ringCtlReg 1
  gpuStore i915Stage 3
  writeRegister ringTailReg bytes

/-- The part of `draw_desktop` that waits for the drawing. -/
def finishRing : GM Bool := do
  let done ← waitForCompletion pollLimit
  gpuStore ringHead (← readRegister ringHeadReg)
  gpuStore ringTail (← readRegister ringTailReg)
  if done then waitForRing pollLimit else return false

/-- The part of `draw_desktop` that replaces the VGA planes. -/
def showDesktop : GM ℕ := do
  let plane := (← gpuLoad i915Pipe) * 0x1000
  gpuStore i915Stage 5
  writeRegister planeControlReg ((← gpuLoad oldPlaneA) &&& 0x7FFFFFFF)
  writeRegister planeBaseReg (← gpuLoad oldPlaneBaseA)
  writeRegister (planeControlReg + 0x1000) ((← gpuLoad oldPlaneB) &&& 0x7FFFFFFF)
  writeRegister (planeBaseReg + 0x1000) (← gpuLoad oldPlaneBaseB)
  writeRegister (planeStrideReg + plane) (← gpuLoad i915Pitch)
  writeRegister (planePositionReg + plane) 0
  writeRegister (planeSizeReg + plane)
    (sub32 (← gpuLoad i915Height) 1 <<< 16 % 2 ^ 32 ||| sub32 (← gpuLoad i915Width) 1)
  writeRegister (planeControlReg + plane)
    (i915Enable ||| 6 <<< 26 ||| (← gpuLoad i915Pipe) <<< 24 % 2 ^ 32)
  writeRegister (planeBaseReg + plane) (← gpuLoad framebufferGtt)
  writeRegister vgaControlReg ((← gpuLoad oldVgaControl) ||| i915Enable)
  if (← enableCursor) ≠ i915Drawn then driverError i915CursorFailed
  else
    gpuStore i915Stage 6
    gpuStore i915Status i915Drawn
    return i915Drawn

/-- `draw_desktop`; the two pixels are the first one and one under the cursor. -/
def drawDesktop : GM ℕ := do
  if (← gpuLoad i915Status) ≠ i915Ready ∨ (← gpuLoad i915Stage) ≠ 1 then
    driverError i915AlreadyStarted
  else
    gpuStore i915Stage 2
    let control ← readRegister ringCtlReg
    let idle ← (if control &&& 1 ≠ 0 then waitForRing pollLimit else pure true)
    if idle = false then driverError i915EngineBusy
    else
      let bytes ← intel915BuildScene i915Ring 1024 (← gpuLoad i915Width) (← gpuLoad i915Height)
        (← gpuLoad i915Pitch) (← gpuLoad framebufferGtt)
      if bytes = 0 then driverError i915CommandOverflow
      else
        gpuStore commandBytes bytes
        if (← stopParser) = false then driverError i915EngineBusy
        else
          startRing bytes
          if (← finishRing) = false then driverError i915GpuTimeout
          else
            gpuStore i915Stage 4
            -- no VGA plane is replaced before the device has drawn
            let first ← gpuAnswer
            let corner ← (if first &&& 0xFFFFFF = i915Rectangle then gpuAnswer else pure 0)
            if first &&& 0xFFFFFF ≠ i915Rectangle ∨ corner &&& 0xFFFFFF ≠ i915Rectangle then
              driverError i915BadPixels
            else showDesktop

/-- The part of `intel915_driver_service` that runs under the lock. -/
def serveRequest (operation : ℕ) : GM ℕ := do
  let status ← gpuLoad i915Status
  if operation = intel915InitializeDesktop then
    if status = i915Drawn then return i915Drawn else drawDesktop
  else if status ≠ i915Drawn then return status
  else return (← gpuLoad i915Height) <<< 16 % 2 ^ 32 ||| (← gpuLoad i915Width)

/-- `intel915_driver_service(operation)`, called with the selectors `cs` and
`task` in the code segment and the task register. -/
def intel915DriverService (cs task operation : ℕ) : GM ℕ := do
  let owner ← gpuLoad ownerTssSelector
  if cs &&& 3 ≠ 1 then return i915WrongRing
  else if owner = 0 ∨ task ≠ owner then return i915AccessDenied
  else if intel915GetScreenSize < operation then return i915BadRequest
  else
    let busy ← gpuLoad i915BusyWord
    gpuStore i915BusyWord 1
    if busy ≠ 0 then return i915Busy
    else
      gpuStore observedCs cs
      gpuStore requestCount (add32 (← gpuLoad requestCount) 1)
      let result ← serveRequest operation
      gpuStore i915BusyWord 0
      return result

/-! ### The owner word -/

/-- **Only the owner is served.**  For every other task the driver answers
without a change and without touching the device. -/
theorem intel915DriverService_denied {g : Gpu} {task : ℕ}
    (h : g.mem ownerTssSelector % 2 ^ 32 = 0 ∨ task ≠ g.mem ownerTssSelector % 2 ^ 32)
    (cs operation : ℕ) : (intel915DriverService cs task operation).run g =
      some (if cs &&& 3 = 1 then i915AccessDenied else i915WrongRing, g) := by
  have hg : (gpuLoad ownerTssSelector).run g = some (g.mem ownerTssSelector % 2 ^ 32, g) := rfl
  rw [intel915DriverService, StateT.run_bind, hg]
  by_cases hcs : cs &&& 3 = 1
  · rw [if_pos hcs]
    change StateT.run (if cs &&& 3 ≠ 1 then _ else _) g = _
    rw [if_neg (not_not.mpr hcs), if_pos h]
    rfl
  · rw [if_neg hcs]
    change StateT.run (if cs &&& 3 ≠ 1 then _ else _) g = _
    rw [if_pos hcs]
    rfl

/-- The owner word of the window. -/
def Gpu.owner (g : Gpu) : ℕ := g.mem ownerTssSelector

theorem keeps_gpuLoad (a : ℕ) : Keeps Gpu.owner (gpuLoad a) := keeps_modifyGet fun _ => rfl

theorem keeps_gpuAnswer : Keeps Gpu.owner gpuAnswer := keeps_modifyGet fun _ => rfl

theorem keeps_gpuStore {a : ℕ} (h : ownerTssSelector ≠ a) (v : ℕ) : Keeps Gpu.owner (gpuStore a v) :=
  keeps_modify fun _ => Function.update_of_ne h _ _

theorem keeps_readRegister (offset : ℕ) : Keeps Gpu.owner (readRegister offset) := keeps_gpuAnswer

/-- No register that the driver writes lies at the start of a page, but the
shared state does. -/
theorem keeps_writeRegister {offset : ℕ} (h : offset % 0x1000 ≠ 0) (v : ℕ) :
    Keeps Gpu.owner (writeRegister offset v) := by
  refine keeps_bind (keeps_gpuStore (fun ha => h ?_) v) fun _ =>
    keeps_bind (keeps_readRegister _) fun _ => keeps_pure _
  simp only [ownerTssSelector, i915Shared, driverAddress, i915MmioOffset, i915Base] at ha
  omega

/-- The translation table begins behind the shared state and ends below its
next alias. -/
theorem keeps_writeGtt {index : ℕ} (h : index < 2 ^ 21) (v : ℕ) : Keeps Gpu.owner (writeGtt index v) := by
  refine keeps_gpuStore (fun ha => ?_) v
  simp only [ownerTssSelector, i915Shared, driverAddress, i915GttOffset, i915Base] at ha
  omega

theorem keeps_driverError (error : ℕ) : Keeps Gpu.owner (driverError error) :=
  keeps_bind (keeps_gpuStore (by decide) _) fun _ => keeps_pure _

theorem keeps_waitForRing (tries : ℕ) : Keeps Gpu.owner (waitForRing tries) := by
  induction tries with
  | zero => exact keeps_pure _
  | succ tries ih =>
    refine keeps_bind (keeps_readRegister _) fun _ => keeps_bind (keeps_gpuStore (by decide) _) fun _ => ?_
    refine keeps_bind (keeps_readRegister _) fun _ => keeps_bind (keeps_gpuStore (by decide) _) fun _ => ?_
    refine keeps_bind (keeps_gpuLoad _) fun _ => keeps_bind (keeps_gpuLoad _) fun _ => ?_
    exact keeps_ite (keeps_pure _) ih

theorem keeps_waitForIdle (tries : ℕ) : Keeps Gpu.owner (waitForIdle tries) := by
  induction tries with
  | zero => exact keeps_pure _
  | succ tries ih => exact keeps_bind (keeps_readRegister _) fun _ => keeps_ite (keeps_pure _) ih

theorem keeps_waitForCompletion (tries : ℕ) : Keeps Gpu.owner (waitForCompletion tries) := by
  induction tries with
  | zero => exact keeps_pure _
  | succ tries ih =>
    refine keeps_bind keeps_gpuAnswer fun _ => keeps_bind (keeps_gpuStore (by decide) _) fun _ => ?_
    exact keeps_bind (keeps_gpuLoad _) fun _ => keeps_ite (keeps_pure _) ih

/-! The words that are read have 32 bits. -/

theorem keeps_gpuLoad_bind {α : Type} {a : ℕ} {f : ℕ → GM α}
    (hf : ∀ v < 2 ^ 32, Keeps Gpu.owner (f v)) : Keeps Gpu.owner (gpuLoad a >>= f) :=
  keeps_bind_of (keeps_gpuLoad a)
    (fun _ => ensures_modifyGet (Nat.mod_lt _ (by decide))) hf

theorem keeps_mapFramebuffer : ∀ {fuel index : ℕ}, index + fuel ≤ 2 ^ 20 →
    Keeps Gpu.owner (mapFramebuffer fuel index) := by
  intro fuel
  induction fuel with
  | zero => exact fun _ => keeps_pure _
  | succ fuel ih =>
    intro index h
    refine keeps_bind (keeps_gpuLoad _) fun _ => keeps_ite ?_ (keeps_pure _)
    refine keeps_gpuLoad_bind fun gtt hgtt => keeps_bind (keeps_gpuLoad _) fun _ => ?_
    exact keeps_bind (keeps_writeGtt (by omega) _) fun _ => ih (by omega)

theorem keeps_stopParser : Keeps Gpu.owner stopParser :=
  keeps_bind (keeps_writeRegister (by decide) _) fun _ =>
    keeps_bind (keeps_waitForIdle _) fun _ => keeps_ite (keeps_pure _) (keeps_waitForRing _)

theorem keeps_startRing (bytes : ℕ) : Keeps Gpu.owner (startRing bytes) := by
  have hreg : ∀ {offset : ℕ} (v : ℕ), offset % 0x1000 ≠ 0 → Keeps Gpu.owner (writeRegister offset v) :=
    fun v h => keeps_writeRegister h v
  -- the translation table
  refine keeps_bind (hreg _ (by decide)) fun _ => keeps_bind (keeps_mapFramebuffer (by decide)) fun _ => ?_
  refine keeps_gpuLoad_bind fun gtt hgtt => keeps_bind (keeps_gpuLoad _) fun _ => ?_
  refine keeps_bind (keeps_writeGtt (by omega) _) fun _ => keeps_bind keeps_gpuAnswer fun _ => ?_
  refine keeps_bind (keeps_gpuLoad _) fun _ => keeps_bind (hreg _ (by decide)) fun _ => ?_
  -- the status page and the ring
  refine keeps_bind (keeps_gpuStore (by decide) _) fun _ => ?_
  refine keeps_bind (keeps_gpuLoad _) fun _ => keeps_bind (hreg _ (by decide)) fun _ => ?_
  refine keeps_bind (hreg _ (by decide)) fun _ => keeps_bind (hreg _ (by decide)) fun _ => ?_
  refine keeps_bind (keeps_gpuLoad _) fun _ => keeps_bind (hreg _ (by decide)) fun _ => ?_
  refine keeps_bind (hreg _ (by decide)) fun _ => keeps_bind (hreg _ (by decide)) fun _ => ?_
  exact keeps_bind (keeps_gpuStore (by decide) _) fun _ => hreg _ (by decide)

theorem keeps_finishRing : Keeps Gpu.owner finishRing := by
  refine keeps_bind (keeps_waitForCompletion _) fun _ => ?_
  refine keeps_bind (keeps_readRegister _) fun _ => keeps_bind (keeps_gpuStore (by decide) _) fun _ => ?_
  refine keeps_bind (keeps_readRegister _) fun _ => keeps_bind (keeps_gpuStore (by decide) _) fun _ => ?_
  exact keeps_ite (keeps_waitForRing _) (keeps_pure _)

/-! ### The owner word and the scene -/

/-- `m` appends to the commands at `words` and keeps the owner word. -/
def Appends (words : ℕ) (m : GM CommandBuffer) : Prop :=
  Keeps Gpu.owner m ∧ ∀ s, Ensures m s fun b _ => b.words = words

theorem appends_pure (b : CommandBuffer) : Appends b.words (pure b) :=
  ⟨keeps_pure _, fun _ => ensures_pure rfl⟩

theorem appends_bind {words : ℕ} {m : GM CommandBuffer} {f : CommandBuffer → GM CommandBuffer}
    (hm : Appends words m) (hf : ∀ b, b.words = words → Appends words (f b)) :
    Appends words (m >>= f) :=
  ⟨keeps_bind_of hm.1 hm.2 fun b hb => (hf b hb).1,
    fun s => ensures_bind (hm.2 s) fun b t hb => (hf b hb).2 t⟩

theorem appends_ite {words : ℕ} {c : Prop} [Decidable c] {m m' : GM CommandBuffer}
    (h : Appends words m) (h' : Appends words m') : Appends words (if c then m else m') := by
  split_ifs
  · exact h
  · exact h'

/-- The commands lie behind the shared state. -/
theorem appends_put {words : ℕ} (h : ownerTssSelector < words) {b : CommandBuffer}
    (hb : b.words = words) (v : ℕ) : Appends words (b.put v) := by
  refine ⟨keeps_bind (keeps_gpuStore ?_ _) fun _ => keeps_pure _,
    fun s => ensures_last fun _ _ => ensures_pure hb⟩
  rw [hb]
  omega

theorem appends_fillRectangle {words : ℕ} (h : ownerTssSelector < words) {b : CommandBuffer}
    (hb : b.words = words) (x y width height color : ℕ) :
    Appends words (fillRectangle b x y width height color) := by
  subst hb
  refine appends_ite (appends_pure b) (appends_ite (appends_pure { b with failed := true }) ?_)
  refine appends_bind (appends_put h rfl _) fun b₁ h₁ => ?_
  refine appends_bind (appends_put h h₁ _) fun b₂ h₂ => ?_
  refine appends_bind (appends_put h h₂ _) fun b₃ h₃ => ?_
  refine appends_bind (appends_put h h₃ _) fun b₄ h₄ => ?_
  exact appends_bind (appends_put h h₄ _) fun b₅ h₅ => appends_put h h₅ _

theorem keeps_intel915BuildScene {commands : ℕ} (h : ownerTssSelector < commands)
    (capacity width height pitch framebuffer : ℕ) :
    Keeps Gpu.owner (intel915BuildScene commands capacity width height pitch framebuffer) := by
  rw [intel915BuildScene]
  cases intel915ModeLayout width height with
  | none => exact keeps_pure _
  | some layout =>
    refine keeps_ite (keeps_pure _) ?_
    have hnext : ∀ {m : GM CommandBuffer} {f : CommandBuffer → GM ℕ}, Appends commands m →
        (∀ b, b.words = commands → Keeps Gpu.owner (f b)) → Keeps Gpu.owner (m >>= f) :=
      fun hm hf => keeps_bind_of hm.1 hm.2 hf
    refine hnext (appends_fillRectangle h rfl _ _ _ _ _) fun b₁ h₁ => keeps_ite (keeps_pure _) ?_
    refine hnext (appends_put h h₁ _) fun b₂ h₂ => hnext (appends_put h h₂ _) fun b₃ h₃ => ?_
    refine hnext (appends_put h h₃ _) fun b₄ h₄ => hnext (appends_put h h₄ _) fun b₅ h₅ => ?_
    subst h₅
    exact hnext (appends_ite (appends_put h rfl _) (appends_pure b₅)) fun b₆ _ => keeps_pure _

theorem keeps_intel915BuildCursor : Keeps Gpu.owner intel915BuildCursor := by
  refine keeps_modify fun g => ?_
  change cursorPixels g.mem ownerTssSelector = g.mem ownerTssSelector
  rw [cursorPixels, if_neg (by decide)]

theorem keeps_disableCursor {pipe : ℕ} (h : pipe ≤ 1) : Keeps Gpu.owner (disableCursor pipe) := by
  refine keeps_bind (keeps_writeRegister ?_ _) fun _ => keeps_writeRegister ?_ _
  all_goals
    simp only [cursorControlReg, cursorBaseReg, cursorStride]
    omega

theorem keeps_enableCursor : Keeps Gpu.owner enableCursor := by
  refine keeps_bind (keeps_gpuLoad _) fun physical => keeps_bind (keeps_gpuLoad _) fun pipe => ?_
  by_cases hbad : physical = 0 ∨ physical &&& 4095 ≠ 0 ∨ 1 < pipe
  · rw [if_pos hbad]
    exact keeps_pure _
  rw [if_neg hbad]
  -- the registers of one pipe lie within a page
  simp only [not_or, Nat.not_lt] at hbad
  have hpipe := hbad.2.2
  have hreg : ∀ {base : ℕ} (v : ℕ), 0 < base % 0x1000 → base % 0x1000 < 0xF00 →
      Keeps Gpu.owner (writeRegister (base + pipe * cursorStride) v) := fun v h0 h => by
    refine keeps_writeRegister ?_ v
    simp only [cursorStride]
    omega
  refine keeps_bind keeps_intel915BuildCursor fun _ => ?_
  refine keeps_bind (keeps_disableCursor (by decide)) fun _ => ?_
  refine keeps_bind (keeps_disableCursor (by decide)) fun _ => ?_
  refine keeps_bind (keeps_gpuLoad _) fun _ => keeps_bind (keeps_gpuStore (by decide) _) fun _ => ?_
  refine keeps_bind (keeps_gpuLoad _) fun _ => keeps_bind (keeps_gpuStore (by decide) _) fun _ => ?_
  refine keeps_bind (keeps_gpuLoad _) fun _ =>
    keeps_bind (hreg _ (by decide) (by decide)) fun _ => ?_
  refine keeps_bind (hreg _ (by decide) (by decide)) fun _ => ?_
  refine keeps_bind (keeps_gpuLoad _) fun _ => keeps_bind (keeps_gpuLoad _) fun _ =>
    keeps_bind (hreg _ (by decide) (by decide)) fun _ => ?_
  refine keeps_bind (keeps_gpuLoad _) fun _ =>
    keeps_bind (hreg _ (by decide) (by decide)) fun _ => ?_
  refine keeps_bind (keeps_readRegister _) fun _ => keeps_bind (keeps_readRegister _) fun _ => ?_
  refine keeps_bind (keeps_gpuLoad _) fun _ => keeps_ite (keeps_pure _) ?_
  exact keeps_bind (keeps_gpuStore (by decide) _) fun _ => keeps_pure _

theorem keeps_showDesktop : Keeps Gpu.owner showDesktop := by
  have hreg : ∀ {offset : ℕ} (v : ℕ), offset % 0x1000 ≠ 0 → Keeps Gpu.owner (writeRegister offset v) :=
    fun v h => keeps_writeRegister h v
  refine keeps_bind (keeps_gpuLoad _) fun pipe => ?_
  -- the registers of the planes of both pipes have the same offset in their pages
  have hplane : ∀ {offset : ℕ} (v : ℕ), offset % 0x1000 ≠ 0 →
      Keeps Gpu.owner (writeRegister (offset + pipe * 0x1000) v) := fun v h =>
    keeps_writeRegister (by rwa [Nat.add_mul_mod_self_right]) v
  refine keeps_bind (keeps_gpuStore (by decide) _) fun _ => ?_
  refine keeps_bind (keeps_gpuLoad _) fun _ => keeps_bind (hreg _ (by decide)) fun _ => ?_
  refine keeps_bind (keeps_gpuLoad _) fun _ => keeps_bind (hreg _ (by decide)) fun _ => ?_
  refine keeps_bind (keeps_gpuLoad _) fun _ => keeps_bind (hreg _ (by decide)) fun _ => ?_
  refine keeps_bind (keeps_gpuLoad _) fun _ => keeps_bind (hreg _ (by decide)) fun _ => ?_
  refine keeps_bind (keeps_gpuLoad _) fun _ => keeps_bind (hplane _ (by decide)) fun _ => ?_
  refine keeps_bind (hplane _ (by decide)) fun _ => ?_
  refine keeps_bind (keeps_gpuLoad _) fun _ => keeps_bind (keeps_gpuLoad _) fun _ =>
    keeps_bind (hplane _ (by decide)) fun _ => ?_
  refine keeps_bind (keeps_gpuLoad _) fun _ => keeps_bind (hplane _ (by decide)) fun _ => ?_
  refine keeps_bind (keeps_gpuLoad _) fun _ => keeps_bind (hplane _ (by decide)) fun _ => ?_
  refine keeps_bind (keeps_gpuLoad _) fun _ => keeps_bind (hreg _ (by decide)) fun _ => ?_
  refine keeps_bind keeps_enableCursor fun _ => keeps_ite (keeps_driverError _) ?_
  refine keeps_bind (keeps_gpuStore (by decide) _) fun _ => ?_
  exact keeps_bind (keeps_gpuStore (by decide) _) fun _ => keeps_pure _

theorem keeps_drawDesktop : Keeps Gpu.owner drawDesktop := by
  refine keeps_bind (keeps_gpuLoad _) fun _ => keeps_bind (keeps_gpuLoad _) fun _ => ?_
  refine keeps_ite (keeps_driverError _) (keeps_bind (keeps_gpuStore (by decide) _) fun _ => ?_)
  refine keeps_bind (keeps_readRegister _) fun _ => ?_
  refine keeps_bind (keeps_ite (keeps_waitForRing _) (keeps_pure _)) fun _ => ?_
  refine keeps_ite (keeps_driverError _) ?_
  refine keeps_bind (keeps_gpuLoad _) fun _ => keeps_bind (keeps_gpuLoad _) fun _ => ?_
  refine keeps_bind (keeps_gpuLoad _) fun _ => keeps_bind (keeps_gpuLoad _) fun _ => ?_
  refine keeps_bind (keeps_intel915BuildScene (by decide) _ _ _ _ _) fun _ => ?_
  refine keeps_ite (keeps_driverError _) (keeps_bind (keeps_gpuStore (by decide) _) fun _ => ?_)
  refine keeps_bind keeps_stopParser fun _ => keeps_ite (keeps_driverError _) ?_
  refine keeps_bind (keeps_startRing _) fun _ => keeps_bind keeps_finishRing fun _ => ?_
  refine keeps_ite (keeps_driverError _) (keeps_bind (keeps_gpuStore (by decide) _) fun _ => ?_)
  refine keeps_bind keeps_gpuAnswer fun _ => ?_
  refine keeps_bind (keeps_ite keeps_gpuAnswer (keeps_pure _)) fun _ => ?_
  exact keeps_ite (keeps_driverError _) keeps_showDesktop

theorem keeps_serveRequest (operation : ℕ) : Keeps Gpu.owner (serveRequest operation) := by
  refine keeps_bind (keeps_gpuLoad _) fun _ => ?_
  refine keeps_ite (keeps_ite (keeps_pure _) keeps_drawDesktop) (keeps_ite (keeps_pure _) ?_)
  exact keeps_bind (keeps_gpuLoad _) fun _ => keeps_bind (keeps_gpuLoad _) fun _ => keeps_pure _

/-- **The driver does not write the owner word**, whoever calls it and whatever
the device answers. -/
theorem keeps_intel915DriverService (cs task operation : ℕ) :
    Keeps Gpu.owner (intel915DriverService cs task operation) := by
  refine keeps_bind (keeps_gpuLoad _) fun _ => keeps_ite (keeps_pure _) (keeps_ite (keeps_pure _) ?_)
  refine keeps_ite (keeps_pure _) (keeps_bind (keeps_gpuLoad _) fun _ => ?_)
  refine keeps_bind (keeps_gpuStore (by decide) _) fun _ => keeps_ite (keeps_pure _) ?_
  refine keeps_bind (keeps_gpuStore (by decide) _) fun _ => keeps_bind (keeps_gpuLoad _) fun _ => ?_
  refine keeps_bind (keeps_gpuStore (by decide) _) fun _ => ?_
  refine keeps_bind (keeps_serveRequest _) fun _ => ?_
  exact keeps_bind (keeps_gpuStore (by decide) _) fun _ => keeps_pure _

end VirtualKernel
