/-
The codec probe of the audio driver.

`azalia_probe_codec` looks for a codec, in its root node for an audio function group, and
in the group for widgets.  Everything it does is driven by the answers of a codec; `send`
stands for whatever answers, with all that was sent before in view.  The log `sent` keeps
the arguments of `azalia_verb` with each reply.

* **`azaliaVerb_decode`** — a well-formed verb holds its arguments and is not the error
  value.
-/
import VirtualKernel.Lib.Word
import VirtualKernel.Lib.Runs

namespace VirtualKernel

open Lib

abbrev alc269CodecId : ℕ := 0x10EC0269
abbrev azaliaMaxWidgets : ℕ := 64

abbrev azaliaCodecReady : ℕ := 2
abbrev azaliaCommandTimeout : ℕ := 0x13
abbrev azaliaCodecNotFound : ℕ := 0x14
abbrev azaliaBadTopology : ℕ := 0x15

/-! ### Verbs -/

/-- `azalia_verb`. -/
def azaliaVerb (codec node verb payload : ℕ) : ℕ :=
  if 14 < codec ∨ 255 < node ∨ 0xFFF < verb ∨ 255 < payload then 0xFFFFFFFF
  else codec <<< 28 ||| node <<< 20 ||| verb <<< 8 ||| payload

/-- The arguments of a verb. -/
structure AzaliaQuery where
  codec : ℕ
  node : ℕ
  verb : ℕ
  payload : ℕ
  deriving DecidableEq, Repr

/-- What is sent for a query. -/
def AzaliaQuery.command (q : AzaliaQuery) : ℕ := azaliaVerb q.codec q.node q.verb q.payload

/-- What a codec reads out of a command. -/
def decodeVerb (command : ℕ) : AzaliaQuery :=
  ⟨command / 2 ^ 28, command / 2 ^ 20 % 2 ^ 8, command / 2 ^ 8 % 2 ^ 12, command % 2 ^ 8⟩

/-- The arguments fit their fields. -/
structure AzaliaQuery.Fits (q : AzaliaQuery) : Prop where
  codec : q.codec ≤ 14
  node : q.node ≤ 255
  verb : q.verb ≤ 0xFFF
  payload : q.payload ≤ 255

/-- **A well-formed verb** holds its arguments, and is not the error value. -/
theorem azaliaVerb_decode {q : AzaliaQuery} (h : q.Fits) :
    decodeVerb q.command = q ∧ q.command < 0xF0000000 := by
  obtain ⟨c, n, v, p⟩ := q
  obtain ⟨hc, hn, hv, hp⟩ := h
  dsimp only at hc hn hv hp
  have hcommand : azaliaVerb c n v p = p + v * 2 ^ 8 + n * 2 ^ 20 + c * 2 ^ 28 := by
    have h₁ : p < 2 ^ 8 := by omega
    have h₂ : p + v * 2 ^ 8 < 2 ^ 20 := by omega
    have h₃ : p + v * 2 ^ 8 + n * 2 ^ 20 < 2 ^ 28 := by omega
    rw [azaliaVerb, if_neg (by omega), Nat.shiftLeft_eq, Nat.shiftLeft_eq, Nat.shiftLeft_eq,
      ← or_mul_two_pow h₃, ← or_mul_two_pow h₂, ← or_mul_two_pow h₁]
    simp only [Nat.or_comm, Nat.or_assoc]
  rw [AzaliaQuery.command, hcommand, decodeVerb, AzaliaQuery.mk.injEq]
  exact ⟨⟨by omega, by omega, by omega, by omega⟩, by omega⟩

/-! ### The state -/

/-- `struct azalia_widget`. -/
structure AzaliaWidget where
  node : ℕ
  capabilities : ℕ
  pinDefault : ℕ
  pcm : ℕ
  formats : ℕ
  deriving DecidableEq, Repr

/-- What `send` does: it stores an answer and returns 1, or it returns 0 and may have stored
something. -/
inductive AzaliaReply
  | answer (value : ℕ)
  | failure (stored : Option ℕ)
  deriving DecidableEq, Repr

abbrev AzaliaLog : Type := List (AzaliaQuery × AzaliaReply)

/-- `azalia_send_verb`: a reply to a command, after the commands before it and their
replies. -/
abbrev AzaliaSend : Type := List (ℕ × AzaliaReply) → ℕ → AzaliaReply

/-- The fields of `struct azalia_state` that the probe uses, and what was sent. -/
structure AzaliaState where
  status : ℕ
  codecMask : ℕ
  codecAddress : ℕ
  codecId : ℕ
  revision : ℕ
  audioGroup : ℕ
  widgetCount : ℕ
  widgets : ℕ → AzaliaWidget
  sent : AzaliaLog

abbrev AzaliaM (α : Type) : Type := StateT AzaliaState Option α

/-- One call of `send`. -/
def sendVerb (send : AzaliaSend) (q : AzaliaQuery) : AzaliaM AzaliaReply :=
  modifyGet fun s =>
    let reply := send (s.sent.map fun e => (e.1.command, e.2)) q.command
    (reply, { s with sent := s.sent ++ [(q, reply)] })

/-- A call that stores into a local variable: its value, if the call succeeds. -/
def sendLocal (send : AzaliaSend) (q : AzaliaQuery) : AzaliaM (Option ℕ) := do
  match ← sendVerb send q with
  | .answer value => return some value
  | .failure _ => return none

/-- A call that stores into the state. -/
def sendInto (send : AzaliaSend) (q : AzaliaQuery) (set : ℕ → AzaliaState → AzaliaState) :
    AzaliaM Bool := do
  match ← sendVerb send q with
  | .answer value =>
    modify (set value)
    return true
  | .failure none => return false
  | .failure (some value) =>
    modify (set value)
    return false

/-- The query of `parameter`. -/
def AzaliaState.parameter (s : AzaliaState) (node id : ℕ) : AzaliaQuery :=
  ⟨s.codecAddress, node, 0xF00, id⟩

def AzaliaState.setWidget (s : AzaliaState) (i : ℕ) (f : AzaliaWidget → AzaliaWidget) :
    AzaliaState :=
  { s with widgets := Function.update s.widgets i (f (s.widgets i)) }

/-! ### The probe -/

/-- `return state->status = status`. -/
def azaliaSetStatus (status : ℕ) : AzaliaM ℕ := do
  modify fun s => { s with status }
  return status

/-- The first node and the number of nodes in a packed answer. -/
def nodesStart (nodes : ℕ) : ℕ := nodes >>> 16 &&& 255
def nodesCount (nodes : ℕ) : ℕ := nodes &&& 255

/-- The loop over the codecs from `codec` on, `n` of them; `false` is a `send` that failed. -/
def findCodec (send : AzaliaSend) : ℕ → ℕ → AzaliaM Bool
  | 0, _ => return true
  | n + 1, codec => do
    if (← get).codecMask.testBit codec = false then findCodec send n (codec + 1)
    else
      modify fun s => { s with codecAddress := codec }
      match ← sendLocal send ((← get).parameter 0 0) with
      | none => return false
      | some vendor =>
        if vendor = alc269CodecId then
          modify fun s => { s with codecId := vendor }
          return true
        else findCodec send n (codec + 1)

/-- The loop over the nodes of the root from `node` on, `n` of them. -/
def findGroup (send : AzaliaSend) : ℕ → ℕ → AzaliaM Bool
  | 0, _ => return true
  | n + 1, node => do
    match ← sendLocal send ((← get).parameter node 5) with
    | none => return false
    | some type =>
      if type &&& 255 = 1 then
        modify fun s => { s with audioGroup := node }
        return true
      else findGroup send n (node + 1)

/-- The type of a widget. -/
def AzaliaWidget.type (w : AzaliaWidget) : ℕ := w.capabilities >>> 20 &&& 15

/-- The node that is asked for the formats of a widget. -/
def AzaliaWidget.formatNode (w : AzaliaWidget) (group : ℕ) : ℕ :=
  if w.capabilities.testBit 4 then w.node else group

/-- The pin query of a widget. -/
def readPin (send : AzaliaSend) (i : ℕ) : AzaliaM Bool := do
  let s ← get
  if (s.widgets i).type = 4 then
    sendInto send ⟨s.codecAddress, (s.widgets i).node, 0xF1C, 0⟩ fun v s =>
      s.setWidget i fun w => { w with pinDefault := v }
  else return true

/-- The format queries of a widget. -/
def readFormats (send : AzaliaSend) (i : ℕ) : AzaliaM Bool := do
  let s ← get
  if (s.widgets i).type ≤ 1 then
    let formatNode := (s.widgets i).formatNode s.audioGroup
    if (← sendInto send (s.parameter formatNode 0xA) fun v s =>
        s.setWidget i fun w => { w with pcm := v }) = false then return false
    else
      sendInto send (s.parameter formatNode 0xB) fun v s =>
        s.setWidget i fun w => { w with formats := v }
  else return true

/-- A turn of the widget loop. -/
def readWidget (send : AzaliaSend) (start i : ℕ) : AzaliaM Bool := do
  modify fun s => s.setWidget i fun w =>
    { w with node := start + i, pinDefault := 0, pcm := 0, formats := 0 }
  if (← sendInto send ((← get).parameter (start + i) 9) fun v s =>
      s.setWidget i fun w => { w with capabilities := v }) = false then return false
  else if (← readPin send i) = false then return false
  else if (← readFormats send i) = false then return false
  else
    modify fun s => { s with widgetCount := s.widgetCount + 1 }
    return true

/-- The widget loop from `i` on, `n` widgets. -/
def readWidgets (send : AzaliaSend) (start : ℕ) : ℕ → ℕ → AzaliaM Bool
  | 0, _ => return true
  | n + 1, i => do
    if (← readWidget send start i) = false then return false
    else readWidgets send start n (i + 1)

/-- The probe from the node list of the audio group on. -/
def probeWidgets (send : AzaliaSend) : AzaliaM ℕ := do
  let s ← get
  match ← sendLocal send (s.parameter s.audioGroup 4) with
  | none => azaliaSetStatus azaliaCommandTimeout
  | some nodes =>
    if nodesStart nodes = 0 ∨ nodesCount nodes = 0 ∨ azaliaMaxWidgets < nodesCount nodes ∨
        256 < nodesStart nodes + nodesCount nodes then azaliaSetStatus azaliaBadTopology
    else if (← readWidgets send (nodesStart nodes) (nodesCount nodes) 0) = false then
      azaliaSetStatus azaliaCommandTimeout
    else azaliaSetStatus azaliaCodecReady

/-- The probe from the node list of the root on. -/
def probeGroup (send : AzaliaSend) : AzaliaM ℕ := do
  match ← sendLocal send ((← get).parameter 0 4) with
  | none => azaliaSetStatus azaliaCommandTimeout
  | some nodes =>
    if nodesStart nodes = 0 ∨ nodesCount nodes = 0 ∨
        256 < nodesStart nodes + nodesCount nodes then azaliaSetStatus azaliaBadTopology
    else if (← findGroup send (nodesCount nodes) (nodesStart nodes)) = false then
      azaliaSetStatus azaliaCommandTimeout
    else if (← get).audioGroup = 0 then azaliaSetStatus azaliaBadTopology
    else probeWidgets send

/-- `azalia_probe_codec`, for a state and a send function. -/
def azaliaProbeCodec (send : AzaliaSend) : AzaliaM ℕ := do
  modify fun s => { s with codecId := 0, audioGroup := 0, widgetCount := 0, revision := 0 }
  if (← findCodec send 15 0) = false then azaliaSetStatus azaliaCommandTimeout
  else if (← get).codecId = 0 then azaliaSetStatus azaliaCodecNotFound
  else if (← sendInto send ((← get).parameter 0 2) fun v s => { s with revision := v }) = false then
    azaliaSetStatus azaliaCommandTimeout
  else probeGroup send

end VirtualKernel
