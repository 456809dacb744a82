/-
Control transfers.

The packets of a transfer are read off the log; what the device does with a packet is
read off the answers of the hardware.  `ControlPackets` says which packets
`usb_uhci_control` sends, and when, in terms of the answers to the earlier ones;
`ControlTransfer` says what it returns.

* **`controlPacket_spec`** — one packet is one descriptor, and its result is what the
  status word says;
* **`controlData_spec`** — the loop of the data stage;
* **`control_exact`** — the whole transfer.
-/
import VirtualKernel.UsbStreams

namespace VirtualKernel

open Lib

/-! ### Packets -/

/-- A packet on endpoint 0: its descriptor, the bytes put into the control buffer for it,
and the time at which it is submitted. -/
structure ControlPacket where
  pid : ℕ
  toggle : ℕ
  length : ℕ
  payload : List ℕ
  time : ℕ

namespace ControlPacket

section Device

variable (hw : ℕ → UsbReg → ℕ) (id : ℕ) (p : ControlPacket)

/-- The status word that the controller leaves in the descriptor. -/
def word : ℕ := hw (p.time + 1) (.controlTd id) % 2 ^ 32

/-- The controller reports an error of its own. -/
abbrev HostFailed : Prop := hw (p.time + 3) (.status id) % 2 ^ 16 &&& 0x18 ≠ 0

/-- The number of bytes moved, or an error. -/
def actual : ℤ := if p.HostFailed hw id then -1 else uhciCompletedLength (p.word hw id) p.length

/-- The bytes of the control buffer after the packet. -/
def byte (i : ℕ) : ℕ := hw (p.time + 4) (.controlData id i) % 2 ^ 8

/-- The bytes received. -/
def received : List ℕ := (List.range (p.actual hw id).toNat).map (p.byte hw id)

/-- What the driver does for the packet. -/
def events (address low : ℕ) : List UsbEvent :=
  (if p.payload = [] then [] else [.controlData id p.payload]) ++
    [.controlTd id p.pid address low p.toggle p.length]

end Device

/-- The token of the packet's descriptor. -/
def token (address : ℕ) (p : ControlPacket) : ℕ := uhciToken p.pid address 0 p.toggle p.length

/-- The fields of the token say what the packet is. -/
structure TokenOk (address : ℕ) (p : ControlPacket) : Prop where
  isWord : p.token address < 2 ^ 32
  pidField : p.token address &&& 0xFF = p.pid
  addressField : p.token address >>> 8 &&& 0x7F = address
  endpointField : p.token address >>> 15 &&& 0xF = 0
  toggleField : p.token address >>> 19 &&& 1 = p.toggle
  lengthField : (p.token address >>> 21) + 1 &&& 0x7FF = p.length

end ControlPacket

/-- What the log says about the control packets of controller `id`. -/
def UsbEvent.ofControl (id : ℕ) : UsbEvent → Bool
  | .controlTd i _ _ _ _ _ => i = id
  | .controlData i _ => i = id
  | _ => false

def Usb.packets (s : Usb) (id : ℕ) : List UsbEvent := s.log.filter (·.ofControl id)

/-! ### Tokens -/

theorem or_shiftLeft {a b k n : ℕ} (hn : 2 ^ k = n) (h : b < n) : b ||| a <<< k = a * n + b := by
  rw [← hn] at h ⊢
  rw [Nat.or_comm, ← Nat.shiftLeft_add_eq_or_of_lt h, Nat.shiftLeft_eq]

/-- The token as a number. -/
theorem uhciToken_eq {pid address toggle length : ℕ} (hpid : pid = 0x69 ∨ pid = 0xE1 ∨ pid = 0x2D)
    (haddress : address ≤ 127) (htoggle : toggle ≤ 1) (hlength : length ≤ 64) :
    uhciToken pid address 0 toggle length =
      (length + 2047) % 2048 * 0x200000 + (toggle * 0x80000 + (address * 0x100 + pid)) := by
  have hpid8 : pid < 0x100 := by omega
  have haddress15 : address * 0x100 + pid < 0x80000 := by omega
  have htoggle20 : toggle * 0x80000 + (address * 0x100 + pid) < 0x200000 :=
    calc toggle * 0x80000 + (address * 0x100 + pid)
      _ < toggle * 0x80000 + 0x80000 := Nat.add_lt_add_left haddress15 _
      _ ≤ 1 * 0x80000 + 0x80000 := Nat.add_le_add_right (Nat.mul_le_mul_right _ htoggle) _
      _ ≤ 0x200000 := by decide
  have hrej : ¬ (pid ≠ 0x69 ∧ pid ≠ 0xE1 ∧ pid ≠ 0x2D ∨ 127 < address ∨ 15 < 0 ∨ 1 < toggle ∨
      64 < length) := by omega
  have hlast : sub32 length 1 &&& 0x7FF = (length + 2047) % 2048 := by
    rw [Nat.and_two_pow_sub_one_eq_mod _ 11, sub32]
    omega
  have h8 : pid ||| address <<< 8 = address * 0x100 + pid := or_shiftLeft rfl hpid8
  have h19 : (address * 0x100 + pid) ||| toggle <<< 19 =
      toggle * 0x80000 + (address * 0x100 + pid) := or_shiftLeft rfl haddress15
  rw [uhciToken, if_neg hrej, hlast, h8, Nat.zero_shiftLeft, Nat.or_zero, h19]
  exact or_shiftLeft rfl htoggle20

theorem tokenOk {address : ℕ} {p : ControlPacket} (hpid : p.pid = 0x69 ∨ p.pid = 0xE1 ∨ p.pid = 0x2D)
    (haddress : address ≤ 127) (htoggle : p.toggle ≤ 1) (hlength : p.length ≤ 64) :
    p.TokenOk address := by
  have heq := uhciToken_eq hpid haddress htoggle hlength
  constructor
  · rw [ControlPacket.token, heq]
    omega
  · rw [ControlPacket.token, heq, Nat.and_two_pow_sub_one_eq_mod _ 8]
    omega
  · rw [ControlPacket.token, heq, Nat.and_two_pow_sub_one_eq_mod _ 7, Nat.shiftRight_eq_div_pow]
    omega
  · rw [ControlPacket.token, heq, Nat.and_two_pow_sub_one_eq_mod _ 4, Nat.shiftRight_eq_div_pow]
    omega
  · rw [ControlPacket.token, heq, Nat.and_two_pow_sub_one_eq_mod _ 1, Nat.shiftRight_eq_div_pow]
    omega
  · rw [ControlPacket.token, heq, Nat.and_two_pow_sub_one_eq_mod _ 11, Nat.shiftRight_eq_div_pow]
    omega

/-! ### One packet -/

theorem uhciCompletedLength_le (word length : ℕ) : uhciCompletedLength word length ≤ length := by
  rw [uhciCompletedLength]
  dsimp only
  split_ifs with hactive herror hlong
  · omega
  · omega
  · exact Int.ofNat_le.mpr hlong
  · omega

theorem actual_le (hw : ℕ → UsbReg → ℕ) (id : ℕ) (p : ControlPacket) :
    p.actual hw id ≤ p.length := by
  rw [ControlPacket.actual]
  split
  · omega
  · exact uhciCompletedLength_le _ _

section Packet

variable {s : Usb}

theorem usbOut_packets (id : ℕ) {l : List UsbEvent} (h : ∀ e ∈ l, e.ofControl id = false) :
    Ensures (usbOut l) s fun _ t => t.hw = s.hw ∧ t.time = s.time ∧ t.packets id = s.packets id := by
  refine ensures_modify ⟨rfl, rfl, ?_⟩
  have hnil : l.filter (·.ofControl id) = [] :=
    List.filter_eq_nil_iff.mpr fun e he => by rw [h e he]; exact Bool.false_ne_true
  show (s.log ++ l).filter (·.ofControl id) = s.log.filter (·.ofControl id)
  rw [List.filter_append, hnil, List.append_nil]

theorem uhciStop_packets (id : ℕ) : Ensures (uhciStop id) s fun _ t =>
    t.hw = s.hw ∧ t.time = s.time + 1 ∧ t.packets id = s.packets id := by
  refine ensures_bind (usbOut_packets id (by simp [UsbEvent.ofControl])) ?_
  rintro - u ⟨hhw, htime, hpackets⟩
  refine ensures_modifyGet_bind (ensures_ite (fun _ => ?_) fun _ => ?_)
  · exact ensures_bind (Q := fun _ _ => True) (fun _ _ _ => trivial) fun _ _ _ => ensures_none
  · refine ensures_pure ⟨hhw, ?_, hpackets⟩
    show u.time + 1 = s.time + 1
    rw [htime]

/-- **One packet** is one descriptor; its result is what the status word says. -/
theorem controlPacket_spec (id : ℕ) (p : ControlPacket) (address low : ℕ) (hp : p.time = s.time) :
    Ensures (controlPacket id p.pid address low p.toggle p.length) s fun r t => t.hw = s.hw ∧
      t.packets id = s.packets id ++ [.controlTd id p.pid address low p.toggle p.length] ∧
      r = p.actual s.hw id ∧ (0 ≤ r → t.time = p.time + 4) := by
  refine ensures_bind (uhciStop_packets id) ?_
  rintro - u₁ ⟨hhw₁, htime₁, hpackets₁⟩
  refine ensures_modify_bind (ensures_modifyGet_bind (ensures_bind (uhciStop_packets id) ?_))
  rintro - u₂ ⟨hhw₂, htime₂, hpackets₂⟩
  refine ensures_modifyGet_bind ?_
  dsimp only at hhw₂ htime₂ hpackets₂ ⊢
  -- what the three answers are
  have hword : u₁.answer (.controlTd id) = p.word s.hw id := by
    rw [Usb.answer, hhw₁, htime₁, ← hp]
    rfl
  have hstatus : u₂.answer (.status id) = s.hw (p.time + 3) (.status id) % 2 ^ 16 := by
    rw [Usb.answer, hhw₂, htime₂]
    show u₁.hw (u₁.time + 1 + 1) _ % _ = _
    rw [hhw₁, htime₁, ← hp]
    rfl
  have hlog : u₂.packets id =
      s.packets id ++ [.controlTd id p.pid address low p.toggle p.length] := by
    rw [hpackets₂]
    show (u₁.log ++ _).filter (·.ofControl id) = _
    rw [List.filter_append]
    show u₁.packets id ++ _ = _
    rw [hpackets₁]
    simp [UsbEvent.ofControl]
  have hhw : u₂.hw = s.hw := hhw₂.trans hhw₁
  refine ensures_ite (fun hfail => ?_) fun hok => ?_
  · -- the controller reports an error
    rw [hstatus] at hfail
    refine ensures_modify_bind (ensures_bind (ensures_modifyGet_bind (usbOut_packets id ?_)) ?_)
    · simp [UsbEvent.ofControl]
    rintro - u₃ ⟨hhw₃, -, hpackets₃⟩
    refine ensures_bind (usbOut_packets id (by simp [UsbEvent.ofControl])) ?_
    rintro - u₄ ⟨hhw₄, -, hpackets₄⟩
    refine ensures_pure ⟨hhw₄.trans (hhw₃.trans hhw), ?_, ?_, fun hneg => absurd hneg (by decide)⟩
    · exact hpackets₄.trans (hpackets₃.trans hlog)
    · rw [ControlPacket.actual, if_pos hfail]
  · rw [hstatus] at hok
    refine ensures_bind (usbOut_packets id (by simp [UsbEvent.ofControl])) ?_
    rintro - u₃ ⟨hhw₃, htime₃, hpackets₃⟩
    refine ensures_pure ⟨hhw₃.trans hhw, hpackets₃.trans hlog, ?_, fun _ => ?_⟩
    · rw [ControlPacket.actual, if_neg hok, ← hword]
      rfl
    · rw [htime₃]
      show u₂.time + 1 = p.time + 4
      rw [htime₂]
      show u₁.time + 1 + 1 + 1 = p.time + 4
      rw [htime₁, hp]

end Packet

/-! ### The data stage -/

section Data

variable (hw : ℕ → UsbReg → ℕ) (id start packet length : ℕ) (isIn : Bool)

/-- `p` is the data packet number `k` of a stage that begins at the time `start`. -/
structure DataPacket (data : ℕ → ℕ) (k : ℕ) (p : ControlPacket) : Prop where
  time : p.time = start + 4 * k
  more : k * packet < length
  direction : p.pid = if isIn then 0x69 else 0xE1
  alternates : p.toggle = (k + 1) % 2
  size : p.length = min (length - k * packet) packet
  bytes : p.payload = if isIn then [] else
    (List.range p.length).map fun i => data (k * packet + i)

/-- The caller's buffer after the IN packet number `k`. -/
def arrive (k : ℕ) (p : ControlPacket) (data : ℕ → ℕ) (i : ℕ) : ℕ :=
  if isIn = true ∧ k * packet ≤ i ∧ i < k * packet + (p.actual hw id).toNat then
    p.byte hw id (i - k * packet)
  else data i

/-- A data stage from the packet number `k` on: its packets, the bytes moved by the whole
stage, or `none` after a failure, and the caller's buffer. -/
inductive DataStage : ℕ → (ℕ → ℕ) → List ControlPacket → Option ℕ → (ℕ → ℕ) → Prop
  | done {k : ℕ} {data : ℕ → ℕ} : length ≤ k * packet → DataStage k data [] (some length) data
  | failed {k : ℕ} {data : ℕ → ℕ} {p : ControlPacket} : DataPacket start packet length isIn data k p →
      p.actual hw id < 0 → DataStage k data [p] none data
  | short {k : ℕ} {data : ℕ → ℕ} {p : ControlPacket} : DataPacket start packet length isIn data k p →
      0 ≤ p.actual hw id → p.actual hw id < p.length →
      DataStage k data [p] (if isIn then some (k * packet + (p.actual hw id).toNat) else none)
        (arrive hw id packet isIn k p data)
  | full {k : ℕ} {data data' : ℕ → ℕ} {p : ControlPacket} {ps : List ControlPacket}
      {r : Option ℕ} : DataPacket start packet length isIn data k p → p.actual hw id = p.length →
      DataStage (k + 1) (arrive hw id packet isIn k p data) ps r data' →
      DataStage k data (p :: ps) r data'

end Data

section DataSpec

variable {hw : ℕ → UsbReg → ℕ} {id start packet length : ℕ} {isIn : Bool}

theorem toggle_flip (k : ℕ) : (k + 1) % 2 ^^^ 1 = (k + 1 + 1) % 2 := by
  rcases Nat.mod_two_eq_zero_or_one k with h | h
  · rw [show (k + 1) % 2 = 1 by omega, show (k + 1 + 1) % 2 = 0 by omega]
    rfl
  · rw [show (k + 1) % 2 = 0 by omega, show (k + 1 + 1) % 2 = 1 by omega]
    rfl

/-- **The loop of the data stage** from the packet number `k` on. -/
theorem controlData_spec (id start packet length : ℕ) (isIn : Bool) (address low : ℕ)
    (hpacket : 0 < packet) (fuel : ℕ) :
    ∀ (k : ℕ) (data : ℕ → ℕ) (s : Usb), s.time = start + 4 * k →
      length - min length (k * packet) ≤ fuel →
      Ensures (controlData id address low packet length isIn fuel (min length (k * packet))
          ((k + 1) % 2) data) s fun r t => t.hw = s.hw ∧ ∃ ps,
        DataStage s.hw id start packet length isIn k data ps r.1 r.2 ∧
        t.packets id = (s.packets id ++ ps.flatMap fun p => p.events id address low) ∧
        (r.1.isSome → t.time = start + 4 * (k + ps.length)) := by
  induction fuel with
  | zero =>
    intro k data s hstart hfuel
    have hdone : length ≤ k * packet := by
      have hle := Nat.min_le_right length (k * packet)
      omega
    refine ensures_pure ⟨rfl, [], ?_, (List.append_nil _).symm, fun _ => hstart⟩
    rw [Nat.min_eq_left hdone]
    exact DataStage.done hdone
  | succ fuel ih =>
    intro k data s hstart hfuel
    rw [controlData]
    by_cases hdone : length ≤ k * packet
    · rw [Nat.min_eq_left hdone, if_pos (Nat.le_refl length)]
      exact ensures_pure ⟨rfl, [], DataStage.done hdone, (List.append_nil _).symm,
        fun _ => hstart⟩
    have hmore : k * packet < length := Nat.not_le.mp hdone
    rw [Nat.min_eq_right hmore.le] at hfuel ⊢
    rw [if_neg hdone]
    -- the packet that is sent
    set p : ControlPacket := ⟨if isIn then 0x69 else 0xE1, (k + 1) % 2,
      min (length - k * packet) packet, if isIn then [] else
        (List.range (min (length - k * packet) packet)).map fun i => data (k * packet + i),
      s.time⟩ with hp
    have hpack : DataPacket start packet length isIn data k p := ⟨hstart, hmore, rfl, rfl, rfl, rfl⟩
    have hpos : 0 < p.length := by
      show 0 < min (length - k * packet) packet
      omega
    refine ensures_modify_bind ?_
    set u : Usb := { s with log := s.log ++ if isIn = true then [] else
      [.controlData id ((List.range (min (length - k * packet) packet)).map
        fun i => data (k * packet + i))] } with hu
    have hbefore : u.packets id =
        s.packets id ++ if p.payload = [] then [] else [.controlData id p.payload] := by
      show (s.log ++ _).filter (·.ofControl id) = _
      rw [List.filter_append]
      show s.packets id ++ _ = _
      congr 1
      cases isIn with
      | true => rfl
      | false =>
        have hne : p.payload ≠ [] := by
          intro hnil
          have hlen : (List.range p.length).length = 0 := by
            rw [List.map_eq_nil_iff.mp hnil]
            rfl
          rw [List.length_range] at hlen
          omega
        rw [if_neg hne]
        simp [UsbEvent.ofControl, hp]
    refine ensures_bind (controlPacket_spec id p address low (s := u) rfl) ?_
    rintro actual u₁ ⟨hhw, hpackets, hactual, htime⟩
    have hhw' : u₁.hw = s.hw := hhw
    have hevents : u₁.packets id = s.packets id ++ p.events id address low := by
      rw [hpackets, hbefore, List.append_assoc]
      rfl
    refine ensures_ite (fun hneg => ?_) fun hneg => ?_
    · rw [hactual] at hneg
      refine ensures_pure ⟨hhw, [p], DataStage.failed hpack hneg, ?_, fun h => Bool.noConfusion h⟩
      rw [hevents]
      simp
    · have hnonneg : 0 ≤ p.actual s.hw id := by
        rw [hactual] at hneg
        exact Int.not_lt.mp hneg
      have hle := actual_le s.hw id p
      have hlen : p.length = min (length - k * packet) packet := rfl
      have hactual' : actual = p.actual s.hw id := hactual
      have htime' : u₁.time = s.time + 4 := htime (Int.not_lt.mp hneg)
      have harrive : (if isIn = true then fun i =>
            if k * packet ≤ i ∧ i < k * packet + actual.toNat then
              u₁.answer (.controlData id (i - k * packet)) else data i else data) =
          arrive s.hw id packet isIn k p data := by
        funext i
        rw [arrive, ← hactual', ControlPacket.byte]
        cases isIn with
        | false => rfl
        | true =>
          show (if _ then _ else data i) = _
          rw [Usb.answer, hhw', htime']
          simp only [true_and]
          rfl
      refine ensures_get_bind ?_
      dsimp only
      rw [harrive, hactual']
      refine ensures_ite (fun hshort => ?_) fun hfull => ?_
      · refine ensures_pure ⟨hhw, [p], DataStage.short hpack hnonneg (by omega), ?_, fun _ => ?_⟩
        swap
        · show u₁.time = start + 4 * (k + 1)
          omega
        rw [hevents]
        simp
      · have hall : p.actual s.hw id = p.length := by omega
        have hnext : k * packet + (p.actual s.hw id).toNat = min length ((k + 1) * packet) := by
          rw [hall, hlen, Nat.succ_mul]
          omega
        rw [hnext, toggle_flip]
        refine (ih (k + 1) (arrive s.hw id packet isIn k p data) u₁ (by omega) (by omega)).mono ?_
        rintro r t ⟨hhw₂, ps, hstage, hpackets₂, htime₂⟩
        rw [hhw'] at hstage
        refine ⟨hhw₂.trans hhw', p :: ps, DataStage.full hpack hall hstage, ?_, fun h => ?_⟩
        · rw [hpackets₂, hevents, List.flatMap_cons, List.append_assoc]
        · rw [htime₂ h, List.length_cons, Nat.add_assoc, Nat.add_comm 1]

/-! What a data stage amounts to. -/

namespace DataStage

variable {k n : ℕ} {data data' : ℕ → ℕ} {ps : List ControlPacket} {r : Option ℕ}

theorem packet_arrive {j : ℕ} {p q : ControlPacket}
    (h : DataPacket start packet length isIn (arrive hw id packet isIn k p data) j q) :
    DataPacket start packet length isIn data j q := by
  refine ⟨h.time, h.more, h.direction, h.alternates, h.size, ?_⟩
  cases isIn with
  | true => exact h.bytes
  | false => exact h.bytes

/-- The packets, by number. -/
theorem packets (h : DataStage hw id start packet length isIn k data ps r data') :
    ∀ j (hj : j < ps.length), DataPacket start packet length isIn data (k + j) ps[j] := by
  induction h with
  | done _ => exact fun j hj => absurd hj (Nat.not_lt_zero j)
  | failed hp _ =>
    intro j hj
    have h0 : j = 0 := Nat.lt_one_iff.mp hj
    subst h0
    exact hp
  | short hp _ _ =>
    intro j hj
    have h0 : j = 0 := Nat.lt_one_iff.mp hj
    subst h0
    exact hp
  | @full k data data' p ps r hp _ _ ih =>
    intro j hj
    cases j with
    | zero => exact hp
    | succ j =>
      have hnext := packet_arrive (ih j (Nat.lt_of_succ_lt_succ hj))
      rw [show k + (j + 1) = k + 1 + j by omega]
      exact hnext

/-- All packets but the last one are full. -/
theorem full_packets (h : DataStage hw id start packet length isIn k data ps r data') :
    ∀ j (hj : j + 1 < ps.length), ps[j].actual hw id = packet := by
  induction h with
  | done _ => exact fun j hj => absurd hj (Nat.not_lt_zero _)
  | failed _ _ => exact fun j hj => absurd (Nat.lt_of_succ_lt_succ hj) (Nat.not_lt_zero j)
  | short _ _ _ => exact fun j hj => absurd (Nat.lt_of_succ_lt_succ hj) (Nat.not_lt_zero j)
  | @full k data data' p ps r hp hall hrest ih =>
    intro j hj
    cases j with
    | zero =>
      have hmore := (hrest.packets 0 (Nat.lt_of_succ_lt_succ hj)).more
      rw [Nat.add_zero, Nat.succ_mul] at hmore
      have hsize := hp.size
      show p.actual hw id = packet
      omega
    | succ j => exact ih j (Nat.lt_of_succ_lt_succ hj)

/-- A failed packet fails the stage. -/
theorem fails (h : DataStage hw id start packet length isIn k data ps r data') {p : ControlPacket}
    (hmem : p ∈ ps) (hneg : p.actual hw id < 0) : r = none := by
  induction h with
  | done _ => exact absurd hmem List.not_mem_nil
  | failed _ _ => rfl
  | short _ hnonneg _ =>
    rw [List.mem_singleton.mp hmem] at hneg
    exact absurd hneg (Int.not_lt.mpr hnonneg)
  | full _ hall _ ih =>
    rcases List.mem_cons.mp hmem with rfl | hmem
    · omega
    · exact ih hmem

/-- The stage goes on until all bytes have been moved or a packet is not full. -/
theorem ends (h : DataStage hw id start packet length isIn k data ps r data') :
    length ≤ (k + ps.length) * packet ∨ ∃ p ∈ ps.getLast?, p.actual hw id < p.length := by
  induction h with
  | done hdone => exact Or.inl hdone
  | @failed k data p hp hneg => exact Or.inr ⟨p, rfl, by omega⟩
  | @short k data p hp _ hshort => exact Or.inr ⟨p, rfl, hshort⟩
  | @full k data data' p ps r hp _ hrest ih =>
    rcases ih with hdone | ⟨q, hq, hshort⟩
    · refine Or.inl ?_
      rw [List.length_cons, Nat.add_comm ps.length, ← Nat.add_assoc]
      exact hdone
    · refine Or.inr ⟨q, ?_, hshort⟩
      cases ps with
      | nil => cases hq
      | cons a as => exact hq

/-- The stage succeeds when no packet fails and every packet sent is taken whole. -/
theorem isSome_iff (h : DataStage hw id start packet length isIn k data ps r data') :
    r.isSome ↔ ∀ p ∈ ps, 0 ≤ p.actual hw id ∧ (isIn = false → p.actual hw id = p.length) := by
  induction h with
  | done _ => simp
  | @failed k data p _ hneg =>
    refine ⟨fun h => Bool.noConfusion h, fun h => ?_⟩
    have hp := (h p (List.mem_singleton_self p)).1
    omega
  | @short k data p _ hnonneg hshort =>
    cases isIn with
    | true => simpa using hnonneg
    | false =>
      refine ⟨fun h => Bool.noConfusion h, fun h => ?_⟩
      have hp := (h p (List.mem_singleton_self p)).2 rfl
      omega
  | @full k data data' p ps r _ hall _ ih =>
    rw [ih, List.forall_mem_cons]
    exact ⟨fun h => ⟨⟨by omega, fun _ => hall⟩, h⟩, fun h => h.2⟩

/-- The buffer outside the part that is still to be filled. -/
theorem frame (h : DataStage hw id start packet length isIn k data ps r data') :
    ∀ i, i < k * packet ∨ length ≤ i → data' i = data i := by
  have hstep : ∀ {k : ℕ} {data : ℕ → ℕ} {p : ControlPacket},
      DataPacket start packet length isIn data k p → ∀ i, i < k * packet ∨ length ≤ i →
        arrive hw id packet isIn k p data i = data i := by
    intro k data p hp i hi
    have hle := actual_le hw id p
    have hsize := hp.size
    have hmore := hp.more
    rw [arrive, if_neg]
    rintro ⟨-, hlow, hhigh⟩
    omega
  induction h with
  | done _ => exact fun i _ => rfl
  | failed _ _ => exact fun i _ => rfl
  | short hp _ _ => exact hstep hp
  | full hp _ _ ih =>
    intro i hi
    rw [ih i (by rw [Nat.succ_mul]; omega)]
    exact hstep hp i hi

theorem frame_out (h : DataStage hw id start packet length false k data ps r data') : data' = data := by
  generalize hb : false = isIn at h
  induction h with
  | done _ => rfl
  | failed _ _ => rfl
  | short _ _ _ =>
    subst hb
    rfl
  | full _ _ _ ih =>
    subst hb
    exact ih

/-- The bytes moved. -/
theorem count (h : DataStage hw id start packet length isIn k data ps r data') (hr : r = some n) :
    n = min length (k * packet) + (ps.map fun p => (p.actual hw id).toNat).sum ∧ n ≤ length ∧
      (isIn = false → n = length) ∧
      (n < length → ∃ p, ps.getLast? = some p ∧ p.actual hw id < p.length) := by
  induction h with
  | done hdone =>
    cases hr
    rw [Nat.min_eq_left hdone]
    exact ⟨rfl, Nat.le_refl _, fun _ => rfl, fun h => absurd h (Nat.lt_irrefl _)⟩
  | failed _ _ => cases hr
  | @short k data p hp hnonneg hshort =>
    cases isIn with
    | false => cases hr
    | true =>
      have hmore := hp.more
      have hsize := hp.size
      cases hr
      refine ⟨?_, by omega, fun h => Bool.noConfusion h, fun _ => ⟨p, rfl, hshort⟩⟩
      rw [Nat.min_eq_right hmore.le]
      rfl
  | @full k data data' p ps r hp hall hrest ih =>
    obtain ⟨hcount, hle, hout, hlast⟩ := ih hr
    have hmore := hp.more
    have hsize := hp.size
    refine ⟨?_, hle, hout, fun hlt => ?_⟩
    · rw [hcount, List.map_cons, List.sum_cons, hall, hsize, Nat.succ_mul]
      omega
    · obtain ⟨q, hq, hshort⟩ := hlast hlt
      refine ⟨q, ?_, hshort⟩
      cases ps with
      | nil => cases hq
      | cons a as => exact hq

/-- The part of the buffer that a packet fills. -/
theorem arrive_received {f : ℕ → ℕ} {p : ControlPacket}
    (hf : ∀ i, k * packet ≤ i → i < k * packet + (p.actual hw id).toNat →
      f i = arrive hw id packet true k p data i) :
    (List.range' (k * packet) (p.actual hw id).toNat).map f = p.received hw id := by
  rw [ControlPacket.received, List.range'_eq_map_range, List.map_map]
  refine List.map_congr_left fun i hi => ?_
  have hlt := List.mem_range.mp hi
  show f (k * packet + i) = p.byte hw id i
  rw [hf _ (Nat.le_add_right _ _) (by omega), arrive, if_pos ⟨rfl, by omega, by omega⟩,
    Nat.add_sub_cancel_left]

/-- The bytes received. -/
theorem concat (h : DataStage hw id start packet length true k data ps r data') (hr : r = some n) :
    (List.range' (min length (k * packet)) (n - min length (k * packet))).map data' =
      ps.flatMap fun p => p.received hw id := by
  generalize hb : true = isIn at h
  induction h with
  | done hdone =>
    cases hr
    rw [Nat.min_eq_left hdone, Nat.sub_self]
    rfl
  | failed _ _ => cases hr
  | short hp hnonneg hshort =>
    subst hb
    cases hr
    have hmore := hp.more
    rw [Nat.min_eq_right hmore.le, Nat.add_sub_cancel_left, List.flatMap_cons, List.flatMap_nil,
      List.append_nil]
    exact arrive_received fun i _ _ => rfl
  | @full k data data' p ps r hp hall hrest ih =>
    subst hb
    have hmore := hp.more
    have hsize := hp.size
    have hle := (hrest.count hr).1
    have hbase : min length ((k + 1) * packet) = k * packet + (p.actual hw id).toNat := by
      rw [hall, Nat.succ_mul]
      omega
    have htail := ih hr
    rw [hbase] at htail hle
    have hsplit : n - k * packet = (p.actual hw id).toNat +
        (n - (k * packet + (p.actual hw id).toNat)) := by omega
    rw [Nat.min_eq_right hmore.le, hsplit, ← List.range'_append_1, List.map_append, htail,
      List.flatMap_cons]
    congr 1
    -- the later packets leave this part alone
    refine arrive_received fun i _ hi => hrest.frame i (Or.inl ?_)
    rw [Nat.succ_mul]
    omega

end DataStage

end DataSpec

/-! ### The transfer -/

/-- `p` is the SETUP packet of a transfer that begins at the time `start`. -/
structure SetupPacket (start : ℕ) (setup : ℕ → ℕ) (p : ControlPacket) : Prop where
  time : p.time = start
  pid : p.pid = 0x2D
  toggle : p.toggle = 0
  size : p.length = 8
  bytes : p.payload = (List.range 8).map setup

/-- `p` is the STATUS packet behind `n` data packets. -/
structure StatusPacket (start length : ℕ) (isIn : Bool) (n : ℕ) (p : ControlPacket) : Prop where
  time : p.time = start + 4 * (n + 1)
  pid : p.pid = if length ≠ 0 ∧ isIn then 0xE1 else 0x69
  toggle : p.toggle = 1
  size : p.length = 0
  bytes : p.payload = []

/-- The packets of a transfer of `length` bytes that begins at the time `start`.

SETUP is sent in any case.  If the device takes it, data packets follow until all bytes have
been moved or one is not full; if none of them fails, STATUS follows. -/
structure ControlPackets (hw : ℕ → UsbReg → ℕ) (id start packet length : ℕ) (isIn : Bool)
    (setup data : ℕ → ℕ) (p₀ : ControlPacket) (datas : List ControlPacket)
    (status : Option ControlPacket) : Prop where
  setupPacket : SetupPacket start setup p₀
  dataPackets : ∀ k (hk : k < datas.length),
    DataPacket (start + 4) packet length isIn data k datas[k]
  fullPackets : ∀ k (hk : k + 1 < datas.length), datas[k].actual hw id = packet
  statusPacket : ∀ p ∈ status, StatusPacket start length isIn datas.length p
  dataRefused : p₀.actual hw id ≠ 8 → datas = []
  dataSent : p₀.actual hw id = 8 →
    length ≤ datas.length * packet ∨ ∃ p ∈ datas.getLast?, p.actual hw id < p.length
  statusSent : status.isSome ↔ p₀.actual hw id = 8 ∧
    ∀ p ∈ datas, 0 ≤ p.actual hw id ∧ (isIn = false → p.actual hw id = p.length)

/-- A control transfer: its packets, the result `r` and the caller's buffer `data'`.  It
succeeds if STATUS is sent and the device takes it. -/
structure ControlTransfer (hw : ℕ → UsbReg → ℕ) (id start packet length : ℕ) (isIn : Bool)
    (setup data : ℕ → ℕ) (p₀ : ControlPacket) (datas : List ControlPacket)
    (status : Option ControlPacket) (r : ℤ) (data' : ℕ → ℕ) : Prop
    extends ControlPackets hw id start packet length isIn setup data p₀ datas status where
  accepted : (∃ p ∈ status, p.actual hw id = 0) → 0 ≤ r
  failure : (∃ p ∈ p₀ :: (datas ++ status.toList), p.actual hw id < 0) → r = -1
  result : r = -1 ∨ 0 ≤ r
  success : 0 ≤ r → p₀.actual hw id = 8 ∧ (∃ p ∈ status, p.actual hw id = 0) ∧
    r.toNat = (datas.map fun p => (p.actual hw id).toNat).sum ∧ r ≤ length
  receives : 0 ≤ r → isIn = true →
    (List.range r.toNat).map data' = datas.flatMap (fun p => p.received hw id) ∧
      (r < length → ∃ p ∈ datas.getLast?, p.actual hw id < p.length)
  sends : 0 ≤ r → isIn = false → r = length
  outside : ∀ i, length ≤ i → data' i = data i
  unchanged : isIn = false → data' = data

/-- The bytes of the data stage, and its direction. -/
def setupLength (setup : ℕ → ℕ) : ℕ := setup 6 ||| setup 7 <<< 8

def setupIn (setup : ℕ → ℕ) : Bool := setup 0 &&& 0x80 ≠ 0

section Transfer

variable {id : ℕ} {s : Usb}

/-- A transfer that fails. -/
theorem ControlPackets.fail {hw : ℕ → UsbReg → ℕ} {start packet length : ℕ} {isIn : Bool}
    {setup data data' : ℕ → ℕ} {p₀ : ControlPacket} {datas : List ControlPacket}
    {status : Option ControlPacket}
    (H : ControlPackets hw id start packet length isIn setup data p₀ datas status)
    (hno : ∀ p ∈ status, p.actual hw id ≠ 0)
    (hframe : ∀ i, length ≤ i → data' i = data i) (hout : isIn = false → data' = data) :
    ControlTransfer hw id start packet length isIn setup data p₀ datas status (-1) data' := by
  have hneg : ¬ (0 : ℤ) ≤ -1 := by decide
  exact ⟨H, fun ⟨p, hp, h⟩ => absurd h (hno p hp), fun _ => rfl, Or.inl rfl,
    fun h => absurd h hneg, fun h => absurd h hneg, fun h => absurd h hneg, hframe, hout⟩

/-- **The three stages.** -/
theorem controlStages_spec (address low packet : ℕ) (hpacket : 0 < packet) (setup data : ℕ → ℕ) :
    Ensures (controlStages id address low packet setup data) s fun x t =>
      t.hw = s.hw ∧ ∃ p₀ datas status,
        ControlTransfer s.hw id s.time packet (setupLength setup) (setupIn setup) setup data p₀
          datas status x.1 x.2 ∧
        t.packets id = s.packets id ++ [.controlTd id p₀.pid address low p₀.toggle p₀.length] ++
          (datas ++ status.toList).flatMap fun p => p.events id address low := by
  set p₀ : ControlPacket := ⟨0x2D, 0, 8, (List.range 8).map setup, s.time⟩ with hp₀
  have hsetup : SetupPacket s.time setup p₀ := ⟨rfl, rfl, rfl, rfl, rfl⟩
  refine ensures_bind (controlPacket_spec id p₀ address low rfl) ?_
  rintro actual u ⟨hhw, hpackets, rfl, htime⟩
  refine ensures_ite (fun hbad => ?_) fun hgood => ?_
  · -- no setup, no data
    have H : ControlPackets s.hw id s.time packet (setupLength setup) (setupIn setup) setup data p₀ []
        none :=
      ⟨hsetup, fun k hk => absurd hk (Nat.not_lt_zero k), fun k hk => absurd hk (Nat.not_lt_zero _),
        fun p hp => absurd hp (Option.not_mem_none p), fun _ => rfl, fun h => absurd h hbad,
        fun h => Bool.noConfusion h, fun h => absurd h.1 hbad⟩
    refine ensures_pure ⟨hhw, p₀, [], none, H.fail (fun p hp => absurd hp (Option.not_mem_none p))
      (fun _ _ => rfl) fun _ => rfl, ?_⟩
    exact hpackets.trans (List.append_nil _).symm
  have hgood' : p₀.actual s.hw id = 8 := Decidable.not_not.mp hgood
  have htime' : u.time = s.time + 4 := htime (by rw [hgood']; decide)
  have hspec := controlData_spec id (s.time + 4) packet (setupLength setup) (setupIn setup) address
    low hpacket (setupLength setup) 0 data u htime' (Nat.sub_le _ _)
  rw [Nat.zero_mul, Nat.min_zero] at hspec
  refine ensures_bind hspec ?_
  rintro ⟨r, data'⟩ u₁ ⟨hhw₁, ps, hstage, hpackets₁, htime₁⟩
  rw [hhw] at hstage
  have hdata : ∀ k (hk : k < ps.length),
      DataPacket (s.time + 4) packet (setupLength setup) (setupIn setup) data k ps[k] := by
    intro k hk
    have h := hstage.packets k hk
    rw [Nat.zero_add] at h
    exact h
  have hends := hstage.ends
  rw [Nat.zero_add] at hends
  have hframe : ∀ i, setupLength setup ≤ i → data' i = data i :=
    fun i hi => hstage.frame i (Or.inr hi)
  have hout : setupIn setup = false → data' = data := by
    intro hin
    rw [hin] at hstage
    exact hstage.frame_out
  have hlog : u₁.packets id = s.packets id ++
      [.controlTd id p₀.pid address low p₀.toggle p₀.length] ++
      ps.flatMap fun p => p.events id address low := by
    rw [hpackets₁, hpackets]
  cases r with
  | none =>
    -- no STATUS after a failed packet
    have H : ControlPackets s.hw id s.time packet (setupLength setup) (setupIn setup) setup data p₀ ps
        none :=
      ⟨hsetup, hdata, hstage.full_packets, fun p hp => absurd hp (Option.not_mem_none p),
        fun h => absurd hgood' h, fun _ => hends, fun h => Bool.noConfusion h,
        fun h => hstage.isSome_iff.mpr h.2⟩
    refine ensures_pure ⟨hhw₁.trans hhw, p₀, ps, none,
      H.fail (fun p hp => absurd hp (Option.not_mem_none p)) hframe hout, ?_⟩
    rw [hlog]
    show _ = _ ++ (ps ++ []).flatMap _
    rw [List.append_nil]
  | some n =>
    set q : ControlPacket := ⟨if setupLength setup ≠ 0 ∧ setupIn setup then 0xE1 else 0x69, 1, 0, [],
      u₁.time⟩ with hq
    have hqtime : u₁.time = s.time + 4 * (ps.length + 1) := by
      rw [htime₁ rfl]
      omega
    have H : ControlPackets s.hw id s.time packet (setupLength setup) (setupIn setup) setup data p₀ ps
        (some q) := by
      refine ⟨hsetup, hdata, hstage.full_packets, fun p hp => ?_, fun h => absurd hgood' h,
        fun _ => hends, fun _ => ⟨hgood', hstage.isSome_iff.mp rfl⟩, fun _ => rfl⟩
      rw [← Option.mem_some.mp hp]
      exact ⟨hqtime, rfl, rfl, rfl, rfl⟩
    refine ensures_bind (controlPacket_spec id q address low rfl) ?_
    rintro actual u₂ ⟨hhw₂, hpackets₂, rfl, -⟩
    have hhw' : u₁.hw = s.hw := hhw₁.trans hhw
    have hlog₂ : u₂.packets id = s.packets id ++
        [.controlTd id p₀.pid address low p₀.toggle p₀.length] ++
        (ps ++ (some q).toList).flatMap fun p => p.events id address low := by
      rw [hpackets₂, hlog, List.flatMap_append, List.append_assoc]
      rfl
    rw [hhw']
    refine ensures_ite (fun hbad => ?_) fun hok => ?_
    · refine ensures_pure ⟨hhw₂.trans hhw', p₀, ps, some q, H.fail (fun p hp => ?_) hframe hout, hlog₂⟩
      rw [← Option.mem_some.mp hp]
      exact hbad
    · have hok' : q.actual s.hw id = 0 := Decidable.not_not.mp hok
      obtain ⟨hcount, hle, hsent, hlast⟩ := hstage.count rfl
      rw [Nat.zero_mul, Nat.min_zero, Nat.zero_add] at hcount
      refine ensures_pure ⟨hhw₂.trans hhw', p₀, ps, some q, ⟨H, fun _ => Int.natCast_nonneg n, ?_, ?_,
        ?_, ?_, ?_, hframe, hout⟩, hlog₂⟩
      · rintro ⟨p, hp, hneg⟩
        rcases List.mem_cons.mp hp with rfl | hp
        · omega
        · rcases List.mem_append.mp hp with hp | hp
          · have hnone := hstage.fails hp hneg
            cases hnone
          · rw [List.mem_singleton.mp hp] at hneg
            omega
      · exact Or.inr (Int.natCast_nonneg n)
      · refine fun _ => ⟨hgood', ⟨q, rfl, hok'⟩, hcount, ?_⟩
        exact Int.ofNat_le.mpr hle
      · intro _ hin
        rw [hin] at hstage
        have hconcat := hstage.concat rfl
        rw [Nat.zero_mul, Nat.min_zero, Nat.sub_zero, ← List.range_eq_range'] at hconcat
        refine ⟨hconcat, fun hlt => ?_⟩
        obtain ⟨p, hp, hshort⟩ := hlast (Int.ofNat_lt.mp hlt)
        exact ⟨p, hp, hshort⟩
      · intro _ hin
        exact congrArg Nat.cast (hsent hin)

/-- What `usb_uhci_control` accepts. -/
structure ControlAccepted (s : Usb) (id address low packet length : ℕ) : Prop where
  controller : id < uhciControllerCount
  address7 : address ≤ 127
  speed : low ≤ 1
  ready : (s.info id).status = uhciReady
  size : packet = 8 ∨ packet = 16 ∨ packet = 32 ∨ packet = 64
  slow : low ≠ 0 → packet = 8
  bytes : length ≤ usbConfigurationMaxBytes
  idle : (s.controllers id).active = false

theorem usbUhciControl_spec {address low packet : ℕ} {setup : ℕ → ℕ}
    (h : ControlAccepted s id address low packet (setupLength setup)) (data : ℕ → ℕ) :
    Ensures (usbUhciControl id address low packet setup data) s fun x t =>
      ∃ p₀ datas status,
        ControlTransfer s.hw id s.time packet (setupLength setup) (setupIn setup) setup data p₀
          datas status x.1 x.2 ∧
        t.packets id = s.packets id ++
          (p₀ :: (datas ++ status.toList)).flatMap fun p => p.events id address low := by
  have hpos : 0 < packet := by
    rcases h.size with h | h | h | h <;> omega
  refine ensures_get_bind (ensures_ite (fun hrej => ?_) fun _ => ?_)
  · -- accepted arguments are not refused
    exfalso
    have hsize := h.size
    rcases hrej with hr | hr | hr | hr | hr | hr | hr | hr
    · exact absurd h.controller (Nat.not_lt.mpr hr)
    · exact absurd h.address7 (Nat.not_le.mpr hr)
    · exact absurd h.speed (Nat.not_le.mpr hr)
    · exact hr h.ready
    · omega
    · exact hr.2 (h.slow hr.1)
    · exact absurd h.bytes (Nat.not_le.mpr hr)
    · exact Bool.false_ne_true (h.idle.symm.trans hr)
  · refine ensures_modify_bind ?_
    -- the interrupt is off and the eight bytes of the request are in memory
    set u : Usb := { s with log := s.log ++
      [.interruptEnable id 0, .controlData id ((List.range 8).map setup)] } with hu
    refine ensures_bind (controlStages_spec (s := u) address low packet hpos setup data) ?_
    rintro x v ⟨-, p₀, datas, status, H, hpackets⟩
    refine ensures_get_bind (ensures_bind (usbOut_packets id ?_) ?_)
    · intro e he
      split_ifs at he
      · rcases List.mem_pair.mp he with rfl | rfl
        · rfl
        · rfl
      · exact absurd he List.not_mem_nil
    rintro - w ⟨-, -, hpackets₂⟩
    refine ensures_pure ⟨p₀, datas, status, H, ?_⟩
    -- of these two writes only the second belongs to the packets
    have hu' : u.packets id = s.packets id ++ [.controlData id ((List.range 8).map setup)] := by
      show (s.log ++ _).filter (·.ofControl id) = _
      rw [List.filter_append]
      show s.packets id ++ _ = _
      congr 1
      simp [UsbEvent.ofControl]
    have hevents : p₀.events id address low = [.controlData id ((List.range 8).map setup),
        .controlTd id p₀.pid address low p₀.toggle p₀.length] := by
      rw [ControlPacket.events, H.setupPacket.bytes]
      rfl
    rw [hpackets₂, hpackets, hu', List.flatMap_cons, hevents]
    simp

/-! It returns if the controller halts when it is told to. -/

/-- `m` returns whenever controller `id` halts in time, and leaves the hardware as it is. -/
def ReturnsIf (id : ℕ) {α : Type} (m : UsbM α) : Prop :=
  ∀ s : Usb, (∀ n, s.hw n (.halted id) % 2 ≠ 0) → Runs m s fun _ t => t.hw = s.hw

section Returns

variable {α β : Type} {m : UsbM α}

theorem returns_bind {f : α → UsbM β} (hm : ReturnsIf id m) (hf : ∀ a, ReturnsIf id (f a)) :
    ReturnsIf id (m >>= f) := by
  intro s hs
  refine runs_bind (hm s hs) fun a t ht => ?_
  have hs' : ∀ n, t.hw n (.halted id) % 2 ≠ 0 := by
    rw [ht]
    exact hs
  exact (hf a t hs').mono fun _ u hu => hu.trans ht

theorem returns_pure (a : α) : ReturnsIf id (pure a : UsbM α) := fun _ _ => runs_pure rfl

theorem returns_modifyGet {g : Usb → α × Usb} (h : ∀ s, (g s).2.hw = s.hw) :
    ReturnsIf id (modifyGet g : UsbM α) := fun s _ => runs_modifyGet (h s)

theorem returns_modify {g : Usb → Usb} (h : ∀ s, (g s).hw = s.hw) :
    ReturnsIf id (modify g : UsbM Unit) := returns_modifyGet h

theorem returns_ite {c : Prop} [Decidable c] {m' : UsbM α} (h : ReturnsIf id m)
    (h' : ReturnsIf id m') : ReturnsIf id (if c then m else m') := by
  split
  · exact h
  · exact h'

theorem returns_uhciStop : ReturnsIf id (uhciStop id) := by
  refine returns_bind (returns_modify fun _ => rfl) fun _ s hs => ?_
  have hne : s.answer (.halted id) ≠ 0 := hs s.time
  refine runs_modifyGet_bind ?_
  dsimp only
  rw [if_neg hne]
  exact runs_pure rfl

theorem returns_controlPacket (pid address low toggle length : ℕ) :
    ReturnsIf id (controlPacket id pid address low toggle length) := by
  refine returns_bind returns_uhciStop fun _ => returns_bind (returns_modify fun _ => rfl) fun _ => ?_
  refine returns_bind (returns_modifyGet fun _ => rfl) fun _ => returns_bind returns_uhciStop fun _ => ?_
  refine returns_bind (returns_modifyGet fun _ => rfl) fun _ => returns_ite ?_ ?_
  · refine returns_bind (returns_modify fun _ => rfl) fun _ => returns_bind ?_ fun _ =>
      returns_bind (returns_modify fun _ => rfl) fun _ => returns_pure _
    exact returns_bind (returns_modifyGet fun _ => rfl) fun _ => returns_modify fun _ => rfl
  · exact returns_bind (returns_modify fun _ => rfl) fun _ => returns_pure _

theorem returns_controlData (address low packet length : ℕ) (isIn : Bool) (fuel : ℕ) :
    ∀ received toggle data, ReturnsIf id
      (controlData id address low packet length isIn fuel received toggle data) := by
  induction fuel with
  | zero => exact fun _ _ _ => returns_pure _
  | succ fuel ih =>
    intro received toggle data
    rw [controlData]
    refine returns_ite (returns_pure _) (returns_bind (returns_modify fun _ => rfl) fun _ => ?_)
    refine returns_bind (returns_controlPacket _ _ _ _ _) fun _ => returns_ite (returns_pure _) ?_
    refine returns_bind (returns_modifyGet (g := fun s => (s, s)) fun _ => rfl) fun _ => ?_
    exact returns_ite (returns_pure _) (ih _ _ _)

theorem returns_usbUhciControl (address low packet : ℕ) (setup data : ℕ → ℕ) :
    ReturnsIf id (usbUhciControl id address low packet setup data) := by
  refine returns_bind (returns_modifyGet (g := fun s => (s, s)) fun _ => rfl) fun _ => ?_
  refine returns_ite (returns_pure _) (returns_bind (returns_modify fun _ => rfl) fun _ => ?_)
  refine returns_bind ?_ fun _ => ?_
  · refine returns_bind (returns_controlPacket _ _ _ _ _) fun _ => returns_ite (returns_pure _) ?_
    refine returns_bind (returns_controlData _ _ _ _ _ _ _ _ _) fun x => ?_
    rcases x with ⟨_ | received, data⟩
    · exact returns_pure _
    · exact returns_bind (returns_controlPacket _ _ _ _ _) fun _ =>
        returns_ite (returns_pure _) (returns_pure _)
  · refine returns_bind (returns_modifyGet (g := fun s => (s, s)) fun _ => rfl) fun _ => ?_
    exact returns_bind (returns_modify fun _ => rfl) fun _ => returns_pure _

end Returns

/-- The tokens of a transfer. -/
theorem ControlTransfer.tokens {hw : ℕ → UsbReg → ℕ} {start packet length address : ℕ} {isIn : Bool}
    {setup data data' : ℕ → ℕ} {p₀ : ControlPacket} {datas : List ControlPacket}
    {status : Option ControlPacket} {r : ℤ}
    (H : ControlTransfer hw id start packet length isIn setup data p₀ datas status r data')
    (haddress : address ≤ 127) (hpacket : packet ≤ 64) :
    ∀ p ∈ p₀ :: (datas ++ status.toList), p.TokenOk address := by
  intro p hp
  rcases List.mem_cons.mp hp with rfl | hp
  · obtain ⟨-, hpid, htoggle, hlength, -⟩ := H.setupPacket
    exact tokenOk (Or.inr (Or.inr hpid)) haddress (by omega) (by omega)
  rcases List.mem_append.mp hp with hp | hp
  · obtain ⟨k, hk, rfl⟩ := List.getElem_of_mem hp
    have D := H.dataPackets k hk
    have hsize := D.size
    have htoggle := D.alternates
    refine tokenOk ?_ haddress (by omega) (by omega)
    rw [D.direction]
    cases isIn with
    | true => exact Or.inl rfl
    | false => exact Or.inr (Or.inl rfl)
  · obtain ⟨-, hpid, htoggle, hlength, -⟩ := H.statusPacket p (Option.mem_toList.mp hp)
    refine tokenOk ?_ haddress (by omega) (by omega)
    rw [hpid]
    split
    · exact Or.inr (Or.inl rfl)
    · exact Or.inl rfl

/-- **Control transfers are exact**, whatever the device does: the packets that are sent and
the result are those of a `ControlTransfer` that begins now, every token decodes back, and
the transfer ends if the controller halts. -/
theorem control_exact {address low packet : ℕ} {setup data : ℕ → ℕ}
    (h : ControlAccepted s id address low packet (setupLength setup)) :
    (∀ r data' t, (usbUhciControl id address low packet setup data).run s = some ((r, data'), t) →
      ∃ p₀ datas status,
        ControlTransfer s.hw id s.time packet (setupLength setup) (setupIn setup) setup data p₀
          datas status r data' ∧
        t.packets id = s.packets id ++
          (p₀ :: (datas ++ status.toList)).flatMap (fun p => p.events id address low) ∧
        ∀ p ∈ p₀ :: (datas ++ status.toList), p.TokenOk address) ∧
    ((∀ n, s.hw n (.halted id) % 2 ≠ 0) →
      ∃ x, (usbUhciControl id address low packet setup data).run s = some x) := by
  constructor
  · intro r data' t hrun
    obtain ⟨p₀, datas, status, H, hpackets⟩ := usbUhciControl_spec h data _ _ hrun
    have hsize := h.size
    exact ⟨p₀, datas, status, H, hpackets, H.tokens h.address7 (by omega)⟩
  · intro hhalts
    obtain ⟨x, t, hrun, -⟩ := returns_usbUhciControl address low packet setup data s hhalts
    exact ⟨(x, t), hrun⟩

end Transfer

/-- A controller whose device answers a request for eight bytes. -/
def answeringHost : Usb where
  __ := readyHost
  hw := fun time r => match r with
    | .controlTd _ => if time < 8 then 7 else 0x7FF
    | .controlData _ i => i + 1
    | r => readyHost.hw time r

/-- The request: the first eight bytes of the device descriptor. -/
def deviceRequest (i : ℕ) : ℕ := [0x80, 6, 0, 1, 0, 0, 8, 0].getD i 0

/-- The eight bytes arrive in one packet. -/
theorem control_exact_answeringHost : ∃ data' t p₀ p status,
    (usbUhciControl 0 0 0 8 deviceRequest fun _ => 0).run answeringHost = some ((8, data'), t) ∧
      ControlTransfer answeringHost.hw 0 0 8 8 true deviceRequest (fun _ => 0) p₀ [p] (some status)
        8 data' ∧ (List.range 8).map data' = [1, 2, 3, 4, 5, 6, 7, 8] := by
  have hrun : ((usbUhciControl 0 0 0 8 deviceRequest fun _ => 0).run answeringHost).map
      (fun x => (x.1.1, (List.range 8).map x.1.2)) = some (8, [1, 2, 3, 4, 5, 6, 7, 8]) := by
    decide +kernel
  obtain ⟨⟨⟨r, data'⟩, t⟩, hrun, hfacts⟩ := Option.map_eq_some_iff.mp hrun
  obtain ⟨rfl, hdata⟩ := Prod.mk.inj hfacts
  have haccepted : ControlAccepted answeringHost 0 0 0 8 (setupLength deviceRequest) :=
    ⟨by decide, by decide, by decide, rfl, Or.inl rfl, fun _ => rfl, by decide, rfl⟩
  obtain ⟨p₀, datas, status, H, -⟩ := (control_exact haccepted).1 _ _ _ hrun
  have hlength : setupLength deviceRequest = 8 := rfl
  have hin : setupIn deviceRequest = true := rfl
  rw [hlength, hin] at H
  obtain ⟨-, ⟨q, hq, -⟩, hsum, -⟩ := H.success (by decide)
  obtain ⟨p, rfl⟩ : ∃ p, datas = [p] := by
    cases datas with
    | nil => exact absurd hsum (by decide)
    | cons p ps =>
      cases ps with
      | nil => exact ⟨p, rfl⟩
      | cons p' ps =>
        have hmore := (H.dataPackets 1 (by simp)).more
        omega
  cases status with
  | none => exact absurd hq (Option.not_mem_none q)
  | some status => exact ⟨data', t, p₀, p, status, hrun, H, hdata⟩

end VirtualKernel
