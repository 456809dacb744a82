/-
The configuration parser of the mouse driver against its grammar.

A configuration is a header and a stream of descriptors, cut at the interface
descriptors.  `MouseGrammar` says which configurations are well formed, and
`firstMouse` names the first interrupt-IN endpoint of a boot-mouse interface.

* **`findInterfaceLoop_records`** — the loop is a fold over the descriptors of the
  stream; **`findInterfaceLoop_some`** — it fails on bytes that are not such a stream;
* **`fold_sections`** — the fold over the interfaces;
* **`find_interface_grammar`** — the parser accepts exactly the grammar.
-/
import VirtualKernel.UsbProbe
import VirtualKernel.Lib.Records

namespace VirtualKernel

open Lib

/-! ### The grammar -/

section Grammar

variable (data : ℕ → ℕ)

/-- An interface descriptor. -/
abbrev IsInterface (o : ℕ) : Prop := data (o + 1) = 4

/-- An endpoint descriptor. -/
abbrev IsEndpoint (o : ℕ) : Prop := data (o + 1) = 5

/-- Alternate setting 0 of a HID boot mouse. -/
abbrev IsBootMouse (i : ℕ) : Prop :=
  data (i + 3) = 0 ∧ data (i + 5) = 3 ∧ data (i + 6) = 1 ∧ data (i + 7) = 2

/-- An interrupt-IN endpoint. -/
abbrev IsInterruptIn (e : ℕ) : Prop :=
  IsEndpoint data e ∧ data (e + 2) &&& 0x80 ≠ 0 ∧ data (e + 3) &&& 3 = 3

/-- No device or configuration descriptor, and no short endpoint descriptor. -/
structure Plain (o : ℕ) : Prop where
  notDevice : data (o + 1) ≠ 1
  notConfiguration : data (o + 1) ≠ 2
  endpoint : IsEndpoint data o → 7 ≤ data o

/-- The limits on number, packet size and interval. -/
structure EndpointLimits (low e : ℕ) : Prop where
  number : data (e + 2) &&& 15 ≠ 0
  reserved : data (e + 2) &&& 0x70 = 0
  packetLow : 3 ≤ read16 data (e + 4)
  packetHigh : read16 data (e + 4) ≤ if low ≠ 0 then 8 else 64
  interval : data (e + 6) ≠ 0
  slow : low ≠ 0 → 10 ≤ data (e + 6)

/-- The number of endpoint descriptors. -/
def endpointCount (os : List ℕ) : ℕ := os.countP fun o => decide (IsEndpoint data o)

/-- The first interrupt-IN endpoint. -/
def firstInterruptIn (os : List ℕ) : Option ℕ := os.find? fun o => decide (IsInterruptIn data o)

/-- The first interrupt-IN endpoint of an interface, if that is a boot mouse. -/
def mouseEndpoint (s : ℕ × List ℕ) : Option (ℕ × ℕ) :=
  if IsBootMouse data s.1 then (firstInterruptIn data s.2).map fun e => (s.1, e) else none

/-- The first interrupt-IN endpoint of a boot-mouse interface, with its interface. -/
def firstMouse (secs : List (ℕ × List ℕ)) : Option (ℕ × ℕ) := secs.findSome? (mouseEndpoint data)

/-- The fields of an endpoint and its interface. -/
def mouseInterface (x : ℕ × ℕ) : UsbMouseInterface :=
  ⟨data 5, data (x.1 + 2), data (x.2 + 2) &&& 15, read16 data (x.2 + 4), data (x.2 + 6)⟩

/-- The descriptors after the header: `lead` up to the first interface, then the
interfaces. -/
structure MouseStream (low : ℕ) (lead : List ℕ) (secs : List (ℕ × List ℕ)) : Prop where
  leadPlain : ∀ o ∈ lead, Plain data o
  leadCount : endpointCount data lead = 0
  interfaces : ∀ s ∈ secs, 9 ≤ data s.1
  plain : ∀ s ∈ secs, ∀ o ∈ s.2, Plain data o
  counts : ∀ s ∈ secs, endpointCount data s.2 = data (s.1 + 4)
  limits : ∀ x, firstMouse data secs = some x → EndpointLimits data low x.2

/-- A configuration of `n` bytes. -/
structure MouseGrammar (n low : ℕ) (lead : List ℕ) (secs : List (ℕ × List ℕ)) : Prop where
  speed : low ≤ 1
  atLeast : 9 ≤ n
  atMost : n ≤ usbConfigurationMaxBytes
  headerLength : data 0 = 9
  headerType : data 1 = 2
  total : read16 data 2 = n
  value : data 5 ≠ 0
  descriptors : ∃ os, Records data 2 n 9 os ∧ Sections (IsInterface data) os lead secs
  stream : MouseStream data low lead secs

end Grammar

/-! ### The loop over the stream -/

section Loop

variable {data : ℕ → ℕ} {n low : ℕ}

/-- One turn of the loop, on the descriptor at `o`. -/
def searchStep (data : ℕ → ℕ) (low : ℕ) (st : InterfaceSearch) (o : ℕ) : Option InterfaceSearch :=
  let d := fun i => data (o + i)
  if d 1 = 4 then st.interface d
  else if d 1 = 5 then st.endpoint (data 5) low d
  else if d 1 = 2 ∨ d 1 = 1 then none
  else some st

/-- **The loop** on a stream of descriptors, with any fuel that suffices. -/
theorem findInterfaceLoop_records {o fuel : ℕ} {os : List ℕ} (h : Records data 2 n o os)
    (hfuel : n - o ≤ fuel) (st : InterfaceSearch) :
    findInterfaceLoop data n low fuel o st = os.foldlM (searchStep data low) st := by
  induction h generalizing fuel st with
  | nil =>
    cases fuel with
    | zero => rfl
    | succ fuel =>
      rw [findInterfaceLoop, if_pos (Nat.le_refl n)]
      rfl
  | @cons o os hlen hfit hrest ih =>
    cases fuel with
    | zero => omega
    | succ fuel =>
      have hle : ¬ n ≤ o := by omega
      have hsmall : ¬ n - o < 2 := by omega
      have hsize : ¬ (data o < 2 ∨ n - o < data o) := by omega
      rw [findInterfaceLoop, if_neg hle, if_neg hsmall]
      show (if data o < 2 ∨ n - o < data o then none else _) = _
      rw [if_neg hsize, List.foldlM_cons]
      show (searchStep data low st o).bind _ = (searchStep data low st o).bind _
      congr 1
      funext st'
      exact ih (by omega) st'

/-- The loop succeeds on streams of descriptors only. -/
theorem findInterfaceLoop_some {o fuel : ℕ} (ho : o ≤ n) (hfuel : n - o ≤ fuel)
    {st st' : InterfaceSearch} (h : findInterfaceLoop data n low fuel o st = some st') :
    ∃ os, Records data 2 n o os := by
  induction fuel generalizing o st with
  | zero =>
    have heq : n = o := by omega
    exact ⟨[], heq ▸ Records.nil⟩
  | succ fuel ih =>
    rw [findInterfaceLoop] at h
    by_cases hle : n ≤ o
    · have heq : n = o := by omega
      exact ⟨[], heq ▸ Records.nil⟩
    rw [if_neg hle] at h
    by_cases hsmall : n - o < 2
    · rw [if_pos hsmall] at h
      cases h
    rw [if_neg hsmall] at h
    by_cases hsize : data o < 2 ∨ n - o < data o
    · have hnone : (none : Option InterfaceSearch) = some st' := by
        rw [← h]
        exact (if_pos hsize).symm
      cases hnone
    have hbind : (searchStep data low st o).bind
        (findInterfaceLoop data n low fuel (o + data o)) = some st' := by
      rw [← h]
      exact (if_neg hsize).symm
    obtain ⟨mid, -, htail⟩ := Option.bind_eq_some_iff.mp hbind
    obtain ⟨os, hos⟩ := ih (by omega) (by omega) htail
    exact ⟨o :: os, Records.cons (by omega) (by omega) hos⟩

end Loop

/-! ### The fold over the interfaces -/

section Fold

variable {data : ℕ → ℕ} {low : ℕ}

/-- What the search has seen agrees with the interface it is in. -/
structure InterfaceSearch.Ok (st : InterfaceSearch) : Prop where
  count : st.endpoints ≤ st.expected
  outside : st.haveInterface = false → st.expected = 0

/-- The endpoint selected among `os` in the current interface. -/
def InterfaceSearch.select (data : ℕ → ℕ) (st : InterfaceSearch) (os : List ℕ) :
    Option UsbMouseInterface :=
  st.selected.or (if st.candidate then (firstInterruptIn data os).map fun e =>
    ⟨data 5, st.number, data (e + 2) &&& 15, read16 data (e + 4), data (e + 6)⟩ else none)

/-- The search after the descriptors `os` of one interface. -/
def InterfaceSearch.after (data : ℕ → ℕ) (st : InterfaceSearch) (os : List ℕ) : InterfaceSearch :=
  { st with endpoints := st.endpoints + endpointCount data os, selected := st.select data os }

/-- The descriptors `os` of one interface are accepted. -/
structure InterfaceSearch.Accepts (data : ℕ → ℕ) (low : ℕ) (st : InterfaceSearch) (os : List ℕ) :
    Prop where
  plain : ∀ o ∈ os, Plain data o
  count : st.endpoints + endpointCount data os ≤ st.expected
  limits : st.candidate = true → st.selected = none →
    ∀ e, firstInterruptIn data os = some e → EndpointLimits data low e

theorem endpointCount_cons (o : ℕ) (os : List ℕ) : endpointCount data (o :: os) =
    endpointCount data os + if IsEndpoint data o then 1 else 0 := by
  simp [endpointCount, List.countP_cons]

theorem firstInterruptIn_cons (o : ℕ) (os : List ℕ) : firstInterruptIn data (o :: os) =
    if IsInterruptIn data o then some o else firstInterruptIn data os := by
  by_cases h : IsInterruptIn data o
  · rw [if_pos h]
    exact List.find?_cons_of_pos (decide_eq_true h)
  · rw [if_neg h]
    exact List.find?_cons_of_neg (by simpa using h)

/-- The step on an endpoint descriptor. -/
theorem searchStep_endpoint {st : InterfaceSearch} (H : st.Ok) {o : ℕ} (ho : IsEndpoint data o)
    (st' : InterfaceSearch) : searchStep data low st o = some st' ↔
      st.Accepts data low [o] ∧ st' = st.after data [o] := by
  have hcount : endpointCount data [o] = 1 := by
    rw [endpointCount_cons, if_pos ho]
    rfl
  have hfirst : firstInterruptIn data [o] = if IsInterruptIn data o then some o else none :=
    firstInterruptIn_cons o []
  have hstep : searchStep data low st o = st.endpoint (data 5) low fun i => data (o + i) := by
    rw [searchStep, if_neg (by show data (o + 1) ≠ 4; rw [ho]; decide), if_pos ho]
  rw [hstep, InterfaceSearch.endpoint]
  by_cases hrej : data (o + 0) < 7 ∨ st.haveInterface = false ∨ st.expected < st.endpoints + 1
  · rw [if_pos hrej]
    constructor
    · intro h
      cases h
    · rintro ⟨hacc, -⟩
      have hc := hacc.count
      rw [hcount] at hc
      rcases hrej with hshort | hno | hmany
      · have hlong : 7 ≤ data o := (hacc.plain o List.mem_cons_self).endpoint ho
        exact absurd hlong (Nat.not_le.mpr hshort)
      · have hzero := H.outside hno
        omega
      · omega
  · rw [if_neg hrej]
    rw [not_or, not_or, Nat.not_lt, Nat.not_lt] at hrej
    have hplain : ∀ p ∈ [o], Plain data p := by
      intro p hp
      rw [List.mem_singleton.mp hp]
      exact ⟨by rw [ho]; decide, by rw [ho]; decide, fun _ => hrej.1⟩
    have hle : st.endpoints + endpointCount data [o] ≤ st.expected := by
      rw [hcount]
      exact hrej.2.2
    dsimp only
    by_cases hsel : st.candidate = true ∧ st.selected = none ∧
        data (o + 2) &&& 0x80 ≠ 0 ∧ data (o + 3) &&& 3 = 3
    · -- the endpoint is selected if it keeps the limits
      have hin : IsInterruptIn data o := ⟨ho, hsel.2.2⟩
      rw [if_pos hsel]
      rw [if_pos hin] at hfirst
      have hafter : st.after data [o] = { st with
          endpoints := st.endpoints + 1
          selected := some ⟨data 5, st.number, data (o + 2) &&& 15, read16 data (o + 4),
            data (o + 6)⟩ } := by
        rw [InterfaceSearch.after, InterfaceSearch.select, hcount, hfirst, hsel.1, hsel.2.1]
        rfl
      rw [hafter]
      by_cases hlim : data (o + 2) &&& 15 = 0 ∨ data (o + 2) &&& 0x70 ≠ 0 ∨
          read16 (fun i => data (o + i)) 4 < 3 ∨
          (if low ≠ 0 then 8 else 64) < read16 (fun i => data (o + i)) 4 ∨
          data (o + 6) = 0 ∨ low ≠ 0 ∧ data (o + 6) < 10
      · rw [if_pos hlim]
        constructor
        · intro h
          cases h
        · rintro ⟨hacc, -⟩
          have L := hacc.limits hsel.1 hsel.2.1 o hfirst
          have h16 : read16 (fun i => data (o + i)) 4 = read16 data (o + 4) := rfl
          rw [h16] at hlim
          rcases hlim with h | h | h | h | h | h
          · exact absurd h L.number
          · exact absurd L.reserved h
          · exact absurd L.packetLow (Nat.not_le.mpr h)
          · exact absurd L.packetHigh (Nat.not_le.mpr h)
          · exact absurd h L.interval
          · exact absurd (L.slow h.1) (Nat.not_le.mpr h.2)
      · rw [if_neg hlim]
        simp only [not_or, not_and, Nat.not_lt, Decidable.not_not] at hlim
        constructor
        · intro h
          refine ⟨⟨hplain, hle, fun _ _ e he => ?_⟩, (Option.some.inj h).symm⟩
          rw [hfirst] at he
          cases he
          exact ⟨hlim.1, hlim.2.1, hlim.2.2.1, hlim.2.2.2.1, hlim.2.2.2.2.1, hlim.2.2.2.2.2⟩
        · rintro ⟨-, rfl⟩
          rfl
    · -- another endpoint of the interface
      have hselect : st.select data [o] = st.selected := by
        rw [InterfaceSearch.select]
        cases hs : st.selected with
        | some x => rfl
        | none =>
          by_cases hc : st.candidate = true
          · have hout : ¬ IsInterruptIn data o := fun hin => hsel ⟨hc, hs, hin.2⟩
            rw [hfirst, if_neg hout, if_pos hc]
            rfl
          · rw [if_neg hc]
            rfl
      have hafter : st.after data [o] = { st with endpoints := st.endpoints + 1 } := by
        rw [InterfaceSearch.after, hselect, hcount]
      rw [if_neg hsel, hafter]
      constructor
      · intro h
        refine ⟨⟨hplain, hle, fun hc hs e he => ?_⟩, (Option.some.inj h).symm⟩
        rw [hfirst] at he
        by_cases hin : IsInterruptIn data o
        · exact absurd ⟨hc, hs, hin.2⟩ hsel
        · rw [if_neg hin] at he
          cases he
      · rintro ⟨-, rfl⟩
        rfl

/-- The step on any descriptor but an interface. -/
theorem searchStep_member {st : InterfaceSearch} (H : st.Ok) {o : ℕ} (ho : ¬ IsInterface data o)
    (st' : InterfaceSearch) : searchStep data low st o = some st' ↔
      st.Accepts data low [o] ∧ st' = st.after data [o] := by
  by_cases hend : IsEndpoint data o
  · exact searchStep_endpoint H hend st'
  have hcount : endpointCount data [o] = 0 := by
    rw [endpointCount_cons, if_neg hend]
    rfl
  have hfirst : firstInterruptIn data [o] = none := by
    rw [firstInterruptIn_cons, if_neg fun hin => hend hin.1]
    rfl
  have hafter : st.after data [o] = st := by
    rw [InterfaceSearch.after, InterfaceSearch.select, hcount, hfirst]
    have hnone : (if st.candidate then (none : Option ℕ).map fun e =>
        (⟨data 5, st.number, data (e + 2) &&& 15, read16 data (e + 4), data (e + 6)⟩ :
          UsbMouseInterface) else none) = none := by
      split <;> rfl
    rw [hnone, Option.or_none]
    rfl
  rw [searchStep, if_neg ho, if_neg hend, hafter]
  by_cases hbad : data (o + 1) = 2 ∨ data (o + 1) = 1
  · rw [if_pos hbad]
    constructor
    · intro h
      cases h
    · rintro ⟨hacc, -⟩
      have hplain := hacc.plain o List.mem_cons_self
      rcases hbad with h | h
      · exact absurd h hplain.notConfiguration
      · exact absurd h hplain.notDevice
  · rw [if_neg hbad]
    rw [not_or] at hbad
    constructor
    · intro h
      refine ⟨⟨fun p hp => ?_, ?_, fun _ _ e he => ?_⟩, (Option.some.inj h).symm⟩
      · rw [List.mem_singleton.mp hp]
        exact ⟨hbad.2, hbad.1, fun h5 => absurd h5 hend⟩
      · rw [hcount]
        exact H.count
      · rw [hfirst] at he
        cases he
    · rintro ⟨-, rfl⟩
      rfl

/-- The search over one more descriptor, then over others of the interface. -/
theorem after_cons (st : InterfaceSearch) (o : ℕ) (os : List ℕ) :
    (st.after data [o]).after data os = st.after data (o :: os) := by
  have hcount : st.endpoints + endpointCount data [o] + endpointCount data os =
      st.endpoints + endpointCount data (o :: os) := by
    rw [endpointCount_cons o os, endpointCount_cons o []]
    show _ + (0 + _) + _ = _
    omega
  have hselect : (st.after data [o]).select data os = st.select data (o :: os) := by
    rw [InterfaceSearch.select, InterfaceSearch.select, firstInterruptIn_cons o os]
    show (st.select data [o]).or _ = _
    rw [InterfaceSearch.select, firstInterruptIn_cons o []]
    show (st.selected.or _).or (if st.candidate then _ else none) = _
    rw [Option.or_assoc]
    congr 1
    by_cases hc : st.candidate = true
    · rw [if_pos hc, if_pos hc, if_pos hc]
      by_cases hin : IsInterruptIn data o
      · rw [if_pos hin, if_pos hin]
        rfl
      · rw [if_neg hin, if_neg hin]
        rfl
    · rw [if_neg hc, if_neg hc, if_neg hc]
      rfl
  show InterfaceSearch.mk st.candidate st.number st.haveInterface _ st.expected _ = _
  rw [hselect]
  show InterfaceSearch.mk st.candidate st.number st.haveInterface
    (st.endpoints + endpointCount data [o] + endpointCount data os) st.expected _ = _
  rw [hcount]
  rfl

theorem select_eq_none (st : InterfaceSearch) (hc : st.candidate = true) (o : ℕ) :
    st.select data [o] = none ↔ st.selected = none ∧ ¬ IsInterruptIn data o := by
  rw [InterfaceSearch.select, firstInterruptIn_cons, Option.or_eq_none_iff, if_pos hc]
  constructor
  · rintro ⟨hnone, hmap⟩
    refine ⟨hnone, fun hin => ?_⟩
    rw [if_pos hin] at hmap
    cases hmap
  · rintro ⟨hnone, hin⟩
    refine ⟨hnone, ?_⟩
    rw [if_neg hin]
    rfl

/-- What is accepted over one more descriptor. -/
theorem accepts_cons (st : InterfaceSearch) (o : ℕ) (os : List ℕ) :
    st.Accepts data low (o :: os) ↔
      st.Accepts data low [o] ∧ (st.after data [o]).Accepts data low os := by
  have hcount : st.endpoints + endpointCount data (o :: os) =
      st.endpoints + endpointCount data [o] + endpointCount data os := by
    rw [endpointCount_cons o os, endpointCount_cons o []]
    show _ = _ + (0 + _) + _
    omega
  constructor
  · intro h
    have hle := h.count
    rw [hcount] at hle
    constructor
    · refine ⟨fun p hp => ?_, by omega, fun hc hs e he => ?_⟩
      · rw [List.mem_singleton.mp hp]
        exact h.plain o List.mem_cons_self
      · rw [firstInterruptIn_cons] at he
        by_cases hin : IsInterruptIn data o
        · rw [if_pos hin] at he
          refine h.limits hc hs e ?_
          rw [firstInterruptIn_cons, if_pos hin]
          exact he
        · rw [if_neg hin] at he
          cases he
    · refine ⟨fun p hp => h.plain p (List.mem_cons_of_mem o hp), hle, fun hc hs e he => ?_⟩
      obtain ⟨hnone, hin⟩ := (select_eq_none st hc o).mp hs
      refine h.limits hc hnone e ?_
      rw [firstInterruptIn_cons, if_neg hin]
      exact he
  · rintro ⟨ho, hos⟩
    refine ⟨fun p hp => ?_, ?_, fun hc hs e he => ?_⟩
    · rcases List.mem_cons.mp hp with rfl | hp
      · exact ho.plain p List.mem_cons_self
      · exact hos.plain p hp
    · rw [hcount]
      exact hos.count
    · rw [firstInterruptIn_cons] at he
      by_cases hin : IsInterruptIn data o
      · rw [if_pos hin] at he
        refine ho.limits hc hs e ?_
        rw [firstInterruptIn_cons, if_pos hin]
        exact he
      · rw [if_neg hin] at he
        exact hos.limits hc ((select_eq_none st hc o).mpr ⟨hs, hin⟩) e he

/-- **The descriptors of one interface.** -/
theorem fold_members {os : List ℕ} (hos : ∀ o ∈ os, ¬ IsInterface data o) {st : InterfaceSearch}
    (H : st.Ok) (st' : InterfaceSearch) : os.foldlM (searchStep data low) st = some st' ↔
      st.Accepts data low os ∧ st' = st.after data os := by
  induction os generalizing st with
  | nil =>
    have hafter : st.after data [] = st := by
      have hnone : (if st.candidate then (firstInterruptIn data []).map fun e =>
          (⟨data 5, st.number, data (e + 2) &&& 15, read16 data (e + 4), data (e + 6)⟩ :
            UsbMouseInterface) else none) = none := by
        split <;> rfl
      rw [InterfaceSearch.after, InterfaceSearch.select, hnone, Option.or_none]
      rfl
    rw [hafter]
    constructor
    · intro h
      refine ⟨⟨fun o ho => absurd ho List.not_mem_nil, H.count, fun _ _ e he => ?_⟩,
        (Option.some.inj h).symm⟩
      cases he
    · rintro ⟨-, rfl⟩
      rfl
  | cons o os ih =>
    rw [List.foldlM_cons, accepts_cons, ← after_cons st o os]
    have hos' : ∀ p ∈ os, ¬ IsInterface data p := fun p hp => hos p (List.mem_cons_of_mem o hp)
    have hok : st.Accepts data low [o] → (st.after data [o]).Ok := fun hacc =>
      ⟨hacc.count, H.outside⟩
    constructor
    · intro h
      obtain ⟨mid, hmid, hrest⟩ := Option.bind_eq_some_iff.mp h
      obtain ⟨hacc, rfl⟩ := (searchStep_member H (hos o List.mem_cons_self) mid).mp hmid
      obtain ⟨haccs, rfl⟩ := (ih hos' (hok hacc)).mp hrest
      exact ⟨⟨hacc, haccs⟩, rfl⟩
    · rintro ⟨⟨hacc, haccs⟩, rfl⟩
      have hmid := (searchStep_member H (hos o List.mem_cons_self) _).mpr ⟨hacc, rfl⟩
      rw [hmid]
      exact (ih hos' (hok hacc)).mpr ⟨haccs, rfl⟩

/-- The check after the loop. -/
def InterfaceSearch.finish (st : InterfaceSearch) : Option (Option UsbMouseInterface) :=
  if st.haveInterface ∧ st.endpoints ≠ st.expected then none else some st.selected

/-- The search at the head of an interface. -/
def InterfaceSearch.enter (data : ℕ → ℕ) (st : InterfaceSearch) (i : ℕ) : InterfaceSearch :=
  { st with
    haveInterface := true
    endpoints := 0
    expected := data (i + 4)
    number := data (i + 2)
    candidate := decide (IsBootMouse data i) }

theorem searchStep_interface {st : InterfaceSearch} {i : ℕ} (hi : IsInterface data i)
    (st' : InterfaceSearch) : searchStep data low st i = some st' ↔
      9 ≤ data i ∧ (st.haveInterface = true → st.endpoints = st.expected) ∧
        st' = st.enter data i := by
  rw [searchStep, if_pos hi, InterfaceSearch.interface]
  by_cases hrej : data (i + 0) < 9 ∨ st.haveInterface ∧ st.endpoints ≠ st.expected
  · rw [if_pos hrej]
    constructor
    · intro h
      cases h
    · rintro ⟨hlen, hdone, -⟩
      rcases hrej with hshort | ⟨hin, hne⟩
      · exact absurd hlen (Nat.not_le.mpr hshort)
      · exact absurd (hdone hin) hne
  · rw [if_neg hrej]
    simp only [not_or, not_and, Nat.not_lt, Decidable.not_not] at hrej
    constructor
    · intro h
      exact ⟨hrej.1, hrej.2, (Option.some.inj h).symm⟩
    · rintro ⟨-, -, rfl⟩
      rfl

theorem firstMouse_cons (s : ℕ × List ℕ) (secs : List (ℕ × List ℕ)) :
    firstMouse data (s :: secs) = (mouseEndpoint data s).or (firstMouse data secs) := by
  rw [firstMouse, List.findSome?_cons]
  cases mouseEndpoint data s with
  | none => rfl
  | some x => rfl

/-- What an interface selects. -/
theorem enter_select (st : InterfaceSearch) (s : ℕ × List ℕ) : (st.enter data s.1).select data s.2 =
    st.selected.or ((mouseEndpoint data s).map (mouseInterface data)) := by
  rw [InterfaceSearch.select, mouseEndpoint]
  show st.selected.or (if decide (IsBootMouse data s.1) = true then _ else none) = _
  by_cases hm : IsBootMouse data s.1
  · rw [if_pos hm, if_pos (decide_eq_true hm), Option.map_map]
    rfl
  · rw [if_neg hm, if_neg fun h => hm (of_decide_eq_true h)]
    rfl

/-- What an interface accepts. -/
theorem enter_accepts (st : InterfaceSearch) (s : ℕ × List ℕ) :
    (st.enter data s.1).Accepts data low s.2 ↔ (∀ o ∈ s.2, Plain data o) ∧
      endpointCount data s.2 ≤ data (s.1 + 4) ∧
      (st.selected = none → ∀ x, mouseEndpoint data s = some x → EndpointLimits data low x.2) := by
  have hzero : 0 + endpointCount data s.2 = endpointCount data s.2 := Nat.zero_add _
  constructor
  · intro h
    refine ⟨h.plain, hzero ▸ h.count, fun hs x hx => ?_⟩
    rw [mouseEndpoint] at hx
    by_cases hm : IsBootMouse data s.1
    · rw [if_pos hm] at hx
      obtain ⟨e, he, rfl⟩ := Option.map_eq_some_iff.mp hx
      exact h.limits (decide_eq_true hm) hs e he
    · rw [if_neg hm] at hx
      cases hx
  · rintro ⟨hplain, hcount, hlim⟩
    refine ⟨hplain, hzero.symm ▸ hcount, fun hc hs e he => hlim hs (s.1, e) ?_⟩
    rw [mouseEndpoint, if_pos (of_decide_eq_true hc), he]
    rfl

/-- **The interfaces**, from any state of the search on. -/
theorem fold_sections {secs : List (ℕ × List ℕ)} (hheads : ∀ s ∈ secs, IsInterface data s.1)
    (hmem : ∀ s ∈ secs, ∀ o ∈ s.2, ¬ IsInterface data o) (st : InterfaceSearch)
    (r : Option UsbMouseInterface) :
    ((secs.flatMap fun s => s.1 :: s.2).foldlM (searchStep data low) st).bind
        InterfaceSearch.finish = some r ↔
      (st.haveInterface = true → st.endpoints = st.expected) ∧
      (∀ s ∈ secs, 9 ≤ data s.1 ∧ (∀ o ∈ s.2, Plain data o) ∧
        endpointCount data s.2 = data (s.1 + 4)) ∧
      (st.selected = none → ∀ x, firstMouse data secs = some x → EndpointLimits data low x.2) ∧
      r = st.selected.or ((firstMouse data secs).map (mouseInterface data)) := by
  induction secs generalizing st with
  | nil =>
    show st.finish = some r ↔ _
    have hsel : st.selected.or (Option.map (mouseInterface data) (firstMouse data [])) =
        st.selected := Option.or_none
    rw [InterfaceSearch.finish, hsel]
    by_cases hrej : st.haveInterface ∧ st.endpoints ≠ st.expected
    · rw [if_pos hrej]
      constructor
      · intro h
        cases h
      · intro h
        exact absurd (h.1 hrej.1) hrej.2
    · rw [if_neg hrej]
      simp only [not_and, Decidable.not_not] at hrej
      constructor
      · intro h
        refine ⟨hrej, fun s hs => absurd hs List.not_mem_nil, fun _ x hx => ?_,
          (Option.some.inj h).symm⟩
        cases hx
      · rintro ⟨-, -, -, rfl⟩
        rfl
  | cons s secs ih =>
    have hheads' : ∀ s ∈ secs, IsInterface data s.1 :=
      fun t ht => hheads t (List.mem_cons_of_mem s ht)
    have hmem' : ∀ s ∈ secs, ∀ o ∈ s.2, ¬ IsInterface data o :=
      fun t ht => hmem t (List.mem_cons_of_mem s ht)
    have hok : (st.enter data s.1).Ok := ⟨Nat.zero_le _, fun h => Bool.noConfusion h⟩
    -- the descriptor of the interface, its members, the other interfaces
    have hsplit : (((s :: secs).flatMap fun s => s.1 :: s.2).foldlM (searchStep data low) st).bind
          InterfaceSearch.finish = some r ↔
        9 ≤ data s.1 ∧ (st.haveInterface = true → st.endpoints = st.expected) ∧
        (st.enter data s.1).Accepts data low s.2 ∧
        ((secs.flatMap fun s => s.1 :: s.2).foldlM (searchStep data low)
          ((st.enter data s.1).after data s.2)).bind InterfaceSearch.finish = some r := by
      rw [List.flatMap_cons, List.cons_append, List.foldlM_cons]
      constructor
      · intro h
        obtain ⟨last, hlast, hfin⟩ := Option.bind_eq_some_iff.mp h
        obtain ⟨mid, hmid, hrest⟩ := Option.bind_eq_some_iff.mp hlast
        obtain ⟨hlen, hdone, rfl⟩ := (searchStep_interface (hheads s List.mem_cons_self) mid).mp hmid
        rw [List.foldlM_append] at hrest
        obtain ⟨mem, hmems, htail⟩ := Option.bind_eq_some_iff.mp hrest
        obtain ⟨hacc, rfl⟩ := (fold_members (hmem s List.mem_cons_self) hok mem).mp hmems
        exact ⟨hlen, hdone, hacc, Option.bind_eq_some_iff.mpr ⟨last, htail, hfin⟩⟩
      · rintro ⟨hlen, hdone, hacc, hrest⟩
        rw [(searchStep_interface (hheads s List.mem_cons_self) _).mpr ⟨hlen, hdone, rfl⟩]
        show ((s.2 ++ _).foldlM (searchStep data low) (st.enter data s.1)).bind _ = _
        rw [List.foldlM_append,
          (fold_members (hmem s List.mem_cons_self) hok _).mpr ⟨hacc, rfl⟩]
        exact hrest
    have hselected : ((st.enter data s.1).after data s.2).selected =
        st.selected.or ((mouseEndpoint data s).map (mouseInterface data)) := enter_select st s
    have hcount : ((st.enter data s.1).after data s.2).endpoints = endpointCount data s.2 :=
      Nat.zero_add _
    rw [hsplit, ih hheads' hmem', hselected, hcount, enter_accepts, firstMouse_cons,
      Option.map_or, Option.or_assoc]
    constructor
    · rintro ⟨hlen, hdone, ⟨hplain, -, hlim⟩, heq, hsecs, hlims, hr⟩
      refine ⟨hdone, fun t ht => ?_, fun hs x hx => ?_, hr⟩
      · rcases List.mem_cons.mp ht with rfl | ht
        · exact ⟨hlen, hplain, heq rfl⟩
        · exact hsecs t ht
      · cases hhere : mouseEndpoint data s with
        | some y =>
          rw [hhere] at hx
          exact hlim hs x (hhere.trans hx)
        | none =>
          rw [hhere] at hx
          exact hlims (by rw [hs, hhere]; rfl) x hx
    · rintro ⟨hdone, hsecs, hlims, hr⟩
      obtain ⟨hlen, hplain, heq⟩ := hsecs s List.mem_cons_self
      refine ⟨hlen, hdone, ⟨hplain, Nat.le_of_eq heq, fun hs x hx => hlims hs x ?_⟩, fun _ => heq,
        fun t ht => hsecs t (List.mem_cons_of_mem s ht), fun hs x hx => ?_, hr⟩
      · rw [hx]
        rfl
      · rw [Option.or_eq_none_iff, Option.map_eq_none_iff] at hs
        refine hlims hs.1 x ?_
        rw [hs.2]
        exact hx

end Fold

/-! ### The parser -/

section Parser

variable {data : ℕ → ℕ} {n low : ℕ}

/-- The variables of the search before the first descriptor. -/
def searchStart : InterfaceSearch := ⟨false, 0, false, 0, 0, none⟩

/-- The search over a stream of descriptors. -/
theorem search_stream {os lead : List ℕ} {secs : List (ℕ × List ℕ)} (hos : Records data 2 n 9 os)
    (hsecs : Sections (IsInterface data) os lead secs) (r : Option UsbMouseInterface) :
    (findInterfaceLoop data n low n 9 searchStart).bind InterfaceSearch.finish = some r ↔
      MouseStream data low lead secs ∧ r = (firstMouse data secs).map (mouseInterface data) := by
  have hok : searchStart.Ok := ⟨Nat.le_refl _, fun _ => rfl⟩
  rw [findInterfaceLoop_records hos (Nat.sub_le n 9), hsecs.concat, List.foldlM_append]
  constructor
  · intro h
    obtain ⟨last, hlast, hfin⟩ := Option.bind_eq_some_iff.mp h
    obtain ⟨mid, hmid, hrest⟩ := Option.bind_eq_some_iff.mp hlast
    obtain ⟨hacc, rfl⟩ := (fold_members hsecs.lead hok mid).mp hmid
    obtain ⟨-, hgood, hlim, hr⟩ := (fold_sections hsecs.heads hsecs.members (searchStart.after data lead) r).mp
      (Option.bind_eq_some_iff.mpr ⟨last, hrest, hfin⟩)
    have hcount : 0 + endpointCount data lead ≤ 0 := hacc.count
    exact ⟨⟨hacc.plain, by omega, fun s hs => (hgood s hs).1, fun s hs => (hgood s hs).2.1,
      fun s hs => (hgood s hs).2.2, hlim rfl⟩, hr⟩
  · rintro ⟨H, rfl⟩
    have hacc : searchStart.Accepts data low lead := by
      refine ⟨H.leadPlain, ?_, fun h => Bool.noConfusion h⟩
      rw [H.leadCount]
      exact Nat.le_refl _
    have hmid := (fold_members hsecs.lead hok (searchStart.after data lead)).mpr ⟨hacc, rfl⟩
    have hrest := (fold_sections hsecs.heads hsecs.members (searchStart.after data lead)
      ((firstMouse data secs).map (mouseInterface data))).mpr
      ⟨fun h => Bool.noConfusion h, fun s hs => ⟨H.interfaces s hs, H.plain s hs, H.counts s hs⟩,
        fun _ => H.limits, rfl⟩
    rw [hmid]
    exact hrest

/-- The parser accepts the grammar, and returns the first mouse endpoint. -/
theorem findInterface_iff (r : Option UsbMouseInterface) :
    usbMouseFindInterface data n low = some r ↔ ∃ lead secs, MouseGrammar data n low lead secs ∧
      r = (firstMouse data secs).map (mouseInterface data) := by
  by_cases hhead : 1 < low ∨ n < 9 ∨ usbConfigurationMaxBytes < n ∨ data 0 ≠ 9 ∨ data 1 ≠ 2 ∨
      read16 data 2 ≠ n ∨ data 5 = 0
  · rw [usbMouseFindInterface, if_pos hhead]
    constructor
    · intro h
      cases h
    · rintro ⟨lead, secs, H, -⟩
      rcases hhead with h | h | h | h | h | h | h
      · exact absurd H.speed (Nat.not_le.mpr h)
      · exact absurd H.atLeast (Nat.not_le.mpr h)
      · exact absurd H.atMost (Nat.not_le.mpr h)
      · exact absurd H.headerLength h
      · exact absurd H.headerType h
      · exact absurd H.total h
      · exact absurd h H.value
  · have hbind : usbMouseFindInterface data n low =
        (findInterfaceLoop data n low n 9 searchStart).bind InterfaceSearch.finish := by
      rw [usbMouseFindInterface, if_neg hhead, searchStart]
      cases findInterfaceLoop data n low n 9 ⟨false, 0, false, 0, 0, none⟩ with
      | none => rfl
      | some st => rfl
    rw [hbind]
    simp only [not_or, Nat.not_lt, Decidable.not_not] at hhead
    obtain ⟨hlow, hmin, hmax, hlen, htype, htotal, hvalue⟩ := hhead
    constructor
    · intro h
      obtain ⟨st, hst, -⟩ := Option.bind_eq_some_iff.mp h
      obtain ⟨os, hos⟩ := findInterfaceLoop_some hmin (Nat.sub_le n 9) hst
      obtain ⟨lead, secs, hsecs⟩ := exists_sections (IsInterface data) os
      obtain ⟨H, hr⟩ := (search_stream hos hsecs r).mp h
      exact ⟨lead, secs, ⟨hlow, hmin, hmax, hlen, htype, htotal, hvalue, ⟨os, hos, hsecs⟩, H⟩, hr⟩
    · rintro ⟨lead, secs, H, hr⟩
      obtain ⟨os, hos, hsecs⟩ := H.descriptors
      exact (search_stream hos hsecs r).mpr ⟨H.stream, hr⟩

/-! The parser reads the first `n` bytes only. -/

variable {data' : ℕ → ℕ}

/-- A descriptor inside the first `n` bytes. -/
theorem searchStep_congr (hdata : ∀ i < n, data' i = data i) (hn : 9 ≤ n) {o : ℕ}
    (hlen : 2 ≤ data o) (hfit : o + data o ≤ n) (st : InterfaceSearch) :
    searchStep data' low st o = searchStep data low st o := by
  have hat : ∀ i < data o, data' (o + i) = data (o + i) := fun i hi => hdata _ (by omega)
  have h0 : data' (o + 0) = data (o + 0) := hat 0 (by omega)
  have h1 : data' (o + 1) = data (o + 1) := hat 1 (by omega)
  have h5 : data' 5 = data 5 := hdata 5 (by omega)
  have hint : st.interface (fun i => data' (o + i)) = st.interface fun i => data (o + i) := by
    rw [InterfaceSearch.interface, InterfaceSearch.interface]
    simp only [h0]
    by_cases hrej : data (o + 0) < 9 ∨ st.haveInterface ∧ st.endpoints ≠ st.expected
    · rw [if_pos hrej, if_pos hrej]
    · have hlong : 9 ≤ data o := Nat.not_lt.mp fun h => hrej (Or.inl h)
      simp only [if_neg hrej, hat 2 (by omega), hat 3 (by omega), hat 4 (by omega),
        hat 5 (by omega), hat 6 (by omega), hat 7 (by omega)]
  have hend : st.endpoint (data' 5) low (fun i => data' (o + i)) =
      st.endpoint (data 5) low fun i => data (o + i) := by
    rw [InterfaceSearch.endpoint, InterfaceSearch.endpoint]
    simp only [read16, h0, h5]
    by_cases hrej : data (o + 0) < 7 ∨ st.haveInterface = false ∨ st.expected < st.endpoints + 1
    · rw [if_pos hrej, if_pos hrej]
    · have hlong : 7 ≤ data o := Nat.not_lt.mp fun h => hrej (Or.inl h)
      simp only [if_neg hrej, hat 2 (by omega), hat 3 (by omega), hat 4 (by omega),
        hat (4 + 1) (by omega), hat 6 (by omega)]
      rfl
  simp only [searchStep, h1, hint, hend]

theorem findInterfaceLoop_congr (hdata : ∀ i < n, data' i = data i) (hn : 9 ≤ n) (fuel o : ℕ)
    (st : InterfaceSearch) :
    findInterfaceLoop data' n low fuel o st = findInterfaceLoop data n low fuel o st := by
  induction fuel generalizing o st with
  | zero => rfl
  | succ fuel ih =>
    rw [findInterfaceLoop, findInterfaceLoop]
    by_cases hle : n ≤ o
    · rw [if_pos hle, if_pos hle]
    rw [if_neg hle, if_neg hle]
    by_cases hsmall : n - o < 2
    · rw [if_pos hsmall, if_pos hsmall]
    rw [if_neg hsmall, if_neg hsmall]
    have h0 : data' o = data o := hdata o (by omega)
    show (if data' o < 2 ∨ n - o < data' o then none else
        (searchStep data' low st o).bind (findInterfaceLoop data' n low fuel (o + data' o))) =
      (if data o < 2 ∨ n - o < data o then none else
        (searchStep data low st o).bind (findInterfaceLoop data n low fuel (o + data o)))
    rw [h0]
    by_cases hsize : data o < 2 ∨ n - o < data o
    · rw [if_pos hsize, if_pos hsize]
    · rw [if_neg hsize, if_neg hsize,
        searchStep_congr hdata hn (by omega) (by omega) st]
      congr 1
      funext st'
      exact ih _ st'

theorem findInterface_congr (hdata : ∀ i < n, data' i = data i) :
    usbMouseFindInterface data' n low = usbMouseFindInterface data n low := by
  rw [usbMouseFindInterface, usbMouseFindInterface]
  by_cases hn : n < 9
  · rw [if_pos (Or.inr (Or.inl hn)), if_pos (Or.inr (Or.inl hn))]
  · have hn' : 9 ≤ n := Nat.not_lt.mp hn
    simp only [read16, hdata 0 (by omega), hdata 1 (by omega), hdata 2 (by omega),
      hdata (2 + 1) (by omega), hdata 5 (by omega), findInterfaceLoop_congr hdata hn']
    rfl

end Parser

/-! ### The selected endpoint -/

/-- The polling interval of an advertised interval is never out of range. -/
theorem usbMousePollInterval_range {low ms : ℕ} (hlow : low ≤ 1) (hms : ms ≠ 0) (hmax : ms ≤ 255) :
    uhciInterval (usbMousePollInterval low ms) ≠ 0 := by
  have hpoll : usbMousePollInterval low ms ≠ 0 ∧ usbMousePollInterval low ms ≤ 255 := by
    rw [usbMousePollInterval]
    split_ifs with hbad hfast
    · omega
    · exact ⟨hfast.2.1, hfast.2.2.le.trans hmax⟩
    · exact ⟨hms, hmax⟩
  rw [uhciInterval, if_neg (by omega)]
  exact Nat.ne_of_gt (Nat.two_pow_pos _)

/-- `usb_uhci_start_interrupt` with endpoint, packet size and interval in range is
refused only for other reasons. -/
theorem startInterrupt_refused {endpoint low packet ms : ℕ} (hend : 1 ≤ endpoint ∧ endpoint ≤ 15)
    (hlow : low ≤ 1) (hpacket : packet ≠ 0 ∧ packet ≤ 64) (hslow : low ≠ 0 → packet ≤ 8)
    (hms : uhciInterval ms ≠ 0) (id port address : ℕ) (s : Usb) :
    Ensures (usbUhciStartInterrupt id port address endpoint low packet ms) s fun r _ => r = 0 →
      uhciControllerCount ≤ id ∨ 1 < port ∨ address < 1 ∨ 127 < address ∨
        (s.info id).status ≠ uhciReady ∨ (s.controllers id).active = true ∨
        s.answer (.port id port) &&& 5 ≠ 5 ∨
        (if s.answer (.port id port) &&& 0x100 ≠ 0 then 1 else 0) ≠ low := by
  refine ensures_get_bind (ensures_ite (fun hrej => ensures_pure fun _ => ?_) fun hrej => ?_)
  · rcases hrej with h | h | h | h | h | h | h | h | h | h | h | h | h
    · exact Or.inl h
    · exact Or.inr (Or.inl h)
    · exact Or.inr (Or.inr (Or.inl h))
    · exact Or.inr (Or.inr (Or.inr (Or.inl h)))
    · omega
    · omega
    · omega
    · exact absurd h hpacket.1
    · omega
    · exact absurd (hslow h.1) (Nat.not_le.mpr h.2)
    · exact absurd h hms
    · exact Or.inr (Or.inr (Or.inr (Or.inr (Or.inl h))))
    · exact Or.inr (Or.inr (Or.inr (Or.inr (Or.inr (Or.inl h)))))
  · refine ensures_modifyGet_bind ?_
    dsimp only
    refine ensures_ite (fun hport => ensures_pure fun _ => ?_) fun _ => ?_
    · exact Or.inr (Or.inr (Or.inr (Or.inr (Or.inr (Or.inr hport)))))
    · -- from here on the result is 1
      refine ensures_last fun _ _ => ensures_last fun _ _ => ensures_last fun _ _ =>
        ensures_last fun _ _ => ensures_last fun _ _ => ensures_last fun _ _ =>
        ensures_last fun _ _ => ensures_last fun _ _ => ensures_pure fun h => ?_
      exact absurd h Nat.one_ne_zero

/-- The bytes that a device has sent. -/
def octets (data : ℕ → UInt8) (i : ℕ) : ℕ := (data i).toNat

/-- **The parser accepts exactly the boot-mouse grammar**: on every byte string it
returns the first mouse endpoint of the configurations of the grammar and fails on
everything else, it reads the first `n` bytes only, and what it selects is never out
of range for `usb_uhci_start_interrupt`. -/
theorem find_interface_grammar (data : ℕ → UInt8) (n low : ℕ) :
    (∀ r, usbMouseFindInterface (octets data) n low = some r ↔
      ∃ lead secs, MouseGrammar (octets data) n low lead secs ∧
        r = (firstMouse (octets data) secs).map (mouseInterface (octets data))) ∧
    (∀ data' : ℕ → UInt8, (∀ i < n, data' i = data i) →
      usbMouseFindInterface (octets data') n low = usbMouseFindInterface (octets data) n low) ∧
    ∀ x, usbMouseFindInterface (octets data) n low = some (some x) →
      ∀ id port address s, Ensures (usbUhciStartInterrupt id port address x.endpoint low x.packet
        (usbMousePollInterval low x.interval)) s fun r _ => r = 0 →
          uhciControllerCount ≤ id ∨ 1 < port ∨ address < 1 ∨ 127 < address ∨
            (s.info id).status ≠ uhciReady ∨ (s.controllers id).active = true ∨
            s.answer (.port id port) &&& 5 ≠ 5 ∨
            (if s.answer (.port id port) &&& 0x100 ≠ 0 then 1 else 0) ≠ low := by
  refine ⟨findInterface_iff, fun data' hdata => ?_, fun x hx => ?_⟩
  · exact findInterface_congr fun i hi => congrArg UInt8.toNat (hdata i hi)
  · obtain ⟨lead, secs, H, hr⟩ := (findInterface_iff (some x)).mp hx
    obtain ⟨y, hy, rfl⟩ := Option.map_eq_some_iff.mp hr.symm
    have L := H.stream.limits y hy
    have hend : octets data (y.2 + 2) &&& 15 ≤ 15 := Nat.and_le_right
    have hpacket : read16 (octets data) (y.2 + 4) ≤ 64 := by
      refine L.packetHigh.trans ?_
      split <;> decide
    have hms : octets data (y.2 + 6) ≤ 255 := Nat.le_of_lt_succ (UInt8.toNat_lt (data (y.2 + 6)))
    refine startInterrupt_refused ⟨Nat.pos_of_ne_zero L.number, hend⟩ H.speed
      ⟨?_, hpacket⟩ (fun hlow => ?_) (usbMousePollInterval_range H.speed L.interval hms)
    · have h3 := L.packetLow
      show read16 (octets data) (y.2 + 4) ≠ 0
      omega
    · have h8 := L.packetHigh
      rw [if_pos hlow] at h8
      exact h8

/-- The configuration of a boot mouse: interface 0 with a HID descriptor and one
endpoint. -/
example : usbMouseFindInterface (fun i => [9, 2, 34, 0, 1, 1, 0, 0xA0, 50, 9, 4, 0, 0, 1, 3, 1, 2, 0,
    9, 0x21, 0x10, 1, 0, 1, 0x22, 52, 0, 7, 5, 0x81, 3, 4, 0, 10].getD i 0) 34 1 =
    some (some ⟨1, 0, 1, 4, 10⟩) := by rfl

end VirtualKernel
