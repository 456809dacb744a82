/-
The configuration parser of the storage driver against its grammar.

`boot_parse_usb_configuration` stops at the first bulk-only interface that has both
endpoints, when the next interface descriptor or the end of the stream shows that the
interface is complete.  What follows is not looked at.

* **`parseDescriptors_iff`** — the loop is a fold over the descriptors in front of the
  place where it stops;
* **`storage_sections`** — the fold over the interfaces;
* **`parse_configuration_grammar`** — the parser accepts exactly the grammar.
-/
import VirtualKernel.StorageTransport
import VirtualKernel.UsbDescriptors

namespace VirtualKernel

open Lib

/-! ### The grammar -/

section Grammar

variable (data : ℕ → ℕ)

/-- Alternate setting 0 with two endpoints, mass storage, SCSI, bulk-only. -/
abbrev IsStorage (i : ℕ) : Prop :=
  data (i + 3) = 0 ∧ data (i + 4) = 2 ∧ data (i + 5) = 8 ∧ data (i + 6) = 6 ∧ data (i + 7) = 0x50

abbrev IsIn (e : ℕ) : Prop := data (e + 2) &&& 0x80 ≠ 0

/-- An endpoint that a storage interface may have. -/
structure BulkEndpoint (e : ℕ) : Prop where
  length : 7 ≤ data e
  bulk : data (e + 3) &&& 3 = 2
  number : data (e + 2) &&& 15 ≠ 0
  reserved : data (e + 2) &&& 0x70 = 0
  packet : data (e + 4) ||| data (e + 5) <<< 8 = 512

/-- The IN endpoints, and the OUT endpoints. -/
def endpointsIn (os : List ℕ) : List ℕ := os.filter fun e => IsEndpoint data e ∧ IsIn data e

def endpointsOut (os : List ℕ) : List ℕ := os.filter fun e => IsEndpoint data e ∧ ¬ IsIn data e

/-- The address of the first endpoint, 0 without one. -/
def firstAddress : List ℕ → ℕ
  | [] => 0
  | e :: _ => data (e + 2)

/-- No invalid and no repeated endpoint. -/
structure EndpointsOk (valid : ℕ → Prop) (os : List ℕ) : Prop where
  bulk : ∀ e ∈ os, IsEndpoint data e → valid e
  oneIn : (endpointsIn data os).length ≤ 1
  oneOut : (endpointsOut data os).length ≤ 1

/-- A storage interface with both endpoints. -/
structure CompleteStorage (s : ℕ × List ℕ) : Prop where
  storage : IsStorage data s.1
  hasIn : (endpointsIn data s.2).length = 1
  hasOut : (endpointsOut data s.2).length = 1

/-- The stream may end at `m`, or its next descriptor is an interface. -/
def StopsAt (n m : ℕ) : Prop := m = n ∨ IsInterface data m ∧ 9 ≤ data m ∧ m + data m ≤ n

/-- What is taken from an interface. -/
def storageInterface (s : ℕ × List ℕ) : UsbStorageInterface :=
  ⟨data 5, data (s.1 + 2), firstAddress data (endpointsIn data s.2),
    firstAddress data (endpointsOut data s.2)⟩

/-- A configuration of `n` bytes whose first complete storage interface is `s`; the
interfaces `earlier` come before it.  The endpoints of storage interfaces are `valid`. -/
structure StorageGrammar (valid : ℕ → Prop) (n : ℕ) (lead : List ℕ)
    (earlier : List (ℕ × List ℕ)) (s : ℕ × List ℕ) : Prop where
  atLeast : 9 ≤ n
  headerLength : data 0 = 9
  headerType : data 1 = 2
  total : data 2 ||| data 3 <<< 8 = n
  value : data 5 ≠ 0
  descriptors : ∃ os m, Records data 2 m 9 os ∧ StopsAt data n m ∧
    Sections (IsInterface data) os lead (earlier ++ [s])
  interfaces : ∀ t ∈ earlier ++ [s], 9 ≤ data t.1
  endpoints : ∀ t ∈ earlier ++ [s], IsStorage data t.1 → EndpointsOk data valid t.2
  first : ∀ t ∈ earlier, ¬ CompleteStorage data t
  complete : CompleteStorage data s

end Grammar

/-! ### The loop -/

section Loop

variable {data : ℕ → ℕ} {n : ℕ}

/-- The variables of the loop. -/
abbrev StorageSearch : Type := Bool × UsbStorageInterface

/-- A storage interface with both endpoints has been seen. -/
abbrev BothFound (st : StorageSearch) : Prop :=
  st.1 = true ∧ st.2.bulkIn ≠ 0 ∧ st.2.bulkOut ≠ 0

/-- The search at the head of an interface. -/
def enterStorage (data : ℕ → ℕ) (i : ℕ) (c : UsbStorageInterface) : StorageSearch :=
  (decide (IsStorage data i), { c with interfaceNumber := data (i + 2), bulkIn := 0, bulkOut := 0 })

/-- One turn of the loop that does not end it with success. -/
def parseStep (data : ℕ → ℕ) (st : StorageSearch) (o : ℕ) : Option StorageSearch :=
  if IsInterface data o then
    if data o < 9 ∨ BothFound st then none else some (enterStorage data o st.2)
  else if IsEndpoint data o ∧ st.1 = true then
    if data o < 7 ∨ data (o + 3) &&& 3 ≠ 2 ∨ data (o + 2) &&& 15 = 0 ∨ data (o + 2) &&& 0x70 ≠ 0 ∨
        data (o + 4) ||| data (o + 5) <<< 8 ≠ 512 then none
    else if IsIn data o then
      if st.2.bulkIn ≠ 0 then none else some (st.1, { st.2 with bulkIn := data (o + 2) })
    else if st.2.bulkOut ≠ 0 then none
    else some (st.1, { st.2 with bulkOut := data (o + 2) })
  else some st

/-- The end of the stream. -/
theorem parseDescriptors_end (fuel : ℕ) (st : StorageSearch) :
    parseDescriptors data n (fuel + 1) n st.1 st.2 = if BothFound st then some st.2 else none := by
  rw [parseDescriptors, if_pos (Nat.le_refl n)]
  by_cases hboth : BothFound st
  · rw [if_pos hboth, if_neg]
    rintro (h | h | h)
    · exact Bool.false_ne_true (h.symm.trans hboth.1)
    · exact hboth.2.1 h
    · exact hboth.2.2 h
  · rw [if_neg hboth, if_pos]
    by_contra hnot
    simp only [not_or, Bool.not_eq_false] at hnot
    exact hboth hnot

/-- The loop at a descriptor. -/
theorem parseDescriptors_succ {fuel o : ℕ} (ho : o < n) (st : StorageSearch) :
    parseDescriptors data n (fuel + 1) o st.1 st.2 =
      if data o < 2 ∨ n - o < data o then none
      else if IsInterface data o ∧ 9 ≤ data o ∧ BothFound st then some st.2
      else (parseStep data st o).bind fun st' =>
        parseDescriptors data n fuel (o + data o) st'.1 st'.2 := by
  rw [parseDescriptors, if_neg (Nat.not_le.mpr ho)]
  by_cases hsize : data o < 2 ∨ n - o < data o
  · rw [if_pos hsize, if_pos hsize]
  rw [if_neg hsize]
  dsimp only
  rw [if_neg hsize, parseStep]
  by_cases hint : IsInterface data o
  · rw [if_pos hint, if_pos hint]
    by_cases hshort : data o < 9
    · rw [if_pos hshort, if_neg fun h => Nat.not_le.mpr hshort h.2.1, if_pos (Or.inl hshort)]
      rfl
    rw [if_neg hshort]
    by_cases hboth : BothFound st
    · rw [if_pos hboth, if_pos ⟨hint, Nat.not_lt.mp hshort, hboth⟩]
    · rw [if_neg hboth, if_neg fun h => hboth h.2.2, if_neg (not_or.mpr ⟨hshort, hboth⟩)]
      rfl
  · have hno : ¬ (IsInterface data o ∧ 9 ≤ data o ∧ BothFound st) := fun h => hint h.1
    rw [if_neg hint, if_neg hno, if_neg hint]
    by_cases hend : IsEndpoint data o ∧ st.1 = true
    · rw [if_pos hend, if_pos hend]
      by_cases hlen : data o < 7
      · rw [if_pos hlen, if_pos (Or.inl hlen)]
        rfl
      rw [if_neg hlen]
      by_cases hbad : data (o + 3) &&& 3 ≠ 2 ∨ data (o + 2) &&& 15 = 0 ∨
          data (o + 2) &&& 0x70 ≠ 0 ∨ data (o + 4) ||| data (o + 5) <<< 8 ≠ 512
      · rw [if_pos hbad, if_pos (Or.inr hbad)]
        rfl
      rw [if_neg hbad, if_neg (not_or.mpr ⟨hlen, hbad⟩)]
      by_cases hin : IsIn data o
      · rw [if_pos hin, if_pos hin]
        by_cases htwice : st.2.bulkIn ≠ 0
        · rw [if_pos htwice, if_pos htwice]
          rfl
        · rw [if_neg htwice, if_neg htwice]
          rfl
      · rw [if_neg hin, if_neg hin]
        by_cases htwice : st.2.bulkOut ≠ 0
        · rw [if_pos htwice, if_pos htwice]
          rfl
        · rw [if_neg htwice, if_neg htwice]
          rfl
    · rw [if_neg hend, if_neg hend]
      rfl

/-- **The loop** ends with success where the fold over the descriptors in front of that
place has found both endpoints. -/
theorem parseDescriptors_iff {fuel o : ℕ} (ho : o ≤ n) (hfuel : n - o < fuel) (st : StorageSearch)
    (r : UsbStorageInterface) : parseDescriptors data n fuel o st.1 st.2 = some r ↔
      ∃ os m st', Records data 2 m o os ∧ StopsAt data n m ∧
        os.foldlM (parseStep data) st = some st' ∧ BothFound st' ∧ r = st'.2 := by
  induction fuel generalizing o st with
  | zero => omega
  | succ fuel ih =>
    by_cases hend : o = n
    · -- no descriptor is left
      rw [hend, parseDescriptors_end]
      constructor
      · intro h
        by_cases hboth : BothFound st
        · rw [if_pos hboth] at h
          exact ⟨[], n, st, Records.nil, Or.inl rfl, rfl, hboth, (Option.some.inj h).symm⟩
        · rw [if_neg hboth] at h
          cases h
      · rintro ⟨os, m, st', hos, hstop, hfold, hboth, rfl⟩
        cases hos with
        | nil =>
          cases hfold
          rw [if_pos hboth]
        | cons hlen hfit hrest =>
          have hle := hrest.le
          rcases hstop with rfl | ⟨-, h9, hfits⟩ <;> omega
    have hlt : o < n := Nat.lt_of_le_of_ne ho hend
    rw [parseDescriptors_succ hlt]
    by_cases hsize : data o < 2 ∨ n - o < data o
    · rw [if_pos hsize]
      constructor
      · intro h
        cases h
      · rintro ⟨os, m, st', hos, hstop, -⟩
        cases hos with
        | nil => rcases hstop with rfl | ⟨-, h9, hfits⟩ <;> omega
        | cons hlen hfit hrest => rcases hstop with rfl | ⟨-, h9, hfits⟩ <;> omega
    rw [if_neg hsize]
    by_cases hstop : IsInterface data o ∧ 9 ≤ data o ∧ BothFound st
    · -- the next interface ends the complete one
      rw [if_pos hstop]
      constructor
      · intro h
        exact ⟨[], o, st, Records.nil, Or.inr ⟨hstop.1, hstop.2.1, by omega⟩, rfl, hstop.2.2,
          (Option.some.inj h).symm⟩
      · rintro ⟨os, m, st', hos, -, hfold, -, rfl⟩
        cases hos with
        | nil =>
          cases hfold
          rfl
        | cons hlen hfit hrest =>
          rw [List.foldlM_cons, parseStep, if_pos hstop.1, if_pos (Or.inr hstop.2.2)] at hfold
          cases hfold
    · rw [if_neg hstop]
      constructor
      · intro h
        obtain ⟨mid, hmid, hrest⟩ := Option.bind_eq_some_iff.mp h
        obtain ⟨os, m, st', hos, hm, hfold, hboth, hr⟩ :=
          (ih (by omega) (by omega) mid).mp hrest
        have hle := hos.le
        refine ⟨o :: os, m, st', Records.cons (by omega) (by omega) hos, hm, ?_, hboth, hr⟩
        rw [List.foldlM_cons, hmid]
        exact hfold
      · rintro ⟨os, m, st', hos, hm, hfold, hboth, rfl⟩
        cases hos with
        | nil =>
          cases hfold
          rcases hm with rfl | ⟨hint, h9, -⟩
          · exact absurd rfl hend
          · exact absurd ⟨hint, h9, hboth⟩ hstop
        | @cons _ os hlen hfit hrest =>
          rw [List.foldlM_cons] at hfold
          obtain ⟨mid, hmid, htail⟩ := Option.bind_eq_some_iff.mp hfold
          rw [hmid]
          exact (ih (by omega) (by omega) mid).mpr ⟨os, m, st', hrest, hm, htail, hboth, rfl⟩

end Loop

/-! ### The fold over the interfaces -/

section Fold

variable {data : ℕ → ℕ}

/-- The candidate after the descriptors `os` of a storage interface. -/
def foundIn (data : ℕ → ℕ) (c : UsbStorageInterface) (os : List ℕ) : UsbStorageInterface :=
  { c with
    bulkIn := firstAddress data (endpointsIn data os)
    bulkOut := firstAddress data (endpointsOut data os) }

theorem endpointsIn_snoc (os : List ℕ) (o : ℕ) : endpointsIn data (os ++ [o]) =
    endpointsIn data os ++ if IsEndpoint data o ∧ IsIn data o then [o] else [] := by
  rw [endpointsIn, List.filter_append, List.filter_singleton, Bool.cond_decide]
  rfl

theorem endpointsOut_snoc (os : List ℕ) (o : ℕ) : endpointsOut data (os ++ [o]) =
    endpointsOut data os ++ if IsEndpoint data o ∧ ¬ IsIn data o then [o] else [] := by
  rw [endpointsOut, List.filter_append, List.filter_singleton, Bool.cond_decide]
  rfl

theorem mem_endpointsIn {os : List ℕ} {e : ℕ} (he : e ∈ endpointsIn data os) :
    e ∈ os ∧ IsEndpoint data e := by
  have h := List.mem_filter.mp he
  exact ⟨h.1, (of_decide_eq_true h.2).1⟩

theorem mem_endpointsOut {os : List ℕ} {e : ℕ} (he : e ∈ endpointsOut data os) :
    e ∈ os ∧ IsEndpoint data e := by
  have h := List.mem_filter.mp he
  exact ⟨h.1, (of_decide_eq_true h.2).1⟩

/-- Valid endpoints have an address. -/
theorem firstAddress_eq_zero {es : List ℕ} (h : ∀ e ∈ es, BulkEndpoint data e) :
    firstAddress data es = 0 ↔ es = [] := by
  cases es with
  | nil => exact ⟨fun _ => rfl, fun _ => rfl⟩
  | cons e es =>
    constructor
    · intro hzero
      have hnum := (h e List.mem_cons_self).number
      rw [show data (e + 2) = 0 from hzero, Nat.zero_and] at hnum
      exact absurd rfl hnum
    · intro hnil
      cases hnil

theorem firstAddress_snoc {es : List ℕ} (e : ℕ) (hes : es = []) :
    firstAddress data (es ++ [e]) = data (e + 2) := by
  rw [hes]
  rfl

theorem EndpointsOk.bulkIn {os : List ℕ} (h : EndpointsOk data (BulkEndpoint data) os) :
    firstAddress data (endpointsIn data os) = 0 ↔ endpointsIn data os = [] :=
  firstAddress_eq_zero fun e he => h.bulk e (mem_endpointsIn he).1 (mem_endpointsIn he).2

theorem EndpointsOk.bulkOut {os : List ℕ} (h : EndpointsOk data (BulkEndpoint data) os) :
    firstAddress data (endpointsOut data os) = 0 ↔ endpointsOut data os = [] :=
  firstAddress_eq_zero fun e he => h.bulk e (mem_endpointsOut he).1 (mem_endpointsOut he).2

/-- One more descriptor of a storage interface. -/
theorem parseStep_member {os : List ℕ} (H : EndpointsOk data (BulkEndpoint data) os) {o : ℕ}
    (ho : ¬ IsInterface data o) (c : UsbStorageInterface) (st' : StorageSearch) :
    parseStep data (true, foundIn data c os) o = some st' ↔
      EndpointsOk data (BulkEndpoint data) (os ++ [o]) ∧ st' = (true, foundIn data c (os ++ [o])) := by
  have hbulk : (IsEndpoint data o → BulkEndpoint data o) →
      ∀ e ∈ os ++ [o], IsEndpoint data e → BulkEndpoint data e := by
    intro hlast e he
    rcases List.mem_append.mp he with he | he
    · exact H.bulk e he
    · rw [List.mem_singleton.mp he]
      exact hlast
  rw [parseStep, if_neg ho]
  by_cases hend : IsEndpoint data o
  swap
  · -- not an endpoint: nothing changes
    have hin : endpointsIn data (os ++ [o]) = endpointsIn data os := by
      rw [endpointsIn_snoc, if_neg fun h => hend h.1, List.append_nil]
    have hout : endpointsOut data (os ++ [o]) = endpointsOut data os := by
      rw [endpointsOut_snoc, if_neg fun h => hend h.1, List.append_nil]
    rw [if_neg fun h => hend h.1, foundIn, foundIn, hin, hout]
    constructor
    · intro h
      refine ⟨⟨hbulk fun h5 => absurd h5 hend, ?_, ?_⟩, (Option.some.inj h).symm⟩
      · rw [hin]
        exact H.oneIn
      · rw [hout]
        exact H.oneOut
    · rintro ⟨-, rfl⟩
      rfl
  rw [if_pos ⟨hend, rfl⟩]
  by_cases hbad : data o < 7 ∨ data (o + 3) &&& 3 ≠ 2 ∨ data (o + 2) &&& 15 = 0 ∨
      data (o + 2) &&& 0x70 ≠ 0 ∨ data (o + 4) ||| data (o + 5) <<< 8 ≠ 512
  · rw [if_pos hbad]
    constructor
    · intro h
      cases h
    · rintro ⟨hok, -⟩
      have B := hok.bulk o (List.mem_append_right os List.mem_cons_self) hend
      rcases hbad with h | h | h | h | h
      · exact absurd B.length (Nat.not_le.mpr h)
      · exact absurd B.bulk h
      · exact absurd h B.number
      · exact absurd B.reserved h
      · exact absurd B.packet h
  rw [if_neg hbad]
  simp only [not_or, Nat.not_lt, Decidable.not_not] at hbad
  have hvalid := hbulk fun _ => ⟨hbad.1, hbad.2.1, hbad.2.2.1, hbad.2.2.2.1, hbad.2.2.2.2⟩
  by_cases hdir : IsIn data o
  · have hin : endpointsIn data (os ++ [o]) = endpointsIn data os ++ [o] := by
      rw [endpointsIn_snoc, if_pos ⟨hend, hdir⟩]
    have hout : endpointsOut data (os ++ [o]) = endpointsOut data os := by
      rw [endpointsOut_snoc, if_neg fun h => h.2 hdir, List.append_nil]
    rw [if_pos hdir]
    by_cases htwice : (foundIn data c os).bulkIn ≠ 0
    · rw [if_pos htwice]
      constructor
      · intro h
        cases h
      · rintro ⟨hok, -⟩
        have hone := hok.oneIn
        rw [hin, List.length_append] at hone
        have hnil : endpointsIn data os = [] := by
          refine List.eq_nil_of_length_eq_zero ?_
          have hlen : ([o] : List ℕ).length = 1 := rfl
          omega
        exact absurd (H.bulkIn.mpr hnil) htwice
    · rw [if_neg htwice]
      have hnil := H.bulkIn.mp (Decidable.not_not.mp htwice)
      rw [foundIn, foundIn, hout, hin, firstAddress_snoc o hnil]
      constructor
      · intro h
        refine ⟨⟨hvalid, ?_, ?_⟩, (Option.some.inj h).symm⟩
        · rw [hin, hnil]
          exact Nat.le_refl _
        · rw [hout]
          exact H.oneOut
      · rintro ⟨-, rfl⟩
        rfl
  · have hin : endpointsIn data (os ++ [o]) = endpointsIn data os := by
      rw [endpointsIn_snoc, if_neg fun h => hdir h.2, List.append_nil]
    have hout : endpointsOut data (os ++ [o]) = endpointsOut data os ++ [o] := by
      rw [endpointsOut_snoc, if_pos ⟨hend, hdir⟩]
    rw [if_neg hdir]
    by_cases htwice : (foundIn data c os).bulkOut ≠ 0
    · rw [if_pos htwice]
      constructor
      · intro h
        cases h
      · rintro ⟨hok, -⟩
        have hone := hok.oneOut
        rw [hout, List.length_append] at hone
        have hnil : endpointsOut data os = [] := by
          refine List.eq_nil_of_length_eq_zero ?_
          have hlen : ([o] : List ℕ).length = 1 := rfl
          omega
        exact absurd (H.bulkOut.mpr hnil) htwice
    · rw [if_neg htwice]
      have hnil := H.bulkOut.mp (Decidable.not_not.mp htwice)
      rw [foundIn, foundIn, hin, hout, firstAddress_snoc o hnil]
      constructor
      · intro h
        refine ⟨⟨hvalid, ?_, ?_⟩, (Option.some.inj h).symm⟩
        · rw [hin]
          exact H.oneIn
        · rw [hout, hnil]
          exact Nat.le_refl _
      · rintro ⟨-, rfl⟩
        rfl

/-- The descriptors of a storage interface. -/
theorem storage_members {os : List ℕ} (hos : ∀ o ∈ os, ¬ IsInterface data o)
    (c : UsbStorageInterface) (st' : StorageSearch) :
    os.foldlM (parseStep data) (true, foundIn data c []) = some st' ↔
      EndpointsOk data (BulkEndpoint data) os ∧ st' = (true, foundIn data c os) := by
  induction os using List.reverseRecOn generalizing st' with
  | nil =>
    constructor
    · intro h
      exact ⟨⟨fun e he => absurd he List.not_mem_nil, Nat.zero_le _, Nat.zero_le _⟩,
        (Option.some.inj h).symm⟩
    · rintro ⟨-, rfl⟩
      rfl
  | append_singleton os o ih =>
    have hos' : ∀ p ∈ os, ¬ IsInterface data p := fun p hp => hos p (List.mem_append_left _ hp)
    have ho : ¬ IsInterface data o := hos o (List.mem_append_right os List.mem_cons_self)
    rw [List.foldlM_append]
    constructor
    · intro h
      obtain ⟨mid, hmid, hlast⟩ := Option.bind_eq_some_iff.mp h
      obtain ⟨hok, rfl⟩ := (ih hos' mid).mp hmid
      rw [List.foldlM_cons] at hlast
      obtain ⟨last, hstep, hpure⟩ := Option.bind_eq_some_iff.mp hlast
      cases hpure
      exact (parseStep_member hok ho c _).mp hstep
    · rintro ⟨hok, rfl⟩
      have hfront : EndpointsOk data (BulkEndpoint data) os := by
        have hin := hok.oneIn
        have hout := hok.oneOut
        rw [endpointsIn_snoc, List.length_append] at hin
        rw [endpointsOut_snoc, List.length_append] at hout
        exact ⟨fun e he => hok.bulk e (List.mem_append_left _ he), by omega, by omega⟩
      rw [(ih hos' _).mpr ⟨hfront, rfl⟩]
      show (parseStep data (true, foundIn data c os) o).bind _ = _
      rw [(parseStep_member hfront ho c _).mpr ⟨hok, rfl⟩]
      rfl

/-- Outside storage interfaces the descriptors are skipped. -/
theorem other_members {os : List ℕ} (hos : ∀ o ∈ os, ¬ IsInterface data o)
    (c : UsbStorageInterface) : os.foldlM (parseStep data) (false, c) = some (false, c) := by
  induction os with
  | nil => rfl
  | cons o os ih =>
    have hstep : parseStep data (false, c) o = some (false, c) := by
      rw [parseStep, if_neg (hos o List.mem_cons_self), if_neg]
      rintro ⟨-, hfalse⟩
      cases hfalse
    rw [List.foldlM_cons, hstep]
    exact ih fun p hp => hos p (List.mem_cons_of_mem o hp)

/-- The search at the end of an interface. -/
def leaveStorage (data : ℕ → ℕ) (c : UsbStorageInterface) (s : ℕ × List ℕ) : StorageSearch :=
  if IsStorage data s.1 then (true, foundIn data { c with interfaceNumber := data (s.1 + 2) } s.2)
  else (false, foundIn data { c with interfaceNumber := data (s.1 + 2) } [])

/-- One interface. -/
theorem storage_section {s : ℕ × List ℕ} (hhead : IsInterface data s.1)
    (hmem : ∀ o ∈ s.2, ¬ IsInterface data o) (st st' : StorageSearch) :
    (s.1 :: s.2).foldlM (parseStep data) st = some st' ↔
      9 ≤ data s.1 ∧ ¬ BothFound st ∧ (IsStorage data s.1 → EndpointsOk data (BulkEndpoint data) s.2) ∧
        st' = leaveStorage data st.2 s := by
  rw [List.foldlM_cons, parseStep, if_pos hhead, leaveStorage]
  by_cases hrej : data s.1 < 9 ∨ BothFound st
  · rw [if_pos hrej]
    constructor
    · intro h
      cases h
    · rintro ⟨hlen, hboth, -⟩
      rcases hrej with h | h
      · exact absurd hlen (Nat.not_le.mpr h)
      · exact absurd h hboth
  rw [if_neg hrej]
  rw [not_or, Nat.not_lt] at hrej
  show s.2.foldlM (parseStep data) (enterStorage data s.1 st.2) = some st' ↔ _
  by_cases hst : IsStorage data s.1
  · have henter : enterStorage data s.1 st.2 =
        (true, foundIn data { st.2 with interfaceNumber := data (s.1 + 2) } []) := by
      rw [enterStorage, decide_eq_true hst]
      rfl
    rw [henter, storage_members hmem, if_pos hst]
    constructor
    · rintro ⟨hok, rfl⟩
      exact ⟨hrej.1, hrej.2, fun _ => hok, rfl⟩
    · rintro ⟨-, -, hok, rfl⟩
      exact ⟨hok hst, rfl⟩
  · have henter : enterStorage data s.1 st.2 =
        (false, foundIn data { st.2 with interfaceNumber := data (s.1 + 2) } []) := by
      rw [enterStorage, decide_eq_false hst]
      rfl
    rw [henter, other_members hmem, if_neg hst]
    constructor
    · intro h
      exact ⟨hrej.1, hrej.2, fun h => absurd h hst, (Option.some.inj h).symm⟩
    · rintro ⟨-, -, -, rfl⟩
      rfl

/-- A complete interface is one with both endpoints. -/
theorem leaveStorage_both {s : ℕ × List ℕ} (hok : IsStorage data s.1 → EndpointsOk data (BulkEndpoint data) s.2)
    (c : UsbStorageInterface) : BothFound (leaveStorage data c s) ↔ CompleteStorage data s := by
  have hone : ∀ {l : List ℕ}, l.length ≤ 1 → (l ≠ [] ↔ l.length = 1) := by
    intro l hl
    rw [← List.length_pos_iff_ne_nil]
    omega
  by_cases hst : IsStorage data s.1
  · have H := hok hst
    rw [leaveStorage, if_pos hst]
    constructor
    · rintro ⟨-, hin, hout⟩
      exact ⟨hst, (hone H.oneIn).mp fun h => hin (H.bulkIn.mpr h),
        (hone H.oneOut).mp fun h => hout (H.bulkOut.mpr h)⟩
    · intro hc
      exact ⟨rfl, fun h => (hone H.oneIn).mpr hc.hasIn (H.bulkIn.mp h),
        fun h => (hone H.oneOut).mpr hc.hasOut (H.bulkOut.mp h)⟩
  · rw [leaveStorage, if_neg hst]
    constructor
    · rintro ⟨hfalse, -⟩
      cases hfalse
    · intro hc
      exact absurd hc.storage hst

/-- The candidate's configuration is never changed. -/
theorem leaveStorage_configuration (data : ℕ → ℕ) (c : UsbStorageInterface) (s : ℕ × List ℕ) :
    (leaveStorage data c s).2.configuration = c.configuration := by
  rw [leaveStorage]
  split <;> rfl

/-- The fold does not go past a complete interface. -/
theorem sections_not_both {earlier : List (ℕ × List ℕ)} {s : ℕ × List ℕ}
    (hheads : ∀ t ∈ earlier ++ [s], IsInterface data t.1)
    (hmem : ∀ t ∈ earlier ++ [s], ∀ o ∈ t.2, ¬ IsInterface data o) {st st' : StorageSearch}
    (h : ((earlier ++ [s]).flatMap fun t => t.1 :: t.2).foldlM (parseStep data) st = some st') :
    ¬ BothFound st := by
  obtain ⟨u, us, hus⟩ := List.exists_cons_of_ne_nil
    (List.append_ne_nil_of_right_ne_nil earlier (List.cons_ne_nil s []))
  rw [hus] at hheads hmem h
  rw [List.flatMap_cons, List.foldlM_append] at h
  obtain ⟨mid, hmid, -⟩ := Option.bind_eq_some_iff.mp h
  exact ((storage_section (hheads u List.mem_cons_self) (hmem u List.mem_cons_self) st mid).mp
    hmid).2.1

/-- **The interfaces**: the fold over `earlier` and `s` ends with both endpoints exactly
when `s` is the first complete storage interface. -/
theorem storage_sections {earlier : List (ℕ × List ℕ)} {s : ℕ × List ℕ}
    (hheads : ∀ t ∈ earlier ++ [s], IsInterface data t.1)
    (hmem : ∀ t ∈ earlier ++ [s], ∀ o ∈ t.2, ¬ IsInterface data o) (st : StorageSearch)
    (hst : ¬ BothFound st) (r : UsbStorageInterface) :
    (∃ st', ((earlier ++ [s]).flatMap fun t => t.1 :: t.2).foldlM (parseStep data) st = some st' ∧
        BothFound st' ∧ r = st'.2) ↔
      (∀ t ∈ earlier ++ [s], 9 ≤ data t.1) ∧
      (∀ t ∈ earlier ++ [s], IsStorage data t.1 → EndpointsOk data (BulkEndpoint data) t.2) ∧
      (∀ t ∈ earlier, ¬ CompleteStorage data t) ∧ CompleteStorage data s ∧
      r = ⟨st.2.configuration, data (s.1 + 2), firstAddress data (endpointsIn data s.2),
        firstAddress data (endpointsOut data s.2)⟩ := by
  induction earlier generalizing st with
  | nil =>
    have hhead : IsInterface data s.1 := hheads s List.mem_cons_self
    have hmems : ∀ o ∈ s.2, ¬ IsInterface data o := hmem s List.mem_cons_self
    have hflat : (([] ++ [s] : List (ℕ × List ℕ)).flatMap fun t => t.1 :: t.2) = s.1 :: s.2 :=
      List.append_nil _
    have hall : ∀ P : ℕ × List ℕ → Prop, (∀ t ∈ ([] ++ [s] : List _), P t) ↔ P s :=
      fun P => List.forall_mem_singleton
    rw [hflat, hall, hall]
    have hlast : CompleteStorage data s → (leaveStorage data st.2 s).2 =
        ⟨st.2.configuration, data (s.1 + 2), firstAddress data (endpointsIn data s.2),
          firstAddress data (endpointsOut data s.2)⟩ := by
      intro hc
      rw [leaveStorage, if_pos hc.storage]
      rfl
    constructor
    · rintro ⟨st', hfold, hboth, rfl⟩
      obtain ⟨hlen, -, hok, rfl⟩ := (storage_section hhead hmems st st').mp hfold
      have hc := (leaveStorage_both hok st.2).mp hboth
      exact ⟨hlen, hok, fun t ht => absurd ht List.not_mem_nil, hc, hlast hc⟩
    · rintro ⟨hlen, hok, -, hc, rfl⟩
      exact ⟨_, (storage_section hhead hmems st _).mpr ⟨hlen, hst, hok, rfl⟩,
        (leaveStorage_both hok st.2).mpr hc, (hlast hc).symm⟩
  | cons t earlier ih =>
    have hhead : IsInterface data t.1 := hheads t List.mem_cons_self
    have hmemt : ∀ o ∈ t.2, ¬ IsInterface data o := hmem t List.mem_cons_self
    have hheads' : ∀ u ∈ earlier ++ [s], IsInterface data u.1 :=
      fun u hu => hheads u (List.mem_cons_of_mem t hu)
    have hmem' : ∀ u ∈ earlier ++ [s], ∀ o ∈ u.2, ¬ IsInterface data o :=
      fun u hu => hmem u (List.mem_cons_of_mem t hu)
    have hconf := leaveStorage_configuration data st.2 t
    rw [List.cons_append, List.flatMap_cons, List.foldlM_append]
    constructor
    · rintro ⟨st', hfold, hboth, rfl⟩
      obtain ⟨mid, hmid, hrest⟩ := Option.bind_eq_some_iff.mp hfold
      obtain ⟨hlen, -, hok, rfl⟩ := (storage_section hhead hmemt st mid).mp hmid
      have hnot : ¬ BothFound (leaveStorage data st.2 t) := sections_not_both hheads' hmem' hrest
      obtain ⟨hlens, hoks, hfirst, hc, hr⟩ :=
        (ih hheads' hmem' _ hnot).mp ⟨st', hrest, hboth, rfl⟩
      rw [hconf] at hr
      refine ⟨fun u hu => ?_, fun u hu => ?_, fun u hu => ?_, hc, hr⟩
      · rcases List.mem_cons.mp hu with rfl | hu
        · exact hlen
        · exact hlens u hu
      · rcases List.mem_cons.mp hu with rfl | hu
        · exact hok
        · exact hoks u hu
      · rcases List.mem_cons.mp hu with rfl | hu
        · exact fun h => hnot ((leaveStorage_both hok st.2).mpr h)
        · exact hfirst u hu
    · rintro ⟨hlens, hoks, hfirst, hc, hr⟩
      have hok := hoks t List.mem_cons_self
      have hnot : ¬ BothFound (leaveStorage data st.2 t) := fun h =>
        hfirst t List.mem_cons_self ((leaveStorage_both hok st.2).mp h)
      rw [← hconf] at hr
      obtain ⟨st', hrest, hboth, hr'⟩ := (ih hheads' hmem' _ hnot).mpr
        ⟨fun u hu => hlens u (List.mem_cons_of_mem t hu),
          fun u hu => hoks u (List.mem_cons_of_mem t hu),
          fun u hu => hfirst u (List.mem_cons_of_mem t hu), hc, hr⟩
      refine ⟨st', ?_, hboth, hr'⟩
      rw [(storage_section hhead hmemt st _).mpr
        ⟨hlens t List.mem_cons_self, hst, hok, rfl⟩]
      exact hrest

end Fold

/-! ### The parser -/

section Parser

variable {data data' : ℕ → ℕ} {n : ℕ}

/-- The parser accepts the grammar, and returns the first complete interface. -/
theorem bootParse_iff (r : UsbStorageInterface) : bootParseUsbConfiguration data n = some r ↔
    ∃ lead earlier s, StorageGrammar data (BulkEndpoint data) n lead earlier s ∧
      r = storageInterface data s := by
  have hno : ∀ c : UsbStorageInterface, ¬ BothFound (false, c) := by
    rintro c ⟨hfalse, -⟩
    cases hfalse
  rw [bootParseUsbConfiguration]
  by_cases hhead : n < 9 ∨ data 0 ≠ 9 ∨ data 1 ≠ 2 ∨ (data 2 ||| data 3 <<< 8) ≠ n ∨ data 5 = 0
  · rw [if_pos hhead]
    constructor
    · intro h
      cases h
    · rintro ⟨lead, earlier, s, H, -⟩
      rcases hhead with h | h | h | h | h
      · exact absurd H.atLeast (Nat.not_le.mpr h)
      · exact absurd H.headerLength h
      · exact absurd H.headerType h
      · exact absurd H.total h
      · exact absurd h H.value
  rw [if_neg hhead]
  simp only [not_or, Nat.not_lt, Decidable.not_not] at hhead
  obtain ⟨hmin, hlen, htype, htotal, hvalue⟩ := hhead
  refine (parseDescriptors_iff hmin (show n - 9 < n by omega) (false, ⟨data 5, 0, 0, 0⟩) r).trans ?_
  constructor
  · rintro ⟨os, m, st', hos, hstop, hfold, hboth, rfl⟩
    obtain ⟨lead, secs, hsecs⟩ := exists_sections (IsInterface data) os
    have hconcat := hsecs.concat
    rw [hconcat, List.foldlM_append, other_members hsecs.lead] at hfold
    rcases List.eq_nil_or_concat secs with rfl | ⟨earlier, s, rfl⟩
    · -- no interface at all
      cases hfold
      exact absurd hboth (hno _)
    · rw [List.concat_eq_append] at hsecs hfold
      obtain ⟨hlens, hoks, hfirst, hc, hr⟩ :=
        (storage_sections hsecs.heads hsecs.members _ (hno _) _).mp ⟨st', hfold, hboth, rfl⟩
      exact ⟨lead, earlier, s, ⟨hmin, hlen, htype, htotal, hvalue, ⟨os, m, hos, hstop, hsecs⟩,
        hlens, hoks, hfirst, hc⟩, hr⟩
  · rintro ⟨lead, earlier, s, H, hr⟩
    obtain ⟨os, m, hos, hstop, hsecs⟩ := H.descriptors
    obtain ⟨st', hfold, hboth, hr'⟩ :=
      (storage_sections hsecs.heads hsecs.members (false, ⟨data 5, 0, 0, 0⟩) (hno _) r).mpr
        ⟨H.interfaces, H.endpoints, H.first, H.complete, hr⟩
    refine ⟨os, m, st', hos, hstop, ?_, hboth, hr'⟩
    rw [hsecs.concat, List.foldlM_append, other_members hsecs.lead]
    exact hfold

/-! The parser reads the first `n` bytes only. -/

/-- A descriptor inside the first `n` bytes. -/
theorem parseStep_congr (hdata : ∀ i < n, data' i = data i) {o : ℕ} (hlen : 2 ≤ data o)
    (hfit : o + data o ≤ n) (st : StorageSearch) : parseStep data' st o = parseStep data st o := by
  have hat : ∀ i < data o, data' (o + i) = data (o + i) := fun i hi => hdata _ (by omega)
  have h0 : data' o = data o := hat 0 (by omega)
  have h1 : data' (o + 1) = data (o + 1) := hat 1 (by omega)
  rw [parseStep, parseStep]
  by_cases hint : IsInterface data o
  · rw [if_pos hint, if_pos (show IsInterface data' o from h1.trans hint), h0]
    by_cases hrej : data o < 9 ∨ BothFound st
    · rw [if_pos hrej, if_pos hrej]
    · have hlong : 9 ≤ data o := Nat.not_lt.mp fun h => hrej (Or.inl h)
      have hst : IsStorage data' o ↔ IsStorage data o := by
        rw [IsStorage, hat 3 (by omega), hat 4 (by omega), hat 5 (by omega), hat 6 (by omega),
          hat 7 (by omega)]
      rw [if_neg hrej, if_neg hrej, enterStorage, enterStorage, hat 2 (by omega),
        decide_eq_decide.mpr hst]
  rw [if_neg hint, if_neg (show ¬ IsInterface data' o from fun h => hint (h1.symm.trans h))]
  by_cases hend : IsEndpoint data o ∧ st.1 = true
  swap
  · rw [if_neg hend, if_neg fun h => hend ⟨h1.symm.trans h.1, h.2⟩]
  rw [if_pos hend, if_pos ⟨h1.trans hend.1, hend.2⟩, h0]
  by_cases hshort : data o < 7
  · rw [if_pos (Or.inl hshort), if_pos (Or.inl hshort)]
  · have hlong : 7 ≤ data o := Nat.not_lt.mp hshort
    simp only [IsIn, hat 2 (by omega), hat 3 (by omega), hat 4 (by omega), hat 5 (by omega)]

theorem parseDescriptors_congr (hdata : ∀ i < n, data' i = data i) (fuel o : ℕ)
    (st : StorageSearch) : parseDescriptors data' n fuel o st.1 st.2 =
      parseDescriptors data n fuel o st.1 st.2 := by
  induction fuel generalizing o st with
  | zero => rfl
  | succ fuel ih =>
    by_cases ho : o < n
    · have h0 : data' o = data o := hdata o ho
      rw [parseDescriptors_succ ho, parseDescriptors_succ ho, h0]
      by_cases hsize : data o < 2 ∨ n - o < data o
      · rw [if_pos hsize, if_pos hsize]
      have h1 : data' (o + 1) = data (o + 1) := hdata _ (by omega)
      rw [if_neg hsize, if_neg hsize, parseStep_congr hdata (by omega) (by omega) st]
      by_cases hstop : IsInterface data o ∧ 9 ≤ data o ∧ BothFound st
      · rw [if_pos hstop, if_pos ⟨h1.trans hstop.1, hstop.2⟩]
      · rw [if_neg hstop, if_neg fun h => hstop ⟨h1.symm.trans h.1, h.2⟩]
        congr 1
        funext st'
        exact ih _ st'
    · rw [parseDescriptors, parseDescriptors, if_pos (Nat.not_lt.mp ho), if_pos (Nat.not_lt.mp ho)]

theorem bootParse_congr (hdata : ∀ i < n, data' i = data i) :
    bootParseUsbConfiguration data' n = bootParseUsbConfiguration data n := by
  rw [bootParseUsbConfiguration, bootParseUsbConfiguration]
  by_cases hn : n < 9
  · rw [if_pos (Or.inl hn), if_pos (Or.inl hn)]
  · have hloop := parseDescriptors_congr hdata n 9 (false, ⟨data 5, 0, 0, 0⟩)
    simp only [hdata 0 (by omega), hdata 1 (by omega), hdata 2 (by omega), hdata 3 (by omega),
      hdata 5 (by omega), hloop]

end Parser

/-- **The parser accepts exactly the grammar** of the storage configurations, with
endpoints of at least seven bytes without reserved address bits; it returns the first
complete interface and reads the first `n` bytes only. -/
theorem parse_configuration_grammar (data : ℕ → ℕ) (n : ℕ) :
    (∀ r, bootParseUsbConfiguration data n = some r ↔
      ∃ lead earlier s, StorageGrammar data (BulkEndpoint data) n lead earlier s ∧
        r = storageInterface data s) ∧
    ∀ data' : ℕ → ℕ, (∀ i < n, data' i = data i) →
      bootParseUsbConfiguration data' n = bootParseUsbConfiguration data n :=
  ⟨bootParse_iff, fun _ hdata => bootParse_congr hdata⟩

/-! Without these two conditions on endpoints the grammar is larger. -/

/-- A bulk endpoint with a nonzero number and 512-byte packets. -/
abbrev NumberedBulk (data : ℕ → ℕ) (e : ℕ) : Prop :=
  data (e + 3) &&& 3 = 2 ∧ data (e + 2) &&& 15 ≠ 0 ∧ data (e + 4) ||| data (e + 5) <<< 8 = 512

/-- A storage interface with an IN endpoint and an OUT endpoint of `len` bytes at the
address `address`. -/
def storageBytes (len address : ℕ) (i : ℕ) : ℕ :=
  [9, 2, 25 + len, 0, 1, 1, 0, 0x80, 50, 9, 4, 0, 0, 2, 8, 6, 0x50, 0,
    7, 5, 0x81, 2, 0, 2, 0, len, 5, address, 2, 0, 2, 0].getD i 0

theorem storageBytes_grammar {len address : ℕ}
    (h : len = 6 ∧ address = 0x02 ∨ len = 7 ∧ address = 0x12) :
    StorageGrammar (storageBytes len address) (NumberedBulk (storageBytes len address)) (25 + len)
      [] [] (9, [18, 25]) := by
  have hall : ∀ P : ℕ × List ℕ → Prop, P (9, [18, 25]) →
      ∀ t ∈ ([] ++ [(9, [18, 25])] : List (ℕ × List ℕ)), P t := by
    intro P hP t ht
    rw [List.mem_singleton.mp ht]
    exact hP
  have hos : Records (storageBytes len address) 2 (25 + len) 9 [9, 18, 25] := by
    have hlen : storageBytes len address 25 = len := rfl
    have h9 : 2 ≤ 9 := by decide
    have h7 : 2 ≤ 7 := by decide
    refine Records.cons h9 ?_ (Records.cons h7 ?_ ?_)
    · show 18 ≤ 25 + len
      omega
    · show 25 ≤ 25 + len
      omega
    · refine Records.cons ?_ ?_ ?_
      · show 2 ≤ len
        omega
      · exact Nat.le_refl _
      · exact Records.nil
  have hsecs : Sections (IsInterface (storageBytes len address)) [9, 18, 25] []
      ([] ++ [(9, [18, 25])]) := by
    refine ⟨rfl, fun o ho => absurd ho List.not_mem_nil, hall _ rfl, hall _ ?_⟩
    intro o ho
    rcases List.mem_pair.mp ho with rfl | rfl
    · exact fun h4 => absurd (show 5 = 4 from h4) (by decide)
    · exact fun h4 => absurd (show 5 = 4 from h4) (by decide)
  refine ⟨by omega, rfl, rfl, ?_, Nat.one_ne_zero, ⟨_, _, hos, Or.inl rfl, hsecs⟩,
    hall _ (Nat.le_refl 9), hall _ fun _ => ?_, fun t ht => absurd ht List.not_mem_nil, ?_⟩
  · rcases h with ⟨rfl, rfl⟩ | ⟨rfl, rfl⟩
    · decide
    · decide
  · rcases h with ⟨rfl, rfl⟩ | ⟨rfl, rfl⟩
    · exact ⟨by decide, by decide, by decide⟩
    · exact ⟨by decide, by decide, by decide⟩
  · rcases h with ⟨rfl, rfl⟩ | ⟨rfl, rfl⟩
    · exact ⟨by decide, by decide, by decide⟩
    · exact ⟨by decide, by decide, by decide⟩

/-- An OUT endpoint of six bytes, and one with a reserved address bit, are refused. -/
theorem parse_refuses_endpoint :
    (StorageGrammar (storageBytes 6 0x02) (NumberedBulk (storageBytes 6 0x02)) 31 [] []
        (9, [18, 25]) ∧ bootParseUsbConfiguration (storageBytes 6 0x02) 31 = none) ∧
      StorageGrammar (storageBytes 7 0x12) (NumberedBulk (storageBytes 7 0x12)) 32 [] []
        (9, [18, 25]) ∧ bootParseUsbConfiguration (storageBytes 7 0x12) 32 = none :=
  ⟨⟨storageBytes_grammar (Or.inl ⟨rfl, rfl⟩), by decide⟩,
    storageBytes_grammar (Or.inr ⟨rfl, rfl⟩), by decide⟩

/-- With a whole endpoint the interface is found. -/
example : bootParseUsbConfiguration (storageBytes 7 0x02) 32 = some ⟨1, 0, 0x81, 2⟩ := by decide

end VirtualKernel
