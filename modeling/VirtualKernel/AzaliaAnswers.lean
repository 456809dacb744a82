/-
What the log of a codec probe says.

The queries of a run follow its parts, so each is well formed, and an answer that decides
the probe stands at one place of the log.  With that, whether a codec is ready can be read
off the log.

* **`CodecQuery.wellFormed`** — the verbs a probe sends decode to what it asks;
* **`CodecRun.ready_iff`** — a probe ends with a codec exactly when nothing failed and the
  answers describe one;
* **`azaliaProbeCodec_exact`** — all of it for a probe from any state, with any `send`.
-/
import VirtualKernel.AzaliaProbe

namespace VirtualKernel

open Lib

/-! ### Queries -/

/-- A node that is not the root. -/
def SubNode (n : ℕ) : Prop := 0 < n ∧ n ≤ 255

/-- The queries to an audio group and its widgets. -/
inductive WidgetQuery (c g : ℕ) : AzaliaQuery → Prop
  | nodes : WidgetQuery c g (parameterOf c g 4)
  | capabilities {n : ℕ} (hn : SubNode n) : WidgetQuery c g (parameterOf c n 9)
  | pin {n : ℕ} (hn : SubNode n) : WidgetQuery c g ⟨c, n, 0xF1C, 0⟩
  | pcm {n : ℕ} (hn : SubNode n) : WidgetQuery c g (parameterOf c n 0xA)
  | formats {n : ℕ} (hn : SubNode n) : WidgetQuery c g (parameterOf c n 0xB)

/-- The queries to the nodes of a codec. -/
inductive GroupQuery (c : ℕ) : AzaliaQuery → Prop
  | nodes : GroupQuery c (parameterOf c 0 4)
  | type {n : ℕ} (hn : SubNode n) : GroupQuery c (parameterOf c n 5)
  | widget {g : ℕ} {q : AzaliaQuery} (hg : SubNode g) (h : WidgetQuery c g q) : GroupQuery c q

/-- The queries of a probe. -/
inductive CodecQuery (mask : ℕ) : AzaliaQuery → Prop
  | vendor {c : ℕ} (hc : c < 15) (hmask : mask.testBit c = true) : CodecQuery mask (parameterOf c 0 0)
  | revision {c : ℕ} (hc : c < 15) (hmask : mask.testBit c = true) :
      CodecQuery mask (parameterOf c 0 2)
  | group {c : ℕ} {q : AzaliaQuery} (hc : c < 15) (hmask : mask.testBit c = true)
      (h : GroupQuery c q) : CodecQuery mask q

theorem parameterOf_fits {c n id : ℕ} (hc : c < 15) (hn : n ≤ 255) (hid : id ≤ 255) :
    (parameterOf c n id).Fits :=
  ⟨Nat.le_of_lt_succ hc, hn, show 0xF00 ≤ 0xFFF by decide, hid⟩

theorem WidgetQuery.fits {c g : ℕ} {q : AzaliaQuery} (hc : c < 15) (hg : SubNode g)
    (h : WidgetQuery c g q) : q.codec = c ∧ q.Fits := by
  cases h with
  | nodes => exact ⟨rfl, parameterOf_fits hc hg.2 (by decide)⟩
  | capabilities hn => exact ⟨rfl, parameterOf_fits hc hn.2 (by decide)⟩
  | pin hn =>
    exact ⟨rfl, Nat.le_of_lt_succ hc, hn.2, show 0xF1C ≤ 0xFFF by decide, Nat.zero_le _⟩
  | pcm hn => exact ⟨rfl, parameterOf_fits hc hn.2 (by decide)⟩
  | formats hn => exact ⟨rfl, parameterOf_fits hc hn.2 (by decide)⟩

theorem GroupQuery.fits {c : ℕ} {q : AzaliaQuery} (hc : c < 15) (h : GroupQuery c q) :
    q.codec = c ∧ q.Fits := by
  cases h with
  | nodes => exact ⟨rfl, parameterOf_fits hc (by decide) (by decide)⟩
  | type hn => exact ⟨rfl, parameterOf_fits hc hn.2 (by decide)⟩
  | widget hg h => exact h.fits hc hg

/-- A query of a probe fits, to a codec of the mask. -/
theorem CodecQuery.fits {mask : ℕ} {q : AzaliaQuery} (h : CodecQuery mask q) :
    mask.testBit q.codec = true ∧ q.Fits := by
  cases h with
  | vendor hc hmask => exact ⟨hmask, parameterOf_fits hc (by decide) (by decide)⟩
  | revision hc hmask => exact ⟨hmask, parameterOf_fits hc (by decide) (by decide)⟩
  | group hc hmask h =>
    obtain ⟨hcodec, hfits⟩ := h.fits hc
    rw [hcodec]
    exact ⟨hmask, hfits⟩

/-- **The verbs of a probe** decode to what it asks, and none is the error value. -/
theorem CodecQuery.wellFormed {mask : ℕ} {q : AzaliaQuery} (h : CodecQuery mask q) :
    q.command ≠ 0xFFFFFFFF ∧ decodeVerb q.command = q ∧ mask.testBit q.codec = true ∧
      q.node < 256 := by
  obtain ⟨hmask, hfits⟩ := h.fits
  obtain ⟨hdecode, hlt⟩ := azaliaVerb_decode hfits
  exact ⟨by omega, hdecode, hmask, Nat.lt_succ_of_le hfits.node⟩

theorem parameterOf_inj {c n id c' n' id' : ℕ} :
    parameterOf c n id = parameterOf c' n' id' ↔ c = c' ∧ n = n' ∧ id = id' := by
  rw [parameterOf, parameterOf, AzaliaQuery.mk.injEq]
  tauto

/-- A widget is not asked for the type of a group. -/
theorem WidgetQuery.ne_type {c g : ℕ} {q : AzaliaQuery} (h : WidgetQuery c g q) (c' n : ℕ) :
    q ≠ parameterOf c' n 5 := by
  intro hq
  cases h <;> simp [parameterOf] at hq

/-- A node is not asked for the vendor. -/
theorem GroupQuery.ne_vendor {c : ℕ} {q : AzaliaQuery} (h : GroupQuery c q) (c' n : ℕ) :
    q ≠ parameterOf c' n 0 := by
  intro hq
  cases h with
  | nodes => simp [parameterOf] at hq
  | type => simp [parameterOf] at hq
  | widget hg h => cases h <;> simp [parameterOf] at hq

theorem exchange_queries {c g : ℕ} {w : AzaliaWidget} (hg : SubNode g) (hw : SubNode w.node) :
    ∀ e ∈ exchange c g w, WidgetQuery c g e.1 := by
  intro e he
  have hformat : SubNode (w.formatNode g) := by
    rw [AzaliaWidget.formatNode]
    split_ifs
    · exact hw
    · exact hg
  rw [exchange, List.mem_cons, List.mem_append] at he
  rcases he with rfl | he | he
  · exact .capabilities hw
  · rw [pinExchange] at he
    split_ifs at he with htype
    · rw [List.mem_singleton.mp he]
      exact .pin hw
    · exact absurd he List.not_mem_nil
  · rw [formatExchange] at he
    split_ifs at he with htype
    · rcases List.mem_cons.mp he with rfl | he
      · exact .pcm hformat
      · rw [List.mem_singleton.mp he]
        exact .formats hformat
    · exact absurd he List.not_mem_nil

theorem cut_queries {c g n : ℕ} {log : AzaliaLog} (hg : SubNode g) (hn : SubNode n)
    (h : Cut c g n log) : ∀ e ∈ log, WidgetQuery c g e.1 := by
  obtain ⟨w, part', q, stored, v, rfl, rfl, hpref⟩ := h
  have hall := exchange_queries (c := c) hg hn
  intro e he
  rcases List.mem_append.mp he with he | he
  · exact hall e (hpref.subset (List.mem_append_left _ he))
  · rw [List.mem_singleton.mp he]
    exact hall (q, .answer v) (hpref.subset (List.mem_append_right _ (List.mem_singleton.mpr rfl)))

theorem exchanges_queries {c g start n : ℕ} {widgets : ℕ → AzaliaWidget} (hg : SubNode g)
    (hread : ∀ i < n, WidgetRead start i (widgets i)) (hstart : 0 < start)
    (hend : start + n ≤ 256) : ∀ e ∈ exchanges c g 0 n widgets, WidgetQuery c g e.1 := by
  intro e he
  obtain ⟨i, hi, he⟩ := List.mem_flatMap.mp he
  have hlt : i < n := by simpa using List.mem_range'_1.mp hi
  refine exchange_queries hg ?_ e he
  rw [(hread i hlt).node]
  exact ⟨by omega, by omega⟩

theorem subNode_of_inNodes {nodes n : ℕ} (h : NodeRange nodes) (hn : InNodes nodes n) :
    SubNode n := by
  obtain ⟨hstart, -, hend⟩ := h
  obtain ⟨hle, hlt⟩ := hn
  exact ⟨by omega, by omega⟩

/-! ### The queries of a run -/

section Queries

variable {mask c g r count : ℕ} {log : AzaliaLog} {widgets : ℕ → AzaliaWidget}

theorem WidgetsRun.queries (h : WidgetsRun c g log r count widgets) (hg : SubNode g) :
    ∀ e ∈ log, WidgetQuery c g e.1 := by
  cases h with
  | timeout stored =>
    intro e he
    rw [List.mem_singleton.mp he]
    exact .nodes
  | badRange nodes =>
    intro e he
    rw [List.mem_singleton.mp he]
    exact .nodes
  | cut nodes k _ rest hrange hk hread hcut =>
    obtain ⟨⟨hstart, -, hend⟩, -⟩ := hrange
    intro e he
    rcases List.mem_cons.mp he with rfl | he
    · exact .nodes
    · rcases List.mem_append.mp he with he | he
      · exact exchanges_queries hg hread (by omega) (by omega) e he
      · exact cut_queries hg ⟨by omega, by omega⟩ hcut e he
  | ready nodes _ hrange hread =>
    obtain ⟨⟨hstart, -, hend⟩, -⟩ := hrange
    intro e he
    rcases List.mem_cons.mp he with rfl | he
    · exact .nodes
    · exact exchanges_queries hg hread (by omega) (by omega) e he

theorem noGroup_queries {nodes hi : ℕ} (hrange : NodeRange nodes)
    (h : NoGroup c hi (nodesStart nodes) log) (hhi : hi ≤ nodesStart nodes + nodesCount nodes) :
    ∀ e ∈ log, GroupQuery c e.1 := by
  intro e he
  obtain ⟨n, type, hlo, hn, -, rfl⟩ := h.mem.2 e he
  exact .type (subNode_of_inNodes hrange ⟨hlo, by omega⟩)

/-- Every verb of such a run is one that the probe means to send. -/
theorem GroupRun.queries (h : GroupRun c log r count widgets) : ∀ e ∈ log, GroupQuery c e.1 := by
  cases h with
  | timeout stored =>
    intro e he
    rw [List.mem_singleton.mp he]
    exact .nodes
  | badRange nodes =>
    intro e he
    rw [List.mem_singleton.mp he]
    exact .nodes
  | nodeTimeout nodes n log stored _ hrange hlog hn =>
    intro e he
    rcases List.mem_cons.mp he with rfl | he
    · exact .nodes
    · rcases List.mem_append.mp he with he | he
      · exact noGroup_queries hrange hlog hn.2.le e he
      · rw [List.mem_singleton.mp he]
        exact .type (subNode_of_inNodes hrange hn)
  | noGroup nodes log _ hrange hlog =>
    intro e he
    rcases List.mem_cons.mp he with rfl | he
    · exact .nodes
    · exact noGroup_queries hrange hlog le_rfl e he
  | found nodes g type log rest _ _ _ hrange hlog hg htype hrest =>
    -- the root range, the search, the type of the group, and the widgets
    have hsub := subNode_of_inNodes hrange hg
    intro e he
    rcases List.mem_cons.mp he with rfl | he
    · exact .nodes
    · rcases List.mem_append.mp he with he | he
      · exact noGroup_queries hrange hlog hg.2.le e he
      · rcases List.mem_cons.mp he with rfl | he
        · exact .type hsub
        · exact .widget hsub (hrest.queries hsub e he)

theorem misses_queries {hi : ℕ} (h : Misses mask hi 0 log) (hhi : hi ≤ 15) :
    ∀ e ∈ log, CodecQuery mask e.1 := by
  intro e he
  obtain ⟨c, v, hc, hmask, -, rfl⟩ := (h.mem hhi).2 e he
  exact .vendor hc hmask

/-- Everything a probe asks is a query of a probe. -/
theorem CodecRun.queries (h : CodecRun mask log r count widgets) :
    ∀ e ∈ log, CodecQuery mask e.1 := by
  cases h with
  | timeout c log stored _ hlog hc hmask =>
    intro e he
    rcases List.mem_append.mp he with he | he
    · exact misses_queries hlog hc.le e he
    · rw [List.mem_singleton.mp he]
      exact .vendor hc hmask
  | notFound log _ hlog => exact misses_queries hlog le_rfl
  | revisionTimeout c log stored _ hlog hc hmask =>
    intro e he
    rcases List.mem_append.mp he with he | he
    · exact misses_queries hlog hc.le e he
    · rcases List.mem_cons.mp he with rfl | he
      · exact .vendor hc hmask
      · rw [List.mem_singleton.mp he]
        exact .revision hc hmask
  | found c revision log rest _ _ _ hlog hc hmask hrest =>
    intro e he
    rcases List.mem_append.mp he with he | he
    · exact misses_queries hlog hc.le e he
    · rcases List.mem_cons.mp he with rfl | he
      · exact .vendor hc hmask
      · rcases List.mem_cons.mp he with rfl | he
        · exact .revision hc hmask
        · exact .group hc hmask (hrest.queries e he)

end Queries

/-! ### When a codec is ready -/

/-- No call failed. -/
def NoFailure (log : AzaliaLog) : Prop := ∀ e ∈ log, ∃ v, e.2 = .answer v

theorem NoFailure.not_failure {log : AzaliaLog} (h : NoFailure log) (q : AzaliaQuery)
    (stored : Option ℕ) : (q, .failure stored) ∉ log := by
  intro hmem
  obtain ⟨v, hv⟩ := h _ hmem
  exact AzaliaReply.noConfusion hv

theorem noFailure_cons {log : AzaliaLog} {q : AzaliaQuery} {v : ℕ} (h : NoFailure log) :
    NoFailure ((q, .answer v) :: log) := by
  intro e he
  rcases List.mem_cons.mp he with rfl | he
  · exact ⟨v, rfl⟩
  · exact h e he

theorem noFailure_append {log log' : AzaliaLog} (h : NoFailure log) (h' : NoFailure log') :
    NoFailure (log ++ log') := by
  intro e he
  rcases List.mem_append.mp he with he | he
  · exact h e he
  · exact h' e he

theorem NoFailure.subset {log log' : AzaliaLog} (h : NoFailure log) (hsub : log' ⊆ log) :
    NoFailure log' := fun e he => h e (hsub he)

theorem exchange_answers {c g : ℕ} {w : AzaliaWidget} : NoFailure (exchange c g w) := by
  intro e he
  rw [exchange, List.mem_cons, List.mem_append] at he
  rcases he with rfl | he | he
  · exact ⟨_, rfl⟩
  · rw [pinExchange] at he
    split_ifs at he
    · rw [List.mem_singleton.mp he]
      exact ⟨_, rfl⟩
    · exact absurd he List.not_mem_nil
  · rw [formatExchange] at he
    split_ifs at he
    · rcases List.mem_cons.mp he with rfl | he
      · exact ⟨_, rfl⟩
      · rw [List.mem_singleton.mp he]
        exact ⟨_, rfl⟩
    · exact absurd he List.not_mem_nil

/-- The answers in a log describe an audio group of the codec `c`: its root lists `root`, the
node `g` of that range has a type of an audio group, and `g` lists `group`. -/
structure GroupDescribed (log : AzaliaLog) (c root g type group : ℕ) : Prop where
  hroot : (parameterOf c 0 4, .answer root) ∈ log
  nodes : NodeRange root
  node : InNodes root g
  htype : (parameterOf c g 5, .answer type) ∈ log
  audio : type &&& 255 = 1
  hgroup : (parameterOf c g 4, .answer group) ∈ log
  widgets : WidgetRange group

theorem GroupDescribed.subset {log log' : AzaliaLog} {c root g type group : ℕ}
    (h : GroupDescribed log c root g type group) (hsub : log ⊆ log') :
    GroupDescribed log' c root g type group :=
  { h with hroot := hsub h.hroot, htype := hsub h.htype, hgroup := hsub h.hgroup }

/-- The answers in a log describe a codec: a codec of the mask has the vendor, and an audio
group. -/
structure CodecDescribed (mask : ℕ) (log : AzaliaLog) (c root g type group : ℕ) : Prop
    extends GroupDescribed log c root g type group where
  codec : c < 15 ∧ mask.testBit c = true
  hvendor : (parameterOf c 0 0, .answer alc269CodecId) ∈ log

/-- The answers in a log say that the codec `c` has no audio group with widgets: its root lists
no valid range, or every node of the range has another type, or the group that it lists has no
valid range of widgets. -/
inductive NoAudio (c : ℕ) (log : AzaliaLog) : Prop
  | badRoot (root : ℕ) (hroot : (parameterOf c 0 4, .answer root) ∈ log) (h : ¬NodeRange root)
  | noGroup (root : ℕ) (hroot : (parameterOf c 0 4, .answer root) ∈ log) (hnodes : NodeRange root)
      (h : ∀ n, InNodes root n →
        ∃ type, type &&& 255 ≠ 1 ∧ (parameterOf c n 5, .answer type) ∈ log)
  | badGroup (root g type group : ℕ) (hroot : (parameterOf c 0 4, .answer root) ∈ log)
      (hg : InNodes root g) (htype : (parameterOf c g 5, .answer type) ∈ log)
      (haudio : type &&& 255 = 1) (hgroup : (parameterOf c g 4, .answer group) ∈ log)
      (h : ¬WidgetRange group)

theorem NoAudio.subset {c : ℕ} {log log' : AzaliaLog} (h : NoAudio c log) (hsub : log ⊆ log') :
    NoAudio c log' := by
  cases h with
  | badRoot root hroot h => exact .badRoot root (hsub hroot) h
  | noGroup root hroot hnodes h =>
    refine .noGroup root (hsub hroot) hnodes fun n hn => ?_
    obtain ⟨type, htype, hmem⟩ := h n hn
    exact ⟨type, htype, hsub hmem⟩
  | badGroup root g type group hroot hg htype haudio hgroup h =>
    exact .badGroup root g type group (hsub hroot) hg (hsub htype) haudio (hsub hgroup) h

/-- The answers in a log say that there is no codec: every codec of the mask has another
vendor, or the one that has it has no audio group with widgets. -/
inductive NoCodec (mask : ℕ) (log : AzaliaLog) : Prop
  | noVendor (h : ∀ c < 15, mask.testBit c = true →
      ∃ v, v ≠ alc269CodecId ∧ (parameterOf c 0 0, .answer v) ∈ log)
  | noAudio (c : ℕ) (hc : c < 15) (hmask : mask.testBit c = true)
      (hvendor : (parameterOf c 0 0, .answer alc269CodecId) ∈ log) (h : NoAudio c log)

section Ready

variable {mask c g r count : ℕ} {log : AzaliaLog} {widgets : ℕ → AzaliaWidget}

theorem WidgetsRun.ready_of {group : ℕ} (h : WidgetsRun c g log r count widgets)
    (hno : NoFailure log) (hgroup : (parameterOf c g 4, .answer group) ∈ log)
    (hrange : WidgetRange group) : r = azaliaCodecReady := by
  cases h with
  | timeout stored => exact absurd (List.mem_singleton.mpr rfl) (hno.not_failure _ _)
  | badRange nodes _ hbad =>
    have heq := congrArg Prod.snd (List.mem_singleton.mp hgroup)
    rw [AzaliaReply.answer.inj heq] at hrange
    exact absurd hrange hbad
  | cut nodes k _ rest _ hk hread hcut =>
    obtain ⟨w, part', q, stored, v, -, rfl, -⟩ := hcut
    refine absurd ?_ (hno.not_failure q stored)
    simp
  | ready => rfl

theorem GroupRun.ready_of {root type group : ℕ} (h : GroupRun c log r count widgets)
    (hno : NoFailure log) (hdescribed : GroupDescribed log c root g type group) :
    r = azaliaCodecReady := by
  obtain ⟨hroot, hnodes, hg, htype, haudio, hgroup, hrange⟩ := hdescribed
  -- a node that is not an audio group did not answer with the type of one
  have hmiss {lo hi : ℕ} {log : AzaliaLog} (hlog : NoGroup c hi lo log) :
      (parameterOf c g 5, AzaliaReply.answer type) ∉ log := by
    intro hmem
    obtain ⟨n, type', -, -, hne, heq⟩ := hlog.mem.2 _ hmem
    rw [AzaliaReply.answer.inj (congrArg Prod.snd heq)] at haudio
    exact hne haudio
  cases h with
  | timeout stored => exact absurd (List.mem_singleton.mpr rfl) (hno.not_failure _ _)
  | badRange nodes _ hbad =>
    have heq := congrArg Prod.snd (List.mem_singleton.mp hroot)
    rw [AzaliaReply.answer.inj heq] at hnodes
    exact absurd hnodes hbad
  | nodeTimeout nodes n log stored =>
    refine absurd ?_ (hno.not_failure (parameterOf c n 5) stored)
    simp
  | noGroup nodes log _ _ hlog =>
    rcases List.mem_cons.mp htype with heq | hmem
    · have := (parameterOf_inj.mp (congrArg Prod.fst heq)).2.2
      omega
    · exact absurd hmem (hmiss hlog)
  | found nodes g' type' log rest _ _ _ hnodes' hlog hg' _ hrest =>
    have hsub := subNode_of_inNodes hnodes' hg'
    have hsub₀ := subNode_of_inNodes hnodes hg
    -- the group that was asked is the one that was found
    have hgg : g = g' := by
      rcases List.mem_cons.mp htype with heq | hmem
      · have := (parameterOf_inj.mp (congrArg Prod.fst heq)).2.2
        omega
      · rcases List.mem_append.mp hmem with hmem | hmem
        · exact absurd hmem (hmiss hlog)
        · rcases List.mem_cons.mp hmem with heq | hmem
          · exact (parameterOf_inj.mp (congrArg Prod.fst heq)).2.1
          · exact absurd rfl ((hrest.queries hsub _ hmem).ne_type c g)
    subst hgg
    refine hrest.ready_of (hno.subset fun e he => ?_) ?_ hrange
    · simp [he]
    · rcases List.mem_cons.mp hgroup with heq | hmem
      · have := (parameterOf_inj.mp (congrArg Prod.fst heq)).2.1
        have := hsub.1
        omega
      · rcases List.mem_append.mp hmem with hmem | hmem
        · obtain ⟨n, type'', -, -, -, heq⟩ := hlog.mem.2 _ hmem
          have := (parameterOf_inj.mp (congrArg Prod.fst heq)).2.2
          omega
        · rcases List.mem_cons.mp hmem with heq | hmem
          · have := (parameterOf_inj.mp (congrArg Prod.fst heq)).2.2
            omega
          · exact hmem

/-- A log that describes a codec, without a failure, is that of a probe that found it. -/
theorem CodecRun.ready_of {root type group : ℕ} (h : CodecRun mask log r count widgets)
    (hno : NoFailure log) (hdescribed : CodecDescribed mask log c root g type group) :
    r = azaliaCodecReady := by
  obtain ⟨hgroup, -, hvendor⟩ := hdescribed
  -- a codec that is not the one did not answer with its vendor
  have hmiss {hi : ℕ} {log : AzaliaLog} (hlog : Misses mask hi 0 log) (hhi : hi ≤ 15) :
      (parameterOf c 0 0, AzaliaReply.answer alc269CodecId) ∉ log := by
    intro hmem
    obtain ⟨c', v, -, -, hv, heq⟩ := (hlog.mem hhi).2 _ hmem
    exact hv (AzaliaReply.answer.inj (congrArg Prod.snd heq)).symm
  cases h with
  | timeout c' log stored =>
    refine absurd ?_ (hno.not_failure (parameterOf c' 0 0) stored)
    simp
  | notFound _ _ hlog => exact absurd hvendor (hmiss hlog le_rfl)
  | revisionTimeout c' log stored =>
    refine absurd ?_ (hno.not_failure (parameterOf c' 0 2) stored)
    simp
  | found c' revision log rest _ _ _ hlog hc' hmask' hrest =>
    have hcc : c = c' := by
      rcases List.mem_append.mp hvendor with hmem | hmem
      · exact absurd hmem (hmiss hlog hc'.le)
      · rcases List.mem_cons.mp hmem with heq | hmem
        · exact (parameterOf_inj.mp (congrArg Prod.fst heq)).1
        · rcases List.mem_cons.mp hmem with heq | hmem
          · have := (parameterOf_inj.mp (congrArg Prod.fst heq)).2.2
            omega
          · exact absurd rfl ((hrest.queries _ hmem).ne_vendor c 0)
    subst hcc
    -- the answers about nodes come after those about vendors and the revision
    have hmem {q : AzaliaQuery} {v : ℕ} (hq : ∃ n id, q = parameterOf c n id ∧ id ≠ 0 ∧ id ≠ 2)
        (h : (q, AzaliaReply.answer v) ∈ log ++ (parameterOf c 0 0, .answer alc269CodecId) ::
          (parameterOf c 0 2, .answer revision) :: rest) : (q, AzaliaReply.answer v) ∈ rest := by
      obtain ⟨n, id, rfl, h₀, h₂⟩ := hq
      rcases List.mem_append.mp h with h | h
      · obtain ⟨c', v', -, -, -, heq⟩ := (hlog.mem hc'.le).2 _ h
        exact absurd (parameterOf_inj.mp (congrArg Prod.fst heq)).2.2 h₀
      · rcases List.mem_cons.mp h with heq | h
        · exact absurd (parameterOf_inj.mp (congrArg Prod.fst heq)).2.2 h₀
        · rcases List.mem_cons.mp h with heq | h
          · exact absurd (parameterOf_inj.mp (congrArg Prod.fst heq)).2.2 h₂
          · exact h
    refine hrest.ready_of (hno.subset fun e he => ?_)
      { hgroup with
        hroot := hmem ⟨0, 4, rfl, by decide, by decide⟩ hgroup.hroot
        htype := hmem ⟨g, 5, rfl, by decide, by decide⟩ hgroup.htype
        hgroup := hmem ⟨g, 4, rfl, by decide, by decide⟩ hgroup.hgroup }
    simp [he]

end Ready

/-! ### What a probe learns -/

/-- No widget is asked for. -/
def NoWidget (log : AzaliaLog) : Prop := ∀ e ∈ log, e.1.payload ≠ 9

theorem noWidget_nil : NoWidget [] := fun _ he => absurd he List.not_mem_nil

theorem noWidget_cons {c n id : ℕ} {reply : AzaliaReply} {log : AzaliaLog} (hid : id ≠ 9)
    (h : NoWidget log) : NoWidget ((parameterOf c n id, reply) :: log) := by
  intro e he
  rcases List.mem_cons.mp he with rfl | he
  · exact hid
  · exact h e he

theorem noWidget_append {log log' : AzaliaLog} (h : NoWidget log) (h' : NoWidget log') :
    NoWidget (log ++ log') := by
  intro e he
  rcases List.mem_append.mp he with he | he
  · exact h e he
  · exact h' e he

theorem noGroup_noWidget {c hi lo : ℕ} {log : AzaliaLog} (h : NoGroup c hi lo log) :
    NoWidget log := by
  intro e he
  obtain ⟨n, type, -, -, -, rfl⟩ := h.mem.2 e he
  exact show (5 : ℕ) ≠ 9 by decide

theorem misses_noWidget {mask hi : ℕ} {log : AzaliaLog} (h : Misses mask hi 0 log) (hhi : hi ≤ 15) :
    NoWidget log := by
  intro e he
  obtain ⟨c, v, -, -, -, rfl⟩ := (h.mem hhi).2 e he
  exact show (0 : ℕ) ≠ 9 by decide

/-- The log ends with the exchanges of the first `count` widgets of the group `g` and with
`rest`, and no widget was asked for before; each of the `count` widgets is a node of the range
with what the codec answered. -/
structure WidgetsTold (c g start : ℕ) (log : AzaliaLog) (count : ℕ) (widgets : ℕ → AzaliaWidget)
    (rest : AzaliaLog) : Prop where
  log : ∃ head, log = head ++ (exchanges c g 0 count widgets ++ rest) ∧ NoWidget head
  read : ∀ i < count, WidgetRead start i (widgets i)

theorem WidgetsTold.prepend {c g start count : ℕ} {log rest : AzaliaLog} {widgets : ℕ → AzaliaWidget}
    (h : WidgetsTold c g start log count widgets rest) {log' : AzaliaLog} (hlog' : NoWidget log') :
    WidgetsTold c g start (log' ++ log) count widgets rest := by
  obtain ⟨⟨head, rfl, hhead⟩, hread⟩ := h
  exact ⟨⟨log' ++ head, (List.append_assoc ..).symm, noWidget_append hlog' hhead⟩, hread⟩

/-- A probe that failed: it has read `count` widgets, and was stopped before the first or in
the exchange of the next. -/
def FailedTold (log : AzaliaLog) (count : ℕ) (widgets : ℕ → AzaliaWidget) : Prop :=
  ∃ c g start rest, WidgetsTold c g start log count widgets rest ∧
    (rest = [] ∧ count = 0 ∨ Cut c g (start + count) rest)

/-- A log without a widget. -/
theorem failedTold_zero {log : AzaliaLog} (h : NoWidget log) (widgets : ℕ → AzaliaWidget) :
    FailedTold log 0 widgets := by
  refine ⟨0, 0, 0, [], ⟨⟨log, ?_, h⟩, fun i hi => absurd hi (Nat.not_lt_zero i)⟩, .inl ⟨rfl, rfl⟩⟩
  rw [exchanges_zero, List.append_nil, List.append_nil]

theorem FailedTold.prepend {log log' : AzaliaLog} {count : ℕ} {widgets : ℕ → AzaliaWidget}
    (h : FailedTold log count widgets) (hlog' : NoWidget log') :
    FailedTold (log' ++ log) count widgets := by
  obtain ⟨c, g, start, rest, htold, hrest⟩ := h
  exact ⟨c, g, start, rest, htold.prepend hlog', hrest⟩

section Told

variable {mask c g r count : ℕ} {log : AzaliaLog} {widgets : ℕ → AzaliaWidget}

theorem WidgetsRun.ready_told (h : WidgetsRun c g log r count widgets) (hr : r = azaliaCodecReady) :
    NoFailure log ∧ ∃ group, (parameterOf c g 4, .answer group) ∈ log ∧ WidgetRange group ∧
      count = nodesCount group ∧ WidgetsTold c g (nodesStart group) log count widgets [] := by
  cases h with
  | timeout => exact absurd hr (by decide)
  | badRange => exact absurd hr (by decide)
  | cut => exact absurd hr (by decide)
  | ready nodes _ hrange hread =>
    refine ⟨noFailure_cons ?_, nodes, List.mem_cons_self .., hrange, rfl,
      ⟨⟨[(parameterOf c g 4, .answer nodes)], ?_, noWidget_cons (by decide) noWidget_nil⟩, hread⟩⟩
    · intro e he
      obtain ⟨i, -, he⟩ := List.mem_flatMap.mp he
      exact exchange_answers e he
    · rw [List.append_nil]
      rfl

theorem WidgetsRun.failed_told (h : WidgetsRun c g log r count widgets)
    (hr : r ≠ azaliaCodecReady) : FailedTold log count widgets := by
  cases h with
  | timeout => exact failedTold_zero (noWidget_cons (by decide) noWidget_nil) _
  | badRange => exact failedTold_zero (noWidget_cons (by decide) noWidget_nil) _
  | cut nodes _ _ rest hrange hk hread hcut =>
    exact ⟨c, g, nodesStart nodes, rest,
      ⟨⟨[_], rfl, noWidget_cons (by decide) noWidget_nil⟩, hread⟩, .inr hcut⟩
  | ready => exact absurd rfl hr

theorem GroupRun.ready_told (h : GroupRun c log r count widgets) (hr : r = azaliaCodecReady) :
    NoFailure log ∧ ∃ root g type group, GroupDescribed log c root g type group ∧
      count = nodesCount group ∧ WidgetsTold c g (nodesStart group) log count widgets [] := by
  cases h with
  | timeout => exact absurd hr (by decide)
  | badRange => exact absurd hr (by decide)
  | nodeTimeout => exact absurd hr (by decide)
  | noGroup => exact absurd hr (by decide)
  | found nodes g type log rest _ _ _ hnodes hlog hg htype hrest =>
    obtain ⟨hno, group, hgroup, hrange, hcount, htold⟩ := hrest.ready_told hr
    have hanswers : NoFailure log := by
      intro e he
      obtain ⟨n, type', -, -, -, rfl⟩ := hlog.mem.2 e he
      exact ⟨type', rfl⟩
    refine ⟨noFailure_cons (noFailure_append hanswers (noFailure_cons hno)), nodes, g, type, group,
      ⟨List.mem_cons_self .., hnodes, hg, ?_, htype, ?_, hrange⟩, hcount, ?_⟩
    · simp
    · simp [hgroup]
    · have hhead : NoWidget ((parameterOf c 0 4, .answer nodes) ::
          (log ++ [(parameterOf c g 5, .answer type)])) :=
        noWidget_cons (by decide) (noWidget_append (noGroup_noWidget hlog)
          (noWidget_cons (by decide) noWidget_nil))
      simpa using htold.prepend hhead

theorem GroupRun.failed_told (h : GroupRun c log r count widgets) (hr : r ≠ azaliaCodecReady) :
    FailedTold log count widgets := by
  cases h with
  | timeout => exact failedTold_zero (noWidget_cons (by decide) noWidget_nil) _
  | badRange => exact failedTold_zero (noWidget_cons (by decide) noWidget_nil) _
  | nodeTimeout nodes n log stored _ _ hlog =>
    exact failedTold_zero (noWidget_cons (by decide) (noWidget_append (noGroup_noWidget hlog)
      (noWidget_cons (by decide) noWidget_nil))) _
  | noGroup nodes log _ _ hlog =>
    exact failedTold_zero (noWidget_cons (by decide) (noGroup_noWidget hlog)) _
  | found nodes g type log rest _ _ _ hnodes hlog hg htype hrest =>
    have hhead : NoWidget ((parameterOf c 0 4, .answer nodes) ::
        (log ++ [(parameterOf c g 5, .answer type)])) :=
      noWidget_cons (by decide) (noWidget_append (noGroup_noWidget hlog)
        (noWidget_cons (by decide) noWidget_nil))
    simpa using (hrest.failed_told hr).prepend hhead

/-- What a probe that found a codec learned. -/
theorem CodecRun.ready_told (h : CodecRun mask log r count widgets) (hr : r = azaliaCodecReady) :
    NoFailure log ∧ ∃ c root g type group, CodecDescribed mask log c root g type group ∧
      count = nodesCount group ∧ WidgetsTold c g (nodesStart group) log count widgets [] := by
  cases h with
  | timeout => exact absurd hr (by decide)
  | notFound => exact absurd hr (by decide)
  | revisionTimeout => exact absurd hr (by decide)
  | found c revision log rest _ _ _ hlog hc hmask hrest =>
    obtain ⟨hno, root, g, type, group, hgroup, hcount, htold⟩ := hrest.ready_told hr
    have hanswers : NoFailure log := by
      intro e he
      obtain ⟨c', v, -, -, -, rfl⟩ := (hlog.mem hc.le).2 e he
      exact ⟨v, rfl⟩
    have hhead : NoWidget (log ++ [(parameterOf c 0 0, .answer alc269CodecId),
        (parameterOf c 0 2, .answer revision)]) :=
      noWidget_append (misses_noWidget hlog hc.le)
        (noWidget_cons (by decide) (noWidget_cons (by decide) noWidget_nil))
    refine ⟨noFailure_append hanswers (noFailure_cons (noFailure_cons hno)), c, root, g, type, group,
      ⟨hgroup.subset fun e he => ?_, ⟨hc, hmask⟩, ?_⟩, hcount, ?_⟩
    · simp [he]
    · simp
    · simpa using htold.prepend hhead

/-- What a probe that failed has read. -/
theorem CodecRun.failed_told (h : CodecRun mask log r count widgets) (hr : r ≠ azaliaCodecReady) :
    FailedTold log count widgets := by
  cases h with
  | timeout c log stored _ hlog hc =>
    exact failedTold_zero (noWidget_append (misses_noWidget hlog hc.le)
      (noWidget_cons (by decide) noWidget_nil)) _
  | notFound log _ hlog => exact failedTold_zero (misses_noWidget hlog le_rfl) _
  | revisionTimeout c log stored _ hlog hc =>
    exact failedTold_zero (noWidget_append (misses_noWidget hlog hc.le)
      (noWidget_cons (by decide) (noWidget_cons (by decide) noWidget_nil))) _
  | found c revision log rest _ _ _ hlog hc hmask hrest =>
    have hhead : NoWidget (log ++ [(parameterOf c 0 0, .answer alc269CodecId),
        (parameterOf c 0 2, .answer revision)]) :=
      noWidget_append (misses_noWidget hlog hc.le)
        (noWidget_cons (by decide) (noWidget_cons (by decide) noWidget_nil))
    simpa using (hrest.failed_told hr).prepend hhead

/-- The widgets of the group `g` are not a valid range. -/
theorem WidgetsRun.unready_told (h : WidgetsRun c g log r count widgets) (hno : NoFailure log)
    (hr : r ≠ azaliaCodecReady) :
    ∃ group, (parameterOf c g 4, .answer group) ∈ log ∧ ¬WidgetRange group := by
  cases h with
  | timeout stored => exact absurd (List.mem_singleton.mpr rfl) (hno.not_failure _ stored)
  | badRange nodes _ hbad => exact ⟨nodes, List.mem_singleton.mpr rfl, hbad⟩
  | cut nodes k _ rest _ hk hread hcut =>
    obtain ⟨w, part', q, stored, v, -, rfl, -⟩ := hcut
    refine absurd ?_ (hno.not_failure q stored)
    simp
  | ready => exact absurd rfl hr

theorem GroupRun.unready_told (h : GroupRun c log r count widgets) (hno : NoFailure log)
    (hr : r ≠ azaliaCodecReady) : NoAudio c log := by
  cases h with
  | timeout stored => exact absurd (List.mem_singleton.mpr rfl) (hno.not_failure _ stored)
  | badRange nodes _ hbad => exact .badRoot nodes (List.mem_singleton.mpr rfl) hbad
  | nodeTimeout nodes n log stored =>
    refine absurd ?_ (hno.not_failure (parameterOf c n 5) stored)
    simp
  | noGroup nodes log _ hnodes hlog =>
    refine .noGroup nodes (List.mem_cons_self ..) hnodes fun n hn => ?_
    obtain ⟨type, htype, hmem⟩ := hlog.asked n hn.1 hn.2
    exact ⟨type, htype, List.mem_cons_of_mem _ hmem⟩
  | found nodes g type log rest _ _ _ hnodes hlog hg htype hrest =>
    obtain ⟨group, hgroup, hbad⟩ := hrest.unready_told (hno.subset fun e he => by simp [he]) hr
    exact .badGroup nodes g type group (by simp) hg (by simp) htype (by simp [hgroup]) hbad

/-- What a probe that fails without a failed call has asked. -/
theorem CodecRun.unready_told (h : CodecRun mask log r count widgets) (hno : NoFailure log)
    (hr : r ≠ azaliaCodecReady) : NoCodec mask log := by
  cases h with
  | timeout c log stored =>
    refine absurd ?_ (hno.not_failure (parameterOf c 0 0) stored)
    simp
  | notFound _ _ hlog => exact .noVendor fun c hc => hlog.asked c (Nat.zero_le c) hc
  | revisionTimeout c log stored =>
    refine absurd ?_ (hno.not_failure (parameterOf c 0 2) stored)
    simp
  | found c revision log rest _ _ _ hlog hc hmask hrest =>
    have hsub : rest ⊆ log ++ (parameterOf c 0 0, .answer alc269CodecId) ::
        (parameterOf c 0 2, .answer revision) :: rest := fun e he => by simp [he]
    exact .noAudio c hc hmask (by simp) ((hrest.unready_told (hno.subset hsub) hr).subset hsub)

/-- **A probe ends with a codec** exactly when nothing failed and the answers describe one. -/
theorem CodecRun.ready_iff (h : CodecRun mask log r count widgets) :
    r = azaliaCodecReady ↔
      NoFailure log ∧ ∃ c root g type group, CodecDescribed mask log c root g type group := by
  constructor
  · intro hr
    obtain ⟨hno, c, root, g, type, group, hdescribed, -, -⟩ := h.ready_told hr
    exact ⟨hno, c, root, g, type, group, hdescribed⟩
  · rintro ⟨hno, c, root, g, type, group, hdescribed⟩
    exact h.ready_of hno hdescribed

end Told

/-! ### The replies -/

/-- The replies in a log are those of `send`, with what was sent before in view. -/
def Answered (send : AzaliaSend) : AzaliaLog → AzaliaLog → Prop
  | _, [] => True
  | before, e :: log =>
    e.2 = send (before.map fun e => (e.1.command, e.2)) e.1.command ∧
      Answered send (before ++ [e]) log

theorem Answered.append {send : AzaliaSend} {before log log' : AzaliaLog}
    (h : Answered send before log) (h' : Answered send (before ++ log) log') :
    Answered send before (log ++ log') := by
  induction log generalizing before with
  | nil =>
    rw [List.append_nil] at h'
    exact h'
  | cons e log ih =>
    refine ⟨h.1, ih h.2 ?_⟩
    rw [List.append_assoc]
    exact h'

/-- The log grows by replies of `send`. -/
def Sends (send : AzaliaSend) (s t : AzaliaState) : Prop :=
  ∃ log, t.sent = s.sent ++ log ∧ Answered send s.sent log

section Sends

variable (send : AzaliaSend)

theorem sends_of_eq {send : AzaliaSend} {s t : AzaliaState} (h : t.sent = s.sent) : Sends send s t :=
  ⟨[], by rw [h, List.append_nil], trivial⟩

instance : IsPreorder AzaliaState (Sends send) where
  refl _ := sends_of_eq rfl
  trans s t u := by
    rintro ⟨log, ht, h⟩ ⟨log', hu, h'⟩
    refine ⟨log ++ log', by rw [hu, ht, List.append_assoc], h.append ?_⟩
    rw [← ht]
    exact h'

theorem sendVerb_sends (q : AzaliaQuery) : Within (Sends send) (sendVerb send q) :=
  within_modifyGet fun _ => ⟨[(q, _)], rfl, rfl, trivial⟩

theorem sendLocal_sends (q : AzaliaQuery) : Within (Sends send) (sendLocal send q) := by
  rw [sendLocal]
  refine within_bind (sendVerb_sends send q) ?_
  rintro (v | stored)
  · exact within_pure _
  · exact within_pure _

theorem sendInto_sends (q : AzaliaQuery) (set : ℕ → AzaliaState → AzaliaState)
    (hset : ∀ v s, (set v s).sent = s.sent) : Within (Sends send) (sendInto send q set) := by
  rw [sendInto]
  refine within_bind (sendVerb_sends send q) ?_
  rintro (v | _ | v)
  · exact within_bind (within_modify fun s => sends_of_eq (hset v s)) fun _ => within_pure _
  · exact within_pure _
  · exact within_bind (within_modify fun s => sends_of_eq (hset v s)) fun _ => within_pure _

theorem azaliaSetStatus_sends (status : ℕ) : Within (Sends send) (azaliaSetStatus status) :=
  within_bind (within_modify fun _ => sends_of_eq rfl) fun _ => within_pure _

theorem findCodec_sends (n codec : ℕ) : Within (Sends send) (findCodec send n codec) := by
  induction n generalizing codec with
  | zero => exact within_pure _
  | succ n ih =>
    rw [findCodec]
    refine within_bind within_get fun s => within_ite (fun _ => ih _) fun _ => ?_
    refine within_bind (within_modify fun _ => sends_of_eq rfl) fun _ => ?_
    refine within_bind within_get fun s => within_bind (sendLocal_sends send _) ?_
    rintro (_ | vendor)
    · exact within_pure _
    · refine within_ite (fun _ => ?_) fun _ => ih _
      exact within_bind (within_modify fun _ => sends_of_eq rfl) fun _ => within_pure _

theorem findGroup_sends (n node : ℕ) : Within (Sends send) (findGroup send n node) := by
  induction n generalizing node with
  | zero => exact within_pure _
  | succ n ih =>
    rw [findGroup]
    refine within_bind within_get fun s => within_bind (sendLocal_sends send _) ?_
    rintro (_ | type)
    · exact within_pure _
    · refine within_ite (fun _ => ?_) fun _ => ih _
      exact within_bind (within_modify fun _ => sends_of_eq rfl) fun _ => within_pure _

theorem readPin_sends (i : ℕ) : Within (Sends send) (readPin send i) :=
  within_bind within_get fun _ => within_ite (fun _ => sendInto_sends send _ _ fun _ _ => rfl)
    fun _ => within_pure _

theorem readFormats_sends (i : ℕ) : Within (Sends send) (readFormats send i) := by
  refine within_bind within_get fun _ => within_ite (fun _ => ?_) fun _ => within_pure _
  exact within_bind (sendInto_sends send _ _ fun _ _ => rfl) fun _ =>
    within_ite (fun _ => within_pure _) fun _ => sendInto_sends send _ _ fun _ _ => rfl

theorem readWidget_sends (start i : ℕ) : Within (Sends send) (readWidget send start i) := by
  refine within_bind (within_modify fun _ => sends_of_eq rfl) fun _ => within_bind within_get ?_
  intro s
  refine within_bind (sendInto_sends send _ _ fun _ _ => rfl) fun _ =>
    within_ite (fun _ => within_pure _) fun _ => ?_
  refine within_bind (readPin_sends send i) fun _ => within_ite (fun _ => within_pure _) fun _ => ?_
  refine within_bind (readFormats_sends send i) fun _ =>
    within_ite (fun _ => within_pure _) fun _ => ?_
  exact within_bind (within_modify fun _ => sends_of_eq rfl) fun _ => within_pure _

theorem readWidgets_sends (start n i : ℕ) : Within (Sends send) (readWidgets send start n i) := by
  induction n generalizing i with
  | zero => exact within_pure _
  | succ n ih =>
    exact within_bind (readWidget_sends send start i) fun _ =>
      within_ite (fun _ => within_pure _) fun _ => ih _

theorem probeWidgets_sends : Within (Sends send) (probeWidgets send) := by
  refine within_bind within_get fun s => within_bind (sendLocal_sends send _) ?_
  rintro (_ | nodes)
  · exact azaliaSetStatus_sends send _
  · refine within_ite (fun _ => azaliaSetStatus_sends send _) fun _ => ?_
    exact within_bind (readWidgets_sends send _ _ _) fun _ =>
      within_ite (fun _ => azaliaSetStatus_sends send _) fun _ => azaliaSetStatus_sends send _

theorem probeGroup_sends : Within (Sends send) (probeGroup send) := by
  refine within_bind within_get fun s => within_bind (sendLocal_sends send _) ?_
  rintro (_ | nodes)
  · exact azaliaSetStatus_sends send _
  · refine within_ite (fun _ => azaliaSetStatus_sends send _) fun _ => ?_
    refine within_bind (findGroup_sends send _ _) fun _ =>
      within_ite (fun _ => azaliaSetStatus_sends send _) fun _ => ?_
    exact within_bind within_get fun _ =>
      within_ite (fun _ => azaliaSetStatus_sends send _) fun _ => probeWidgets_sends send

/-- A probe hears nothing but what `send` answers. -/
theorem azaliaProbeCodec_sends : Within (Sends send) (azaliaProbeCodec send) := by
  refine within_bind (within_modify fun _ => sends_of_eq rfl) fun _ => ?_
  refine within_bind (findCodec_sends send 15 0) fun _ =>
    within_ite (fun _ => azaliaSetStatus_sends send _) fun _ => within_bind within_get fun _ => ?_
  refine within_ite (fun _ => azaliaSetStatus_sends send _) fun _ => within_bind within_get fun _ => ?_
  exact within_bind (sendInto_sends send _ _ fun _ _ => rfl) fun _ =>
    within_ite (fun _ => azaliaSetStatus_sends send _) fun _ => probeGroup_sends send

end Sends

/-- **Codec probing is safe against any codec**: from any state and with any `send`, a probe
returns; its verbs are well formed; it changes no widget from `azaliaMaxWidgets` on; it
returns the status it sets; its log is that of a `CodecRun`, and the replies in it are those of
`send`.  It ends with a codec exactly when nothing failed and the answers describe one, with
the widgets of that codec.  If it fails, a call failed or the answers say that there is no
codec, and it has counted the widgets it has read completely. -/
theorem azaliaProbeCodec_exact (send : AzaliaSend) (s : AzaliaState) :
    Runs (azaliaProbeCodec send) s fun r t => ∃ log,
      t.sent = s.sent ++ log ∧ Answered send s.sent log ∧
      CodecRun s.codecMask log r t.widgetCount t.widgets ∧
      (∀ e ∈ log, CodecQuery s.codecMask e.1 ∧ e.1.command ≠ 0xFFFFFFFF ∧
        decodeVerb e.1.command = e.1 ∧ s.codecMask.testBit e.1.codec = true ∧ e.1.node < 256) ∧
      (∀ i, azaliaMaxWidgets ≤ i → t.widgets i = s.widgets i) ∧
      r = t.status ∧
      (r = azaliaCodecReady ↔ NoFailure log ∧
        ∃ c root g type group, CodecDescribed s.codecMask log c root g type group) ∧
      (r = azaliaCodecReady → ∃ c root g type group,
        CodecDescribed s.codecMask log c root g type group ∧ t.widgetCount = nodesCount group ∧
        WidgetsTold c g (nodesStart group) log t.widgetCount t.widgets []) ∧
      (r ≠ azaliaCodecReady → NoFailure log → NoCodec s.codecMask log) ∧
      (r ≠ azaliaCodecReady → FailedTold log t.widgetCount t.widgets) := by
  obtain ⟨r, t, hr, ⟨log, hsent, hrun⟩, hstatus, houtside⟩ := azaliaProbeCodec_run send s
  obtain ⟨log', hsent', hanswered⟩ := azaliaProbeCodec_sends send s r t hr
  -- both ways to see the log are the same
  have hlog : log' = log := List.append_cancel_left (hsent'.symm.trans hsent)
  subst hlog
  refine ⟨r, t, hr, log', hsent, hanswered, hrun, ?_, houtside, hstatus, hrun.ready_iff, ?_,
    fun hr hno => hrun.unready_told hno hr, hrun.failed_told⟩
  · intro e he
    exact ⟨hrun.queries e he, (hrun.queries e he).wellFormed⟩
  · intro hready
    exact (hrun.ready_told hready).2

end VirtualKernel
