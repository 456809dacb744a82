/-
What a probe of a codec sends and learns.

`CodecRun` describes the log of a probe by what the codec answers: it is the log of a
search for a codec, then, through `GroupRun` and `WidgetsRun`, of a search for an audio
group and of a list of widgets.  Each way to stop is a case; a search that finds nothing has
asked every codec of the mask, or every node of the range.

* **`readWidgets_runs`** — the widget loop reads widgets until an exchange is cut short;
* **`azaliaProbeCodec_run`** — every probe is such a run.
-/
import VirtualKernel.Azalia

namespace VirtualKernel

open Lib

/-! ### The parts of a log -/

/-- A query of `parameter` to the codec `c`. -/
def parameterOf (c node id : ℕ) : AzaliaQuery := ⟨c, node, 0xF00, id⟩

/-- A packed answer with a valid range of nodes. -/
def NodeRange (nodes : ℕ) : Prop :=
  nodesStart nodes ≠ 0 ∧ nodesCount nodes ≠ 0 ∧ nodesStart nodes + nodesCount nodes ≤ 256

/-- A packed answer with a valid range of widgets. -/
def WidgetRange (nodes : ℕ) : Prop := NodeRange nodes ∧ nodesCount nodes ≤ azaliaMaxWidgets

/-- A node of the range. -/
def InNodes (nodes n : ℕ) : Prop := nodesStart nodes ≤ n ∧ n < nodesStart nodes + nodesCount nodes

/-- Every codec of the mask from `lo` up to `hi` has been asked for its vendor, in this order,
and none is the one. -/
inductive Misses (mask hi : ℕ) : ℕ → AzaliaLog → Prop
  | nil : Misses mask hi hi []
  | absent {lo : ℕ} {log : AzaliaLog} (hmask : mask.testBit lo = false)
      (h : Misses mask hi (lo + 1) log) : Misses mask hi lo log
  | miss {lo v : ℕ} {log : AzaliaLog} (hmask : mask.testBit lo = true) (hv : v ≠ alc269CodecId)
      (h : Misses mask hi (lo + 1) log) : Misses mask hi lo ((parameterOf lo 0 0, .answer v) :: log)

/-- Every node from `lo` up to `hi` has been asked for its type, in this order, and none is an
audio group. -/
inductive NoGroup (c hi : ℕ) : ℕ → AzaliaLog → Prop
  | nil : NoGroup c hi hi []
  | miss {lo type : ℕ} {log : AzaliaLog} (htype : type &&& 255 ≠ 1) (h : NoGroup c hi (lo + 1) log) :
      NoGroup c hi lo ((parameterOf c lo 5, .answer type) :: log)

/-- The pin query of a widget with its answer. -/
def pinExchange (c : ℕ) (w : AzaliaWidget) : AzaliaLog :=
  if w.type = 4 then [(⟨c, w.node, 0xF1C, 0⟩, .answer w.pinDefault)] else []

/-- The format queries of a widget with their answers. -/
def formatExchange (c group : ℕ) (w : AzaliaWidget) : AzaliaLog :=
  if w.type ≤ 1 then
    [(parameterOf c (w.formatNode group) 0xA, .answer w.pcm),
      (parameterOf c (w.formatNode group) 0xB, .answer w.formats)]
  else []

/-- The queries of a widget with their answers. -/
def exchange (c group : ℕ) (w : AzaliaWidget) : AzaliaLog :=
  (parameterOf c w.node 9, .answer w.capabilities) ::
    (pinExchange c w ++ formatExchange c group w)

/-- Widget `i` of a range: what was not asked is 0. -/
structure WidgetRead (start i : ℕ) (w : AzaliaWidget) : Prop where
  node : w.node = start + i
  pin : w.type ≠ 4 → w.pinDefault = 0
  formats : 1 < w.type → w.pcm = 0 ∧ w.formats = 0

/-- The exchange with the node `n` was cut short: with an answer instead of the failure it
would begin a whole exchange. -/
def Cut (c group n : ℕ) (log : AzaliaLog) : Prop :=
  ∃ (w : AzaliaWidget) (part' : AzaliaLog) (q : AzaliaQuery) (stored : Option ℕ) (v : ℕ),
    w.node = n ∧ log = part' ++ [(q, .failure stored)] ∧
      part' ++ [(q, .answer v)] <+: exchange c group w

/-- The exchanges with the `n` widgets from `i` on. -/
def exchanges (c group i n : ℕ) (widgets : ℕ → AzaliaWidget) : AzaliaLog :=
  (List.range' i n).flatMap fun i => exchange c group (widgets i)

/-! ### Runs -/

/-- The list of widgets, from the node list of the audio group on: the log, the status, the
number of widgets and the widgets. -/
inductive WidgetsRun (c g : ℕ) : AzaliaLog → ℕ → ℕ → (ℕ → AzaliaWidget) → Prop
  | timeout (stored : Option ℕ) (widgets : ℕ → AzaliaWidget) :
      WidgetsRun c g [(parameterOf c g 4, .failure stored)] azaliaCommandTimeout 0 widgets
  | badRange (nodes : ℕ) (widgets : ℕ → AzaliaWidget) (h : ¬WidgetRange nodes) :
      WidgetsRun c g [(parameterOf c g 4, .answer nodes)] azaliaBadTopology 0 widgets
  | cut (nodes k : ℕ) (widgets : ℕ → AzaliaWidget) (rest : AzaliaLog) (h : WidgetRange nodes)
      (hk : k < nodesCount nodes) (hread : ∀ i < k, WidgetRead (nodesStart nodes) i (widgets i))
      (hcut : Cut c g (nodesStart nodes + k) rest) :
      WidgetsRun c g ((parameterOf c g 4, .answer nodes) :: (exchanges c g 0 k widgets ++ rest))
        azaliaCommandTimeout k widgets
  | ready (nodes : ℕ) (widgets : ℕ → AzaliaWidget) (h : WidgetRange nodes)
      (hread : ∀ i < nodesCount nodes, WidgetRead (nodesStart nodes) i (widgets i)) :
      WidgetsRun c g ((parameterOf c g 4, .answer nodes) :: exchanges c g 0 (nodesCount nodes) widgets)
        azaliaCodecReady (nodesCount nodes) widgets

/-- The search for an audio group, from the node list of the root on. -/
inductive GroupRun (c : ℕ) : AzaliaLog → ℕ → ℕ → (ℕ → AzaliaWidget) → Prop
  | timeout (stored : Option ℕ) (widgets : ℕ → AzaliaWidget) :
      GroupRun c [(parameterOf c 0 4, .failure stored)] azaliaCommandTimeout 0 widgets
  | badRange (nodes : ℕ) (widgets : ℕ → AzaliaWidget) (h : ¬NodeRange nodes) :
      GroupRun c [(parameterOf c 0 4, .answer nodes)] azaliaBadTopology 0 widgets
  | nodeTimeout (nodes n : ℕ) (log : AzaliaLog) (stored : Option ℕ) (widgets : ℕ → AzaliaWidget)
      (h : NodeRange nodes) (hlog : NoGroup c n (nodesStart nodes) log) (hn : InNodes nodes n) :
      GroupRun c ((parameterOf c 0 4, .answer nodes) :: (log ++ [(parameterOf c n 5, .failure stored)]))
        azaliaCommandTimeout 0 widgets
  | noGroup (nodes : ℕ) (log : AzaliaLog) (widgets : ℕ → AzaliaWidget) (h : NodeRange nodes)
      (hlog : NoGroup c (nodesStart nodes + nodesCount nodes) (nodesStart nodes) log) :
      GroupRun c ((parameterOf c 0 4, .answer nodes) :: log) azaliaBadTopology 0 widgets
  | found (nodes g type : ℕ) (log rest : AzaliaLog) (status count : ℕ) (widgets : ℕ → AzaliaWidget)
      (h : NodeRange nodes) (hlog : NoGroup c g (nodesStart nodes) log) (hg : InNodes nodes g)
      (htype : type &&& 255 = 1) (hrest : WidgetsRun c g rest status count widgets) :
      GroupRun c ((parameterOf c 0 4, .answer nodes) ::
        (log ++ (parameterOf c g 5, .answer type) :: rest)) status count widgets

/-- A whole probe. -/
inductive CodecRun (mask : ℕ) : AzaliaLog → ℕ → ℕ → (ℕ → AzaliaWidget) → Prop
  | timeout (c : ℕ) (log : AzaliaLog) (stored : Option ℕ) (widgets : ℕ → AzaliaWidget)
      (hlog : Misses mask c 0 log) (hc : c < 15) (hmask : mask.testBit c = true) :
      CodecRun mask (log ++ [(parameterOf c 0 0, .failure stored)]) azaliaCommandTimeout 0 widgets
  | notFound (log : AzaliaLog) (widgets : ℕ → AzaliaWidget) (hlog : Misses mask 15 0 log) :
      CodecRun mask log azaliaCodecNotFound 0 widgets
  | revisionTimeout (c : ℕ) (log : AzaliaLog) (stored : Option ℕ) (widgets : ℕ → AzaliaWidget)
      (hlog : Misses mask c 0 log) (hc : c < 15) (hmask : mask.testBit c = true) :
      CodecRun mask (log ++ [(parameterOf c 0 0, .answer alc269CodecId),
        (parameterOf c 0 2, .failure stored)]) azaliaCommandTimeout 0 widgets
  | found (c revision : ℕ) (log rest : AzaliaLog) (status count : ℕ) (widgets : ℕ → AzaliaWidget)
      (hlog : Misses mask c 0 log) (hc : c < 15) (hmask : mask.testBit c = true)
      (hrest : GroupRun c rest status count widgets) :
      CodecRun mask (log ++ (parameterOf c 0 0, .answer alc269CodecId) ::
        (parameterOf c 0 2, .answer revision) :: rest) status count widgets

/-! ### One call -/

section Calls

variable (send : AzaliaSend) (q : AzaliaQuery) (s : AzaliaState)

/-- A call changes the log and nothing else. -/
theorem sendVerb_runs :
    Runs (sendVerb send q) s fun r t => t = { s with sent := s.sent ++ [(q, r)] } :=
  runs_modifyGet rfl

theorem sendLocal_runs :
    Runs (sendLocal send q) s fun r t =>
      (∃ v, r = some v ∧ t = { s with sent := s.sent ++ [(q, .answer v)] }) ∨
      ∃ stored, r = none ∧ t = { s with sent := s.sent ++ [(q, .failure stored)] } := by
  rw [sendLocal]
  refine runs_bind (sendVerb_runs send q s) ?_
  rintro (v | stored) t rfl
  · exact runs_pure (.inl ⟨v, rfl, rfl⟩)
  · exact runs_pure (.inr ⟨stored, rfl, rfl⟩)

theorem sendInto_runs (set : ℕ → AzaliaState → AzaliaState) :
    Runs (sendInto send q set) s fun r t =>
      (∃ v, r = true ∧ t = set v { s with sent := s.sent ++ [(q, .answer v)] }) ∨
      ∃ stored : Option ℕ, r = false ∧ t = (stored.elim id set)
        { s with sent := s.sent ++ [(q, .failure stored)] } := by
  rw [sendInto]
  refine runs_bind (sendVerb_runs send q s) ?_
  rintro (v | _ | v) t rfl
  · exact runs_modify_bind (runs_pure (.inl ⟨v, rfl, rfl⟩))
  · exact runs_pure (.inr ⟨none, rfl, rfl⟩)
  · exact runs_modify_bind (runs_pure (.inr ⟨some v, rfl, rfl⟩))

end Calls

/-! ### The search for a codec and a group -/

/-- The answers of the codecs that are not the one. -/
theorem Misses.mem {mask hi lo : ℕ} {log : AzaliaLog} (h : Misses mask hi lo log) (hhi : hi ≤ 15) :
    lo ≤ hi ∧ ∀ e ∈ log, ∃ c v, c < 15 ∧ mask.testBit c = true ∧ v ≠ alc269CodecId ∧
      e = (parameterOf c 0 0, .answer v) := by
  induction h with
  | nil => exact ⟨le_rfl, fun e he => absurd he List.not_mem_nil⟩
  | absent _ _ ih => exact ⟨by omega, ih.2⟩
  | @miss lo v log hmask hv _ ih =>
    refine ⟨by omega, fun e he => ?_⟩
    rcases List.mem_cons.mp he with rfl | he
    · exact ⟨lo, v, by omega, hmask, hv, rfl⟩
    · exact ih.2 e he

/-- The answers of the nodes that are not audio groups. -/
theorem NoGroup.mem {c hi lo : ℕ} {log : AzaliaLog} (h : NoGroup c hi lo log) :
    lo ≤ hi ∧ ∀ e ∈ log, ∃ n type, lo ≤ n ∧ n < hi ∧ type &&& 255 ≠ 1 ∧
      e = (parameterOf c n 5, .answer type) := by
  induction h with
  | nil => exact ⟨le_rfl, fun e he => absurd he List.not_mem_nil⟩
  | @miss lo type log htype _ ih =>
    refine ⟨by omega, fun e he => ?_⟩
    rcases List.mem_cons.mp he with rfl | he
    · exact ⟨lo, type, le_rfl, by omega, htype, rfl⟩
    · obtain ⟨n, type', hlo, hn, htype', rfl⟩ := ih.2 e he
      exact ⟨n, type', by omega, hn, htype', rfl⟩

theorem Misses.asked {mask hi lo : ℕ} {log : AzaliaLog} (h : Misses mask hi lo log) :
    ∀ c, lo ≤ c → c < hi → mask.testBit c = true →
      ∃ v, v ≠ alc269CodecId ∧ (parameterOf c 0 0, .answer v) ∈ log := by
  induction h with
  | nil => exact fun c h h' => absurd h' (Nat.not_lt.mpr h)
  | @absent lo log hmask _ ih =>
    intro c hc hhi hin
    refine ih c (Nat.lt_of_le_of_ne hc ?_) hhi hin
    rintro rfl
    rw [hmask] at hin
    cases hin
  | @miss lo v log _ hv _ ih =>
    intro c hc hhi hin
    rcases Nat.eq_or_lt_of_le hc with rfl | hc
    · exact ⟨v, hv, List.mem_cons_self ..⟩
    · obtain ⟨v', hv', hmem⟩ := ih c hc hhi hin
      exact ⟨v', hv', List.mem_cons_of_mem _ hmem⟩

theorem NoGroup.asked {c hi lo : ℕ} {log : AzaliaLog} (h : NoGroup c hi lo log) :
    ∀ n, lo ≤ n → n < hi → ∃ type, type &&& 255 ≠ 1 ∧ (parameterOf c n 5, .answer type) ∈ log := by
  induction h with
  | nil => exact fun n h h' => absurd h' (Nat.not_lt.mpr h)
  | @miss lo type log htype _ ih =>
    intro n hn hhi
    rcases Nat.eq_or_lt_of_le hn with rfl | hn
    · exact ⟨type, htype, List.mem_cons_self ..⟩
    · obtain ⟨type', htype', hmem⟩ := ih n hn hhi
      exact ⟨type', htype', List.mem_cons_of_mem _ hmem⟩

/-- The search for a codec: a `send` fails, no codec is the one, or one is. -/
theorem findCodec_runs (send : AzaliaSend) (n codec : ℕ) (s : AzaliaState) (hn : codec + n = 15) :
    Runs (findCodec send n codec) s fun r t =>
      (∃ c log stored, r = false ∧ Misses s.codecMask c codec log ∧ c < 15 ∧
        s.codecMask.testBit c = true ∧
        t = { s with
          codecAddress := c
          sent := s.sent ++ (log ++ [(parameterOf c 0 0, .failure stored)]) }) ∨
      (∃ c log, r = true ∧ Misses s.codecMask 15 codec log ∧
        t = { s with codecAddress := c, sent := s.sent ++ log }) ∨
      ∃ c log, r = true ∧ Misses s.codecMask c codec log ∧ c < 15 ∧ s.codecMask.testBit c = true ∧
        t = { s with
          codecAddress := c
          codecId := alc269CodecId
          sent := s.sent ++ (log ++ [(parameterOf c 0 0, .answer alc269CodecId)]) } := by
  -- the loop has `n` codecs left
  induction n generalizing codec s with
  | zero =>
    obtain rfl : codec = 15 := hn
    refine runs_pure (.inr (.inl ⟨s.codecAddress, [], rfl, .nil, ?_⟩))
    rw [List.append_nil]
  | succ n ih =>
    rw [findCodec]
    refine runs_get_bind (runs_ite (fun hmask => ?_) fun hmask => ?_)
    · -- a codec that is not in the mask is not asked
      refine Runs.mono (ih (codec + 1) s (by omega)) ?_
      rintro r t (⟨c, log, stored, rfl, hlog, hrest⟩ | ⟨c, log, rfl, hlog, rfl⟩ |
        ⟨c, log, rfl, hlog, hrest⟩)
      · exact .inl ⟨c, log, stored, rfl, hlog.absent hmask, hrest⟩
      · exact .inr (.inl ⟨c, log, rfl, hlog.absent hmask, rfl⟩)
      · exact .inr (.inr ⟨c, log, rfl, hlog.absent hmask, hrest⟩)
    rw [Bool.not_eq_false] at hmask
    refine runs_modify_bind (runs_get_bind (runs_bind (sendLocal_runs send _ _) ?_))
    rintro r t (⟨v, rfl, rfl⟩ | ⟨stored, rfl, rfl⟩)
    · refine runs_ite (fun hv => ?_) fun hv => ?_
      · refine runs_modify_bind (runs_pure (.inr (.inr ⟨codec, [], rfl, .nil, by omega, hmask, ?_⟩)))
        rw [hv, List.nil_append]
        rfl
      · -- a miss comes before what the rest of the loop sends
        refine Runs.mono (ih (codec + 1) _ (by omega)) ?_
        rintro r t (⟨c, log, stored, rfl, hlog, hc, hm, rfl⟩ | ⟨c, log, rfl, hlog, rfl⟩ |
          ⟨c, log, rfl, hlog, hc, hm, rfl⟩)
        · refine .inl ⟨c, _ :: log, stored, rfl, hlog.miss hmask hv, hc, hm, ?_⟩
          simp only [List.append_assoc, List.cons_append, List.nil_append]
          rfl
        · refine .inr (.inl ⟨c, _ :: log, rfl, hlog.miss hmask hv, ?_⟩)
          simp only [List.append_assoc, List.cons_append, List.nil_append]
          rfl
        · refine .inr (.inr ⟨c, _ :: log, rfl, hlog.miss hmask hv, hc, hm, ?_⟩)
          simp only [List.append_assoc, List.cons_append, List.nil_append]
          rfl
    · -- `send` fails, and the search ends here
      refine runs_pure (.inl ⟨codec, [], stored, rfl, .nil, by omega, hmask, ?_⟩)
      rw [List.nil_append]
      rfl

/-- The search for an audio group in a range of nodes. -/
theorem findGroup_runs (send : AzaliaSend) (nodes n node : ℕ) (s : AzaliaState)
    (hnode : nodesStart nodes ≤ node) (hn : node + n = nodesStart nodes + nodesCount nodes) :
    Runs (findGroup send n node) s fun r t =>
      (∃ m log stored, r = false ∧ NoGroup s.codecAddress m node log ∧ InNodes nodes m ∧
        t = { s with
          sent := s.sent ++ (log ++ [(parameterOf s.codecAddress m 5, .failure stored)]) }) ∨
      (∃ log, r = true ∧
        NoGroup s.codecAddress (nodesStart nodes + nodesCount nodes) node log ∧
        t = { s with sent := s.sent ++ log }) ∨
      ∃ g type log, r = true ∧ NoGroup s.codecAddress g node log ∧ InNodes nodes g ∧
        type &&& 255 = 1 ∧
        t = { s with
          audioGroup := g
          sent := s.sent ++ (log ++ [(parameterOf s.codecAddress g 5, .answer type)]) } := by
  -- the loop has `n` nodes left
  induction n generalizing node s with
  | zero =>
    obtain rfl : node = nodesStart nodes + nodesCount nodes := hn
    refine runs_pure (.inr (.inl ⟨[], rfl, .nil, ?_⟩))
    rw [List.append_nil]
  | succ n ih =>
    have hin : InNodes nodes node := ⟨hnode, by omega⟩
    rw [findGroup]
    refine runs_get_bind (runs_bind (sendLocal_runs send _ _) ?_)
    rintro r t (⟨type, rfl, rfl⟩ | ⟨stored, rfl, rfl⟩)
    · refine runs_ite (fun htype => ?_) fun htype => ?_
      · refine runs_modify_bind (runs_pure (.inr (.inr ⟨node, type, [], rfl, .nil, hin, htype, ?_⟩)))
        rw [List.nil_append]
        rfl
      · -- not an audio group: the exchange comes before what the rest of the loop sends
        refine Runs.mono (ih (node + 1) _ (by omega) (by omega)) ?_
        rintro r t (⟨m, log, stored, rfl, hlog, hm, rfl⟩ | ⟨log, rfl, hlog, rfl⟩ |
          ⟨g, type', log, rfl, hlog, hg, htype', rfl⟩)
        · refine .inl ⟨m, _ :: log, stored, rfl, hlog.miss htype, hm, ?_⟩
          simp only [List.append_assoc, List.cons_append, List.nil_append]
          rfl
        · refine .inr (.inl ⟨_ :: log, rfl, hlog.miss htype, ?_⟩)
          simp only [List.append_assoc, List.cons_append, List.nil_append]
          rfl
        · refine .inr (.inr ⟨g, type', _ :: log, rfl, hlog.miss htype, hg, htype', ?_⟩)
          simp only [List.append_assoc, List.cons_append, List.nil_append]
          rfl
    · refine runs_pure (.inl ⟨node, [], stored, rfl, .nil, hin, ?_⟩)
      rw [List.nil_append]
      rfl

/-! ### The widgets -/

/-- The state while the widget `i` is read: what is known of it, and what was sent for it. -/
def AzaliaState.reading (s : AzaliaState) (i : ℕ) (w : AzaliaWidget) (log : AzaliaLog) :
    AzaliaState :=
  { s with widgets := Function.update s.widgets i w, sent := s.sent ++ log }

section Reading

variable (send : AzaliaSend) (s : AzaliaState) (i : ℕ) (w : AzaliaWidget) (log : AzaliaLog)

theorem pinExchange_eq {c : ℕ} {w : AzaliaWidget} (h : w.type = 4) :
    pinExchange c w = [(⟨c, w.node, 0xF1C, 0⟩, .answer w.pinDefault)] := if_pos h

theorem formatExchange_eq {c group : ℕ} {w : AzaliaWidget} (h : w.type ≤ 1) :
    formatExchange c group w = [(parameterOf c (w.formatNode group) 0xA, .answer w.pcm),
      (parameterOf c (w.formatNode group) 0xB, .answer w.formats)] := if_pos h

theorem exchanges_zero (c group i : ℕ) (widgets : ℕ → AzaliaWidget) :
    exchanges c group i 0 widgets = [] := rfl

theorem exchanges_succ (c group i n : ℕ) (widgets : ℕ → AzaliaWidget) :
    exchanges c group i (n + 1) widgets =
      exchange c group (widgets i) ++ exchanges c group (i + 1) n widgets := by
  rw [exchanges, List.range'_succ, List.flatMap_cons]
  rfl

theorem reading_widget : (s.reading i w log).widgets i = w := Function.update_self ..

theorem reading_setWidget (f : AzaliaWidget → AzaliaWidget) :
    (s.reading i w log).setWidget i f = s.reading i (f w) log := by
  rw [AzaliaState.setWidget, reading_widget]
  simp only [AzaliaState.reading, Function.update_idem]

theorem reading_sent (log' : AzaliaLog) :
    { s.reading i w log with sent := (s.reading i w log).sent ++ log' } =
      s.reading i w (log ++ log') := by
  simp only [AzaliaState.reading, List.append_assoc]

/-- A query whose answer goes into the widget. -/
theorem sendWidget_runs (q : AzaliaQuery) (f : ℕ → AzaliaWidget → AzaliaWidget) :
    Runs (sendInto send q fun v s => s.setWidget i (f v)) (s.reading i w log) fun r t =>
      (∃ v, r = true ∧ t = s.reading i (f v w) (log ++ [(q, .answer v)])) ∨
      ∃ stored w', r = false ∧ t = s.reading i w' (log ++ [(q, .failure stored)]) := by
  refine Runs.mono (sendInto_runs send q _ _) ?_
  rintro r t (⟨v, rfl, rfl⟩ | ⟨stored, rfl, rfl⟩)
  · rw [reading_sent, reading_setWidget]
    exact .inl ⟨v, rfl, rfl⟩
  · rw [reading_sent]
    cases stored with
    | none => exact .inr ⟨none, w, rfl, rfl⟩
    | some v =>
      rw [Option.elim, reading_setWidget]
      exact .inr ⟨some v, f v w, rfl, rfl⟩

theorem readPin_runs :
    Runs (readPin send i) (s.reading i w log) fun r t =>
      (∃ v, r = true ∧ (w.type ≠ 4 → v = w.pinDefault) ∧
        t = s.reading i { w with pinDefault := v }
          (log ++ pinExchange s.codecAddress { w with pinDefault := v })) ∨
      ∃ stored w', r = false ∧ w.type = 4 ∧
        t = s.reading i w' (log ++ [(⟨s.codecAddress, w.node, 0xF1C, 0⟩, .failure stored)]) := by
  rw [readPin]
  refine runs_get_bind ?_
  rw [reading_widget]
  refine runs_ite (fun htype => ?_) fun htype => ?_
  · refine Runs.mono (sendWidget_runs send s i w log _ fun v w => { w with pinDefault := v }) ?_
    rintro r t (⟨v, rfl, rfl⟩ | ⟨stored, w', rfl, rfl⟩)
    · refine .inl ⟨v, rfl, fun h => absurd htype h, ?_⟩
      rw [pinExchange_eq (by exact htype)]
      rfl
    · exact .inr ⟨stored, w', rfl, htype, rfl⟩
  · refine runs_pure (.inl ⟨w.pinDefault, rfl, fun _ => rfl, ?_⟩)
    rw [pinExchange, if_neg htype, List.append_nil]

/-- The formats are read both or not at all. -/
theorem readFormats_runs :
    Runs (readFormats send i) (s.reading i w log) fun r t =>
      (∃ w', r = true ∧ w' = { w with pcm := w'.pcm, formats := w'.formats } ∧
        (1 < w.type → w'.pcm = w.pcm ∧ w'.formats = w.formats) ∧
        t = s.reading i w' (log ++ formatExchange s.codecAddress s.audioGroup w')) ∨
      ∃ (w₁ w' : AzaliaWidget) (part' : AzaliaLog) (q : AzaliaQuery) (stored : Option ℕ) (v : ℕ),
        r = false ∧ w₁ = { w with pcm := w₁.pcm, formats := w₁.formats } ∧
        part' ++ [(q, .answer v)] <+: formatExchange s.codecAddress s.audioGroup w₁ ∧
        t = s.reading i w' (log ++ (part' ++ [(q, .failure stored)])) := by
  rw [readFormats]
  refine runs_get_bind ?_
  rw [reading_widget]
  refine runs_ite (fun htype => ?_) fun htype => ?_
  · refine runs_bind (sendWidget_runs send s i w log _ fun v w => { w with pcm := v }) ?_
    rintro r t (⟨v, rfl, rfl⟩ | ⟨stored, w', rfl, rfl⟩)
    · rw [if_neg Bool.noConfusion]
      refine Runs.mono (sendWidget_runs send s i _ _ _ fun v w => { w with formats := v }) ?_
      rintro r t (⟨v', rfl, rfl⟩ | ⟨stored, w', rfl, rfl⟩)
      · refine .inl ⟨{ w with pcm := v, formats := v' }, rfl, rfl, fun h => by omega, ?_⟩
        rw [formatExchange_eq (by exact htype), List.append_assoc]
        rfl
      · -- the second of the two exchanges fails
        refine .inr ⟨{ w with pcm := v, formats := 0 }, w',
          [(parameterOf s.codecAddress (w.formatNode s.audioGroup) 0xA, .answer v)],
          parameterOf s.codecAddress (w.formatNode s.audioGroup) 0xB, stored, 0, rfl, rfl, ?_, ?_⟩
        · rw [formatExchange_eq (by exact htype)]
          exact ⟨[], rfl⟩
        · rw [List.append_assoc]
          rfl
    · rw [if_pos rfl]
      refine runs_pure (.inr ⟨{ w with pcm := 0 }, w', [],
        parameterOf s.codecAddress (w.formatNode s.audioGroup) 0xA, stored, 0, rfl, rfl, ?_, rfl⟩)
      rw [formatExchange_eq (by exact htype)]
      exact ⟨[_], rfl⟩
  · refine runs_pure (.inl ⟨w, rfl, rfl, fun _ => ⟨rfl, rfl⟩, ?_⟩)
    rw [formatExchange, if_neg htype, List.append_nil]

/-- One turn of the widget loop: a widget is read with its whole exchange, or the exchange
is cut short. -/
theorem readWidget_runs (start : ℕ) :
    Runs (readWidget send start i) s fun r t =>
      (∃ w, r = true ∧ WidgetRead start i w ∧
        t = { s.reading i w (exchange s.codecAddress s.audioGroup w) with
          widgetCount := s.widgetCount + 1 }) ∨
      ∃ w log, r = false ∧ Cut s.codecAddress s.audioGroup (start + i) log ∧
        t = s.reading i w log := by
  have hfresh (f : AzaliaWidget → AzaliaWidget) :
      s.setWidget i f = s.reading i (f (s.widgets i)) [] := by
    simp only [AzaliaState.setWidget, AzaliaState.reading, List.append_nil]
  rw [readWidget]
  refine runs_modify_bind (runs_get_bind ?_)
  rw [hfresh]
  -- three readings, and the exchange may be cut short in each
  refine runs_bind (sendWidget_runs send s i _ [] _ fun v w => { w with capabilities := v }) ?_
  rintro r t (⟨v, rfl, rfl⟩ | ⟨stored, w', rfl, rfl⟩)
  · rw [if_neg Bool.noConfusion]
    refine runs_bind (readPin_runs send s i _ _) ?_
    rintro r t (⟨pin, rfl, hpin, rfl⟩ | ⟨stored, w', rfl, htype, rfl⟩)
    · rw [if_neg Bool.noConfusion]
      refine runs_bind (readFormats_runs send s i _ _) ?_
      rintro r t (⟨w, rfl, hw, hformats, rfl⟩ | ⟨w, w', part', q, stored, v', rfl, hw, hcut, rfl⟩)
      · rw [if_neg Bool.noConfusion]
        refine runs_modify_bind (runs_pure (.inl ⟨w, rfl, ⟨?_, ?_, ?_⟩, ?_⟩))
        · exact congrArg AzaliaWidget.node hw
        · intro h
          rw [hw] at h ⊢
          exact hpin h
        · intro h
          rw [hw] at h
          exact hformats h
        · rw [exchange, hw]
          rfl
      · -- the whole exchange is that of the widget the formats were read into
        rw [if_pos rfl]
        refine runs_pure (.inr ⟨w', _, rfl, ⟨w, (parameterOf s.codecAddress (start + i) 9, .answer v) ::
          (pinExchange s.codecAddress w ++ part'), q, stored, v', congrArg AzaliaWidget.node hw,
          ?_, ?_⟩, rfl⟩)
        · rw [hw]
          simp only [List.append_assoc, List.cons_append, List.nil_append]
          rfl
        · obtain ⟨rest, hrest⟩ := hcut
          refine ⟨rest, ?_⟩
          rw [exchange, ← hrest, hw]
          simp only [List.append_assoc, List.cons_append]
    · rw [if_pos rfl]
      refine runs_pure (.inr ⟨w', _, rfl, ⟨⟨start + i, v, 0, 0, 0⟩,
        [(parameterOf s.codecAddress (start + i) 9, .answer v)],
        ⟨s.codecAddress, start + i, 0xF1C, 0⟩, stored, 0, rfl, rfl, ?_⟩, rfl⟩)
      rw [exchange, pinExchange_eq (by exact htype)]
      exact ⟨formatExchange s.codecAddress s.audioGroup ⟨start + i, v, 0, 0, 0⟩, rfl⟩
  · rw [if_pos rfl]
    exact runs_pure (.inr ⟨w', _, rfl, ⟨⟨start + i, 0, 0, 0, 0⟩, [],
      parameterOf s.codecAddress (start + i) 9, stored, 0, rfl, rfl, ⟨_, rfl⟩⟩, rfl⟩)

/-- The widget loop reads the widgets one after the other, until an exchange is cut short. -/
theorem readWidgets_runs (start n : ℕ) (hi : s.widgetCount = i) :
    Runs (readWidgets send start n i) s fun r t =>
      (∃ widgets, r = true ∧ (∀ k, i ≤ k → k < i + n → WidgetRead start k (widgets k)) ∧
        (∀ k, k < i ∨ i + n ≤ k → widgets k = s.widgets k) ∧
        t = { s with
          widgetCount := i + n
          widgets
          sent := s.sent ++ exchanges s.codecAddress s.audioGroup i n widgets }) ∨
      ∃ m widgets log, r = false ∧ m < n ∧
        (∀ k, i ≤ k → k < i + m → WidgetRead start k (widgets k)) ∧
        (∀ k, k < i ∨ i + n ≤ k → widgets k = s.widgets k) ∧
        Cut s.codecAddress s.audioGroup (start + (i + m)) log ∧
        t = { s with
          widgetCount := i + m
          widgets
          sent := s.sent ++ (exchanges s.codecAddress s.audioGroup i m widgets ++ log) } := by
  induction n generalizing i s with
  | zero =>
    refine runs_pure (.inl ⟨s.widgets, rfl, fun k h h' => by omega, fun _ _ => rfl, ?_⟩)
    rw [exchanges_zero, List.append_nil, Nat.add_zero, ← hi]
  | succ n ih =>
    rw [readWidgets]
    refine runs_bind (readWidget_runs send s i start) ?_
    rintro r t (⟨w, rfl, hw, rfl⟩ | ⟨w, log, rfl, hcut, rfl⟩)
    · rw [if_neg Bool.noConfusion]
      -- the rest of the loop leaves the widget `i` alone
      refine Runs.mono (ih _ (i + 1) (by rw [hi])) ?_
      rintro r t (⟨widgets, rfl, hread, hrest, rfl⟩ | ⟨m, widgets, log, rfl, hm, hread, hrest, hcut, rfl⟩)
      · have hwi : widgets i = w := by
          rw [hrest i (by omega)]
          exact Function.update_self ..
        refine .inl ⟨widgets, rfl, ?_, ?_, ?_⟩
        · intro k hk hk'
          rcases Nat.eq_or_lt_of_le hk with rfl | hk
          · rw [hwi]
            exact hw
          · exact hread k hk (by omega)
        · intro k hk
          rw [hrest k (by omega)]
          exact Function.update_of_ne (by omega) ..
        · rw [exchanges_succ, hwi, ← List.append_assoc, Nat.add_right_comm i 1 n]
          rfl
      · have hwi : widgets i = w := by
          rw [hrest i (by omega)]
          exact Function.update_self ..
        refine .inr ⟨m + 1, widgets, log, rfl, by omega, ?_, ?_, ?_, ?_⟩
        · intro k hk hk'
          rcases Nat.eq_or_lt_of_le hk with rfl | hk
          · rw [hwi]
            exact hw
          · exact hread k hk (by omega)
        · intro k hk
          rw [hrest k (by omega)]
          exact Function.update_of_ne (by omega) ..
        · rw [Nat.add_right_comm i 1 m] at hcut
          exact hcut
        · rw [exchanges_succ, hwi, List.append_assoc, ← List.append_assoc s.sent,
            Nat.add_right_comm i 1 m]
          rfl
    · rw [if_pos rfl]
      refine runs_pure (.inr ⟨0, Function.update s.widgets i w, log, rfl, by omega, ?_, ?_, hcut, ?_⟩)
      · intro k hk hk'
        omega
      · intro k hk
        exact Function.update_of_ne (by omega) ..
      · rw [exchanges_zero, List.nil_append, Nat.add_zero, ← hi]
        rfl

end Reading

/-! ### The whole probe -/

theorem azaliaSetStatus_runs (status : ℕ) (s : AzaliaState) :
    Runs (azaliaSetStatus status) s fun r t => r = status ∧ t = { s with status } :=
  runs_modify_bind (runs_pure ⟨rfl, rfl⟩)

/-- What a part of the probe does from `s`: it sends a log, returns the status, and changes
no widget from `azaliaMaxWidgets` on. -/
structure ProbeStep (s : AzaliaState) (run : AzaliaLog → ℕ → ℕ → (ℕ → AzaliaWidget) → Prop)
    (r : ℕ) (t : AzaliaState) : Prop where
  log : ∃ log, t.sent = s.sent ++ log ∧ run log r t.widgetCount t.widgets
  status : r = t.status
  outside : ∀ i, azaliaMaxWidgets ≤ i → t.widgets i = s.widgets i

/-- The widgets of the group that was found. -/
theorem probeWidgets_runs (send : AzaliaSend) (s : AzaliaState) (hcount : s.widgetCount = 0) :
    Runs (probeWidgets send) s (ProbeStep s (WidgetsRun s.codecAddress s.audioGroup)) := by
  rw [probeWidgets]
  refine runs_get_bind (runs_bind (sendLocal_runs send _ _) ?_)
  rintro r t (⟨nodes, rfl, rfl⟩ | ⟨stored, rfl, rfl⟩)
  · refine runs_ite (fun hrange => ?_) fun hrange => ?_
    · refine Runs.mono (azaliaSetStatus_runs _ _) ?_
      rintro r t ⟨rfl, rfl⟩
      refine ⟨⟨_, rfl, ?_⟩, rfl, fun _ _ => rfl⟩
      rw [hcount]
      exact .badRange nodes _ fun ⟨⟨h₁, h₂, h₃⟩, h₄⟩ => by omega
    · have hvalid : WidgetRange nodes := ⟨⟨by omega, by omega, by omega⟩, by omega⟩
      have hsize := hvalid.2
      refine runs_bind (readWidgets_runs send _ 0 (nodesStart nodes) (nodesCount nodes) hcount) ?_
      rintro r t (⟨widgets, rfl, hread, hrest, rfl⟩ | ⟨m, widgets, log, rfl, hm, hread, hrest, hcut, rfl⟩)
      · -- all widgets have been read
        rw [if_neg Bool.noConfusion]
        refine Runs.mono (azaliaSetStatus_runs _ _) ?_
        rintro r t ⟨rfl, rfl⟩
        refine ⟨⟨_, List.append_assoc .., ?_⟩, rfl, fun i hi => hrest i (by omega)⟩
        rw [Nat.zero_add]
        exact .ready nodes widgets hvalid fun i hi => hread i (by omega) (by omega)
      · rw [if_pos rfl]
        refine Runs.mono (azaliaSetStatus_runs _ _) ?_
        rintro r t ⟨rfl, rfl⟩
        refine ⟨⟨_, List.append_assoc .., ?_⟩, rfl, fun i hi => hrest i (by omega)⟩
        rw [Nat.zero_add] at hcut ⊢
        exact .cut nodes m widgets log hvalid hm (fun i hi => hread i (by omega) (by omega)) hcut
  · refine Runs.mono (azaliaSetStatus_runs _ _) ?_
    rintro r t ⟨rfl, rfl⟩
    refine ⟨⟨_, rfl, ?_⟩, rfl, fun _ _ => rfl⟩
    rw [hcount]
    exact .timeout stored _

/-- The audio group of the codec that was found, and its widgets. -/
theorem probeGroup_runs (send : AzaliaSend) (s : AzaliaState) (hgroup : s.audioGroup = 0)
    (hcount : s.widgetCount = 0) :
    Runs (probeGroup send) s (ProbeStep s (GroupRun s.codecAddress)) := by
  rw [probeGroup]
  refine runs_get_bind (runs_bind (sendLocal_runs send _ _) ?_)
  rintro r t (⟨nodes, rfl, rfl⟩ | ⟨stored, rfl, rfl⟩)
  · refine runs_ite (fun hrange => ?_) fun hrange => ?_
    · refine Runs.mono (azaliaSetStatus_runs _ _) ?_
      rintro r t ⟨rfl, rfl⟩
      refine ⟨⟨_, rfl, ?_⟩, rfl, fun _ _ => rfl⟩
      rw [hcount]
      exact .badRange nodes _ fun ⟨h₁, h₂, h₃⟩ => by omega
    · have hvalid : NodeRange nodes := ⟨by omega, by omega, by omega⟩
      refine runs_bind (findGroup_runs send nodes _ _ _ (le_refl _) rfl) ?_
      rintro r t (⟨m, log, stored, rfl, hlog, hm, rfl⟩ | ⟨log, rfl, hlog, rfl⟩ |
        ⟨g, type, log, rfl, hlog, hg, htype, rfl⟩)
      · rw [if_pos rfl]
        refine Runs.mono (azaliaSetStatus_runs _ _) ?_
        rintro r t ⟨rfl, rfl⟩
        refine ⟨⟨_, List.append_assoc .., ?_⟩, rfl, fun _ _ => rfl⟩
        rw [hcount]
        exact .nodeTimeout nodes m log stored _ hvalid hlog hm
      · -- no group: `audioGroup` is still 0
        rw [if_neg Bool.noConfusion]
        refine runs_get_bind ?_
        rw [if_pos hgroup]
        refine Runs.mono (azaliaSetStatus_runs _ _) ?_
        rintro r t ⟨rfl, rfl⟩
        refine ⟨⟨_, List.append_assoc .., ?_⟩, rfl, fun _ _ => rfl⟩
        rw [hcount]
        exact .noGroup nodes log _ hvalid hlog
      · have hg0 : g ≠ 0 := by
          have := hg.1
          have := hvalid.1
          omega
        rw [if_neg Bool.noConfusion]
        refine runs_get_bind ?_
        rw [if_neg hg0]
        refine Runs.mono (probeWidgets_runs send _ hcount) ?_
        rintro r t ⟨⟨rest, hsent, hrest⟩, hstatus, houtside⟩
        -- root range, search and widgets, in this order
        refine ⟨⟨(parameterOf s.codecAddress 0 4, .answer nodes) ::
          (log ++ (parameterOf s.codecAddress g 5, .answer type) :: rest), ?_, ?_⟩, hstatus, houtside⟩
        · rw [hsent]
          simp only [List.append_assoc, List.cons_append, List.nil_append]
          rfl
        · exact .found nodes g type log rest r _ _ hvalid hlog hg htype hrest
  · refine Runs.mono (azaliaSetStatus_runs _ _) ?_
    rintro r t ⟨rfl, rfl⟩
    refine ⟨⟨_, rfl, ?_⟩, rfl, fun _ _ => rfl⟩
    rw [hcount]
    exact .timeout stored _

/-- **Every probe** is a run of `CodecRun`. -/
theorem azaliaProbeCodec_run (send : AzaliaSend) (s : AzaliaState) :
    Runs (azaliaProbeCodec send) s (ProbeStep s (CodecRun s.codecMask)) := by
  rw [azaliaProbeCodec]
  refine runs_modify_bind (runs_bind (findCodec_runs send 15 0 _ rfl) ?_)
  rintro r t (⟨c, log, stored, rfl, hlog, hc, hmask, rfl⟩ | ⟨c, log, rfl, hlog, rfl⟩ |
    ⟨c, log, rfl, hlog, hc, hmask, rfl⟩)
  · rw [if_pos rfl]
    refine Runs.mono (azaliaSetStatus_runs _ _) ?_
    rintro r t ⟨rfl, rfl⟩
    exact ⟨⟨_, rfl, .timeout c log stored _ hlog hc hmask⟩, rfl, fun _ _ => rfl⟩
  · rw [if_neg Bool.noConfusion]
    refine runs_get_bind ?_
    rw [if_pos rfl]
    refine Runs.mono (azaliaSetStatus_runs _ _) ?_
    rintro r t ⟨rfl, rfl⟩
    exact ⟨⟨_, rfl, .notFound log _ hlog⟩, rfl, fun _ _ => rfl⟩
  · rw [if_neg Bool.noConfusion]
    refine runs_get_bind ?_
    rw [if_neg (show ¬alc269CodecId = 0 by decide)]
    refine runs_get_bind (runs_bind (sendInto_runs send _ _ _) ?_)
    rintro r t (⟨revision, rfl, rfl⟩ | ⟨stored, rfl, rfl⟩)
    · rw [if_neg Bool.noConfusion]
      refine Runs.mono (probeGroup_runs send _ rfl rfl) ?_
      rintro r t ⟨⟨rest, hsent, hrest⟩, hstatus, houtside⟩
      refine ⟨⟨log ++ (parameterOf c 0 0, .answer alc269CodecId) ::
        (parameterOf c 0 2, .answer revision) :: rest, ?_, ?_⟩, hstatus, houtside⟩
      · rw [hsent]
        simp only [List.append_assoc, List.cons_append, List.nil_append]
        rfl
      · exact .found c revision log rest r _ _ hlog hc hmask hrest
    · -- the answer that failed may have been stored
      rw [if_pos rfl]
      refine Runs.mono (azaliaSetStatus_runs _ _) ?_
      rintro r t ⟨rfl, rfl⟩
      cases stored with
      | none =>
        refine ⟨⟨_, ?_, .revisionTimeout c log none _ hlog hc hmask⟩, rfl, fun _ _ => rfl⟩
        simp only [Option.elim, List.append_assoc, List.cons_append, List.nil_append]
        rfl
      | some v =>
        refine ⟨⟨_, ?_, .revisionTimeout c log (some v) _ hlog hc hmask⟩, rfl, fun _ _ => rfl⟩
        simp only [Option.elim, List.append_assoc, List.cons_append, List.nil_append]
        rfl

end VirtualKernel
